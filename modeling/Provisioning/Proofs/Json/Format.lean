import Provisioning.Proofs.Json.Members

/-!
# JSON as a format

The untyped reader follows the structure of a document that fits, and with it all ways of
reading are covered: JSON is a format in the sense of `JsonReading`, where the levels that are
left are one less than the depth that the reader carries.
-/

namespace Provisioning.Json.Reader

/-! ## Untyped values -/

theorem write_of_not_finite {value : Number.Binary64} (h : value.isFinite = false) :
    (Json.float value).write = Json.null.write := by
  rw [write, write, writeFloat, h]
  rfl

theorem contents_null (nested : Reader Value) (depth : Nat) :
    Takes (contents nested) depth .null .null := by
  refine ⟨by rw [write]; exact ⟨rfl, by decide, by decide⟩, ?_⟩
  intro rest place _
  obtain ⟨place', h⟩ := readWord_append ['u', 'l', 'l'] rest (place.after 'n')
  refine ⟨place', ?_⟩
  rw [write, List.cons_append]
  unfold contents
  rw [Cursor.skipSpace_cons (by decide)]
  show (readWord _ ⟨_, place.after 'n'⟩ >>= _) = _
  rw [h]
  rfl

theorem contents_bool (nested : Reader Value) (depth : Nat) (value : Bool) :
    Takes (contents nested) depth (.bool value) (.bool value) := by
  refine ⟨beginsValue_write rfl, ?_⟩
  intro rest place hrest
  obtain ⟨place', h⟩ := (takes_flag depth value).reads rest place hrest
  refine ⟨place', ?_⟩
  cases value with
  | true =>
    rw [write, List.cons_append] at h ⊢
    unfold flag at h
    unfold contents
    rw [Cursor.skipSpace_cons (by decide)] at h ⊢
    obtain ⟨cursor, hword, heq⟩ := Outcome.bind_eq_ok.mp h
    show (readWord _ ⟨_, place.after 't'⟩ >>= _) = _
    rw [show readWord _ ⟨_, place.after 't'⟩ = _ from hword]
    cases heq
    rfl
  | false =>
    rw [write, List.cons_append] at h ⊢
    unfold flag at h
    unfold contents
    rw [Cursor.skipSpace_cons (by decide)] at h ⊢
    obtain ⟨cursor, hword, heq⟩ := Outcome.bind_eq_ok.mp h
    show (readWord _ ⟨_, place.after 'f'⟩ >>= _) = _
    rw [show readWord _ ⟨_, place.after 'f'⟩ = _ from hword]
    cases heq
    rfl

theorem contents_int (nested : Reader Value) (depth : Nat) {value : Int} (hlow : -2 ^ 63 ≤ value)
    (hhigh : value < 2 ^ 64) : Takes (contents nested) depth (.int value) (.int value) := by
  refine ⟨beginsValue_write rfl, ?_⟩
  intro rest place hrest
  obtain ⟨place', h⟩ := readNumber_signedDecimal hlow hhigh hrest place
  refine ⟨place', ?_⟩
  obtain ⟨c, text, htext, hstart, hspace, hn, ht, hf⟩ := Cursor.signedDecimal_starts value
  rw [write]
  rw [htext, List.cons_append] at h ⊢
  unfold contents
  rw [Cursor.skipSpace_cons hspace]
  dsimp only
  rw [if_neg (by simpa using hn), if_neg (by simpa using ht), if_neg (by simpa using hf),
    if_pos hstart, h]
  rfl

theorem contents_string (nested : Reader Value) (depth : Nat) (value : String) :
    Takes (contents nested) depth (.string value) (.text value) := by
  refine ⟨beginsValue_write rfl, ?_⟩
  intro rest place _
  obtain ⟨place', h⟩ := readString_written value rest (place.after '"')
  refine ⟨place', ?_⟩
  rw [write, writeString_append]
  unfold contents
  rw [Cursor.skipSpace_cons (by decide)]
  show (readString ⟨_, place.after '"'⟩ >>= _) = _
  rw [h]
  rfl

theorem contents_array {nested : Reader Value} {depth : Nat} {items : List Json}
    (hdepth : 2 ≤ depth) (h : ∀ item ∈ items, Takes nested (depth - 1) item item.toValue) :
    Takes (contents nested) depth (.array items) (.sequence (items.map toValue)) := by
  have hforall : List.Forall₂ (Takes nested (depth - 1)) items (items.map toValue) := by
    rw [List.forall₂_map_right_iff, List.forall₂_same]
    exact h
  refine ⟨beginsValue_write rfl, ?_⟩
  intro rest place _
  obtain ⟨inner, place', hwrite, hread⟩ := readItems_array hforall rest (place.after '[')
  rw [hwrite, List.cons_append]
  unfold contents
  rw [Cursor.skipSpace_cons (by decide)]
  dsimp only
  -- The bracket is none of the characters that the other kinds of values begin with.
  rw [if_neg (by decide), if_neg (by decide), if_neg (by decide), if_neg (by decide),
    if_neg (by decide), if_pos (by decide)]
  refine inArray_of_read hdepth ⟨place', ?_⟩
  dsimp only
  rw [hread]
  rfl

/-- No key that was collected so far is the text of this name. -/
theorem repeatsKey?_eq_none {entries : List (Value × Value)} {name : String}
    (h : ∀ entry ∈ entries, entry.1.same (.text name) = false) :
    repeatsKey? entries name = none := by
  unfold repeatsKey?
  rw [if_neg]
  intro hany
  obtain ⟨entry, hentry, hsame⟩ := List.any_eq_true.mp hany
  rw [h entry hentry] at hsame
  exact absurd hsame (by decide)

theorem collects_entries {nested : Reader Value} {depth : Nat} :
    ∀ (members : List (String × Json)) (entries : List (Value × Value)),
    (∀ member ∈ members, Takes nested depth member.2 member.2.toValue) →
    (members.map Prod.fst).Nodup →
    (∀ member ∈ members, ∀ entry ∈ entries, entry.1.same (.text member.1) = false) →
    Collects repeatsKey?
      (fun entries name depth cursor => do
        let (value, cursor) ← nested depth cursor
        return ((.text name, value) :: entries, cursor))
      depth entries members
      ((members.map fun member => (Value.text member.1, member.2.toValue)).reverse ++ entries) := by
  intro members
  induction members with
  | nil => intro entries _ _ _; exact .nil
  | cons member members ih =>
    intro entries htakes hnodup hnew
    obtain ⟨name, json⟩ := member
    obtain ⟨hname, hnodup⟩ := List.nodup_cons.mp hnodup
    rw [List.map_cons, List.reverse_cons, List.append_assoc]
    -- The entries so far are in reverse, and the keys of what follows are new to them.
    refine .cons (repeatsKey?_eq_none (hnew (name, json) List.mem_cons_self))
      (takes_map (fun value => (Value.text name, value) :: entries)
        (htakes (name, json) List.mem_cons_self)) (ih _ ?_ hnodup ?_)
    · exact fun member hmember => htakes member (List.mem_cons_of_mem _ hmember)
    · intro member hmember entry hentry
      rcases List.mem_cons.mp hentry with rfl | hentry
      · have hmem : member.1 ∈ members.map Prod.fst := List.mem_map_of_mem hmember
        rw [Value.same, beq_eq_false_iff_ne]
        rintro rfl
        exact hname hmem
      · exact hnew member (List.mem_cons_of_mem _ hmember) entry hentry

theorem contents_object {nested : Reader Value} {depth : Nat} {members : List (String × Json)}
    (hdepth : 2 ≤ depth) (hnodup : (members.map Prod.fst).Nodup)
    (h : ∀ member ∈ members, Takes nested (depth - 1) member.2 member.2.toValue) :
    Takes (contents nested) depth (.object members)
      (.mapping (members.map fun member => (.text member.1, member.2.toValue))) := by
  refine ⟨beginsValue_write rfl, ?_⟩
  intro rest place _
  obtain ⟨inner, place', hwrite, hread⟩ := readMembers_object
    (collects_entries members [] h hnodup (by simp)) rest (place.after '\x7b')
  rw [hwrite, List.cons_append]
  unfold contents
  rw [Cursor.skipSpace_cons (by decide)]
  dsimp only
  rw [if_neg (by decide), if_neg (by decide), if_neg (by decide), if_neg (by decide),
    if_neg (by decide), if_neg (by decide), if_pos (by decide)]
  refine inObject_of_read hdepth ⟨place', ?_⟩
  dsimp only
  rw [hread, Outcome.ok_bind]
  dsimp only
  rw [List.append_nil, List.reverse_reverse]
  rfl

/-- **Any document that fits is read as its value.** The reader is taken apart level by level,
and its depth, one more than the levels, shrinks with them. -/
theorem takes_valueWithin {levels : Nat} {json : Json} (h : json.Fits levels) :
    ∀ (within depth : Nat), levels ≤ within → levels < depth →
      Takes (valueWithin within) depth json json.toValue := by
  have hscalar : ∀ {json : Json} {a : Value},
      (∀ nested depth, Takes (contents nested) depth json a) →
        ∀ within depth, Takes (valueWithin within) depth json a := by
    intro json a htakes within depth
    cases within with
    | zero => exact htakes _ _
    | succ within => exact htakes _ _
  induction h with
  | null => exact fun within depth _ _ => hscalar contents_null within depth
  | bool => exact fun within depth _ _ => hscalar (fun _ _ => contents_bool _ _ _) within depth
  | string => exact fun within depth _ _ => hscalar (fun _ _ => contents_string _ _ _) within depth
  | int hlow hhigh =>
    exact fun within depth _ _ => hscalar (fun _ _ => contents_int _ _ hlow hhigh) within depth
  | float hfinite =>
    intro within depth _ _
    -- It is written as null, so it is read as null.
    have hnull := hscalar contents_null within depth
    have hwrite := write_of_not_finite hfinite
    exact ⟨by rw [hwrite]; exact hnull.begins, by rw [hwrite]; exact hnull.reads⟩
  | @array levels items _ ih =>
    intro within depth hwithin hdepth
    cases within with
    | zero => exact absurd hwithin (by simp)
    | succ within =>
      rw [toValue, itemsToValues_eq_map]
      exact contents_array (by omega) fun item hitem =>
        ih item hitem within (depth - 1) (by omega) (by omega)
  | @object levels members hnodup _ ih =>
    intro within depth hwithin hdepth
    cases within with
    | zero => exact absurd hwithin (by simp)
    | succ within =>
      rw [toValue, membersToEntries_eq_map]
      exact contents_object (by omega) hnodup fun member hmember =>
        ih member hmember within (depth - 1) (by omega) (by omega)

theorem takes_value {levels depth : Nat} {json : Json} (h : json.Fits levels)
    (hdepth : levels < depth) : Takes value depth json json.toValue := by
  have htakes := takes_valueWithin h depth depth (by omega) hdepth
  exact ⟨htakes.begins, htakes.reads⟩

/-! ## The format -/

/-- **JSON is a format that reads JSON documents.** -/
def jsonReading : JsonReading Reader where
  Reads levels read json a := ∀ depth, levels < depth → Takes read depth json a
  map f h depth hdepth := takes_map f (h depth hdepth)
  text value depth _ := takes_text _ depth value
  flag value depth _ := takes_flag depth value
  natural value depth _ := takes_natural depth value
  optional hnull h depth hdepth := takes_optional hnull (h depth hdepth)
  list h depth hdepth :=
    takes_list (by omega) (h.imp fun _ _ hitem => hitem (depth - 1) (by omega))
  choice h depth _ := takes_choice depth h
  record h hnodup hneeded depth hdepth := takes_record (by omega)
    (h.imp (fun _ _ _ hfield => hfield (depth - 1) (by omega))) hnodup hneeded
  bindings h depth hdepth := takes_bindings (by omega)
    (h.imp fun _ _ hmember => ⟨hmember.1, hmember.2 (depth - 1) (by omega)⟩)
  untyped h depth hdepth := takes_value h hdepth

/-- A whole text is read. -/
theorem read_text {α : Type} {read : Reader α} {json : Json} {a : α}
    (h : Takes read depthLimit json a) : Json.read read json.text = .ok a := by
  obtain ⟨place', hread⟩ := h.reads [] ⟨1, 0⟩ trivial
  unfold Json.read Cursor.ofText Json.text
  rw [String.toList_ofList]
  rw [List.append_nil] at hread
  rw [hread]
  rfl

end Provisioning.Json.Reader
