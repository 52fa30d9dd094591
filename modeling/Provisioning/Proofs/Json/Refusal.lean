import Provisioning.Proofs.Json.Format
import Provisioning.Proofs.Json.Guarantee
import Provisioning.Proofs.Json.Skipping

/-!
# What the JSON reader refuses

A reader refuses a document if it fails on the text, whatever comes behind it. Objects are read
member by member, so it is enough to find the member that stops the reader and to follow it up to
there: this is `Stops`. A record stops at a field that is there for the second time, and at a
member whose value the reader of its field refuses. A mapping stops at a key that is there for the
second time, but bindings only at a value that is refused.

The members that are none of the fields of a record neither stop it nor change it.
-/

namespace Provisioning.Json.Reader

open Number
open Outcome (Fails)

variable {α σ : Type} {depth : Nat}

/-- **A reader refuses the text of a document.** -/
def Refuses (read : Reader α) (depth : Nat) (json : Json) : Prop :=
  ∀ (rest : List Char) (place : Place), EndsValue rest →
    Fails (read depth ⟨json.write ++ rest, place⟩)

/-! ## Ways of failing -/

theorem fails_settle {outcome : Except ReadFault (α × Cursor)} (h : Fails outcome)
    (goOn : Cursor → Cursor) : Fails (settle goOn outcome) := by
  obtain ⟨fault, rfl⟩ := h
  exact ⟨_, rfl⟩

theorem fails_clash (expected : Expected) (cursor : Cursor) :
    Fails (clash expected cursor : Except ReadFault (α × Cursor)) :=
  Outcome.fails_of_ne_ok (clash_ne_ok expected cursor)

theorem refuses_map {β : Type} {read : Reader α} {json : Json} (f : α → β)
    (h : Refuses read depth json) : Refuses (f <$> read) depth json :=
  fun rest place hrest => (h rest place hrest).bind _

theorem refuses_optional {read : Reader α} {json : Json} (hnull : json.mayBeNull = false)
    (h : Refuses read depth json) : Refuses (optional read) depth json := by
  intro rest place hrest
  obtain ⟨c, text, htext, hn, hspace, -⟩ := write_begins hnull
  have hread := h rest place hrest
  rw [htext, List.cons_append] at hread ⊢
  unfold optional
  rw [Cursor.skipSpace_cons hspace]
  dsimp only
  split
  · rename_i heq
    exact absurd (List.cons.inj heq).1 hn
  · exact hread.bind _

/-- Only strings begin with a quote. -/
theorem begins_without_quote {json : Json} (h : json.Integral)
    (hne : ∀ value, json ≠ .string value) :
    ∃ c text, json.write = c :: text ∧ c ≠ '"' ∧ Cursor.isSpace c = false := by
  cases h with
  | null => exact ⟨'n', _, by rw [write], by decide⟩
  | @bool value =>
    cases value with
    | false => exact ⟨'f', _, by rw [write], by decide⟩
    | true => exact ⟨'t', _, by rw [write], by decide⟩
  | @int value =>
    obtain ⟨c, text, htext, hstart, hspace, -⟩ := Cursor.signedDecimal_starts value
    refine ⟨c, text, by rw [write, htext], ?_, hspace⟩
    rintro rfl
    exact absurd hstart (by decide)
  | string => exact absurd rfl (hne _)
  | @array items _ =>
    cases items with
    | nil => exact ⟨'[', _, by rw [write], by decide⟩
    | cons item items => exact ⟨'[', _, by rw [write], by decide⟩
  | @object members _ =>
    cases members with
    | nil => exact ⟨'\x7b', _, by rw [write], by decide⟩
    | cons member members => exact ⟨'\x7b', _, by rw [write], by decide⟩

/-- A text is asked for, and something else is there. -/
theorem refuses_text (expected : Expected) {json : Json} (h : json.Integral)
    (hne : ∀ value, json ≠ .string value) : Refuses (textAs expected) depth json := by
  intro rest place _
  obtain ⟨c, text, htext, hc, hspace⟩ := begins_without_quote h hne
  rw [htext, List.cons_append]
  unfold textAs
  rw [Cursor.skipSpace_cons hspace]
  dsimp only
  split
  · rename_i heq
    exact absurd (List.cons.inj heq).1 hc
  · exact fails_clash expected _

/-! ## Integers beyond 64 bits -/

/-- Digits that spell more than 64 bits do not all fit. -/
theorem extendSignificand_unread : ∀ (digits : List Char) (above : Nat),
    above ≤ greatestSignificand → greatestSignificand < Nat.ofDigitChars 10 digits above →
    (extendSignificand above digits).2 ≠ [] := by
  intro digits
  induction digits with
  | nil =>
    intro above hle hlt
    rw [Nat.ofDigitChars_nil] at hlt
    omega
  | cons c digits ih =>
    intro above _ hlt
    rw [extendSignificand]
    by_cases hfits : greatestSignificand < above * 10 + (c.toNat - 48)
    · rw [if_pos hfits]
      exact List.cons_ne_nil c digits
    · rw [if_neg hfits]
      refine ih _ (Nat.not_lt.mp hfits) ?_
      rwa [Nat.ofDigitChars_cons, Nat.mul_comm] at hlt

/-- What is found where digits stand is an integer only if they fit. -/
theorem readMagnitude_found {n : Nat} {rest : List Char} (h : EndsValue rest) {negative : Bool}
    {place : Place} {found : Found} {cursor : Cursor}
    (hread : readMagnitude negative ⟨decimal n ++ rest, place⟩ = .ok (found, cursor)) :
    n < UInt64.size ∧ found = integer negative n ∨ ∃ value, found = .float value := by
  by_cases hn : n < UInt64.size
  · obtain ⟨place', hdecimal⟩ := readMagnitude_decimal hn h negative place
    rw [hdecimal] at hread
    cases hread
    exact .inl ⟨hn, rfl⟩
  · have hunread : (extendSignificand 0 (decimal n)).2 ≠ [] := by
      refine extendSignificand_unread _ _ (Nat.zero_le _) ?_
      have hsize : greatestSignificand + 1 = UInt64.size := rfl
      rw [decimal, Nat.ofDigitChars_ten_toDigits]
      omega
    obtain ⟨place', hdigits⟩ := readMagnitude_digits n h negative place
    rw [hdigits, if_neg (by simpa using hunread)] at hread
    unfold assemble at hread
    split at hread
    · cases hread
    · cases hread
      exact .inr ⟨_, rfl⟩

theorem readNumber_outside {i : Int} (hi : i < 0 ∨ 2 ^ 64 ≤ i) {rest : List Char}
    (h : EndsValue rest) {place : Place} {found : Found} {cursor : Cursor}
    (hread : readNumber ⟨signedDecimal i ++ rest, place⟩ = .ok (found, cursor)) (n : Nat) :
    found ≠ .int n := by
  have hsize : UInt64.size = 2 ^ 64 := rfl
  unfold signedDecimal at hread
  by_cases hneg : i < 0
  · rw [if_pos hneg] at hread
    rcases readMagnitude_found h hread with ⟨-, rfl⟩ | ⟨value, rfl⟩
    · unfold integer
      rw [if_neg (by simp)]
      split
      · exact nofun
      · intro heq
        have hint := Found.int.inj heq
        omega
    · exact nofun
  · rw [if_neg hneg, readNumber_decimal] at hread
    rcases readMagnitude_found h hread with ⟨hlt, -⟩ | ⟨value, rfl⟩
    · omega
    · exact nofun

/-- **A natural number of 64 bits is asked for, and the integer is none.** -/
theorem refuses_natural {i : Int} (hi : i < 0 ∨ 2 ^ 64 ≤ i) : Refuses natural depth (.int i) := by
  intro rest place hrest
  refine Outcome.fails_of_ne_ok fun result => ?_
  obtain ⟨c, text, htext, hstart, hspace, -⟩ := Cursor.signedDecimal_starts i
  have houtside := @readNumber_outside i hi rest hrest place
  rw [write]
  rw [htext, List.cons_append] at houtside ⊢
  unfold natural
  rw [Cursor.skipSpace_cons hspace]
  dsimp only
  rw [if_pos hstart]
  intro h
  rw [settle_eq_ok] at h
  obtain ⟨⟨found, cursor⟩, hread, h⟩ := Outcome.bind_eq_ok.mp h
  split at h
  · rename_i heq
    cases heq
    exact houtside hread _ rfl
  · cases h
  · cases h

/-! ## Objects -/

/-- Members at one of which the reader fails: at its name, at its value, or at a later one. -/
inductive Stops (check : σ → String → Option Mismatch) (value : σ → String → Reader σ)
    (depth : Nat) : σ → List (String × Json) → Prop where
  | name {s : σ} {name : String} {json : Json} {members : List (String × Json)}
      {mismatch : Mismatch} :
      check s name = some mismatch → Stops check value depth s ((name, json) :: members)
  | value {s : σ} {name : String} {json : Json} {members : List (String × Json)} :
      Refuses (value s name) depth json → Stops check value depth s ((name, json) :: members)
  | later {s t : σ} {name : String} {json : Json} {members : List (String × Json)} :
      Takes (value s name) depth json t → Stops check value depth t members →
      Stops check value depth s ((name, json) :: members)

variable {check : σ → String → Option Mismatch} {value : σ → String → Reader σ}

/-- What is read behind the name of a member. -/
theorem fails_behind_name {s : σ} {name : String} {json : Json} {members : List (String × Json)}
    (h : Stops check value depth s ((name, json) :: members))
    (ih : ∀ t, Stops check value depth t members →
      ∀ (fuel : Nat) (rest : List Char) (place : Place),
        Fails (readMembers check value depth fuel false t ⟨writeMembers members ++ rest, place⟩))
    (fuel : Nat) (first : Bool) (cursor : Cursor) (rest : List Char) (place : Place)
    (hname : nextName first cursor
      = .ok (some name, ⟨':' :: (json.write ++ (writeMembers members ++ rest)), place⟩)) :
    Fails (readMembers check value depth (fuel + 1) first s cursor) := by
  rw [readMembers, hname, Outcome.ok_bind]
  dsimp only
  cases hcheck : check s name with
  | some mismatch => exact ⟨_, rfl⟩
  | none =>
    dsimp only
    rw [readColon_cons, Outcome.ok_bind]
    cases h with
    | name hsome =>
      rw [hcheck] at hsome
      cases hsome
    | value hvalue => exact (hvalue _ _ (endsValue_writeMembers members rest)).bind _
    | later htakes hlater =>
      obtain ⟨place', hread⟩ := htakes.reads (writeMembers members ++ rest) (place.after ':')
        (endsValue_writeMembers members rest)
      rw [hread, Outcome.ok_bind]
      exact ih _ hlater fuel rest place'

/-- **Members that stop the reader make it fail.** -/
theorem readMembers_fails : ∀ (members : List (String × Json)) (s : σ),
    Stops check value depth s members → ∀ (fuel : Nat) (rest : List Char) (place : Place),
      Fails (readMembers check value depth fuel false s ⟨writeMembers members ++ rest, place⟩) := by
  intro members
  induction members with
  | nil => intro s h; cases h
  | cons member members ih =>
    intro s h fuel rest place
    obtain ⟨name, json⟩ := member
    cases fuel with
    | zero => exact ⟨_, rfl⟩
    | succ fuel =>
      obtain ⟨place', hname⟩ :=
        nextName_comma name (':' :: (json.write ++ (writeMembers members ++ rest))) place
      rw [writeMembers, List.cons_append, List.append_assoc, List.cons_append, List.append_assoc]
      exact fails_behind_name h ih fuel false _ rest place' hname

/-- What stops the reader behind members that it takes stops it. -/
theorem stops_behind {s t : σ} {front back : List (String × Json)}
    (h : Collects check value depth s front t) (hback : Stops check value depth t back) :
    Stops check value depth s (front ++ back) := by
  induction h with
  | nil => exact hback
  | cons _ htakes _ ih => exact .later htakes (ih hback)

theorem write_object (members : List (String × Json)) :
    ∃ inner, write (.object members) = '\x7b' :: inner := by
  cases members with
  | nil => exact ⟨_, by rw [write]⟩
  | cons member members => exact ⟨_, by rw [write]⟩

/-- **An object is not read if its members stop the reader**, whatever was to be made of them. -/
theorem inObject_fails {s : σ} {members : List (String × Json)}
    (h : Stops check value (depth - 1) s members) {inner : List Char}
    (hwrite : write (.object members) = '\x7b' :: inner) (rest : List Char) (place : Place)
    (finish : σ × Cursor → Except ReadFault (α × Cursor)) :
    Fails (inObject depth ⟨'\x7b' :: (inner ++ rest), place⟩ (inner ++ rest) fun depth cursor =>
      readMembers check value depth (cursor.rest.length + 1) true s cursor >>= finish) := by
  refine fails_settle ?_ leaveObject
  unfold enter
  by_cases hdepth : 2 ≤ depth
  · rw [if_pos hdepth]
    cases members with
    | nil => cases h
    | cons member members =>
      obtain ⟨name, json⟩ := member
      rw [write, List.cons.injEq] at hwrite
      obtain ⟨-, rfl⟩ := hwrite
      obtain ⟨place', hname⟩ := nextName_first name
        (':' :: (json.write ++ (writeMembers members ++ rest))) (place.after '\x7b')
      rw [List.append_assoc, List.cons_append, List.append_assoc]
      refine Fails.bind (Fails.bind ?_ _) _
      exact fails_behind_name h (readMembers_fails members) _ true _ rest place' hname
  · rw [if_neg hdepth]
    exact ⟨_, rfl⟩

/-- **A record refuses an object whose members stop it.** -/
theorem refuses_record {record : Record Reader α} {members : List (String × Json)}
    (h : Stops (repeats? record) (readField record) (depth - 1) (record.blank, []) members) :
    Refuses (Reader.record record) depth (.object members) := by
  intro rest place _
  obtain ⟨inner, hwrite⟩ := write_object members
  rw [hwrite, List.cons_append]
  unfold Reader.record
  rw [Cursor.skipSpace_cons (by decide)]
  exact inObject_fails h hwrite rest place _

/-- Bindings are refused if one of their values is. -/
theorem refuses_bindings {read : Reader α} {front back : List (String × Json)} {name : String}
    {json : Json} {as : List (String × α)}
    (hfront : List.Forall₂ (fun member a => member.1 = a.1 ∧ Takes read (depth - 1) member.2 a.2)
      front as)
    (h : Refuses read (depth - 1) json) :
    Refuses (bindings read) depth (.object (front ++ (name, json) :: back)) := by
  intro rest place _
  obtain ⟨inner, hwrite⟩ := write_object (front ++ (name, json) :: back)
  rw [hwrite, List.cons_append]
  unfold bindings
  rw [Cursor.skipSpace_cons (by decide)]
  refine inObject_fails (stops_behind (collects_bindings hfront []) (.value ?_)) hwrite rest place _
  exact refuses_map (fun a => (name, a) :: (as.reverse ++ [])) h

/-! ## Mappings -/

/-- **A key that is there twice stops the reader of a mapping**, if the values are taken. -/
theorem stops_of_repeatedKey {nested : Reader Value} :
    ∀ (members : List (String × Json)) (entries : List (Value × Value)),
    (∀ member ∈ members, Takes nested depth member.2 member.2.toValue) →
    (¬ (members.map Prod.fst).Nodup ∨
      ∃ member ∈ members, ∃ entry ∈ entries, entry.1 = .text member.1) →
    Stops repeatsKey?
      (fun entries name depth cursor => do
        let (value, cursor) ← nested depth cursor
        return ((.text name, value) :: entries, cursor))
      depth entries members := by
  intro members
  induction members with
  | nil =>
    intro entries _ h
    rcases h with h | ⟨member, hmember, -⟩
    · exact absurd List.nodup_nil h
    · exact absurd hmember (by simp)
  | cons member members ih =>
    intro entries htakes h
    obtain ⟨name, json⟩ := member
    obtain ⟨hmember, hmembers⟩ := List.forall_mem_cons.mp htakes
    by_cases hseen : ∃ entry ∈ entries, entry.1 = .text name
    · obtain ⟨entry, hentry, hkey⟩ := hseen
      have hany : (entries.any fun entry => entry.1.same (.text name)) = true :=
        List.any_eq_true.mpr ⟨entry, hentry, by rw [hkey, Value.same, beq_self_eq_true]⟩
      exact .name (by unfold repeatsKey?; rw [if_pos hany])
    · -- The name is new, so the one that comes again is behind it.
      refine .later (takes_map (fun value => (Value.text name, value) :: entries) hmember)
        (ih _ hmembers ?_)
      rcases h with h | ⟨member, hmem, entry, hentry, hkey⟩
      · rw [List.map_cons, List.nodup_cons, not_and_or, not_not] at h
        rcases h with hname | h
        · obtain ⟨member, hmem, heq⟩ := List.mem_map.mp hname
          exact .inr ⟨member, hmem, _, List.mem_cons_self, by rw [heq]⟩
        · exact .inl h
      · rcases List.mem_cons.mp hmem with rfl | hmem
        · exact absurd ⟨entry, hentry, hkey⟩ hseen
        · exact .inr ⟨member, hmem, entry, List.mem_cons_of_mem _ hentry, hkey⟩

theorem refuses_mapping {nested : Reader Value} {members : List (String × Json)}
    (h : ∀ member ∈ members, Takes nested (depth - 1) member.2 member.2.toValue)
    (hrepeated : ¬ (members.map Prod.fst).Nodup) :
    Refuses (contents nested) depth (.object members) := by
  intro rest place _
  obtain ⟨inner, hwrite⟩ := write_object members
  rw [hwrite, List.cons_append]
  unfold contents
  rw [Cursor.skipSpace_cons (by decide)]
  dsimp only
  rw [if_neg (by decide), if_neg (by decide), if_neg (by decide), if_neg (by decide),
    if_neg (by decide), if_neg (by decide), if_pos (by decide)]
  exact inObject_fails (stops_of_repeatedKey members [] h (.inl hrepeated)) hwrite rest place _

/-- **An object with a key that is there twice is no value.** -/
theorem refuses_value {levels : Nat} {members : List (String × Json)} (hdepth : levels + 1 < depth)
    (h : ∀ member ∈ members, member.2.Fits levels) (hrepeated : ¬ (members.map Prod.fst).Nodup) :
    Refuses Reader.value depth (.object members) := by
  obtain ⟨within, rfl⟩ : ∃ n, depth = n + 1 := ⟨depth - 1, by omega⟩
  have htakes : ∀ member ∈ members,
      Takes (valueWithin within) within member.2 member.2.toValue := fun member hmember =>
    takes_valueWithin (h member hmember) within within (by omega) (by omega)
  exact refuses_mapping htakes hrepeated

/-! ## Members that are no fields -/

section Record

variable {record : Record Reader α}

theorem takes_unknown {name : String} {json : Json} (hunknown : record.field? name = none)
    (h : json.Integral) (collected : α × List String) :
    Takes (readField record collected name) depth json collected := by
  refine ⟨(passedOver_of_integral h).begins, ?_⟩
  intro rest place hrest
  obtain ⟨place', hskip⟩ := skipValue_write h hrest place
  refine ⟨place', ?_⟩
  unfold readField
  rw [hunknown]
  dsimp only
  rw [hskip]
  rfl

theorem repeats?_unknown {name : String} (hunknown : record.field? name = none)
    (collected : α × List String) : repeats? record collected name = none := by
  unfold repeats?
  rw [hunknown]
  rfl

theorem not_mem_of_repeats? {name : String} {field : Field Reader α} {a : α} {names : List String}
    (hfield : record.field? name = some field) (h : repeats? record (a, names) name = none) :
    name ∉ names := by
  intro hmem
  unfold repeats? at h
  rw [hfield, if_pos (by simpa using hmem)] at h
  cases h

/-- Between the fields of a record there may be other members, which change nothing. -/
theorem collects_beside : ∀ (members : List (String × Json)) (s t : α × List String),
    (∀ member ∈ members, record.field? member.1 = none → member.2.Integral) →
    Collects (repeats? record) (readField record) depth s
      (members.filter fun member => (record.field? member.1).isSome) t →
    Collects (repeats? record) (readField record) depth s members t := by
  intro members
  induction members with
  | nil => intro s t _ h; exact h
  | cons member members ih =>
    intro s t hmembers h
    obtain ⟨name, json⟩ := member
    obtain ⟨hmember, hmembers⟩ := List.forall_mem_cons.mp hmembers
    cases hfield : record.field? name with
    | none =>
      rw [List.filter_cons_of_neg (by rw [hfield]; exact Bool.false_ne_true)] at h
      exact .cons (repeats?_unknown hfield s) (takes_unknown hfield (hmember hfield) s)
        (ih s t hmembers h)
    | some field =>
      rw [List.filter_cons_of_pos (by rw [hfield]; rfl)] at h
      cases h with
      | cons hcheck htakes h => exact .cons hcheck htakes (ih _ t hmembers h)

/-! ## Fields that are there twice -/

/-- **A field that is there twice stops the reader of a record**, or something before it does,
if the value of every member is either taken or refused. -/
theorem stops_of_repeated {label : String} (hlabel : (record.field? label).isSome) :
    ∀ (members : List (String × Json)) (a : α) (names : List String),
    (∀ member ∈ members, ∀ field, record.field? member.1 = some field →
      (∃ store, Takes field.read depth member.2 store) ∨ Refuses field.read depth member.2) →
    (∀ member ∈ members, record.field? member.1 = none → member.2.Integral) →
    (2 ≤ (members.map Prod.fst).count label ∨
      label ∈ names ∧ label ∈ members.map Prod.fst) →
    Stops (repeats? record) (readField record) depth (a, names) members := by
  intro members
  induction members with
  | nil =>
    intro a names _ _ h
    rcases h with h | ⟨-, h⟩
    · exact absurd h (by simp)
    · exact absurd h (by simp)
  | cons member members ih =>
    intro a names hfields hothers h
    obtain ⟨name, json⟩ := member
    obtain ⟨hmember, hfields⟩ := List.forall_mem_cons.mp hfields
    obtain ⟨hother, hothers⟩ := List.forall_mem_cons.mp hothers
    rw [List.map_cons] at h
    cases hfield : record.field? name with
    | none =>
      have hne : name ≠ label := by
        rintro rfl
        rw [hfield] at hlabel
        exact absurd hlabel Bool.false_ne_true
      refine .later (takes_unknown hfield (hother hfield) _) (ih a names hfields hothers ?_)
      rw [List.count_cons_of_ne hne, List.mem_cons, or_iff_right (Ne.symm hne)] at h
      exact h
    | some field =>
      cases hcheck : repeats? record (a, names) name with
      | some mismatch => exact .name hcheck
      | none =>
        have hnew : name ∉ names := not_mem_of_repeats? hfield hcheck
        rcases hmember field hfield with ⟨store, htakes⟩ | hrefuses
        · refine .later (takes_readField hfield htakes a names)
            (ih (store a) (name :: names) hfields hothers ?_)
          -- The first of the two is now among the names, and the second is still to come.
          by_cases hname : name = label
          · subst hname
            rw [List.count_cons_self] at h
            rcases h with hcount | ⟨hmem, -⟩
            · exact .inr ⟨List.mem_cons_self, List.count_pos_iff.mp (by omega)⟩
            · exact absurd hmem hnew
          · rw [List.count_cons_of_ne hname, List.mem_cons, or_iff_right (Ne.symm hname)] at h
            exact h.imp_right fun h => ⟨List.mem_cons_of_mem _ h.1, h.2⟩
        · refine .value ?_
          rw [readField_of_field hfield]
          exact refuses_map _ hrefuses

end Record

/-! ## Whole texts -/

theorem read_fails {read : Reader α} {json : Json} (h : Refuses read depthLimit json) :
    Fails (Json.read read json.text) := by
  have hread := h [] ⟨1, 0⟩ trivial
  unfold Json.read Cursor.ofText Json.text
  rw [String.toList_ofList]
  rw [List.append_nil] at hread
  exact hread.bind _

end Provisioning.Json.Reader
