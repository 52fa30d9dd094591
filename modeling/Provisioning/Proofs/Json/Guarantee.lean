import Provisioning.Json.Reader
import Provisioning.Outcome
import Provisioning.Proofs.Source.Guarantee
import Provisioning.Proofs.Value.Parts

/-!
# What is read from a JSON text

A JSON text can only be read as plain values, and no deeper than the depth that the reader
carries: every array and every object takes one off it before anything inside is read.
-/

namespace Provisioning.Json.Reader

variable {α σ : Type}

/-- Whatever a reader gives satisfies `holds`. -/
def Yields (depth : Nat) (read : Reader α) (holds : α → Prop) : Prop :=
  ∀ cursor a cursor', read depth cursor = .ok (a, cursor') → holds a

/-! ## Faults give nothing -/

theorem settle_eq_ok {goOn : Cursor → Cursor} {outcome : Except ReadFault (α × Cursor)}
    {result : α × Cursor} : settle goOn outcome = .ok result ↔ outcome = .ok result := by
  cases outcome <;> simp [settle]

theorem clash_ne_ok (expected : Expected) (cursor : Cursor) (result : α × Cursor) :
    clash expected cursor ≠ .ok result := by
  have hscalar : ∀ read : Except ReadFault (Found × Cursor),
      (read >>= fun found => (refuse (.invalidType found.1 expected) found.2 :
        Except ReadFault (α × Cursor))) ≠ .ok result := by
    intro read h
    obtain ⟨found, -, h⟩ := Outcome.bind_eq_ok.mp h
    exact absurd h (by simp [refuse])
  intro h
  unfold clash at h
  rw [settle_eq_ok] at h
  split at h
  · exact absurd h (by simp [faultNext])
  · dsimp only at h
    repeat' split at h
    all_goals first
      | exact hscalar _ h
      | exact absurd h (by simp [refuse, faultNext])

/-! ## Arrays -/

theorem inArray_eq_ok {depth : Nat} {cursor cursor' : Cursor} {rest : List Char} {a : α}
    {read : Nat → Cursor → Except ReadFault (α × Cursor)}
    (h : inArray depth cursor rest read = .ok (a, cursor')) :
    2 ≤ depth ∧ ∃ inner inner', read (depth - 1) inner = .ok (a, inner') := by
  unfold inArray at h
  rw [settle_eq_ok] at h
  obtain ⟨depth', henter, h⟩ := Outcome.bind_eq_ok.mp h
  obtain ⟨⟨a', inner'⟩, hread, h⟩ := Outcome.bind_eq_ok.mp h
  obtain ⟨cursor'', -, h⟩ := Outcome.bind_eq_ok.mp h
  cases h
  unfold enter at henter
  split at henter
  · cases henter
    exact ⟨‹_›, _, inner', hread⟩
  · exact absurd henter (by simp [faultNext])

theorem readItems_yields {read : Reader α} {depth : Nat} {holds : α → Prop}
    (h : Yields depth read holds) : ∀ (fuel : Nat) (first : Bool) (cursor cursor' : Cursor)
      (items : List α), readItems read depth fuel first cursor = .ok (items, cursor') →
      ∀ item ∈ items, holds item := by
  intro fuel
  induction fuel with
  | zero => intro first cursor cursor' items hread; exact absurd hread (by simp [readItems, fault])
  | succ fuel ih =>
    intro first cursor cursor' items hread
    rw [readItems] at hread
    obtain ⟨⟨more, cursor₁⟩, -, hread⟩ := Outcome.bind_eq_ok.mp hread
    cases more with
    | false => cases hread; simp
    | true =>
      obtain ⟨⟨item, cursor₂⟩, hitem, hread⟩ := Outcome.bind_eq_ok.mp hread
      obtain ⟨⟨items', cursor₃⟩, hitems, hread⟩ := Outcome.bind_eq_ok.mp hread
      cases hread
      rw [List.forall_mem_cons]
      exact ⟨h _ _ _ hitem, ih _ _ _ _ hitems⟩

theorem list_yields {read : Reader α} {depth : Nat} {holds : α → Prop}
    (h : Yields (depth - 1) read holds) :
    Yields depth (list read) fun as => ∀ a ∈ as, holds a := by
  intro cursor as cursor' hread
  unfold list at hread
  dsimp only at hread
  split at hread
  · obtain ⟨-, inner, inner', hitems⟩ := inArray_eq_ok hread
    exact readItems_yields h _ _ _ _ _ hitems
  · exact absurd hread (clash_ne_ok _ _ _)

/-! ## Objects -/

theorem inObject_eq_ok {depth : Nat} {cursor cursor' : Cursor} {rest : List Char} {a : α}
    {read : Nat → Cursor → Except ReadFault (α × Cursor)}
    (h : inObject depth cursor rest read = .ok (a, cursor')) :
    2 ≤ depth ∧ ∃ inner inner', read (depth - 1) inner = .ok (a, inner') := by
  unfold inObject at h
  rw [settle_eq_ok] at h
  obtain ⟨depth', henter, h⟩ := Outcome.bind_eq_ok.mp h
  obtain ⟨⟨a', inner'⟩, hread, h⟩ := Outcome.bind_eq_ok.mp h
  obtain ⟨cursor'', -, h⟩ := Outcome.bind_eq_ok.mp h
  cases h
  unfold enter at henter
  split at henter
  · cases henter
    exact ⟨‹_›, _, inner', hread⟩
  · exact absurd henter (by simp [faultNext])

/-- What every member keeps up holds of all that was collected. -/
theorem readMembers_yields {check : σ → String → Option Mismatch} {value : σ → String → Reader σ}
    {depth : Nat} (holds : σ → Prop) (h : ∀ s name, holds s → Yields depth (value s name) holds) :
    ∀ (fuel : Nat) (first : Bool) (s t : σ) (cursor cursor' : Cursor), holds s →
      readMembers check value depth fuel first s cursor = .ok (t, cursor') → holds t := by
  intro fuel
  induction fuel with
  | zero =>
    intro first s t cursor cursor' _ hread
    exact absurd hread (by simp [readMembers, fault])
  | succ fuel ih =>
    intro first s t cursor cursor' hs hread
    rw [readMembers] at hread
    obtain ⟨⟨name?, cursor₁⟩, -, hread⟩ := Outcome.bind_eq_ok.mp hread
    cases name? with
    | none => cases hread; exact hs
    | some name =>
      dsimp only at hread
      split at hread
      · exact absurd hread (by simp [refuse])
      · obtain ⟨cursor₂, -, hread⟩ := Outcome.bind_eq_ok.mp hread
        obtain ⟨⟨s', cursor₃⟩, hvalue, hread⟩ := Outcome.bind_eq_ok.mp hread
        exact ih _ _ _ _ _ (h s name hs _ _ _ hvalue) hread

theorem map_yields {β : Type} {read : Reader α} {depth : Nat} {holds : β → Prop} (f : α → β)
    (h : Yields depth read fun a => holds (f a)) : Yields depth (f <$> read) holds := by
  intro cursor b cursor' hread
  obtain ⟨⟨a, cursor''⟩, ha, hread⟩ := Outcome.bind_eq_ok.mp hread
  cases hread
  exact h _ _ _ ha

theorem bindings_yields {read : Reader α} {depth : Nat} {holds : α → Prop}
    (h : Yields (depth - 1) read holds) :
    Yields depth (bindings read) fun as => ∀ a ∈ as, holds a.2 := by
  intro cursor as cursor' hread
  unfold bindings at hread
  dsimp only at hread
  split at hread
  · obtain ⟨-, inner, inner', hread⟩ := inObject_eq_ok hread
    obtain ⟨⟨collected, cursor₁⟩, hmembers, hread⟩ := Outcome.bind_eq_ok.mp hread
    cases hread
    -- Of the collected bindings, each has a value that was read as one.
    refine fun a ha => readMembers_yields (fun collected => ∀ a ∈ collected, holds a.2)
      (fun s name hs => ?_) _ _ _ _ _ _ (by simp) hmembers a (List.mem_reverse.mp ha)
    refine map_yields (fun a => (name, a) :: s) fun inner a inner' ha => ?_
    exact List.forall_mem_cons.mpr ⟨h _ _ _ ha, hs⟩
  · exact absurd hread (clash_ne_ok _ _ _)

/-! ## Records -/

theorem readFields_yields {name : String} {size depth : Nat} {holds : α → Prop} :
    ∀ (fields : List (Field Reader α)) (count : Nat) (a b : α) (cursor cursor' : Cursor),
    (∀ field ∈ fields, Yields depth field.read fun store => ∀ a, holds a → holds (store a)) →
    holds a → readFields name size depth fields count a cursor = .ok (b, cursor') → holds b := by
  intro fields
  induction fields with
  | nil => intro count a b cursor cursor' _ ha hread; cases hread; exact ha
  | cons field fields ih =>
    intro count a b cursor cursor' h ha hread
    obtain ⟨hfield, hfields⟩ := List.forall_mem_cons.mp h
    rw [readFields] at hread
    obtain ⟨⟨more, cursor₁⟩, -, hread⟩ := Outcome.bind_eq_ok.mp hread
    cases more with
    | false =>
      dsimp only at hread
      split at hread
      · exact absurd hread (by simp [refuse])
      · exact ih _ _ _ _ _ hfields ha hread
    | true =>
      obtain ⟨⟨store, cursor₂⟩, hstore, hread⟩ := Outcome.bind_eq_ok.mp hread
      exact ih _ _ _ _ _ hfields (hfield _ _ _ hstore a ha) hread

theorem readField_yields {record : Record Reader α} {depth : Nat} {holds : α → Prop}
    (h : ∀ field ∈ record.fields,
      Yields depth field.read fun store => ∀ a, holds a → holds (store a))
    (collected : α × List String) (name : String) (hcollected : holds collected.1) :
    Yields depth (readField record collected name) fun collected => holds collected.1 := by
  intro cursor result cursor' hread
  unfold readField at hread
  split at hread
  · rename_i field hfield
    obtain ⟨⟨store, cursor₁⟩, hstore, hread⟩ := Outcome.bind_eq_ok.mp hread
    cases hread
    exact h field (List.mem_of_find?_eq_some hfield) _ _ _ hstore _ hcollected
  · obtain ⟨cursor₁, -, hread⟩ := Outcome.bind_eq_ok.mp hread
    cases hread
    exact hcollected

theorem record_yields {record : Record Reader α} {depth : Nat} {holds : α → Prop}
    (hblank : holds record.blank)
    (h : ∀ field ∈ record.fields,
      Yields (depth - 1) field.read fun store => ∀ a, holds a → holds (store a)) :
    Yields depth (Reader.record record) holds := by
  intro cursor a cursor' hread
  unfold Reader.record at hread
  dsimp only at hread
  split at hread
  -- A record may also be given as the array of its fields in order.
  · obtain ⟨-, inner, inner', hfields⟩ := inArray_eq_ok hread
    exact readFields_yields _ _ _ _ _ _ h hblank hfields
  · obtain ⟨-, inner, inner', hread⟩ := inObject_eq_ok hread
    obtain ⟨⟨collected, cursor₁⟩, hmembers, hread⟩ := Outcome.bind_eq_ok.mp hread
    have hcollected := readMembers_yields (fun collected => holds collected.1)
      (readField_yields h) _ _ _ _ _ _ hblank hmembers
    -- Whether a field is missing is only asked at the end, and then nothing changes any more.
    dsimp only at hread
    split at hread
    · exact absurd hread (by simp [refuse])
    · cases hread
      exact hcollected
  · exact absurd hread (clash_ne_ok _ _ _)

/-! ## Untyped values -/

/-- Of any kind. -/
def AnyFloat (_ : Number.Binary64) : Prop := True

theorem plain_ofFound (levels : Nat) (found : Found) :
    (ofFound found).Plain AnyFloat levels := by
  cases found with
  | int value => exact .int value
  | float value => exact .float trivial
  | _ => exact .null

theorem contents_yields {nested : Reader Value} {depth levels : Nat} (hdepth : depth ≤ levels + 1)
    (h : ∀ inner, levels = inner + 1 → Yields (depth - 1) nested (Value.Plain AnyFloat inner)) :
    Yields depth (contents nested) (Value.Plain AnyFloat levels) := by
  intro cursor value cursor' hread
  unfold contents at hread
  dsimp only at hread
  split at hread
  · exact absurd hread (by simp [faultNext])
  -- In the order of the reader: null, true, false, a number, a text, an array, an
  -- object, or a fault.
  repeat' split at hread
  · obtain ⟨_, -, hread⟩ := Outcome.bind_eq_ok.mp hread
    cases hread
    exact .null
  · obtain ⟨_, -, hread⟩ := Outcome.bind_eq_ok.mp hread
    cases hread
    exact .bool true
  · obtain ⟨_, -, hread⟩ := Outcome.bind_eq_ok.mp hread
    cases hread
    exact .bool false
  · obtain ⟨⟨found, _⟩, -, hread⟩ := Outcome.bind_eq_ok.mp hread
    cases hread
    exact plain_ofFound levels found
  · obtain ⟨⟨text, _⟩, -, hread⟩ := Outcome.bind_eq_ok.mp hread
    cases hread
    exact .text text
  · obtain ⟨htwo, inner, inner', hread⟩ := inArray_eq_ok hread
    obtain ⟨⟨items, _⟩, hitems, hread⟩ := Outcome.bind_eq_ok.mp hread
    cases hread
    obtain ⟨levels, rfl⟩ : ∃ n, levels = n + 1 := ⟨levels - 1, by omega⟩
    exact .sequence (readItems_yields (h levels rfl) _ _ _ _ _ hitems)
  · obtain ⟨htwo, inner, inner', hread⟩ := inObject_eq_ok hread
    obtain ⟨⟨entries, _⟩, hmembers, hread⟩ := Outcome.bind_eq_ok.mp hread
    cases hread
    obtain ⟨levels, rfl⟩ : ∃ n, levels = n + 1 := ⟨levels - 1, by omega⟩
    have hentries := readMembers_yields (fun entries : List (Value × Value) => ∀ entry ∈ entries,
        (∃ name, entry.1 = .text name) ∧ entry.2.Plain AnyFloat levels) (by
      intro s name hs
      refine map_yields (fun value => (.text name, value) :: s) fun inner value inner' hvalue => ?_
      exact List.forall_mem_cons.mpr ⟨⟨⟨name, rfl⟩, h levels rfl _ _ _ hvalue⟩, hs⟩)
      _ _ _ _ _ _ (by simp) hmembers
    exact .mapping (fun entry hentry => (hentries entry (List.mem_reverse.mp hentry)).1)
      (fun entry hentry => (hentries entry (List.mem_reverse.mp hentry)).2)
  · exact absurd hread (by simp [faultNext])

/-- **Whatever is read without a type in mind is plain**, and its depth is below the one that
the reader carries. -/
theorem valueWithin_yields : ∀ (within depth levels : Nat), depth ≤ levels + 1 →
    Yields depth (valueWithin within) (Value.Plain AnyFloat levels) := by
  intro within
  induction within with
  | zero =>
    intro depth levels hdepth
    refine contents_yields hdepth fun inner _ cursor value cursor' hread => ?_
    exact absurd hread (by simp [faultNext])
  | succ within ih =>
    intro depth levels hdepth
    exact contents_yields hdepth fun inner hinner => ih (depth - 1) inner (by omega)

/-! ## The format -/

/-- **What JSON guarantees of values.** -/
def jsonGuarantee : Guarantee Reader (Value.Plain AnyFloat) where
  Yields levels read holds := ∀ depth, depth ≤ levels + 1 → Yields depth read holds
  anything h depth _ := fun _ a _ _ => h a
  map f h depth hdepth := map_yields f (h depth hdepth)
  imp himp h depth hdepth := fun cursor a cursor' hread =>
    himp a (h depth hdepth cursor a cursor' hread)
  list h depth hdepth := list_yields (h (depth - 1) (by omega))
  record hblank h depth hdepth :=
    record_yields hblank fun field hfield => h field hfield (depth - 1) (by omega)
  bindings h depth hdepth := bindings_yields (h (depth - 1) (by omega))
  untyped depth hdepth := fun cursor value cursor' hread =>
    valueWithin_yields depth depth _ hdepth cursor value cursor' hread

/-- What is read from a whole text. -/
theorem holds_of_read {read : Reader α} {text : String} {a : α} {holds : α → Prop}
    (h : Yields depthLimit read holds) (hread : Json.read read text = .ok a) : holds a := by
  unfold Json.read at hread
  obtain ⟨⟨a', cursor⟩, ha, hread⟩ := Outcome.bind_eq_ok.mp hread
  dsimp only at hread
  split at hread
  · cases hread
    exact h _ _ _ ha
  · exact absurd hread (by simp [faultNext])

end Provisioning.Json.Reader
