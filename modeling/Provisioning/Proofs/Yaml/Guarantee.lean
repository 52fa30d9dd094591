import Provisioning.Proofs.Partners
import Provisioning.Proofs.Source.Guarantee
import Provisioning.Proofs.Value.Parts
import Provisioning.Proofs.Yaml.Fields
import Provisioning.Proofs.Yaml.Reading

/-!
# What is read from a YAML text

A YAML text can hold far more than it spells out, because an alias stands for a whole node. Yet no
value that is read from one is deeper than the budget of the reader: a node is read with the budget
of the place where it is used, so behind an alias there is no more left than in front of it, and
every collection takes one off before anything inside is read.
-/

namespace Provisioning.Yaml.Reader

open Provisioning.Outcome (bind_eq_ok)
open Partners

variable {α β σ κ : Type} {levels : Nat} {scope : Scope} {followed followed' : Nat} {closed : Bool}

/-- Whatever a reader gives where at most so many levels are left satisfies `holds`. -/
def Yields (levels : Nat) (read : Reader α) (holds : α → Prop) : Prop :=
  ∀ scope node followed a followed', scope.depth ≤ levels →
    read scope node followed = .ok (a, followed') → holds a

/-! ## Lists -/

theorem readItems_yields {read : Reader α} {holds : α → Prop} (h : Yields levels read holds)
    (hlevels : scope.depth ≤ levels) {items : List Node} {index : Nat} {as : List α}
    (hread : readItems scope closed read index items followed = .ok (as, followed')) :
      ∀ a ∈ as, holds a := by
  intro a ha
  obtain ⟨item, -, index, m, n, hitem⟩ := exists_partner (readItems_ok hread).flip a ha
  exact h (scope.item index) item m a n hlevels hitem

theorem list_yields {read : Reader α} {holds : α → Prop} (h : Yields levels read holds) :
    Yields (levels + 1) (list read) fun as => ∀ a ∈ as, holds a := by
  intro scope node followed as followed' hlevels hread a ha
  obtain ⟨item, -, inner, m, n, hdepth, -, hitem⟩ := exists_partner (list_items hread).flip a ha
  exact h inner item m a n (by omega) hitem

/-! ## Mappings and records -/

/-- What every key with its value keeps up holds of all that was collected. -/
theorem readParts_yields (holds : σ → Prop) {key : σ → Node → Following κ}
    {value : σ → κ → Reader σ}
    (h : ∀ s t first second name m n k, holds s → key s first m = .ok (name, n) →
      value s name (scope.entry first) second n = .ok (t, k) → holds t) :
    ∀ (parts : List Node) (s t : σ) (followed : Nat), holds s →
      readParts scope closed key value s parts followed = .ok (t, followed') → holds t
  | [], s, t, followed, hs, hread => by
    cases closed with
    | true => cases hread; exact hs
    | false => cases hread
  | [_], _, _, _, _, hread => absurd hread readParts_single
  | first :: second :: parts, s, t, followed, hs, hread => by
    obtain ⟨name, next, m, n, hkey, hvalue, hparts⟩ := readParts_pair hread
    exact readParts_yields holds h parts next t n (h s next first second name _ m n hs hkey hvalue)
      hparts

theorem map_yields {read : Reader α} {holds : β → Prop} (f : α → β)
    (h : Yields levels read fun a => holds (f a)) :
    Yields levels (f <$> read) holds := by
  intro scope node followed b followed' hlevels hread
  obtain ⟨a, ha, rfl⟩ := map_ok hread
  exact h _ _ _ _ _ hlevels ha

theorem bindings_yields {read : Reader α} {holds : α → Prop} (h : Yields levels read holds) :
    Yields (levels + 1) (bindings read) fun as => ∀ a ∈ as, holds a.2 := by
  intro scope node followed as followed' hlevels hread
  obtain ⟨target, count, -, hread⟩ := follow_ok hread
  have hread := settle_eq_ok hread
  split at hread
  · obtain ⟨inner, hdepth, -, hparts⟩ := enter_ok hread
    obtain ⟨collected, _, hcollected, hlast⟩ := bind_ok hparts
    cases hlast
    have hall : ∀ a ∈ collected, holds a.2 := by
      refine readParts_yields (fun collected => ∀ a ∈ collected, holds a.2) ?_ _ _ _ _
        (by simp) hcollected
      intro s t first second name m n k hs _ hvalue
      obtain ⟨a, _, ha, hstored⟩ := bind_ok hvalue
      cases hstored
      have hentry : (inner.entry first).depth ≤ levels := by
        rw [entry_depth]
        omega
      exact List.forall_mem_cons.mpr ⟨h _ _ _ _ _ hentry ha, hs⟩
    exact fun a ha => hall a (List.mem_reverse.mp ha)
  · split at hread
    · cases hread
      simp
    · exact absurd hread (clash_ne_ok _ _ _)

theorem record_yields {record : Record Reader α} {holds : α → Prop} (hblank : holds record.blank)
    (h : ∀ field ∈ record.fields, Yields levels field.read fun store => ∀ a, holds a →
      holds (store a)) :
    Yields (levels + 1) (Reader.record record) holds := by
  intro scope node followed a followed' hlevels hread
  obtain ⟨target, count, -, hread⟩ := follow_ok hread
  have hread := settle_eq_ok hread
  split at hread
  · obtain ⟨inner, hdepth, -, hparts⟩ := enter_ok hread
    obtain ⟨collected, _, hcollected, hlast⟩ := bind_ok hparts
    rw [finishRecord_ok hlast]
    refine readParts_yields (fun collected => holds collected.1) ?_ _ _ _ _ hblank hcollected
    intro s t first second name m n k hs _ hvalue
    have hentry : (inner.entry first).depth ≤ levels := by
      rw [entry_depth]
      omega
    cases hfield : record.field? name with
    | none =>
      obtain ⟨hsame, -⟩ := readField_unknown hfield hvalue
      rw [hsame]
      exact hs
    | some field =>
      obtain ⟨change, hchange, hstored, -⟩ := readField_ok hfield hvalue
      rw [hstored]
      exact h field (field?_eq_some hfield).1 _ _ _ _ _ hentry hchange _ hs
  · split at hread
    · rw [finishRecord_ok hread]
      exact hblank
    · exact absurd hread (clash_ne_ok _ _ _)

/-! ## Untyped values -/

/-- A scalar has no depth. -/
theorem depth_of_toValue {text : List Char} {meaning : Meaning} {value : Value}
    (h : meaning.toValue text = .ok value) : value.depth = 0 := by
  cases meaning <;> cases h <;> rfl

/-- **One step into a value**: what lies in a collection has one level less. -/
theorem contents_yields {nested : Reader Value}
    (h : ∀ inner, levels = inner + 1 → Yields inner nested fun value => value.depth ≤ inner) :
    Yields levels (contents nested) fun value => value.depth ≤ levels := by
  intro scope node followed value followed' hlevels hread
  have hread := settle_eq_ok hread
  split at hread
  case h_1 =>
    cases hread
    exact Nat.zero_le _
  case h_2 => cases hread
  case h_3 head text style =>
    generalize hmeaning : Except.bind _ _ = meaning at hread
    cases meaning with
    | error mismatch => cases hread
    | ok found =>
      cases hread
      obtain ⟨meaning, -, hvalue⟩ := bind_eq_ok.mp hmeaning
      rw [depth_of_toValue hvalue]
      exact Nat.zero_le _
  case h_4 head items closed =>
    obtain ⟨inner, hdepth, -, hitems⟩ := enter_ok hread
    obtain ⟨values, _, hvalues, hlast⟩ := bind_ok hitems
    cases hlast
    obtain ⟨levels, rfl⟩ : ∃ n, levels = n + 1 := ⟨levels - 1, by omega⟩
    have hall := readItems_yields (h levels rfl) (by omega) hvalues
    exact Nat.succ_le_succ (Value.itemsDepth_le_iff.mpr hall)
  case h_5 head parts closed =>
    obtain ⟨inner, hdepth, -, hparts⟩ := enter_ok hread
    obtain ⟨entries, _, hentries, hlast⟩ := bind_ok hparts
    cases hlast
    obtain ⟨levels, rfl⟩ : ∃ n, levels = n + 1 := ⟨levels - 1, by omega⟩
    have hall : ∀ entry ∈ entries, entry.1.depth ≤ levels ∧ entry.2.depth ≤ levels := by
      refine readParts_yields (fun entries : List (Value × Value) => ∀ entry ∈ entries,
        entry.1.depth ≤ levels ∧ entry.2.depth ≤ levels) ?_ _ _ _ _ (by simp) hentries
      intro s t first second key m n k hs hkey hvalue
      obtain ⟨found, _, hfound, hnew⟩ := bind_ok hkey
      obtain ⟨value, _, hread, hstored⟩ := bind_ok hvalue
      cases hstored
      have hentry : (inner.entry first).depth ≤ levels := by
        rw [entry_depth]
        omega
      have hfoundDepth := h levels rfl _ _ _ _ _ (by omega) hfound
      have hvalueDepth := h levels rfl _ _ _ _ _ hentry hread
      cases hearlier : s.find? (fun entry => entry.1.same found) with
      | some earlier => rw [hearlier] at hnew; cases hnew
      | none =>
        rw [hearlier] at hnew
        cases hnew
        exact List.forall_mem_cons.mpr ⟨⟨hfoundDepth, hvalueDepth⟩, hs⟩
    refine Nat.succ_le_succ (Value.entriesDepth_le_iff.mpr fun entry hentry => ?_)
    exact hall entry (List.mem_reverse.mp hentry)

theorem tagged_yields {nested : Reader Value}
    (h : ∀ inner, levels = inner + 1 → Yields inner nested fun value => value.depth ≤ inner) :
    Yields levels (tagged nested) fun value => value.depth ≤ levels := by
  intro scope node followed value followed' hlevels hread
  obtain ⟨target, count, -, hread⟩ := follow_ok hread
  have hread := settle_eq_ok hread
  cases hname : localName? target.tag? with
  | some name =>
    rw [hname] at hread
    obtain ⟨inner, _, hinner, hlast⟩ := bind_ok hread
    cases hlast
    have hdepth := contents_yields h scope _ _ _ _ hlevels hinner
    exact hdepth
  | none =>
    rw [hname] at hread
    exact contents_yields h _ _ _ _ _ hlevels hread

/-- **No value is deeper than the budget**, however many steps the reader was prepared for. -/
theorem valueWithin_yields : ∀ within levels : Nat,
    Yields levels (valueWithin within) fun value => value.depth ≤ levels := by
  intro within
  induction within with
  | zero =>
    exact fun levels => tagged_yields fun inner _ scope node followed value followed' _ hread =>
      nomatch hread
  | succ within ih => exact fun levels => tagged_yields fun inner _ => ih inner

/-! ## The format -/

/-- **What YAML guarantees of values.** -/
def yamlGuarantee : Guarantee Reader fun levels value => value.depth ≤ levels where
  Yields levels read holds := Yields levels read holds
  anything h := fun _ _ _ a _ _ _ => h a
  map f h := map_yields f h
  imp himp h := fun scope node followed a followed' hlevels hread =>
    himp a (h scope node followed a followed' hlevels hread)
  list h := list_yields h
  record hblank h := record_yields hblank h
  bindings h := bindings_yields h
  untyped := fun scope node followed value followed' hlevels hread =>
    valueWithin_yields scope.depth _ scope node followed value followed' hlevels hread

/-- What is read from a whole text. -/
theorem holds_of_read {read : Reader α} {text : String} {a : α} {holds : α → Prop}
    (h : Yields depthLimit read holds) (hread : Yaml.read read text = .ok a) : holds a := by
  obtain ⟨root, followed, -, hroot⟩ := read_ok hread
  exact h _ _ _ _ _ (Nat.le_refl _) hroot

end Provisioning.Yaml.Reader
