import Mathlib.Algebra.Group.Int.Defs
import Provisioning.Proofs.Partners
import Provisioning.Value

/-!
# What values are made of

Values lie within values, as items, keys and values of entries, and under tags. Three things
are said here about all that lies within a value: what holds of it wherever a value comes from
(`Lawful`), what makes a value one that JSON texts can hold (`Plain`), and how both fare under
`same`, which compares mappings without regard to their order.
-/

namespace Provisioning.Value

open Number Partners

/-! ## Induction over values -/

/-- To show something of all values, show it of what is made of values of which it holds. -/
@[elab_as_elim]
theorem induct {motive : Value → Prop} (null : motive .null) (bool : ∀ value, motive (.bool value))
    (int : ∀ value, motive (.int value)) (float : ∀ value, motive (.float value))
    (text : ∀ value, motive (.text value))
    (sequence : ∀ items, (∀ item ∈ items, motive item) → motive (.sequence items))
    (mapping : ∀ entries, (∀ entry ∈ entries, motive entry.1 ∧ motive entry.2) →
      motive (.mapping entries))
    (tagged : ∀ tag value, motive value → motive (.tagged tag value)) :
    ∀ value, motive value := by
  intro value
  -- The recursor of the nested type has a motive for lists of values, of entries and for
  -- entries too.
  refine @Value.rec motive (fun items => ∀ item ∈ items, motive item)
    (fun entries => ∀ entry ∈ entries, motive entry.1 ∧ motive entry.2)
    (fun entry => motive entry.1 ∧ motive entry.2)
    null bool int float text sequence mapping tagged ?_ ?_ ?_ ?_ ?_ value
  · intro item h; exact absurd h (by simp)
  · intro first items hfirst hitems item h
    rcases List.mem_cons.mp h with rfl | h
    · exact hfirst
    · exact hitems item h
  · intro entry h; exact absurd h (by simp)
  · intro first entries hfirst hentries entry h
    rcases List.mem_cons.mp h with rfl | h
    · exact hfirst
    · exact hentries entry h
  · intro key value hkey hvalue; exact ⟨hkey, hvalue⟩

/-! ## Parts -/

/-- `Part part value`: `part` is `value` or lies within it, at any depth. -/
inductive Part : Value → Value → Prop where
  | self (value : Value) : Part value value
  | item {part item : Value} {items : List Value} :
      item ∈ items → Part part item → Part part (.sequence items)
  | key {part : Value} {entry : Value × Value} {entries : List (Value × Value)} :
      entry ∈ entries → Part part entry.1 → Part part (.mapping entries)
  | value {part : Value} {entry : Value × Value} {entries : List (Value × Value)} :
      entry ∈ entries → Part part entry.2 → Part part (.mapping entries)
  | tagged {part value : Value} {tag : String} : Part part value → Part part (.tagged tag value)

/-- What holds of every value there is: its integers have 64 bits, and no mapping in it has two
equal keys. -/
structure Lawful (value : Value) : Prop where
  ints : ∀ i, Part (.int i) value → -2 ^ 63 ≤ i ∧ i < 2 ^ 64
  keys : ∀ entries, Part (.mapping entries) value →
    entries.Pairwise fun a b => a.1.same b.1 = false

/-- What lies within a lawful value is lawful. -/
theorem Lawful.of_part {value inner : Value} (h : value.Lawful)
    (hpart : ∀ part, Part part inner → Part part value) : inner.Lawful :=
  ⟨fun i hi => h.ints i (hpart _ hi), fun entries hentries => h.keys entries (hpart _ hentries)⟩

theorem Lawful.item {items : List Value} {item : Value} (h : (Value.sequence items).Lawful)
    (hitem : item ∈ items) : item.Lawful := h.of_part fun _ => .item hitem

theorem Lawful.value {entries : List (Value × Value)} {entry : Value × Value}
    (h : (Value.mapping entries).Lawful) (hentry : entry ∈ entries) : entry.2.Lawful :=
  h.of_part fun _ => .value hentry

theorem lawful_null : Value.null.Lawful := ⟨nofun, nofun⟩

theorem lawful_text (value : String) : (Value.text value).Lawful := ⟨nofun, nofun⟩

theorem lawful_int {value : Int} (hlow : -2 ^ 63 ≤ value) (hhigh : value < 2 ^ 64) :
    (Value.int value).Lawful := by
  refine ⟨fun i hpart => ?_, nofun⟩
  cases hpart
  exact ⟨hlow, hhigh⟩

theorem lawful_sequence {items : List Value} (h : ∀ item ∈ items, item.Lawful) :
    (Value.sequence items).Lawful := by
  constructor
  · intro i hpart
    cases hpart with
    | item hitem hpart => exact (h _ hitem).ints i hpart
  · intro entries hpart
    cases hpart with
    | item hitem hpart => exact (h _ hitem).keys entries hpart

theorem lawful_mapping {entries : List (Value × Value)}
    (hdistinct : entries.Pairwise fun a b => a.1.same b.1 = false)
    (h : ∀ entry ∈ entries, entry.1.Lawful ∧ entry.2.Lawful) : (Value.mapping entries).Lawful := by
  constructor
  · intro i hpart
    cases hpart with
    | key hentry hpart => exact (h _ hentry).1.ints i hpart
    | value hentry hpart => exact (h _ hentry).2.ints i hpart
  · intro entries' hpart
    cases hpart with
    | self => exact hdistinct
    | key hentry hpart => exact (h _ hentry).1.keys entries' hpart
    | value hentry hpart => exact (h _ hentry).2.keys entries' hpart

/-! ## Depth -/

theorem itemsDepth_le_iff {n : Nat} : ∀ {items : List Value},
    itemsDepth items ≤ n ↔ ∀ item ∈ items, item.depth ≤ n := by
  intro items
  induction items with
  | nil => simp [itemsDepth]
  | cons item items ih => rw [itemsDepth, Nat.max_le, ih, List.forall_mem_cons]

theorem entriesDepth_le_iff {n : Nat} : ∀ {entries : List (Value × Value)},
    entriesDepth entries ≤ n ↔ ∀ entry ∈ entries, entry.1.depth ≤ n ∧ entry.2.depth ≤ n := by
  intro entries
  induction entries with
  | nil => simp [entriesDepth]
  | cons entry entries ih =>
    obtain ⟨key, value⟩ := entry
    rw [entriesDepth, Nat.max_le, Nat.max_le, ih, List.forall_mem_cons]

/-! ## Plain values -/

/-- A plain value has no tags, its keys are texts, at most so many collections lie within one
another, and its floating-point numbers are of some kind. -/
inductive Plain (float : Binary64 → Prop) : Nat → Value → Prop where
  | null {levels : Nat} : Plain float levels .null
  | bool {levels : Nat} (value : Bool) : Plain float levels (.bool value)
  | int {levels : Nat} (value : Int) : Plain float levels (.int value)
  | float {levels : Nat} {value : Binary64} : float value → Plain float levels (.float value)
  | text {levels : Nat} (value : String) : Plain float levels (.text value)
  | sequence {levels : Nat} {items : List Value} :
      (∀ item ∈ items, Plain float levels item) → Plain float (levels + 1) (.sequence items)
  | mapping {levels : Nat} {entries : List (Value × Value)} :
      (∀ entry ∈ entries, ∃ name, entry.1 = .text name) →
      (∀ entry ∈ entries, Plain float levels entry.2) → Plain float (levels + 1) (.mapping entries)

/-- No floating-point number is of this kind. -/
def NoFloat (_ : Binary64) : Prop := False

variable {float float' : Binary64 → Prop} {levels : Nat}

theorem Plain.mono {more : Nat} {value : Value} (h : Plain float levels value)
    (hle : levels ≤ more) : Plain float more value := by
  induction h generalizing more with
  | null => exact .null
  | bool value => exact .bool value
  | int value => exact .int value
  | float h => exact .float h
  | text value => exact .text value
  | sequence _ ih =>
    obtain ⟨more, rfl⟩ : ∃ n, more = n + 1 := ⟨more - 1, by omega⟩
    exact .sequence fun item hitem => ih item hitem (by omega)
  | mapping hkeys _ ih =>
    obtain ⟨more, rfl⟩ : ∃ n, more = n + 1 := ⟨more - 1, by omega⟩
    exact .mapping hkeys fun entry hentry => ih entry hentry (by omega)

/-- Floating-point numbers that are parts decide what kind they are of. -/
theorem Plain.kind {value : Value} (h : Plain float levels value)
    (hkind : ∀ x, Part (.float x) value → float x → float' x) : Plain float' levels value := by
  induction h with
  | null => exact .null
  | bool value => exact .bool value
  | int value => exact .int value
  | float h => exact .float (hkind _ (.self _) h)
  | text value => exact .text value
  | sequence _ ih =>
    exact .sequence fun item hitem => ih item hitem fun x hx => hkind x (.item hitem hx)
  | mapping hkeys _ ih =>
    exact .mapping hkeys fun entry hentry => ih entry hentry fun x hx => hkind x (.value hentry hx)

theorem Plain.depth_le {value : Value} (h : Plain float levels value) : value.depth ≤ levels := by
  induction h with
  | null | bool | int | float | text => simp [depth]
  | sequence _ ih =>
    rw [depth]
    exact Nat.succ_le_succ (itemsDepth_le_iff.mpr ih)
  | mapping hkeys _ ih =>
    rw [depth]
    refine Nat.succ_le_succ (entriesDepth_le_iff.mpr fun entry hentry => ⟨?_, ih entry hentry⟩)
    obtain ⟨name, hname⟩ := hkeys entry hentry
    simp [hname, depth]

/-- What lies within a plain value is plain. -/
theorem Plain.part {value part : Value} (h : Plain float levels value) (hpart : Part part value) :
    Plain float levels part := by
  induction h with
  | null => cases hpart; exact .null
  | bool value => cases hpart; exact .bool value
  | int value => cases hpart; exact .int value
  | float h => cases hpart; exact .float h
  | text value => cases hpart; exact .text value
  | @sequence levels items hitems ih =>
    cases hpart with
    | self => exact .sequence hitems
    | item hitem hpart => exact (ih _ hitem hpart).mono (Nat.le_succ _)
  | @mapping levels entries hkeys hvalues ih =>
    cases hpart with
    | self => exact .mapping hkeys hvalues
    -- A key is a text and has no parts but itself.
    | key hentry hpart =>
      obtain ⟨name, hname⟩ := hkeys _ hentry
      rw [hname] at hpart
      cases hpart
      exact .text name
    | value hentry hpart => exact (ih _ hentry hpart).mono (Nat.le_succ _)

/-- **A value is plain if nothing within it forbids it.** -/
theorem plain_of_parts : ∀ (value : Value) (levels : Nat),
    (∀ tag inner, ¬ Part (.tagged tag inner) value) → (∀ x, Part (.float x) value → float x) →
    (∀ entries, Part (.mapping entries) value → ∀ entry ∈ entries, ∃ name, entry.1 = .text name) →
    value.depth ≤ levels → Plain float levels value := by
  intro value
  induction value using induct with
  | null => exact fun _ _ _ _ _ => .null
  | bool value => exact fun _ _ _ _ _ => .bool value
  | int value => exact fun _ _ _ _ _ => .int value
  | float value => exact fun _ _ hfloat _ _ => .float (hfloat value (.self _))
  | text value => exact fun _ _ _ _ _ => .text value
  | tagged tag inner _ => exact fun _ htag _ _ _ => absurd (.self _) (htag tag inner)
  | sequence items ih =>
    intro levels htag hfloat hkeys hdepth
    rw [depth] at hdepth
    obtain ⟨levels, rfl⟩ : ∃ n, levels = n + 1 := ⟨levels - 1, by omega⟩
    refine .sequence fun item hitem => ih item hitem levels ?_ ?_ ?_ ?_
    · exact fun tag inner hpart => htag tag inner (.item hitem hpart)
    · exact fun x hpart => hfloat x (.item hitem hpart)
    · exact fun entries hpart => hkeys entries (.item hitem hpart)
    · exact itemsDepth_le_iff.mp (by omega) item hitem
  | mapping entries ih =>
    intro levels htag hfloat hkeys hdepth
    rw [depth] at hdepth
    obtain ⟨levels, rfl⟩ : ∃ n, levels = n + 1 := ⟨levels - 1, by omega⟩
    refine .mapping (hkeys entries (.self _)) fun entry hentry =>
      (ih entry hentry).2 levels ?_ ?_ ?_ ?_
    · exact fun tag inner hpart => htag tag inner (.value hentry hpart)
    · exact fun x hpart => hfloat x (.value hentry hpart)
    · exact fun entries hpart => hkeys entries (.value hentry hpart)
    · exact (entriesDepth_le_iff.mp (by omega) entry hentry).2

/-! ## Equal values -/

theorem sameItems_iff : ∀ {as bs : List Value},
    sameItems as bs = true ↔ List.Forall₂ (fun a b => a.same b = true) as bs := by
  intro as
  induction as with
  | nil => intro bs; cases bs <;> simp [sameItems]
  | cons a as ih =>
    intro bs
    cases bs with
    | nil => simp [sameItems]
    | cons b bs => rw [sameItems, Bool.and_eq_true, ih, List.forall₂_cons]

theorem sameEntries_iff {bs : List (Value × Value)} : ∀ {as : List (Value × Value)},
    sameEntries as bs = true ↔
      ∀ a ∈ as, ∃ b, bs.find? (fun b => a.1.same b.1) = some b ∧ a.2.same b.2 = true := by
  intro as
  induction as with
  | nil => simp [sameEntries]
  | cons a as ih =>
    obtain ⟨key, value⟩ := a
    rw [sameEntries, Bool.and_eq_true, ih, List.forall_mem_cons]
    refine and_congr_left fun _ => ?_
    dsimp only
    cases bs.find? (fun b => key.same b.1) with
    | none => simp
    | some b => simp

theorem same_text {key : Value} {name : String} (h : key.same (.text name) = true) :
    key = .text name := by
  cases key <;> simp [same] at h
  rw [h]

/-- **What equals a plain value is plain itself.** -/
theorem Plain.of_same {other : Value} (h : Plain float levels other)
    (hkind : ∀ x y : Binary64, x.same y = true → float y → float x) :
    ∀ value : Value, value.same other = true → Plain float levels value := by
  induction h with
  | null => intro value h; cases value <;> simp [same] at h; exact .null
  | bool => intro value h; cases value <;> simp [same] at h; exact .bool _
  | int => intro value h; cases value <;> simp [same] at h; exact .int _
  | text => intro value h; cases value <;> simp [same] at h; exact .text _
  | float hy => intro value h; cases value <;> simp [same] at h; exact .float (hkind _ _ h hy)
  | @sequence levels items _ ih =>
    intro value h
    cases value with
    | sequence as =>
      rw [same, sameItems_iff] at h
      refine .sequence fun item hitem => ?_
      obtain ⟨other, hother, hsame⟩ := exists_partner h item hitem
      exact ih other hother item hsame
    | _ => simp [same] at h
  | @mapping levels entries hkeys _ ih =>
    intro value h
    cases value with
    | mapping as =>
      rw [same, Bool.and_eq_true, sameEntries_iff] at h
      refine .mapping (fun entry hentry => ?_) (fun entry hentry => ?_)
      -- A key that equals a text is this text.
      · obtain ⟨other, hfind, -⟩ := h.2 entry hentry
        obtain ⟨name, hname⟩ := hkeys other (List.mem_of_find?_eq_some hfind)
        have hsame := List.find?_some hfind
        rw [hname] at hsame
        exact ⟨name, same_text hsame⟩
      · obtain ⟨other, hfind, hsame⟩ := h.2 entry hentry
        exact ih other (List.mem_of_find?_eq_some hfind) entry.2 hsame
    | _ => simp [same] at h

/-- Among distinct texts a key finds its own entry. -/
theorem find?_key {entries : List (Value × Value)}
    (hkeys : ∀ entry ∈ entries, ∃ name, entry.1 = .text name)
    (hdistinct : entries.Pairwise fun a b => a.1.same b.1 = false) :
    ∀ entry ∈ entries, entries.find? (fun other => entry.1.same other.1) = some entry := by
  induction entries with
  | nil => simp
  | cons first entries ih =>
    obtain ⟨hfirst, hdistinct⟩ := List.pairwise_cons.mp hdistinct
    obtain ⟨hkey, hkeys⟩ := List.forall_mem_cons.mp hkeys
    intro entry hentry
    rcases List.mem_cons.mp hentry with rfl | hentry
    · obtain ⟨name, hname⟩ := hkey
      rw [List.find?_cons_of_pos]
      rw [hname]
      simp [same]
    · rw [List.find?_cons_of_neg, ih hkeys hdistinct entry hentry]
      obtain ⟨name, hname⟩ := hkey
      obtain ⟨name', hname'⟩ := hkeys entry hentry
      have hne := hfirst entry hentry
      rw [hname, hname', same] at hne
      rw [hname, hname', same, BEq.comm]
      simpa using hne

/-- **A plain value equals itself**, as long as it holds no floating-point numbers. -/
theorem Plain.same_self {value : Value} (h : Plain NoFloat levels value) (hlawful : value.Lawful) :
    value.same value = true := by
  induction h with
  | null => rfl
  | bool | int | text => simp [same]
  | float h => exact h.elim
  | sequence _ ih =>
    rw [same, sameItems_iff, List.forall₂_same]
    exact fun item hitem => ih item hitem (hlawful.item hitem)
  | @mapping levels entries hkeys _ ih =>
    rw [same, Bool.and_eq_true, sameEntries_iff]
    -- Entries are compared without regard to their order, so each has to be found, and is
    -- its own match.
    refine ⟨by simp, fun entry hentry => ⟨entry, ?_, ih entry hentry (hlawful.value hentry)⟩⟩
    exact find?_key hkeys (hlawful.keys entries (.self _)) entry hentry

end Provisioning.Value
