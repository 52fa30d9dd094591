import Provisioning.Value

/-!
# Environments

An environment binds names to values. Its entries ascend by name, so that two
environments with the same bindings are the same list; `insert` keeps the order and
lets the last binding of a name win.
-/

namespace Provisioning

/-- Bindings in ascending order of their names, no name twice. -/
structure Environment where
  entries : List (String × Value)
  ascending : entries.Pairwise (fun a b => a.1 < b.1)

namespace Environment

/-- No bindings. -/
def empty : Environment := ⟨[], .nil⟩

/-- Bindings with one more, which replaces a former one of its name. -/
def insertEntry (name : String) (value : Value) : List (String × Value) → List (String × Value)
  | [] => [(name, value)]
  | entry :: entries =>
    if name < entry.1 then (name, value) :: entry :: entries
    else if name = entry.1 then (name, value) :: entries
    else entry :: insertEntry name value entries

theorem mem_insertEntry {name : String} {value : Value} {entries : List (String × Value)}
    {entry : String × Value} (h : entry ∈ insertEntry name value entries) :
    entry.1 = name ∨ entry ∈ entries := by
  induction entries with
  | nil => simp_all [insertEntry]
  | cons first rest ih =>
    rw [insertEntry] at h
    split at h
    · rcases List.mem_cons.mp h with rfl | h
      · exact .inl rfl
      · exact .inr h
    · split at h
      · rcases List.mem_cons.mp h with rfl | h
        · exact .inl rfl
        · exact .inr (List.mem_cons_of_mem _ h)
      · rcases List.mem_cons.mp h with rfl | h
        · exact .inr List.mem_cons_self
        · exact (ih h).imp id (List.mem_cons_of_mem _)

/-- Inserting keeps the order of the names. -/
theorem insertEntry_ascending {name : String} {value : Value} {entries : List (String × Value)}
    (h : entries.Pairwise (fun a b => a.1 < b.1)) :
    (insertEntry name value entries).Pairwise (fun a b => a.1 < b.1) := by
  induction entries with
  | nil => simp [insertEntry]
  | cons first rest ih =>
    obtain ⟨least, ordered⟩ := List.pairwise_cons.mp h
    rw [insertEntry]
    split
    · next lt =>
      refine List.pairwise_cons.mpr ⟨fun entry mem => ?_, h⟩
      rcases List.mem_cons.mp mem with rfl | mem
      · exact lt
      · exact String.lt_trans lt (least entry mem)
    · next notLt =>
      split
      · next eq =>
        exact List.pairwise_cons.mpr ⟨fun entry mem => eq ▸ least entry mem, ordered⟩
      · next ne =>
        refine List.pairwise_cons.mpr ⟨fun entry mem => ?_, ih ordered⟩
        rcases mem_insertEntry mem with eq | mem
        · rw [eq]
          exact Decidable.byContradiction fun notGt =>
            ne (String.le_antisymm (String.not_lt.mp notGt) (String.not_lt.mp notLt))
        · exact least entry mem

/-- The environment with one more binding, which replaces a former one of its name. -/
def insert (environment : Environment) (name : String) (value : Value) : Environment :=
  ⟨insertEntry name value environment.entries, insertEntry_ascending environment.ascending⟩

/-- The environment of some bindings, of which the last of a name wins. -/
def ofList (bindings : List (String × Value)) : Environment :=
  bindings.foldl (fun environment binding => environment.insert binding.1 binding.2) empty

/-- The value of a name. -/
def get? (environment : Environment) (name : String) : Option Value :=
  environment.entries.lookup name

/-- The value of a name as text, for scalars other than null. -/
def text? (environment : Environment) (name : String) : Option String :=
  environment.get? name |>.bind Value.scalarText?

/-- Equality of environments: the same names, bound to the same values. -/
def same (a b : Environment) : Bool :=
  a.entries.length == b.entries.length &&
    (a.entries.zip b.entries).all (fun (x, y) => x.1 == y.1 && x.2.same y.2)

end Environment

end Provisioning
