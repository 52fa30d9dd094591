import Provisioning.Value

/-!
# Sources of typed values

The types of this library are read from two formats. `Source` is what a format offers:
ways to read texts, flags, numbers, lists, records and the like. A type says once how
it is made of these, and every format reads it accordingly.
-/

namespace Provisioning

/-- A field of a record: its name, whether it must be present, and how it is read. What is
read says how it changes the record. -/
structure Field (m : Type → Type) (α : Type) where
  name : String
  required : Bool
  read : m (α → α)

/-- A record: its name, its value when all fields are absent, and its fields in order. -/
structure Record (m : Type → Type) (α : Type) where
  name : String
  blank : α
  fields : List (Field m α)

namespace Record

variable {m : Type → Type} {α : Type}

/-- The field of this name. -/
def field? (record : Record m α) (name : String) : Option (Field m α) :=
  record.fields.find? (fun field => field.name == name)

/-- The first required field that is not among the names. -/
def missing? (record : Record m α) (present : List String) : Option String :=
  (record.fields.find? (fun field => field.required && !present.contains field.name)).map (·.name)

end Record

/-- A format that typed values are read from: `m α` reads an `α`. -/
class Source (m : Type → Type) extends Functor m where
  /-- A text. -/
  text : m String
  /-- True or false. -/
  flag : m Bool
  /-- A natural number below 2^64. -/
  natural : m UInt64
  /-- A value that may be null instead. -/
  optional {α : Type} : m α → m (Option α)
  /-- A list. -/
  list {α : Type} : m α → m (List α)
  /-- One of some names, each standing for a value. -/
  choice {α : Type} : List (String × α) → m α
  /-- A record. -/
  record {α : Type} : Record m α → m α
  /-- A mapping from texts, in the order of the text, possibly with repetitions. -/
  bindings {α : Type} : m α → m (List (String × α))
  /-- Any value. -/
  untyped : m Value

/-- A field that must be present. -/
def Field.needed {m : Type → Type} [Functor m] {α β : Type} (name : String) (read : m β)
    (store : β → α → α) : Field m α := ⟨name, true, store <$> read⟩

/-- A field that may be absent. -/
def Field.spare {m : Type → Type} [Functor m] {α β : Type} (name : String) (read : m β)
    (store : β → α → α) : Field m α := ⟨name, false, store <$> read⟩

end Provisioning
