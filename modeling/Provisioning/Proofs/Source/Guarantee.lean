import Provisioning.Source

/-!
# What formats guarantee of the values they read

The other direction of reading: whatever a text is, if something is read from it then something
holds of what was read. A format gives its guarantee for untyped values, dependent on how many
collections may still lie within one another, and owes the laws by which it carries over to all
that is read by way of them.
-/

namespace Provisioning

/-- **A guarantee of a format for untyped values.** `Yields levels read holds` says that
whatever `read` gives where so many levels are left satisfies `holds`. -/
structure Guarantee (m : Type → Type) [Source m] (sound : Nat → Value → Prop) where
  Yields : {α : Type} → Nat → m α → (α → Prop) → Prop
  anything {α : Type} {levels : Nat} {read : m α} {holds : α → Prop} :
    (∀ a, holds a) → Yields levels read holds
  map {α β : Type} {levels : Nat} {read : m α} {holds : β → Prop} (f : α → β) :
    Yields levels read (fun a => holds (f a)) → Yields levels (f <$> read) holds
  imp {α : Type} {levels : Nat} {read : m α} {holds holds' : α → Prop} :
    (∀ a, holds a → holds' a) → Yields levels read holds → Yields levels read holds'
  list {α : Type} {levels : Nat} {read : m α} {holds : α → Prop} :
    Yields levels read holds → Yields (levels + 1) (Source.list read) fun as => ∀ a ∈ as, holds a
  record {α : Type} {levels : Nat} {record : Record m α} {holds : α → Prop} :
    holds record.blank →
    (∀ field ∈ record.fields,
      Yields levels field.read fun store => ∀ a, holds a → holds (store a)) →
    Yields (levels + 1) (Source.record record) holds
  bindings {α : Type} {levels : Nat} {read : m α} {holds : α → Prop} :
    Yields levels read holds →
    Yields (levels + 1) (Source.bindings read) fun as => ∀ a ∈ as, holds a.2
  untyped {levels : Nat} : Yields levels Source.untyped (sound levels)

end Provisioning
