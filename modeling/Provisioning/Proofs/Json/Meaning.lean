import Mathlib.Algebra.Group.Int.Defs
import Provisioning.Json.Tree

/-!
# What a JSON document means

A document read without any type in mind is a value: `Json.toValue`. It is read at all only if
it fits: its integers have 64 bits, no object has a name twice, and not too many collections
lie within one another. A number that is not finite counts as null, because that is what is
written of it; finite floating-point numbers are outside of this.
-/

namespace Provisioning.Json

mutual

/-- The value that a document is read as. -/
def toValue : Json → Value
  | null => .null
  | bool value => .bool value
  | int value => .int value
  | float _ => .null
  | string value => .text value
  | array items => .sequence (itemsToValues items)
  | object members => .mapping (membersToEntries members)

/-- The values of items. -/
def itemsToValues : List Json → List Value
  | [] => []
  | item :: items => toValue item :: itemsToValues items

/-- The entries that members are read as. -/
def membersToEntries : List (String × Json) → List (Value × Value)
  | [] => []
  | (name, member) :: members => (.text name, toValue member) :: membersToEntries members

end

theorem itemsToValues_eq_map : ∀ items : List Json, itemsToValues items = items.map toValue := by
  intro items
  induction items with
  | nil => rfl
  | cons item items ih => rw [itemsToValues, ih, List.map_cons]

theorem membersToEntries_eq_map : ∀ members : List (String × Json),
    membersToEntries members = members.map fun member => (.text member.1, member.2.toValue) := by
  intro members
  induction members with
  | nil => rfl
  | cons member members ih => rw [membersToEntries, ih, List.map_cons]

/-- A document that can be read where `levels` collections may lie within one another. -/
inductive Fits : Nat → Json → Prop where
  | null {levels : Nat} : Fits levels .null
  | bool {levels : Nat} {value : Bool} : Fits levels (.bool value)
  | int {levels : Nat} {value : Int} : -2 ^ 63 ≤ value → value < 2 ^ 64 → Fits levels (.int value)
  | float {levels : Nat} {value : Number.Binary64} :
      value.isFinite = false → Fits levels (.float value)
  | string {levels : Nat} {value : String} : Fits levels (.string value)
  | array {levels : Nat} {items : List Json} :
      (∀ item ∈ items, Fits levels item) → Fits (levels + 1) (.array items)
  | object {levels : Nat} {members : List (String × Json)} :
      (members.map Prod.fst).Nodup → (∀ member ∈ members, Fits levels member.2) →
      Fits (levels + 1) (.object members)

/-- Is this written as null, or perhaps so? -/
def mayBeNull : Json → Bool
  | null | float _ => true
  | _ => false

end Provisioning.Json
