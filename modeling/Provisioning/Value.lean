import Provisioning.Number.Layout

/-!
# Values

What an environment of an action may hold: scalars, and sequences, mappings and tagged
values of them. Mappings keep their order and have no two equal keys; `same` compares
them without regard to order, so it is coarser than equality.
-/

namespace Provisioning

/-- A value. An integer lies between -2^63 and 2^64 - 1 wherever it was read. -/
inductive Value where
  | null
  | bool (value : Bool)
  | int (value : Int)
  | float (value : Number.Binary64)
  | text (value : String)
  | sequence (items : List Value)
  | mapping (entries : List (Value × Value))
  /-- A value under a tag of the text's own; the tag is without its exclamation mark. -/
  | tagged (tag : String) (value : Value)
deriving Repr

namespace Value

/-- How a value that is a floating-point number is written: sixteen places are enough to
the left of the point and five to the right. -/
def floatLayout : Number.Layout where
  positional point := -5 < point && point ≤ 16
  exponentSign := []
  infinity := ['.', 'i', 'n', 'f']
  nan := ['.', 'n', 'a', 'n']
  tie := .even

mutual

/-- Equality of values. -/
def same : Value → Value → Bool
  | null, null => true
  | bool a, bool b => a == b
  | int a, int b => a == b
  | float a, float b => a.same b
  | text a, text b => a == b
  | sequence a, sequence b => sameItems a b
  | mapping a, mapping b => a.length == b.length && sameEntries a b
  | tagged s a, tagged t b => s == t && same a b
  | _, _ => false

/-- Equality of items one by one. -/
def sameItems : List Value → List Value → Bool
  | [], [] => true
  | a :: as, b :: bs => same a b && sameItems as bs
  | _, _ => false

/-- Is each of these entries among the others? -/
def sameEntries : List (Value × Value) → List (Value × Value) → Bool
  | [], _ => true
  | (key, value) :: entries, others =>
    (match others.find? (fun other => same key other.1) with
      | some other => same value other.2
      | none => false) && sameEntries entries others

end

mutual

/-- How many sequences and mappings lie within one another. -/
def depth : Value → Nat
  | sequence items => itemsDepth items + 1
  | mapping entries => entriesDepth entries + 1
  | tagged _ value => depth value
  | _ => 0

/-- The depth of the deepest item. -/
def itemsDepth : List Value → Nat
  | [] => 0
  | item :: items => max (depth item) (itemsDepth items)

/-- The depth of the deepest key or value. -/
def entriesDepth : List (Value × Value) → Nat
  | [] => 0
  | (key, value) :: entries => max (max (depth key) (depth value)) (entriesDepth entries)

end

/-- The text of a scalar other than null. -/
def scalarText? : Value → Option String
  | text value => some value
  | bool value => some (if value then "true" else "false")
  | int value => some (String.ofList (Number.signedDecimal value))
  | float value => some (String.ofList (floatLayout.write value))
  | _ => none

end Value

end Provisioning
