import Provisioning.Text.Quoted
import Provisioning.Value

/-!
# When a text does not fit a type

A text may be well formed and still not describe what is asked for. Such a mismatch
says what was found and what was expected; the two formats that are read word it
alike, except for the word for null and the way floating-point numbers are written.
-/

namespace Provisioning

/-- What was found in a text. -/
inductive Found where
  | unit
  | bool (value : Bool)
  | int (value : Int)
  /-- An integer of more than 64 bits. -/
  | wideInt (value : Int)
  | float (value : Number.Binary64)
  | text (value : String)
  | sequence
  | map
deriving DecidableEq, Repr

/-- What was expected instead. -/
inductive Expected where
  | unit
  | null
  | boolean
  | integer
  | float
  | natural
  | text
  | sequence
  | map
  | record (name : String)
  | recordElements (name : String) (count : Nat)
  | fieldName
  | variantName
  | localTag
  | anyValue
deriving DecidableEq, Repr

/-- Why a text does not fit. -/
inductive Mismatch where
  | invalidType (found : Found) (expected : Expected)
  | invalidValue (found : Found) (expected : Expected)
  | invalidLength (length : Nat) (expected : Expected)
  | unknownVariant (name : String) (known : List String)
  | missingField (name : String)
  | duplicateField (name : String)
  | duplicateKey (key : Value)
deriving Repr

/-- How one format words what was found. -/
structure Wording where
  unit : String
  float : Number.Layout

/-- A name in a message. -/
def named (name : String) : String := "`" ++ name ++ "`"

/-- What was found, in the words of a format. -/
def Found.describe (wording : Wording) : Found → String
  | unit => wording.unit
  | bool value => "boolean " ++ named (if value then "true" else "false")
  | int value => "integer " ++ named (String.ofList (Number.signedDecimal value))
  | wideInt value =>
    "integer " ++ named (String.ofList (Number.signedDecimal value)) ++
      if value < 0 then " as i128" else " as u128"
  | float value => "floating point " ++ named (String.ofList (wording.float.write value))
  | text value => "string " ++ Text.quoted value
  | sequence => "sequence"
  | map => "map"

/-- What was expected. -/
def Expected.describe : Expected → String
  | unit => "unit"
  | null => "null"
  | boolean => "a boolean"
  | integer => "an integer"
  | float => "a float"
  | natural => "u64"
  | text => "a string"
  | sequence => "a sequence"
  | map => "a map"
  | record name => "struct " ++ name
  | recordElements name count =>
    "struct " ++ name ++ " with " ++ toString count ++
      if count == 1 then " element" else " elements"
  | fieldName => "field identifier"
  | variantName => "variant identifier"
  | localTag => "a YAML tag starting with '!'"
  | anyValue => "any YAML value"

/-- The names that would have been known. -/
def describeKnown : List String → String
  | [] => "there are no variants"
  | [name] => "expected " ++ named name
  | [first, second] => "expected " ++ named first ++ " or " ++ named second
  | names => "expected one of " ++ ", ".intercalate (names.map named)

/-- A key that a mapping has twice. -/
def describeKey : Value → String
  | .null => "with null key"
  | .bool value => "with key " ++ named (if value then "true" else "false")
  | .int value => "with key " ++ String.ofList (Number.signedDecimal value)
  | .float value => "with key " ++ String.ofList (Value.floatLayout.write value)
  | .text value => "with key " ++ Text.quoted value
  | .sequence _ | .mapping _ | .tagged _ _ => "in YAML map"

/-- The wording of a mismatch in a format. -/
def Mismatch.message (wording : Wording) : Mismatch → String
  | invalidType found expected =>
    "invalid type: " ++ found.describe wording ++ ", expected " ++ expected.describe
  | invalidValue found expected =>
    "invalid value: " ++ found.describe wording ++ ", expected " ++ expected.describe
  | invalidLength length expected =>
    "invalid length " ++ toString length ++ ", expected " ++ expected.describe
  | unknownVariant name known => "unknown variant " ++ named name ++ ", " ++ describeKnown known
  | missingField name => "missing field " ++ named name
  | duplicateField name => "duplicate field " ++ named name
  | duplicateKey key => "duplicate entry " ++ describeKey key

end Provisioning
