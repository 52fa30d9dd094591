import Provisioning.Value

/-!
# JSON documents and their compact text

A document is written without any space. In strings a quote, a backslash and the
controls are escaped, five of the controls by letters; all else stands as it is. A
number that is not finite is written as null.

Not every value has a JSON form: the keys of an object are strings, so a key may be a
scalar but not null, a collection or a tagged value, and no number that is not finite.
-/

namespace Provisioning

/-- A JSON document. Members keep their order. -/
inductive Json where
  | null
  | bool (value : Bool)
  | int (value : Int)
  | float (value : Number.Binary64)
  | string (value : String)
  | array (items : List Json)
  | object (members : List (String × Json))
deriving Repr

namespace Json

/-- How floating-point numbers are written. -/
def floatLayout : Number.Layout :=
  { Value.floatLayout with exponentSign := ['+'] }

/-- One character as it stands inside a string. -/
def escapeChar (c : Char) : List Char :=
  match c with
  | '"' => ['\\', '"']
  | '\\' => ['\\', '\\']
  | '\x08' => ['\\', 'b']
  | '\t' => ['\\', 't']
  | '\n' => ['\\', 'n']
  | '\x0c' => ['\\', 'f']
  | '\r' => ['\\', 'r']
  | c =>
    if c.toNat < 0x20 then
      ['\\', 'u', '0', '0', Nat.digitChar (c.toNat / 16), Nat.digitChar (c.toNat % 16)]
    else [c]

/-- A string with its quotes. -/
def writeString (text : String) : List Char := '"' :: (text.toList.flatMap escapeChar ++ ['"'])

/-- A floating-point number, or null. -/
def writeFloat (value : Number.Binary64) : List Char :=
  if value.isFinite then floatLayout.write value else ['n', 'u', 'l', 'l']

mutual

/-- The text of a document. -/
def write : Json → List Char
  | null => ['n', 'u', 'l', 'l']
  | bool true => ['t', 'r', 'u', 'e']
  | bool false => ['f', 'a', 'l', 's', 'e']
  | int value => Number.signedDecimal value
  | float value => writeFloat value
  | string value => writeString value
  | array [] => ['[', ']']
  | array (item :: items) => '[' :: (write item ++ writeItems items)
  | object [] => ['\x7b', '\x7d']
  | object ((name, member) :: members) =>
    '\x7b' :: (writeString name ++ ':' :: (write member ++ writeMembers members))

/-- The items behind the first, and the end of the array. -/
def writeItems : List Json → List Char
  | [] => [']']
  | item :: items => ',' :: (write item ++ writeItems items)

/-- The members behind the first, and the end of the object. -/
def writeMembers : List (String × Json) → List Char
  | [] => ['\x7d']
  | (name, member) :: members =>
    ',' :: (writeString name ++ ':' :: (write member ++ writeMembers members))

end

/-- The text of a document. -/
def text (json : Json) : String := String.ofList json.write

/-- An object without the members that are left out. -/
def ofMembers (members : List (Option (String × Json))) : Json := object (members.filterMap id)

/-- A member that is always there. -/
def member (name : String) (json : Json) : Option (String × Json) := some (name, json)

/-- A member that is left out when there is nothing to write. -/
def member? (name : String) (json : Option Json) : Option (String × Json) := json.map (name, ·)

end Json

/-- Why a value has no JSON form. -/
inductive NoJson where
  | keyNotString
  | keyNotFinite
deriving DecidableEq, Repr

/-- The wording of the reason. -/
def NoJson.message : NoJson → String
  | keyNotString => "key must be a string"
  | keyNotFinite => "float key must be finite (got NaN or +/-inf)"

namespace Value

/-- A key as the name of a member. -/
def toMemberName : Value → Except NoJson String
  | text value => .ok value
  | bool value => .ok (if value then "true" else "false")
  | int value => .ok (String.ofList (Number.signedDecimal value))
  | float value =>
    if value.isFinite then .ok (String.ofList (Json.floatLayout.write value))
    else .error .keyNotFinite
  | null | sequence _ | mapping _ | tagged _ _ => .error .keyNotString

mutual

/-- The JSON form of a value. A tagged value is an object with its tag as the only name. -/
def toJson : Value → Except NoJson Json
  | null => .ok .null
  | bool value => .ok (.bool value)
  | int value => .ok (.int value)
  | float value => .ok (.float value)
  | text value => .ok (.string value)
  | sequence items => return .array (← itemsToJson items)
  | mapping entries => return .object (← entriesToJson entries)
  | tagged tag value => return .object [("!" ++ tag, ← toJson value)]

/-- The JSON forms of items. -/
def itemsToJson : List Value → Except NoJson (List Json)
  | [] => .ok []
  | item :: items => return (← toJson item) :: (← itemsToJson items)

/-- The JSON forms of entries. -/
def entriesToJson : List (Value × Value) → Except NoJson (List (String × Json))
  | [] => .ok []
  | (key, value) :: entries =>
    return (← key.toMemberName, ← toJson value) :: (← entriesToJson entries)

end

end Value

end Provisioning
