import Provisioning.Json.Tree
import Provisioning.Mismatch

/-!
# Where the reading of a JSON text stands

A cursor is the text still to be read and its place. Lines count from one; columns
count the bytes of a line in front of the place. A fault names either the place that
was reached or, where the next character is what is wrong, the place behind its first
byte.
-/

namespace Provisioning.Json

/-- A place in a JSON text. -/
structure Place where
  line : Nat
  column : Nat
deriving DecidableEq, Repr

/-- The place behind the first `count` bytes of a text that begins at a place. -/
def Place.afterBytes (place : Place) : Nat → List Char → Place
  | _, [] => place
  | count, c :: rest =>
    if count == 0 then place
    else if c == '\n' then afterBytes ⟨place.line + 1, 0⟩ (count - 1) rest
    else afterBytes ⟨place.line, place.column + min count c.utf8Size⟩ (count - c.utf8Size) rest

/-- The place behind a character. -/
def Place.after (place : Place) (c : Char) : Place :=
  if c == '\n' then ⟨place.line + 1, 0⟩ else ⟨place.line, place.column + c.utf8Size⟩

/-- The text still to be read and its place. -/
structure Cursor where
  rest : List Char
  place : Place
deriving DecidableEq, Repr

namespace Cursor

/-- The start of a text. -/
def ofText (text : String) : Cursor := ⟨text.toList, ⟨1, 0⟩⟩

/-- The place behind the first byte of the next character. -/
def nextPlace (cursor : Cursor) : Place := cursor.place.afterBytes 1 cursor.rest

/-- Past a character and on to the rest behind it. -/
def past (cursor : Cursor) (c : Char) (rest : List Char) : Cursor := ⟨rest, cursor.place.after c⟩

/-- White space between the parts of a document. -/
def isSpace (c : Char) : Bool := c == ' ' || c == '\n' || c == '\t' || c == '\r'

/-- Past the white space of a text that begins at a place. -/
def spaceOf (place : Place) : List Char → Cursor
  | [] => ⟨[], place⟩
  | c :: rest => if isSpace c then spaceOf (place.after c) rest else ⟨c :: rest, place⟩

/-- Past the white space. -/
def skipSpace (cursor : Cursor) : Cursor := spaceOf cursor.place cursor.rest

/-- The next digits. -/
def takeDigits (cursor : Cursor) : List Char × Cursor :=
  let digits := cursor.rest.takeWhile Char.isDigit
  (digits, ⟨cursor.rest.dropWhile Char.isDigit,
    ⟨cursor.place.line, cursor.place.column + digits.length⟩⟩)

end Cursor

/-- What is wrong with a JSON text. -/
inductive Problem where
  | endInValue
  | endInString
  | endInArray
  | endInObject
  | colonMissing
  | arraySeparatorMissing
  | objectSeparatorMissing
  | wordMisspelt
  | valueMissing
  | escapeInvalid
  | numberInvalid
  | numberOutOfRange
  | controlInString
  | nameNotString
  | surrogateAlone
  | surrogateCutShort
  | commaTrailing
  | charactersTrailing
  | tooDeep
deriving DecidableEq, Repr

/-- The wording of a problem. -/
def Problem.message : Problem → String
  | endInValue => "EOF while parsing a value"
  | endInString => "EOF while parsing a string"
  | endInArray => "EOF while parsing a list"
  | endInObject => "EOF while parsing an object"
  | colonMissing => "expected `:`"
  | arraySeparatorMissing => "expected `,` or `]`"
  | objectSeparatorMissing => "expected `,` or `\x7d`"
  | wordMisspelt => "expected ident"
  | valueMissing => "expected value"
  | escapeInvalid => "invalid escape"
  | numberInvalid => "invalid number"
  | numberOutOfRange => "number out of range"
  | controlInString => "control character (\\u0000-\\u001F) found while parsing a string"
  | nameNotString => "key must be a string"
  | surrogateAlone => "lone leading surrogate in hex escape"
  | surrogateCutShort => "unexpected end of hex escape"
  | commaTrailing => "trailing comma"
  | charactersTrailing => "trailing characters"
  | tooDeep => "recursion limit exceeded"

/-- Why a value could not be read. -/
inductive ReadFault where
  | malformed (problem : Problem) (place : Place)
  /-- A value does not fit. -/
  | unfit (mismatch : Mismatch) (place : Place)
  /-- A value does not fit, found at this cursor; the value around it settles the place. -/
  | unplaced (mismatch : Mismatch) (cursor : Cursor)
deriving Repr

namespace ReadFault

/-- How messages word null and numbers. -/
def wording : Wording := ⟨"null", floatLayout⟩

/-- The place of a fault. -/
def place : ReadFault → Place
  | malformed _ place => place
  | unfit _ place => place
  | unplaced _ cursor => cursor.place

/-- What is wrong. -/
def cause : ReadFault → String
  | malformed problem _ => problem.message
  | unfit mismatch _ => mismatch.message wording
  | unplaced mismatch _ => mismatch.message wording

/-- The wording of a fault. -/
def message (fault : ReadFault) : String :=
  fault.cause ++ " at line " ++ toString fault.place.line ++ " column " ++
    toString fault.place.column

/-- Settles the place of a mismatch: where a cursor stands that went on from it. -/
def settle (goOn : Cursor → Cursor) : ReadFault → ReadFault
  | unplaced mismatch cursor => .unfit mismatch (goOn cursor).place
  | fault => fault

end ReadFault

/-- A fault at the place that was reached. -/
def fault {α : Type} (problem : Problem) (cursor : Cursor) : Except ReadFault α :=
  .error (.malformed problem cursor.place)

/-- A fault of the next character. -/
def faultNext {α : Type} (problem : Problem) (cursor : Cursor) : Except ReadFault α :=
  .error (.malformed problem cursor.nextPlace)

end Provisioning.Json
