/-!
# Places in a text

A place is a line and what stands in front of it on its line, once in characters and
once in bytes. Columns are characters: messages name them and indentation is measured in
them. Bytes say how far apart two places of one line are, which limits how long a key
may be; places of different lines are never compared by their bytes, so these are counted
from the start of the line too.
-/

namespace Provisioning.Yaml

/-- The length of a text in UTF-8. -/
def byteLength : List Char → Nat
  | [] => 0
  | c :: rest => c.utf8Size + byteLength rest

/-- A place in a text; everything is counted from zero. -/
structure Mark where
  line : Nat
  /-- The characters in front of it on its line. -/
  column : Nat
  /-- The bytes in front of it on its line. -/
  byte : Nat
deriving DecidableEq, Repr

namespace Mark

/-- The place before the first character. -/
def origin : Mark := ⟨0, 0, 0⟩

/-- The place after further characters of the same line. -/
def past (mark : Mark) (text : List Char) : Mark :=
  ⟨mark.line, mark.column + text.length, mark.byte + byteLength text⟩

/-- The place after `count` further characters of the same line, one byte each. -/
def right (mark : Mark) (count : Nat) : Mark :=
  ⟨mark.line, mark.column + count, mark.byte + count⟩

/-- The place after one more character of the same line, one byte long. -/
def next (mark : Mark) : Mark := ⟨mark.line, mark.column + 1, mark.byte + 1⟩

/-- The start of the following line. -/
def newline (mark : Mark) : Mark := ⟨mark.line + 1, 0, 0⟩

/-- Is this the place before the first character? -/
def atOrigin (mark : Mark) : Bool := mark.line == 0 && mark.column == 0

/-- A place as a message names it, counted from one. -/
def describe (mark : Mark) : String :=
  "line " ++ toString (mark.line + 1) ++ " column " ++ toString (mark.column + 1)

/-- The tail of a message about a place; the very start of a text goes unnamed. -/
def suffix (mark : Mark) : String :=
  if mark.atOrigin then "" else " at " ++ mark.describe

end Mark

end Provisioning.Yaml
