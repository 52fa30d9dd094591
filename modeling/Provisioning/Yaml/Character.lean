/-!
# Characters of a YAML text

Which characters a text may hold, which of them separate words, and what a text goes
through before it is read: every spelling of a line end becomes the one character
`\n`. Line and paragraph separators end a line too, but keep their own spelling.
-/

namespace Provisioning.Yaml

/-- A blank separates words within a line. -/
def isBlank (c : Char) : Bool := c == ' ' || c == '\t'

/-- A break ends a line, in a text whose line ends are uniform. -/
def isBreak (c : Char) : Bool := c == '\n' || c == '\u2028' || c == '\u2029'

/-- The characters of names of anchors, tag handles and directives. -/
def isNameChar (c : Char) : Bool := c.isAlphanum || c == '_' || c == '-'

/-- Does a word end here: at a blank, a break or the end of the text? -/
def endsWord : List Char → Bool
  | [] => true
  | c :: _ => isBlank c || isBreak c

/-- Does a line end here: at a break or the end of the text? -/
def endsLine : List Char → Bool
  | [] => true
  | c :: _ => isBreak c

/-- Does the text go on with this character? -/
def startsWith (c : Char) : List Char → Bool
  | [] => false
  | d :: _ => c == d

/-- A document boundary: three dashes or three dots that stand alone as a word. -/
def isBoundary : List Char → Bool
  | '-' :: '-' :: '-' :: rest => endsWord rest
  | '.' :: '.' :: '.' :: rest => endsWord rest
  | _ => false

/-- The characters a text may hold: no control characters but tab and the line ends. -/
def isPermitted (c : Char) : Bool :=
  c == '\t' || c == '\n' || c == '\r' || (0x20 ≤ c.toNat && c.toNat ≤ 0x7E) || c == '\u0085' ||
    (0xA0 ≤ c.toNat && c.toNat ≤ 0xFFFD) || 0x10000 ≤ c.toNat

/-- The byte offset of the first character that a text may not hold. -/
def forbiddenOffset? (offset : Nat) : List Char → Option Nat
  | [] => none
  | c :: rest => if isPermitted c then forbiddenOffset? (offset + c.utf8Size) rest else some offset

/-- A text whose line ends are all spelled `\n`. -/
def unifyBreaks : List Char → List Char
  | '\r' :: '\n' :: rest => '\n' :: unifyBreaks rest
  | '\r' :: rest => '\n' :: unifyBreaks rest
  | '\u0085' :: rest => '\n' :: unifyBreaks rest
  | c :: rest => c :: unifyBreaks rest
  | [] => []

end Provisioning.Yaml
