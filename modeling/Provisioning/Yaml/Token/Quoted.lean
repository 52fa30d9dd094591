import Provisioning.Yaml.TextFault
import Provisioning.Yaml.Token.Cursor
import Provisioning.Yaml.Token.Gap

/-!
# Quoted scalars

In single quotes a quote is written twice and nothing else is special. In double
quotes a backslash begins an escape: a letter for one character, a code of two, four
or eight hexadecimal digits, or a line end, which then stands for nothing. Both fold
line ends and neither may cross a document boundary.
-/

namespace Provisioning.Yaml

/-- A quoted scalar as read: its text and the rest. -/
structure QuotedScalar where
  text : List Char
  cursor : Cursor
deriving DecidableEq, Repr

namespace QuotedScalar

/-- Reads a single-quoted scalar on after `text` (the latest character first) and a gap. -/
def readSingle (start : Mark) (text : List Char) (gap : Gap) (mark : Mark) :
    List Char → Except TextFault QuotedScalar
  | [] => .error (.during .quotedScalar start .streamEndInScalar mark)
  | c :: rest =>
    if isBlank c then readSingle start text (gap.blank c) (mark.past [c]) rest
    else if isBreak c then readSingle start text (gap.lineEnd c) mark.newline rest
    else if mark.column == 0 && isBoundary (c :: rest) then
      .error (.during .quotedScalar start .boundaryInScalar mark)
    else if c == '\'' then
      match rest with
      | '\'' :: rest => readSingle start ('\'' :: (gap.folded ++ text)) .closed (mark.right 2) rest
      | _ => .ok ⟨(gap.folded ++ text).reverse, ⟨rest, mark.next⟩⟩
    else readSingle start (c :: (gap.folded ++ text)) .closed (mark.past [c]) rest

/-- The character that one letter after a backslash stands for. -/
def escaped? : Char → Option Char
  | '0' => some '\x00'
  | 'a' => some '\x07'
  | 'b' => some '\x08'
  | 't' => some '\t'
  | '\t' => some '\t'
  | 'n' => some '\n'
  | 'v' => some '\x0b'
  | 'f' => some '\x0c'
  | 'r' => some '\r'
  | 'e' => some '\x1b'
  | ' ' => some ' '
  | '"' => some '"'
  | '/' => some '/'
  | '\\' => some '\\'
  | 'N' => some '\u0085'
  | '_' => some '\u00A0'
  | 'L' => some '\u2028'
  | 'P' => some '\u2029'
  | _ => none

/-- How many hexadecimal digits follow this letter after a backslash. -/
def codeLength? : Char → Option Nat
  | 'x' => some 2
  | 'u' => some 4
  | 'U' => some 8
  | _ => none

/-- The value of a hexadecimal digit. -/
def hexValue? (c : Char) : Option Nat :=
  if '0' ≤ c && c ≤ '9' then some (c.toNat - 48)
  else if 'a' ≤ c && c ≤ 'f' then some (c.toNat - 87)
  else if 'A' ≤ c && c ≤ 'F' then some (c.toNat - 55)
  else none

/-- The character with this code; surrogates are not characters. -/
def ofCode? (code : Nat) : Option Char :=
  if code < 0xD800 || (0xDFFF < code && code < 0x110000) then some (Char.ofNat code) else none

/-- A character code of which `left` digits are still to be read; the first stands at `mark`. -/
structure Code where
  left : Nat
  value : Nat
  mark : Mark
deriving DecidableEq, Repr

/-- Reads a double-quoted scalar on after `text` (the latest character first), a gap
and, within an escape, the code read so far. -/
def readDouble (start : Mark) (text : List Char) (gap : Gap) (code : Option Code) (mark : Mark) :
    List Char → Except TextFault QuotedScalar
  | [] =>
    match code with
    | some code => .error (.during .quotedEscape start .hexDigitMissing code.mark)
    | none => .error (.during .quotedScalar start .streamEndInScalar mark)
  | c :: rest =>
    match code with
    | some code =>
      match hexValue? c with
      | none => .error (.during .quotedEscape start .hexDigitMissing code.mark)
      | some digit =>
        let value := code.value * 16 + digit
        if code.left ≤ 1 then
          match ofCode? value with
          | none => .error (.during .quotedEscape start .escapeNoCharacter code.mark)
          | some decoded => readDouble start (decoded :: text) .closed none mark.next rest
        else readDouble start text .closed (some ⟨code.left - 1, value, code.mark⟩) mark.next rest
    | none =>
      if isBlank c then readDouble start text (gap.blank c) none (mark.past [c]) rest
      else if isBreak c then readDouble start text (gap.lineEnd c) none mark.newline rest
      else if mark.column == 0 && isBoundary (c :: rest) then
        .error (.during .quotedScalar start .boundaryInScalar mark)
      else if c == '"' then .ok ⟨(gap.folded ++ text).reverse, ⟨rest, mark.next⟩⟩
      else if c == '\\' then
        match rest with
        | [] => .error (.during .quotedEscape start .escapeUnknown mark)
        | letter :: rest =>
          if isBreak letter then
            readDouble start (gap.folded ++ text) (.breaks none []) none mark.newline rest
          else match escaped? letter, codeLength? letter with
            | some decoded, _ =>
              readDouble start (decoded :: (gap.folded ++ text)) .closed none (mark.right 2) rest
            | none, some digits =>
              readDouble start (gap.folded ++ text) .closed (some ⟨digits, 0, mark.right 2⟩)
                (mark.right 2) rest
            | none, none => .error (.during .quotedEscape start .escapeUnknown mark)
      else readDouble start (c :: (gap.folded ++ text)) .closed none (mark.past [c]) rest

theorem readSingle_length_le {start mark : Mark} {text rest : List Char} {gap : Gap}
    {scalar : QuotedScalar} (h : readSingle start text gap mark rest = .ok scalar) :
    scalar.cursor.rest.length ≤ rest.length := by
  fun_induction readSingle <;> grind

theorem readDouble_length_le {start mark : Mark} {text rest : List Char} {gap : Gap}
    {code : Option Code} {scalar : QuotedScalar}
    (h : readDouble start text gap code mark rest = .ok scalar) :
    scalar.cursor.rest.length ≤ rest.length := by
  fun_induction readDouble <;> grind

end QuotedScalar

end Provisioning.Yaml
