import Provisioning.Text.Visible

/-!
# Texts in quotes

Messages show a text in double quotes. A quote and a backslash get a backslash in
front, the usual controls have letters of their own, and what cannot be seen is spelled
by its code.
-/

namespace Provisioning.Text

/-- The code of a character, as messages spell it. -/
def spellCode (c : Char) : List Char :=
  '\\' :: 'u' :: '\x7b' :: (Nat.toDigits 16 c.toNat ++ ['\x7d'])

/-- One character as it stands inside quotes. -/
def quoteChar (c : Char) : List Char :=
  match c with
  | '"' => ['\\', '"']
  | '\\' => ['\\', '\\']
  | '\x00' => ['\\', '0']
  | '\t' => ['\\', 't']
  | '\n' => ['\\', 'n']
  | '\r' => ['\\', 'r']
  | c => if isVisible c then [c] else spellCode c

/-- A text in quotes. -/
def quoted (text : String) : String :=
  String.ofList ('"' :: (text.toList.flatMap quoteChar ++ ['"']))

end Provisioning.Text
