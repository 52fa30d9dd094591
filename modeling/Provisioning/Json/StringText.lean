import Provisioning.Json.Cursor

/-!
# Strings of a JSON text

A string ends at a quote. A backslash begins an escape: one letter, or four
hexadecimal digits for a character of 16 bits, two of which in a row make a character
beyond. A string that is passed over is checked less: its codes need not be characters.
-/

namespace Provisioning.Json

/-- The character that one letter after a backslash stands for. -/
def unescape? : Char → Option Char
  | '"' => some '"'
  | '\\' => some '\\'
  | '/' => some '/'
  | 'b' => some '\x08'
  | 'f' => some '\x0c'
  | 'n' => some '\n'
  | 'r' => some '\r'
  | 't' => some '\t'
  | _ => none

/-- The number that four hexadecimal digits spell. -/
def hexCode? (a b c d : Char) : Option Nat := Number.ofDigits? 16 [a, b, c, d]

/-- The fault of a text that begins with no four hexadecimal digits. Four bytes are looked
at, whatever they are. -/
def hexFault {α : Type} (place : Place) (rest : List Char) : Except ReadFault α :=
  let bytes := rest.foldl (fun bytes c => bytes + c.utf8Size) 0
  if bytes < 4 then .error (.malformed .endInString (place.afterBytes bytes rest))
  else .error (.malformed .escapeInvalid (place.afterBytes 4 rest))

/-- Is this the first half of a pair of codes? -/
def isHighSurrogate (code : Nat) : Bool := 0xD800 ≤ code && code < 0xDC00

/-- Is this the second half of a pair of codes? -/
def isLowSurrogate (code : Nat) : Bool := 0xDC00 ≤ code && code < 0xE000

/-- The character of a pair of codes. -/
def pairChar (high low : Nat) : Char :=
  Char.ofNat (0x10000 + (high - 0xD800) * 0x400 + (low - 0xDC00))

/-- What a code makes of the one in front of it: a character, or the first half of a pair. -/
def joinCodes (high : Option Nat) (code : Nat) : Except Problem (Char ⊕ Nat) :=
  match high with
  | none =>
    if isLowSurrogate code then .error .surrogateAlone
    else if isHighSurrogate code then .ok (.inr code)
    else .ok (.inl (Char.ofNat code))
  | some high =>
    if isLowSurrogate code then .ok (.inl (pairChar high code)) else .error .surrogateAlone

/-- Reads a string on after `text` (the latest character first) and, if there is one, the
first half of a pair of codes. -/
def readStringFrom (text : List Char) (high : Option Nat) (place : Place) :
    List Char → Except ReadFault (String × Cursor)
  | [] => .error (.malformed .endInString place)
  | '\\' :: 'u' :: a :: b :: c :: d :: rest =>
    match hexCode? a b c d with
    | none => hexFault ⟨place.line, place.column + 2⟩ (a :: b :: c :: d :: rest)
    | some code =>
      let place : Place := ⟨place.line, place.column + 6⟩
      match joinCodes high code with
      | .error problem => .error (.malformed problem place)
      | .ok (.inl c) => readStringFrom (c :: text) none place rest
      | .ok (.inr high) => readStringFrom text (some high) place rest
  | '\\' :: letter :: rest =>
    if letter == 'u' then hexFault ⟨place.line, place.column + 2⟩ rest
    else if high.isSome then
      .error (.malformed .surrogateCutShort ((place.after '\\').afterBytes 1 (letter :: rest)))
    else match unescape? letter with
      | none =>
        .error (.malformed .escapeInvalid ((place.after '\\').afterBytes 1 (letter :: rest)))
      | some c => readStringFrom (c :: text) none ⟨place.line, place.column + 2⟩ rest
  | c :: rest =>
    if high.isSome then
      if c == '\\' then .error (.malformed .endInString (place.after c))
      else .error (.malformed .surrogateCutShort (place.afterBytes 1 (c :: rest)))
    else if c == '"' then .ok (String.ofList text.reverse, ⟨rest, place.after c⟩)
    else if c == '\\' then .error (.malformed .endInString (place.after c))
    else if c.toNat < 0x20 then .error (.malformed .controlInString (place.after c))
    else readStringFrom (c :: text) none (place.after c) rest

/-- Reads a string behind its opening quote. -/
def readString (cursor : Cursor) : Except ReadFault (String × Cursor) :=
  readStringFrom [] none cursor.place cursor.rest

/-- Passes over a string behind its opening quote. -/
def skipStringFrom (place : Place) : List Char → Except ReadFault Cursor
  | [] => .error (.malformed .endInString place)
  | '\\' :: 'u' :: a :: b :: c :: d :: rest =>
    match hexCode? a b c d with
    | none => hexFault ⟨place.line, place.column + 2⟩ (a :: b :: c :: d :: rest)
    | some _ => skipStringFrom ⟨place.line, place.column + 6⟩ rest
  | '\\' :: letter :: rest =>
    if letter == 'u' then hexFault ⟨place.line, place.column + 2⟩ rest
    else match unescape? letter with
      | none =>
        .error (.malformed .escapeInvalid ((place.after '\\').afterBytes 1 (letter :: rest)))
      | some _ => skipStringFrom ⟨place.line, place.column + 2⟩ rest
  | c :: rest =>
    if c == '"' then .ok ⟨rest, place.after c⟩
    else if c == '\\' then .error (.malformed .endInString (place.after c))
    else if c.toNat < 0x20 then .error (.malformed .controlInString place)
    else skipStringFrom (place.after c) rest

/-- Passes over a string behind its opening quote. -/
def skipString (cursor : Cursor) : Except ReadFault Cursor :=
  skipStringFrom cursor.place cursor.rest

end Provisioning.Json
