import Provisioning.Json.Cursor

/-!
# Numbers of a JSON text

A number without point and exponent is an integer if it fits 64 bits. Every other
number is a floating-point number, read by way of its first digits: those that fit 64
bits make the significand, which is rounded and then multiplied or divided by a power
of ten, rounded as well. So the last bit of a long number need not be the nearest.
-/

namespace Provisioning.Json

/-- The greatest significand. -/
def greatestSignificand : Nat := UInt64.size - 1

/-- A significand with as many more digits as fit, and the digits that do not. -/
def extendSignificand (significand : Nat) : List Char → Nat × List Char
  | [] => (significand, [])
  | c :: digits =>
    let extended := significand * 10 + (c.toNat - 48)
    if greatestSignificand < extended then (significand, c :: digits)
    else extendSignificand extended digits

/-- The significand times a power of ten; the multiplication may leave the range. -/
def scale? (significand : Nat) (power : Int) : Option Number.Binary64 :=
  let number := Number.Binary64.ofNat significand
  let ten (n : Nat) := Number.Binary64.ofDecimal false 1 n
  if 308 < power then if significand == 0 then some number else none
  else if 0 ≤ power then
    let product := number.mul (ten power.toNat)
    if product.isFinite then some product else none
  else if -308 ≤ power then some (number.div (ten (-power).toNat))
  else if -616 ≤ power then some ((number.div (ten 308)).div (ten (-power - 308).toNat))
  else some (.zero false)

/-- A floating-point number from its parts. -/
def assemble (negative : Bool) (significand : Nat) (power : Int) (cursor : Cursor) :
    Except ReadFault (Found × Cursor) :=
  match scale? significand power with
  | none => fault .numberOutOfRange cursor
  | some number => .ok (.float (if negative then number.neg else number), cursor)

/-- The greatest exponent that is read. -/
def greatestExponent : Nat := Nat.pow 2 31 - 1

/-- The value of an exponent, or the number of its digits up to the first that is too much. -/
def exponentOf (value read : Nat) : List Char → Nat ⊕ Nat
  | [] => .inl value
  | c :: digits =>
    let extended := value * 10 + (c.toNat - 48)
    if greatestExponent < extended then .inr (read + 1) else exponentOf extended (read + 1) digits

/-- The sign of an exponent. -/
def readExponentSign (cursor : Cursor) : Bool × Cursor :=
  match cursor.rest with
  | '+' :: rest => (false, cursor.past '+' rest)
  | '-' :: rest => (true, cursor.past '-' rest)
  | _ => (false, cursor)

/-- An exponent behind its mark, and the number it completes. A huge exponent makes zero
of any number or takes it out of the range. -/
def readExponent (negative : Bool) (significand : Nat) (power : Int) (cursor : Cursor) :
    Except ReadFault (Found × Cursor) :=
  let (down, cursor) := readExponentSign cursor
  match cursor.rest with
  | [] => fault .endInValue cursor
  | c :: _ =>
    if !c.isDigit then faultNext .numberInvalid cursor
    else
      let (digits, after) := cursor.takeDigits
      match exponentOf 0 0 digits with
      | .inl exponent =>
        assemble negative significand (if down then power - exponent else power + exponent) after
      | .inr read =>
        if significand != 0 && !down then
          .error (.malformed .numberOutOfRange
            ⟨cursor.place.line, cursor.place.column + read⟩)
        else .ok (.float (.zero negative), after)

/-- What may follow the digits of a number that is no integer: an exponent or nothing. -/
def readTail (negative : Bool) (significand : Nat) (power : Int) (cursor : Cursor) :
    Except ReadFault (Found × Cursor) :=
  match cursor.rest with
  | c :: rest =>
    if c == 'e' || c == 'E' then readExponent negative significand power (cursor.past c rest)
    else assemble negative significand power cursor
  | [] => assemble negative significand power cursor

/-- The digits behind a point, and what follows them. -/
def readFraction (negative : Bool) (significand : Nat) (power : Int) (cursor : Cursor) :
    Except ReadFault (Found × Cursor) :=
  let (digits, after) := cursor.takeDigits
  if digits.isEmpty then
    if cursor.rest.isEmpty then faultNext .endInValue cursor else faultNext .numberInvalid cursor
  else
    let (extended, unread) := extendSignificand significand digits
    readTail negative extended (power - (digits.length - unread.length)) after

/-- The integer of a number without point and exponent, or the floating-point number if
it has a minus sign and is zero or below the range. -/
def integer (negative : Bool) (magnitude : Nat) : Found :=
  if !negative then .int magnitude
  else if magnitude == 0 || Nat.pow 2 63 < magnitude then
    .float (Number.Binary64.ofNat magnitude).neg
  else .int (-magnitude)

/-- A number behind its minus sign, if it has one. -/
def readMagnitude (negative : Bool) (cursor : Cursor) : Except ReadFault (Found × Cursor) :=
  match cursor.rest with
  | [] => fault .endInValue cursor
  | c :: rest =>
    if !c.isDigit then faultNext .numberInvalid cursor
    else
      let (digits, after) :=
        if c == '0' then (['0'], cursor.past c rest) else cursor.takeDigits
      match after.rest with
      | next :: behind =>
        if c == '0' && next.isDigit then faultNext .numberInvalid after
        else
          let (significand, unread) := extendSignificand 0 digits
          let power : Int := unread.length
          if next == '.' then readFraction negative significand power (after.past next behind)
          else if next == 'e' || next == 'E' then
            readExponent negative significand power (after.past next behind)
          else if unread.isEmpty then .ok (integer negative significand, after)
          else assemble negative significand power after
      | [] =>
        let (significand, unread) := extendSignificand 0 digits
        if unread.isEmpty then .ok (integer negative significand, after)
        else assemble negative significand unread.length after

/-- A number. -/
def readNumber (cursor : Cursor) : Except ReadFault (Found × Cursor) :=
  match cursor.rest with
  | '-' :: rest => readMagnitude true (cursor.past '-' rest)
  | _ => readMagnitude false cursor

/-- Passes over the digits of a number in front of its point. -/
def skipWhole (cursor : Cursor) : Except ReadFault Cursor :=
  match cursor.rest with
  | [] => fault .numberInvalid cursor
  | c :: rest =>
    if !c.isDigit then faultNext .numberInvalid cursor
    else if c == '0' then
      let after := cursor.past c rest
      if after.takeDigits.1.isEmpty then .ok after else faultNext .numberInvalid after
    else .ok cursor.takeDigits.2

/-- Passes over a point and the digits behind it. -/
def skipFraction (cursor : Cursor) : Except ReadFault Cursor :=
  match cursor.rest with
  | '.' :: rest =>
    let (digits, after) := (cursor.past '.' rest).takeDigits
    if digits.isEmpty then faultNext .numberInvalid after else .ok after
  | _ => .ok cursor

/-- Passes over an exponent. -/
def skipExponent (cursor : Cursor) : Except ReadFault Cursor :=
  match cursor.rest with
  | [] => .ok cursor
  | c :: rest =>
    if c == 'e' || c == 'E' then
      let (_, cursor) := readExponentSign (cursor.past c rest)
      let (digits, after) := cursor.takeDigits
      if digits.isEmpty then faultNext .numberInvalid cursor else .ok after
    else .ok cursor

/-- Passes over a number, whatever its size. -/
def skipNumber (cursor : Cursor) : Except ReadFault Cursor := do
  let cursor := match cursor.rest with
    | '-' :: rest => cursor.past '-' rest
    | _ => cursor
  let cursor ← skipWhole cursor
  let cursor ← skipFraction cursor
  skipExponent cursor

end Provisioning.Json
