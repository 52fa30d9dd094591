/-!
# Numbers in positional notation

Digits in a base up to sixteen, the number that a text of digits spells, and the text
of a number in base ten.
-/

namespace Provisioning.Number

/-- The value of a digit in any base up to sixteen. -/
def digitValue? (c : Char) : Option Nat :=
  if '0' ≤ c && c ≤ '9' then some (c.toNat - 48)
  else if 'a' ≤ c && c ≤ 'f' then some (c.toNat - 87)
  else if 'A' ≤ c && c ≤ 'F' then some (c.toNat - 55)
  else none

/-- The number that `digits` spells behind digits that spell `above`. -/
def extend? (base above : Nat) : List Char → Option Nat
  | [] => some above
  | c :: digits =>
    match digitValue? c with
    | none => none
    | some digit => if digit < base then extend? base (above * base + digit) digits else none

/-- The number that at least one digit spells. -/
def ofDigits? (base : Nat) : List Char → Option Nat
  | [] => none
  | digits => extend? base 0 digits

/-- The decimal digits of a number. -/
def decimal (n : Nat) : List Char := Nat.toDigits 10 n

/-- The decimal text of an integer. -/
def signedDecimal (n : Int) : List Char :=
  if n < 0 then '-' :: decimal n.natAbs else decimal n.natAbs

end Provisioning.Number
