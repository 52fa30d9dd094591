import Provisioning.Number.Digits

/-!
# Binary floating point of 64 bits

A finite number is a sign, a mantissa below 2^53 and an exponent of two, in the one
form in which the mantissa is at least 2^52 or the exponent is the least, -1074.
Every operation is the exact rational one followed by `ofRatio`, which rounds to the
nearest number, a tie going to the even mantissa.
-/

namespace Provisioning.Number

/-- A floating-point number of 64 bits; what is not a number is one value. -/
inductive Binary64 where
  | finite (negative : Bool) (mantissa : Nat) (exponent : Int)
  | infinite (negative : Bool)
  | nan
deriving DecidableEq, Repr

namespace Binary64

/-- The least exponent. -/
def leastExponent : Int := -1074

/-- The greatest exponent of a finite number. -/
def greatestExponent : Int := 971

/-- Zero of either sign. -/
def zero (negative : Bool) : Binary64 := .finite negative 0 leastExponent

/-- A quotient of naturals, divided by a power of two: a new quotient. -/
def shiftDown (num den : Nat) (exponent : Int) : Nat × Nat :=
  if 0 ≤ exponent then (num, den * Nat.pow 2 exponent.toNat)
  else (num * Nat.pow 2 (-exponent).toNat, den)

/-- A quotient rounded to the nearest natural, a tie going to the even one. -/
def roundQuotient (num den : Nat) : Nat :=
  let quotient := num / den
  let remainder := num % den
  if den < 2 * remainder || (2 * remainder == den && quotient % 2 == 1) then quotient + 1
  else quotient

/-- The exponent at which the integral part of a quotient has 53 bits, or the least one. -/
def exponentFor (num den : Nat) : Int :=
  let low := max ((num.log2 : Int) - (den.log2 : Int) - 53) leastExponent
  let (num, den) := shiftDown num den low
  if num / den < Nat.pow 2 53 then low else low + 1

/-- The number nearest to a quotient. -/
def ofRatio (negative : Bool) (num den : Nat) : Binary64 :=
  if num == 0 then zero negative
  else
    let exponent := exponentFor num den
    let (num, den) := shiftDown num den exponent
    let mantissa := roundQuotient num den
    let (mantissa, exponent) :=
      if mantissa == Nat.pow 2 53 then (Nat.pow 2 52, exponent + 1) else (mantissa, exponent)
    if greatestExponent < exponent then .infinite negative else .finite negative mantissa exponent

/-- The number nearest to a natural number. -/
def ofNat (n : Nat) : Binary64 := ofRatio false n 1

/-- The number nearest to `digits` times a power of ten. Far beyond the range of finite
numbers the power is not computed. -/
def ofDecimal (negative : Bool) (digits : Nat) (power : Int) : Binary64 :=
  let size := (decimal digits).length + power
  if digits == 0 || size < -400 then zero negative
  else if 400 < size then .infinite negative
  else if 0 ≤ power then ofRatio negative (digits * Nat.pow 10 power.toNat) 1
  else ofRatio negative digits (Nat.pow 10 (-power).toNat)

/-- A finite number's magnitude as a quotient. -/
def toRatio (mantissa : Nat) (exponent : Int) : Nat × Nat :=
  if 0 ≤ exponent then (mantissa * Nat.pow 2 exponent.toNat, 1)
  else (mantissa, Nat.pow 2 (-exponent).toNat)

/-- The product of two numbers. -/
def mul : Binary64 → Binary64 → Binary64
  | finite s m e, finite t n f =>
    let (a, b) := toRatio m e
    let (c, d) := toRatio n f
    ofRatio (s != t) (a * c) (b * d)
  | infinite s, infinite t => infinite (s != t)
  | infinite s, finite t n _ | finite t n _, infinite s => if n == 0 then nan else infinite (s != t)
  | nan, _ | _, nan => nan

/-- The quotient of two numbers. -/
def div : Binary64 → Binary64 → Binary64
  | finite s m e, finite t n f =>
    if n == 0 then if m == 0 then nan else infinite (s != t)
    else
      let (a, b) := toRatio m e
      let (c, d) := toRatio n f
      ofRatio (s != t) (a * d) (b * c)
  | infinite s, finite t _ _ => infinite (s != t)
  | finite s _ _, infinite t => zero (s != t)
  | infinite _, infinite _ => nan
  | nan, _ | _, nan => nan

/-- The number with the opposite sign. -/
def neg : Binary64 → Binary64
  | finite s m e => finite (!s) m e
  | infinite s => infinite (!s)
  | nan => nan

/-- Is this a finite number? -/
def isFinite : Binary64 → Bool
  | finite _ _ _ => true
  | _ => false

/-- Is this zero, of either sign? -/
def isZero : Binary64 → Bool
  | finite _ m _ => m == 0
  | _ => false

/-- Equality of values: the zeros are equal, and so is whatever is not a number. -/
def same (x y : Binary64) : Bool := (x.isZero && y.isZero) || x == y

end Binary64

end Provisioning.Number
