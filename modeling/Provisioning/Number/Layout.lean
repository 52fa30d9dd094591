import Provisioning.Number.Shortest

/-!
# How a floating-point number is written

The digits are those of `Shortest`; a `Layout` is everything else: where positional
notation ends, how an exponent is marked, and the words for what is not finite. A
number in positional notation always has a point.
-/

namespace Provisioning.Number

/-- The decisions of one way to write floating-point numbers. -/
structure Layout where
  /-- Is a number written positionally whose first digit stands this far left of the point? -/
  positional : Int → Bool
  /-- What stands in front of an exponent that is not negative. -/
  exponentSign : List Char
  infinity : List Char
  nan : List Char
  tie : Tie

namespace Layout

/-- Digits around a point that stands behind the first `point` of them. -/
def placePoint (digits : List Char) (point : Int) : List Char :=
  if point ≤ 0 then '0' :: '.' :: (List.replicate (-point).toNat '0' ++ digits)
  else
    let whole := digits.take point.toNat
    let padding := List.replicate (point.toNat - digits.length) '0'
    let part := digits.drop point.toNat
    whole ++ padding ++ '.' :: (if part.isEmpty then ['0'] else part)

/-- Digits with a power of ten behind them; `point` as in `placePoint`. -/
def withExponent (layout : Layout) (digits : List Char) (point : Int) : List Char :=
  let exponent := point - 1
  let mantissa := match digits with
    | [] => []
    | [digit] => [digit]
    | digit :: rest => digit :: '.' :: rest
  mantissa ++ 'e' :: ((if 0 ≤ exponent then layout.exponentSign else []) ++ signedDecimal exponent)

/-- A positive finite number. -/
def magnitude (layout : Layout) (mantissa : Nat) (exponent : Int) : List Char :=
  let shortest := Shortest.digits layout.tie mantissa exponent
  let digits := decimal shortest.digits
  let point := digits.length + shortest.power
  if layout.positional point then placePoint digits point else layout.withExponent digits point

/-- The text of a number. -/
def write (layout : Layout) : Binary64 → List Char
  | .nan => layout.nan
  | .infinite negative => (if negative then ['-'] else []) ++ layout.infinity
  | .finite negative mantissa exponent =>
    (if negative then ['-'] else []) ++
      if mantissa == 0 then ['0', '.', '0'] else layout.magnitude mantissa exponent

end Layout

end Provisioning.Number
