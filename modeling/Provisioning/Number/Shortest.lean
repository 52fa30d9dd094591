import Provisioning.Number.Binary64

/-!
# The fewest digits that read back

Between a number and each of its neighbours lies a midpoint; every decimal strictly
between the two midpoints reads back as the number, and so do the midpoints if its
mantissa is even. `Shortest.digits` takes the coarsest decimal grid with a point in
that interval, and of two such points the nearer. Only the grid points next to the
number need a look: they are the nearest on either side.
-/

namespace Provisioning.Number

/-- A decimal: an integer of `digits` times ten to the `power`. -/
structure Decimal where
  digits : Nat
  power : Int
deriving DecidableEq, Repr

/-- Which of two equally near decimals is taken. -/
inductive Tie where
  | even
  | up
deriving DecidableEq, Repr

namespace Shortest

/-- A number with the midpoints around it, all as multiples of one unit, and a grid of
the decimals with a given power. -/
structure Window where
  below : Nat
  value : Nat
  above : Nat
  grid : Nat
  closed : Bool
deriving DecidableEq, Repr

namespace Window

/-- The window of a finite number and the grid of decimals with this power. -/
def of (mantissa : Nat) (exponent power : Int) : Window :=
  let unit := exponent - 2
  let binary := if 0 ≤ unit then Nat.pow 2 unit.toNat else 1
  let fraction := if 0 ≤ unit then 1 else Nat.pow 2 (-unit).toNat
  let fine := if 0 ≤ power then 1 else Nat.pow 10 (-power).toNat
  let coarse := if 0 ≤ power then Nat.pow 10 power.toNat else 1
  let narrow := mantissa == Nat.pow 2 52 && exponent != Binary64.leastExponent
  let factor := binary * fine
  { below := (4 * mantissa - if narrow then 1 else 2) * factor
    value := 4 * mantissa * factor
    above := (4 * mantissa + 2) * factor
    grid := coarse * fraction
    closed := mantissa % 2 == 0 }

/-- Does this point read back as the number? -/
def accepts (window : Window) (point : Nat) : Bool :=
  if window.closed then window.below ≤ point && point ≤ window.above
  else window.below < point && point < window.above

/-- The nearest grid point that reads back as the number, counted in grid steps. -/
def nearest? (tie : Tie) (window : Window) : Option Nat :=
  let low := window.value / window.grid
  let high := low + 1
  let toLow := window.value - low * window.grid
  let toHigh := high * window.grid - window.value
  match 0 < low && window.accepts (low * window.grid), window.accepts (high * window.grid) with
  | false, false => none
  | true, false => some low
  | false, true => some high
  | true, true =>
    if toLow < toHigh then some low
    else if toHigh < toLow then some high
    else match tie with
      | .up => some high
      | .even => if low % 2 == 0 then some low else some high

end Window

/-- The power of ten above a quotient: the least that is greater than it. -/
def powerAbove (num den : Nat) : Int :=
  let guess := ((decimal num).length : Int) - ((decimal den).length : Int)
  let reaches :=
    if 0 ≤ guess then den * Nat.pow 10 guess.toNat ≤ num else den ≤ num * Nat.pow 10 (-guess).toNat
  if reaches then guess + 1 else guess

/-- Drops zeros at the end of the digits; at most `fuel` of them. -/
def trim : Nat → Decimal → Decimal
  | 0, decimal => decimal
  | fuel + 1, decimal =>
    if decimal.digits % 10 == 0 && decimal.digits != 0 then
      trim fuel ⟨decimal.digits / 10, decimal.power + 1⟩
    else decimal

/-- The first of the finer and finer grids, `fuel` at most, that has a point to offer. -/
def search (tie : Tie) (mantissa : Nat) (exponent : Int) : Nat → Int → Decimal
  | 0, power => ⟨0, power⟩
  | fuel + 1, power =>
    match (Window.of mantissa exponent power).nearest? tie with
    | some digits => ⟨digits, power⟩
    | none => search tie mantissa exponent fuel (power - 1)

/-- The fewest digits that read back as a positive finite number; seventeen always do. -/
def digits (tie : Tie) (mantissa : Nat) (exponent : Int) : Decimal :=
  let (num, den) := Binary64.toRatio mantissa exponent
  trim 17 (search tie mantissa exponent 17 (powerAbove num den - 1))

end Shortest

end Provisioning.Number
