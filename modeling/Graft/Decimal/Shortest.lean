import Graft.Decimal.Binary64

/-!
# Shortest decimal numerals

The shortest decimal numeral that reads back to a given double, and among those
the nearest to it.

A numeral of `n` significant digits is a point of the decimal grid of that
fineness. If any point of a grid reads back to the double, one of the two points
next to the double's exact value does, so testing these two on the grids of 1,
2, 3, … digits finds a shortest numeral.
-/

namespace Graft.Decimal.Binary64

/-- The exact value of a positive magnitude and the interval of all reals that
round to it, as numerators over one denominator. -/
structure Neighbourhood where
  /-- The lower end. -/
  low : Nat
  /-- The value itself. -/
  value : Nat
  /-- The upper end. -/
  high : Nat
  /-- The denominator of all three. -/
  den : Nat
  /-- Whether the ends belong to the interval. -/
  closed : Bool

/-- The neighbourhood of a magnitude. The gap below a power of two is half as
wide as the one above, except next to the subnormal numbers. -/
def neighbourhood (magnitude : Nat) : Neighbourhood :=
  let m := significand magnitude
  let e := exponent magnitude - 2
  let scale := Nat.pow 2 e.toNat
  let lowGap := if m = exponentStep ∧ exponentStep < magnitude then 1 else 2
  ⟨(4 * m - lowGap) * scale, 4 * m * scale, (4 * m + 2) * scale, Nat.pow 2 (-e).toNat, m % 2 = 0⟩

/-- The number of decimal digits of `n`, by repeated division; zero has none. -/
def digitCount (n : Nat) : Nat :=
  if n = 0 then 0 else digitCount (n / 10) + 1
  termination_by n

/-- How many factors of ten `num` needs to reach `den`, at most `fuel`. -/
def tensToReach : Nat → Nat → Nat → Nat
  | 0, _, _ => 0
  | fuel + 1, num, den => if den ≤ num then 0 else tensToReach fuel (num * 10) den + 1

/-- The `k` with `10 ^ (k - 1) ≤ num / den < 10 ^ k`, for the positive values of
doubles. -/
def decimalExponent (num den : Nat) : Int :=
  if den ≤ num then digitCount (num / den) else 1 - (tensToReach 400 num den : Int)

/-- Whether a numerator lies in the interval of the neighbourhood. -/
def Neighbourhood.holds (hood : Neighbourhood) (scale point : Nat) : Bool :=
  if hood.closed then hood.low * scale ≤ point && point ≤ hood.high * scale
  else hood.low * scale < point && point < hood.high * scale

/-- The point of the grid of multiples of `10 ^ e` that reads back, if one does:
its multiple. Of two such points the nearer one counts, of two equally near ones
the even one. -/
def Neighbourhood.onGrid? (hood : Neighbourhood) (e : Int) : Option Nat :=
  let scale := Nat.pow 10 (-e).toNat
  let step := hood.den * Nat.pow 10 e.toNat
  let value := hood.value * scale
  let below := value / step
  match hood.holds scale (below * step), hood.holds scale ((below + 1) * step) with
  | true, false => some below
  | false, true => some (below + 1)
  | true, true => some (divRoundEven value step)
  | false, false => none

/-- The first grid with a point that reads back, from `n` digits on. -/
def Neighbourhood.shortestFrom (hood : Neighbourhood) (k : Int) : Nat → Nat → Nat × Int
  | 0, n => (hood.value / hood.den, k - n)
  | fuel + 1, n =>
    match hood.onGrid? (k - n) with
    | some digits => (digits, k - n)
    | none => hood.shortestFrom k fuel (n + 1)

/-- Digits and power of ten of the shortest numeral that reads back to a
positive magnitude. Seventeen digits always suffice. -/
def shortest (magnitude : Nat) : Nat × Int :=
  let hood := neighbourhood magnitude
  hood.shortestFrom (decimalExponent hood.value hood.den) 17 1

end Graft.Decimal.Binary64
