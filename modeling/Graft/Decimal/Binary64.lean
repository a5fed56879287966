/-!
# Finite binary floating-point numbers of 64 bits

A finite double is a sign and a *magnitude*, the 63 bits below the sign read as
one number. Magnitudes are ordered like the values they stand for, so rounding a
fraction to the nearest double is one division followed by one choice between
neighbours, and a carry out of the fraction bits moves to the next exponent by
itself. All arithmetic is exact arithmetic on natural numbers.

Main definitions:
- `Binary64.nearest`: the magnitude nearest to a fraction, ties to even;
- `Binary64.ofDecimal?`: the double that a decimal numeral denotes.
-/

namespace Graft.Decimal

/-- The quotient rounded to the nearest integer, a tie to the even one. -/
def divRoundEven (num den : Nat) : Nat :=
  let q := num / den
  let twice := 2 * (num % den)
  if twice < den then q
  else if den < twice then q + 1
  else if q % 2 = 0 then q else q + 1

/-- Rounding moves to the quotient or the number after it. -/
theorem divRoundEven_cases (num den : Nat) :
    divRoundEven num den = num / den ∨ divRoundEven num den = num / den + 1 := by
  unfold divRoundEven
  dsimp only
  repeat' split
  all_goals first | exact Or.inl rfl | exact Or.inr rfl

/-- A finite double. -/
structure Binary64 where
  /-- Whether the sign bit is set. -/
  negative : Bool
  /-- The bits below the sign. -/
  magnitude : Nat
  /-- The bits are not those of an infinity or of no number at all. -/
  isFinite : magnitude < 0x7FF0000000000000
  deriving DecidableEq

namespace Binary64

/-- The magnitude of infinity, the least that no finite double has. -/
def infinity : Nat := 0x7FF0000000000000

/-- The magnitudes of one binary exponent. -/
def exponentStep : Nat := Nat.pow 2 52

/-- Zero with the given sign. -/
def zero (negative : Bool) : Binary64 := ⟨negative, 0, by decide⟩

/-- The whole number `m` in the value `m * 2 ^ e` of a magnitude. -/
def significand (magnitude : Nat) : Nat :=
  if magnitude / exponentStep = 0 then magnitude
  else exponentStep + magnitude % exponentStep

/-- The exponent `e` in the value `m * 2 ^ e` of a magnitude. -/
def exponent (magnitude : Nat) : Int :=
  (max 1 (magnitude / exponentStep) : Nat) - 1075

/-- The power of two, at least `2 ^ (-1074)`, whose multiples are as fine as
doubles are near the positive fraction `num / den`. -/
def unitExponent (num den : Nat) : Int :=
  let guess : Int := (num.log2 : Int) - den.log2
  let atMost := num * Nat.pow 2 (-guess).toNat < den * Nat.pow 2 guess.toNat
  max (-1074) ((if atMost then guess - 1 else guess) - 52)

/-- The magnitude nearest to the fraction `num / den`, a tie to the even one. It
is `infinity` or more where the fraction is too large. -/
def nearest (num den : Nat) : Nat :=
  if num = 0 then 0
  else
    let e := unitExponent num den
    (e + 1074).toNat * exponentStep +
      divRoundEven (num * Nat.pow 2 (-e).toNat) (den * Nat.pow 2 e.toNat)

/-- The fraction `m * 2 ^ e` of a magnitude as numerator and denominator. -/
def fraction (magnitude : Nat) : Nat × Nat :=
  let e := exponent magnitude
  (significand magnitude * Nat.pow 2 e.toNat, Nat.pow 2 (-e).toNat)

/-- The nearest magnitude to the product of two magnitudes. -/
def mul (a b : Nat) : Nat :=
  nearest ((fraction a).1 * (fraction b).1) ((fraction a).2 * (fraction b).2)

/-- The nearest magnitude to the quotient of two magnitudes. -/
def div (a b : Nat) : Nat :=
  nearest ((fraction a).1 * (fraction b).2) ((fraction a).2 * (fraction b).1)

/-- The magnitude nearest to a power of ten. -/
def powerOfTen (n : Nat) : Nat := nearest (Nat.pow 10 n) 1

/-- Divides a magnitude by `10 ^ n`, in steps of at most `10 ^ 308`. -/
def divPowerOfTen (a n : Nat) : Nat :=
  if n ≤ 308 then div a (powerOfTen n)
  else if a = 0 then 0
  else divPowerOfTen (div a (powerOfTen 308)) (n - 308)
  termination_by n

/-- The double for the numeral `digits * 10 ^ e`. The digits are rounded to a
double first, then multiplied or divided by the power of ten. There is none
where the result is too large. -/
def ofDecimal? (negative : Bool) (digits : Nat) (e : Int) : Option Binary64 :=
  let start := nearest digits 1
  if e < 0 then
    let magnitude := divPowerOfTen start (-e).toNat
    if h : magnitude < infinity then some ⟨negative, magnitude, h⟩ else none
  else if start = 0 then some (zero negative)
  else if 308 < e then none
  else
    let magnitude := mul start (powerOfTen e.toNat)
    if h : magnitude < infinity then some ⟨negative, magnitude, h⟩ else none

/-- Equality of values: the two zeros are one value. -/
def same (a b : Binary64) : Bool :=
  (a.magnitude = 0 && b.magnitude = 0) || a = b

@[simp] theorem same_self (a : Binary64) : a.same a = true := by simp [same]

end Binary64

end Graft.Decimal
