import Graft.Decimal.Shortest
import Mathlib.Algebra.Order.Field.Power
import Mathlib.Order.Monotone.Basic
import Mathlib.Tactic.FieldSimp
import Mathlib.Tactic.Linarith
import Mathlib.Tactic.NormNum
import Mathlib.Tactic.Positivity
import Mathlib.Tactic.Ring

/-!
# The shortest numeral of a double

Between two neighbouring magnitudes lies the point halfway; what lies between
two such points rounds to the magnitude between them, and the points themselves
round to the even one. So no number rounds to two magnitudes. The shortest
numeral of a magnitude lies in its interval: a grid of seventeen digits is finer
than the interval is wide, so the search for one always ends.

Magnitudes are the bits of a double without its sign, so that neighbours differ
by one. `RoundsTo` is stated over the rationals and mentions only the points
halfway; it does not say how rounding is computed. `Neighbourhood`, by contrast,
is what the search of `Graft.Decimal.Shortest` works with: the value and the two
ends of the interval as natural numbers over one denominator. The first part of
the module shows the two to agree (`neighbourhood_value`, `neighbourhood_low`,
`neighbourhood_high`), with the case in mind where a magnitude is the first with
its exponent and the interval below it is only half as wide.

The second part is about grids, the multiples of a power of ten. The test of the
search finds a point of the grid in the interval if there is one (`holds_iff`,
`exists_onGrid?`). A grid with seventeen digits before the point has one: its
points are closer than the interval is wide (`value_lt_width` against
`pow_decimalExponent_le`). So the search, which goes through finer and finer
grids, never comes to its end without a numeral, and the default of its last
branch is never taken.

Main statements:
- `halfway_strictMono`: the points halfway are ordered like the magnitudes;
- `eq_of_roundsTo`: no number rounds to two magnitudes;
- `roundsTo_shortest`: the shortest numeral of a magnitude rounds to it.
-/

namespace Graft.Decimal.Binary64

/-! ## Neighbours -/

/-- The point halfway between a magnitude and the next one. -/
def halfway (magnitude : Nat) : ℚ :=
  (2 * significand magnitude + 1) * 2 ^ (exponent magnitude - 1)

theorem exponentStep_eq : exponentStep = 4503599627370496 := rfl

/-- The next magnitude has the next significand, or is the first one of the next
exponent. -/
theorem succ_cases (magnitude : Nat) :
    (exponent (magnitude + 1) = exponent magnitude ∧
      significand (magnitude + 1) = significand magnitude + 1) ∨
    (exponent (magnitude + 1) = exponent magnitude + 1 ∧
      significand magnitude + 1 = 2 * exponentStep ∧
      significand (magnitude + 1) = exponentStep ∧ exponentStep < magnitude + 1) := by
  unfold exponent significand
  rw [exponentStep_eq]
  split <;> split <;> omega

/-- Each point halfway lies below the next. Where the exponent grows, the last
point before it still does. -/
theorem halfway_lt_succ (magnitude : Nat) : halfway magnitude < halfway (magnitude + 1) := by
  have hpow : (0 : ℚ) < 2 ^ (exponent magnitude - 1) := zpow_pos (by norm_num) _
  unfold halfway
  rcases succ_cases magnitude with ⟨hexponent, hsignificand⟩ | ⟨hexponent, hlast, hfirst, -⟩
  · rw [hexponent, hsignificand]
    push_cast
    nlinarith
  · have hlast : (significand magnitude : ℚ) + 1 = 2 * exponentStep := by exact_mod_cast hlast
    have hstep : (0 : ℚ) < exponentStep := by rw [exponentStep_eq]; norm_num
    have hdouble : (2 : ℚ) ^ (exponent magnitude + 1 - 1) = 2 * 2 ^ (exponent magnitude - 1) := by
      rw [show exponent magnitude + 1 - 1 = 1 + (exponent magnitude - 1) by omega,
        zpow_add₀ (by norm_num), zpow_one]
    rw [hexponent, hfirst, hdouble]
    nlinarith

/-- The points halfway are ordered like the magnitudes. -/
theorem halfway_strictMono : StrictMono halfway := strictMono_nat_of_lt_succ halfway_lt_succ

theorem halfway_pos (magnitude : Nat) : 0 < halfway magnitude := by
  have hpow : (0 : ℚ) < 2 ^ (exponent magnitude - 1) := zpow_pos (by norm_num) _
  unfold halfway
  positivity

/-- Whether a number rounds to a magnitude other than zero: it lies between the
points halfway to its neighbours, which count only if the magnitude is even. -/
structure RoundsTo (magnitude : Nat) (x : ℚ) : Prop where
  low : halfway (magnitude - 1) ≤ x
  high : x ≤ halfway magnitude
  inside : significand magnitude % 2 ≠ 0 → halfway (magnitude - 1) < x ∧ x < halfway magnitude

/-- The intervals of two magnitudes meet in a point halfway at most, and of two
neighbours only one is even. -/
theorem not_roundsTo_both {m n : Nat} {x : ℚ} (hlt : m < n) (hm : RoundsTo m x)
    (hn : RoundsTo n x) : False := by
  have hle : halfway m ≤ halfway (n - 1) := halfway_strictMono.monotone (by omega)
  have heq : halfway m = halfway (n - 1) := le_antisymm hle (le_trans hn.low hm.high)
  obtain rfl : n = m + 1 := by
    have := halfway_strictMono.injective heq
    omega
  -- of two neighbours one is odd, and the point halfway does not round to it
  have hx : x = halfway m := le_antisymm hm.high (heq ▸ hn.low)
  have hodd : significand m % 2 ≠ 0 ∨ significand (m + 1) % 2 ≠ 0 := by
    have hstep := exponentStep_eq
    rcases succ_cases m with ⟨-, h⟩ | ⟨-, h, -, -⟩ <;> omega
  rcases hodd with hodd | hodd
  · exact absurd hx (ne_of_lt (hm.inside hodd).2)
  · exact absurd hx (ne_of_gt (hn.inside hodd).1)

/-- No number rounds to two magnitudes. -/
theorem eq_of_roundsTo {m n : Nat} {x : ℚ} (hm : RoundsTo m x) (hn : RoundsTo n x) : m = n := by
  rcases Nat.lt_trichotomy m n with hlt | heq | hgt
  · exact (not_roundsTo_both hlt hm hn).elim
  · exact heq
  · exact (not_roundsTo_both hgt hn hm).elim

/-- Numbers that round to a magnitude are positive. -/
theorem RoundsTo.pos {magnitude : Nat} {x : ℚ} (h : RoundsTo magnitude x) : 0 < x :=
  lt_of_lt_of_le (halfway_pos _) h.low

/-! ## Neighbourhoods as intervals -/

/-- A fraction of two powers of a base, of which one is no power at all. -/
theorem scaled_div (base : Nat) (hbase : 0 < base) (a : Nat) (e : Int) :
    ((a * Nat.pow base e.toNat : Nat) : ℚ) / ((Nat.pow base (-e).toNat : Nat) : ℚ) =
      a * (base : ℚ) ^ e := by
  have hne : (base : ℚ) ≠ 0 := by exact_mod_cast hbase.ne'
  -- one of the two powers is that of zero, by the sign of the exponent
  rcases Int.le_total 0 e with hpos | hneg
  · obtain ⟨n, rfl⟩ := Int.eq_ofNat_of_zero_le hpos
    have hzero : (-(n : Int)).toNat = 0 := by omega
    rw [hzero, Int.toNat_natCast, zpow_natCast]
    show ((a * base ^ n : Nat) : ℚ) / ((base ^ 0 : Nat) : ℚ) = _
    push_cast
    rw [pow_zero, div_one]
  · obtain ⟨n, hn⟩ := Int.eq_ofNat_of_zero_le (Int.neg_nonneg_of_nonpos hneg)
    obtain rfl : e = -(n : Int) := by omega
    have hzero : (-(n : Int)).toNat = 0 := by omega
    have hself : (-(-(n : Int))).toNat = n := by omega
    rw [hzero, hself, zpow_neg, zpow_natCast]
    show ((a * base ^ 0 : Nat) : ℚ) / ((base ^ n : Nat) : ℚ) = _
    push_cast
    rw [pow_zero, mul_one, div_eq_mul_inv]

theorem significand_pos {magnitude : Nat} (h : 0 < magnitude) : 0 < significand magnitude := by
  unfold significand
  rw [exponentStep_eq]
  split <;> omega

/-- A significand has fifty-three bits at most. -/
theorem significand_lt (magnitude : Nat) : significand magnitude < 2 * exponentStep := by
  unfold significand
  rw [exponentStep_eq]
  split <;> omega

theorem quarter (a : ℚ) (e : Int) : a * 2 ^ (e - 2) = a / 4 * 2 ^ e := by
  rw [zpow_sub₀ (by norm_num)]
  norm_num
  ring

theorem half (a : ℚ) (e : Int) : a * 2 ^ (e - 1) = a / 2 * 2 ^ e := by
  rw [zpow_sub₀ (by norm_num)]
  norm_num
  ring

/-- The value of the neighbourhood is that of the magnitude. -/
theorem neighbourhood_value (magnitude : Nat) :
    ((neighbourhood magnitude).value : ℚ) / (neighbourhood magnitude).den =
      significand magnitude * 2 ^ exponent magnitude := by
  have h := scaled_div 2 (by decide) (4 * significand magnitude) (exponent magnitude - 2)
  rw [show ((2 : Nat) : ℚ) = 2 by norm_num, quarter] at h
  refine h.trans ?_
  push_cast
  ring

/-- Its upper end is the point halfway to the next magnitude. -/
theorem neighbourhood_high (magnitude : Nat) :
    ((neighbourhood magnitude).high : ℚ) / (neighbourhood magnitude).den = halfway magnitude := by
  have h := scaled_div 2 (by decide) (4 * significand magnitude + 2) (exponent magnitude - 2)
  rw [show ((2 : Nat) : ℚ) = 2 by norm_num, quarter] at h
  refine h.trans ?_
  rw [halfway, half]
  push_cast
  ring

/-- Its lower end is the point halfway to the magnitude before, which is nearer
where the exponent begins. -/
theorem neighbourhood_low {magnitude : Nat} (h : 0 < magnitude) :
    ((neighbourhood magnitude).low : ℚ) / (neighbourhood magnitude).den =
      halfway (magnitude - 1) := by
  obtain ⟨m, rfl⟩ := Nat.exists_eq_succ_of_ne_zero h.ne'
  have hcases := succ_cases m
  have hstep := exponentStep_eq
  have hpos := significand_pos h
  -- the gap below the first magnitude of an exponent is half as wide
  have hgap : (significand (m + 1) = exponentStep ∧ exponentStep < m + 1) ↔
      exponent (m + 1) = exponent m + 1 := by
    have hsmall : significand m + 1 = exponentStep → m + 1 ≤ exponentStep := by
      unfold significand
      rw [exponentStep_eq]
      split <;> omega
    omega
  rw [Nat.succ_eq_add_one, Nat.add_sub_cancel]
  by_cases hnext : exponent (m + 1) = exponent m + 1
  · have hlow : (neighbourhood (m + 1)).low =
        (4 * significand (m + 1) - 1) * Nat.pow 2 (exponent (m + 1) - 2).toNat := by
      unfold neighbourhood
      dsimp only
      rw [if_pos (hgap.mpr hnext)]
    have hdiv := scaled_div 2 (by decide) (4 * significand (m + 1) - 1) (exponent (m + 1) - 2)
    rw [hlow]
    refine hdiv.trans ?_
    rcases hcases with ⟨hsame, -⟩ | ⟨-, hlast, hfirst, -⟩
    · omega
    · have hnum : 4 * significand (m + 1) - 1 = 2 * significand m + 1 := by omega
      rw [hnum, hnext, halfway, show exponent m + 1 - 2 = exponent m - 1 by omega]
      push_cast
      rfl
  · have hlow : (neighbourhood (m + 1)).low =
        (4 * significand (m + 1) - 2) * Nat.pow 2 (exponent (m + 1) - 2).toNat := by
      unfold neighbourhood
      dsimp only
      rw [if_neg fun h => hnext (hgap.mp h)]
    have hdiv := scaled_div 2 (by decide) (4 * significand (m + 1) - 2) (exponent (m + 1) - 2)
    rw [hlow]
    refine hdiv.trans ?_
    rcases hcases with ⟨hsame, hsucc⟩ | ⟨hother, -⟩
    · have hnum : 4 * significand (m + 1) - 2 = 4 * significand m + 2 := by omega
      rw [hnum, hsame, halfway, show ((2 : Nat) : ℚ) = 2 by norm_num, quarter, half]
      push_cast
      ring
    · exact absurd hother hnext

theorem den_pos (magnitude : Nat) : 0 < (neighbourhood magnitude).den := Nat.pow_pos (by decide)

theorem value_pos {magnitude : Nat} (h : 0 < magnitude) : 0 < (neighbourhood magnitude).value := by
  have hsignificand := significand_pos h
  exact Nat.mul_pos (by omega) (Nat.pow_pos (by decide))

/-- The value of a magnitude lies strictly between the points halfway to its
neighbours. -/
theorem value_between {magnitude : Nat} (h : 0 < magnitude) :
    halfway (magnitude - 1) < significand magnitude * 2 ^ exponent magnitude ∧
      (significand magnitude * 2 ^ exponent magnitude : ℚ) < halfway magnitude := by
  have hden : (0 : ℚ) < (neighbourhood magnitude).den := by exact_mod_cast den_pos magnitude
  have hpow : 0 < Nat.pow 2 (exponent magnitude - 2).toNat := Nat.pow_pos (by decide)
  have hsignificand := significand_pos h
  rw [← neighbourhood_value, ← neighbourhood_low h, ← neighbourhood_high]
  constructor
  · refine (div_lt_div_iff_of_pos_right hden).mpr (Nat.cast_lt.mpr ?_)
    refine Nat.mul_lt_mul_of_pos_right ?_ hpow
    show 4 * significand magnitude - (if _ then 1 else 2) < 4 * significand magnitude
    split <;> omega
  · refine (div_lt_div_iff_of_pos_right hden).mpr (Nat.cast_lt.mpr ?_)
    exact Nat.mul_lt_mul_of_pos_right (by omega) hpow

/-! ## Grids -/

/-- Whether a fraction lies below a point of a grid is decided with natural
numbers, both sides multiplied out. -/
theorem le_point_iff {den : Nat} (hden : 0 < den) (a n : Nat) (e : Int) :
    a * Nat.pow 10 (-e).toNat ≤ n * (den * Nat.pow 10 e.toNat) ↔ (a : ℚ) / den ≤ n * 10 ^ e := by
  have hscale : (0 : ℚ) < (Nat.pow 10 (-e).toNat : Nat) := by exact_mod_cast Nat.pow_pos (by decide)
  have hdenq : (0 : ℚ) < den := by exact_mod_cast hden
  have hpoint := scaled_div 10 (by decide) n e
  rw [show ((10 : Nat) : ℚ) = 10 by norm_num] at hpoint
  rw [← hpoint, div_le_div_iff₀ hdenq hscale, ← Nat.cast_mul, ← Nat.cast_mul, Nat.cast_le,
    Nat.mul_assoc, Nat.mul_comm den]

theorem point_le_iff {den : Nat} (hden : 0 < den) (a n : Nat) (e : Int) :
    n * (den * Nat.pow 10 e.toNat) ≤ a * Nat.pow 10 (-e).toNat ↔ n * 10 ^ e ≤ (a : ℚ) / den := by
  have hscale : (0 : ℚ) < (Nat.pow 10 (-e).toNat : Nat) := by exact_mod_cast Nat.pow_pos (by decide)
  have hdenq : (0 : ℚ) < den := by exact_mod_cast hden
  have hpoint := scaled_div 10 (by decide) n e
  rw [show ((10 : Nat) : ℚ) = 10 by norm_num] at hpoint
  rw [← hpoint, div_le_div_iff₀ hscale hdenq, ← Nat.cast_mul, ← Nat.cast_mul, Nat.cast_le,
    Nat.mul_assoc, Nat.mul_comm den]

/-- The test for the points of a grid finds those that round to the magnitude. -/
theorem holds_iff {magnitude : Nat} (h : 0 < magnitude) (n : Nat) (e : Int) :
    (neighbourhood magnitude).holds (Nat.pow 10 (-e).toNat)
      (n * ((neighbourhood magnitude).den * Nat.pow 10 e.toNat)) = true ↔
    RoundsTo magnitude (n * 10 ^ e) := by
  have hden := den_pos magnitude
  have hlow := le_point_iff hden (neighbourhood magnitude).low n e
  have hhigh := point_le_iff hden (neighbourhood magnitude).high n e
  have hlow' := point_le_iff hden (neighbourhood magnitude).low n e
  have hhigh' := le_point_iff hden (neighbourhood magnitude).high n e
  rw [neighbourhood_low h] at hlow hlow'
  rw [neighbourhood_high] at hhigh hhigh'
  have hclosed : (neighbourhood magnitude).closed = decide (significand magnitude % 2 = 0) := rfl
  -- both ends belong to the interval if the significand is even, and neither does if it is odd
  unfold Neighbourhood.holds
  rw [hclosed]
  by_cases heven : significand magnitude % 2 = 0
  · rw [if_pos (decide_eq_true heven), Bool.and_eq_true, decide_eq_true_iff, decide_eq_true_iff,
      hlow, hhigh]
    exact ⟨fun hin => ⟨hin.1, hin.2, fun hodd => absurd heven hodd⟩, fun hin => ⟨hin.low, hin.high⟩⟩
  · rw [if_neg (by simpa using heven), Bool.and_eq_true, decide_eq_true_iff, decide_eq_true_iff,
      ← Nat.not_le, ← Nat.not_le, hlow', hhigh', not_le, not_le]
    exact ⟨fun hin => ⟨hin.1.le, hin.2.le, fun _ => hin⟩, fun hin => hin.inside heven⟩

/-- What is found on a grid rounds to the magnitude. -/
theorem roundsTo_of_onGrid? {magnitude : Nat} (h : 0 < magnitude) {e : Int} {digits : Nat}
    (hgrid : (neighbourhood magnitude).onGrid? e = some digits) :
    RoundsTo magnitude (digits * 10 ^ e) := by
  unfold Neighbourhood.onGrid? at hgrid
  dsimp only at hgrid
  split at hgrid
  next hbelow _ =>
    obtain rfl := Option.some.inj hgrid
    exact (holds_iff h _ e).mp hbelow
  next _ habove =>
    obtain rfl := Option.some.inj hgrid
    exact (holds_iff h _ e).mp habove
  next hbelow habove =>
    obtain rfl := Option.some.inj hgrid
    rcases divRoundEven_cases _ _ with hdigits | hdigits
    · rw [hdigits]
      exact (holds_iff h _ e).mp hbelow
    · rw [hdigits]
      exact (holds_iff h _ e).mp habove
  next => cases hgrid

/-- A grid that is finer than the interval of a magnitude is wide has a point in
it. -/
theorem exists_onGrid? {magnitude : Nat} (h : 0 < magnitude) {e : Int}
    (hfine : (10 : ℚ) ^ e < halfway magnitude - halfway (magnitude - 1)) :
    ∃ digits, (neighbourhood magnitude).onGrid? e = some digits := by
  obtain ⟨hlow, hhigh⟩ := value_between h
  have hden := den_pos magnitude
  have hstep : 0 < (neighbourhood magnitude).den * Nat.pow 10 e.toNat :=
    Nat.mul_pos hden (Nat.pow_pos (by decide))
  -- the value lies between the two points that are tried
  have hfloor := (point_le_iff hden _ _ e).mp (Nat.div_mul_le_self
    ((neighbourhood magnitude).value * Nat.pow 10 (-e).toNat)
    ((neighbourhood magnitude).den * Nat.pow 10 e.toNat))
  have hceil := Nat.lt_mul_div_succ
    ((neighbourhood magnitude).value * Nat.pow 10 (-e).toNat) hstep
  rw [Nat.mul_comm (_ * _) (_ + 1), ← Nat.not_le, point_le_iff hden, not_le,
    neighbourhood_value] at hceil
  rw [neighbourhood_value] at hfloor
  unfold Neighbourhood.onGrid?
  dsimp only
  split
  next => exact ⟨_, rfl⟩
  next => exact ⟨_, rfl⟩
  next => exact ⟨_, rfl⟩
  next hbelow habove =>
    -- else both ends of the interval lie between these points as well
    exfalso
    rw [← Bool.not_eq_true, holds_iff h] at hbelow habove
    have hleft : ((_ : Nat) : ℚ) * 10 ^ e ≤ halfway (magnitude - 1) :=
      not_lt.mp fun hin => hbelow ⟨hin.le, (hfloor.trans_lt hhigh).le, fun _ =>
        ⟨hin, hfloor.trans_lt hhigh⟩⟩
    have hright : halfway magnitude ≤ ((_ + 1 : Nat) : ℚ) * 10 ^ e :=
      not_lt.mp fun hin => habove ⟨(hlow.trans hceil).le, hin.le, fun _ => ⟨hlow.trans hceil, hin⟩⟩
    push_cast at hright
    linarith

/-! ## Seventeen digits -/

/-- A number with some digits is no smaller than the power of ten with as many. -/
theorem pow_digitCount_le {n : Nat} (h : 0 < n) : 10 ^ (digitCount n - 1) ≤ n := by
  induction n using Nat.strongRecOn with
  | _ n ih =>
    rw [digitCount, if_neg (by omega), Nat.add_sub_cancel]
    by_cases hsmall : n < 10
    · rw [Nat.div_eq_of_lt hsmall, digitCount, if_pos rfl]
      omega
    · have hrest := ih (n / 10) (by omega) (by omega)
      have hcount : 0 < digitCount (n / 10) := by
        rw [digitCount, if_neg (by omega)]
        omega
      obtain ⟨c, hc⟩ := Nat.exists_eq_succ_of_ne_zero hcount.ne'
      rw [hc, Nat.succ_sub_one] at hrest
      rw [hc, Nat.pow_succ]
      omega

/-- Multiplying by ten until a bound is reached ends beyond the bound, if it
ends in time. -/
theorem le_tensToReach (den : Nat) :
    ∀ (fuel num : Nat), den ≤ num * 10 ^ fuel → den ≤ num * 10 ^ tensToReach fuel num den := by
  intro fuel
  induction fuel with
  | zero => exact fun num h => h
  | succ fuel ih =>
    intro num h
    unfold tensToReach
    split
    next hreached => rwa [Nat.pow_zero, Nat.mul_one]
    next =>
      have hrest := ih (num * 10) (by rwa [Nat.mul_assoc, ← Nat.pow_succ'])
      rwa [Nat.pow_succ', ← Nat.mul_assoc]

/-- Three binary digits are worth less than one decimal digit. -/
theorem two_pow_le_ten_pow {k n : Nat} (h : k ≤ 3 * n) : 2 ^ k ≤ 10 ^ n :=
  calc 2 ^ k ≤ 2 ^ (3 * n) := Nat.pow_le_pow_right (by decide) h
    _ = (2 ^ 3) ^ n := Nat.pow_mul 2 3 n
    _ ≤ 10 ^ n := Nat.pow_le_pow_left (by decide) n

theorem den_le (magnitude : Nat) : (neighbourhood magnitude).den ≤ 10 ^ 400 := by
  refine two_pow_le_ten_pow ?_
  unfold exponent
  omega

/-- The decimal exponent of a magnitude is not too large. -/
theorem pow_decimalExponent_le {magnitude : Nat} (h : 0 < magnitude) :
    (10 : ℚ) ^ (decimalExponent (neighbourhood magnitude).value (neighbourhood magnitude).den - 1) ≤
      significand magnitude * 2 ^ exponent magnitude := by
  have hden := den_pos magnitude
  have hvalue := value_pos h
  have hdenq : (0 : ℚ) < (neighbourhood magnitude).den := by exact_mod_cast hden
  rw [← neighbourhood_value, le_div_iff₀ hdenq]
  unfold decimalExponent
  -- values of one and more are measured by their digits, those below one by the tens they lack
  split
  next hle =>
    have hquotient := Nat.div_pos hle hden
    have hcount : 0 < digitCount
        ((neighbourhood magnitude).value / (neighbourhood magnitude).den) := by
      rw [digitCount, if_neg (by omega)]
      omega
    have hpow := Nat.le_trans (Nat.mul_le_mul_right _ (pow_digitCount_le hquotient))
      (Nat.div_mul_le_self _ (neighbourhood magnitude).den)
    obtain ⟨c, hc⟩ := Nat.exists_eq_succ_of_ne_zero hcount.ne'
    rw [hc, Nat.succ_sub_one] at hpow
    rw [hc, Nat.succ_eq_add_one, Nat.cast_add, Nat.cast_one, Int.add_sub_cancel, zpow_natCast]
    exact_mod_cast hpow
  next =>
    have hreach := le_tensToReach (neighbourhood magnitude).den 400 (neighbourhood magnitude).value
      (Nat.le_trans (den_le magnitude) (Nat.le_mul_of_pos_left _ hvalue))
    have hten : (0 : ℚ) < 10 ^ tensToReach 400 (neighbourhood magnitude).value
        (neighbourhood magnitude).den := by positivity
    rw [show (1 - (tensToReach 400 (neighbourhood magnitude).value
      (neighbourhood magnitude).den : Int) - 1) = -(tensToReach 400 (neighbourhood magnitude).value
      (neighbourhood magnitude).den : Int) by omega, zpow_neg, zpow_natCast, inv_mul_le_iff₀ hten]
    rw [Nat.mul_comm] at hreach
    exact_mod_cast hreach

/-- The interval of a magnitude is wider than a part in `10 ^ 16` of its value. -/
theorem value_lt_width {magnitude : Nat} (h : 0 < magnitude) :
    significand magnitude * 2 ^ exponent magnitude / 10 ^ 16 <
      halfway magnitude - halfway (magnitude - 1) := by
  obtain ⟨m, rfl⟩ := Nat.exists_eq_succ_of_ne_zero h.ne'
  have hpow : (0 : ℚ) < 2 ^ exponent (m + 1) := zpow_pos (by norm_num) _
  have hlt : (significand (m + 1) : ℚ) < 9007199254740992 := by
    exact_mod_cast significand_lt (m + 1)
  rw [Nat.succ_eq_add_one, Nat.add_sub_cancel, halfway, half, halfway]
  -- the interval begins in the same binade, or in the one below at half the width
  rcases succ_cases m with ⟨hexponent, hsignificand⟩ | ⟨hexponent, hlast, hfirst, -⟩
  · rw [← hexponent, half]
    rw [hsignificand] at hlt ⊢
    push_cast at hlt ⊢
    nlinarith
  · have hlast : (significand m : ℚ) + 1 = 2 * 4503599627370496 := by exact_mod_cast hlast
    rw [show exponent m - 1 = exponent (m + 1) - 2 by omega, quarter, hfirst, exponentStep_eq]
    push_cast
    nlinarith

/-- The search ends with something found on a grid if one of the grids it tries
has a point. -/
theorem shortestFrom_onGrid? (hood : Neighbourhood) (k : Int) :
    ∀ (fuel n j : Nat), j < fuel → (∃ digits, hood.onGrid? (k - (n + j : Nat)) = some digits) →
      hood.onGrid? (hood.shortestFrom k fuel n).2 = some (hood.shortestFrom k fuel n).1 := by
  intro fuel
  -- along the grids that are tried; the one that is known to have a point comes before the fuel
  -- ends
  induction fuel with
  | zero => exact fun n j hj => absurd hj (Nat.not_lt_zero j)
  | succ fuel ih =>
    intro n j hj hfound
    unfold Neighbourhood.shortestFrom
    split
    next hgrid => exact hgrid
    next hgrid =>
      cases j with
      | zero =>
        obtain ⟨digits, hdigits⟩ := hfound
        rw [Nat.add_zero, hgrid] at hdigits
        cases hdigits
      | succ j =>
        refine ih (n + 1) j (Nat.lt_of_succ_lt_succ hj) ?_
        rwa [show n + 1 + j = n + (j + 1) by omega]

/-- The shortest numeral of a magnitude rounds to it. -/
theorem roundsTo_shortest {magnitude : Nat} (h : 0 < magnitude) :
    RoundsTo magnitude ((shortest magnitude).1 * 10 ^ (shortest magnitude).2) := by
  have hfine : (10 : ℚ) ^ (decimalExponent (neighbourhood magnitude).value
      (neighbourhood magnitude).den - (1 + 16 : Nat)) <
      halfway magnitude - halfway (magnitude - 1) := by
    refine lt_of_le_of_lt ?_ (value_lt_width h)
    rw [show ((1 + 16 : Nat) : Int) = 1 + 16 from rfl, ← Int.sub_sub, zpow_sub₀ (by norm_num) _ 16]
    exact div_le_div_of_nonneg_right (pow_decimalExponent_le h) (by norm_num)
  exact roundsTo_of_onGrid? h
    (shortestFrom_onGrid? _ _ 17 1 16 (by decide) (exists_onGrid? h hfine))

end Graft.Decimal.Binary64
