import Graft.Proofs.Decimal.Rounding
import Graft.Proofs.Json.Numeral
import Mathlib.Data.List.TakeWhile

/-!
# Different numbers have different texts

The text of a number is a sign and a body that begins with a digit. The body of
a whole number has digits only. The body of a double has a point or an exponent
as well; wherever the point stands, it denotes the shortest numeral of the
magnitude, which rounds to no other one. So the text tells the number.

The proof gives numerals a meaning of their own. `denoted` reads digits, a point
and an exponent as a rational number, without any rounding, and knows nothing of
how they came about. Against it the four layouts of `placePoint` are checked:
zeros behind the digits, a point among them, zeros before them, and an exponent.
Each denotes the digits times the power of ten that the shortest numeral has
(`denoted_placePoint`), and so do the digits without their trailing zeros.

With `Graft.Proofs.Decimal.Rounding` this number rounds to the magnitude, and no
number rounds to two. The text of a double therefore determines its magnitude.
It remains to tell signs (a minus is no digit), whole numbers and doubles
(digits only against a point or an exponent), and whole numbers among
themselves.

Main statements:
- `denoted_placePoint`: where the point is placed does not change what a numeral
  denotes;
- `Number.roundsTo_denoted`: the text of a magnitude denotes a number that
  rounds to it;
- `Number.text_injective`: no two numbers have the same text.
-/

namespace Graft

open Decimal Binary64
open Json.Reader (isNumeric)

/-! ## What a numeral denotes -/

/-- The exponent of a numeral, without the letter before it. -/
def power : List Char → Int
  | '-' :: digits => -(Nat.ofDigitChars 10 digits 0 : Nat)
  | '+' :: digits => (Nat.ofDigitChars 10 digits 0 : Nat)
  | _ => 0

/-- What a numeral without sign denotes: its digits on both sides of the point,
as many places lower as stand behind it, scaled by the exponent. -/
def denoted (text : List Char) : ℚ :=
  let mantissa := text.takeWhile (· ≠ 'e')
  let places := (mantissa.dropWhile (· ≠ '.')).tail
  Nat.ofDigitChars 10 (mantissa.filter (· ≠ '.')) 0 *
    10 ^ (power (text.dropWhile (· ≠ 'e')).tail - places.length)

section

variable {digits whole places : List Char}

theorem ne_of_isDigit {d : Char} (hd : d.isDigit = false) {c : Char} (h : c.isDigit = true) :
    decide (c ≠ d) = true := by
  refine decide_eq_true ?_
  rintro rfl
  exact absurd (hd.symm.trans h) Bool.false_ne_true

/-- What stands behind the exponent letter is a power of ten, if no such letter
stands before it. -/
theorem denoted_exponent {mantissa : List Char} (h : ∀ c ∈ mantissa, decide (c ≠ 'e') = true)
    (exponent : List Char) :
    denoted (mantissa ++ 'e' :: exponent) = denoted mantissa * 10 ^ power exponent := by
  have htake : (mantissa ++ 'e' :: exponent).takeWhile (· ≠ 'e') = mantissa :=
    (List.takeWhile_append_of_pos h).trans (List.append_nil mantissa)
  have hdrop : (mantissa ++ 'e' :: exponent).dropWhile (· ≠ 'e') = 'e' :: exponent :=
    List.dropWhile_append_of_pos h
  have hself : mantissa.takeWhile (· ≠ 'e') = mantissa := List.takeWhile_eq_self_iff.mpr h
  have hrest : mantissa.dropWhile (· ≠ 'e') = [] := List.dropWhile_eq_nil_iff.mpr h
  unfold denoted
  dsimp only
  rw [htake, hdrop, hself, hrest]
  show _ * (10 : ℚ) ^ (power exponent - _) = _ * 10 ^ ((0 : Int) - _) * _
  rw [mul_assoc, ← zpow_add₀ (by norm_num)]
  congr 2
  omega

/-- Digits behind the point count as if it were not there, a tenth for each. -/
theorem denoted_point (hwhole : ∀ c ∈ whole, c.isDigit = true)
    (hplaces : ∀ c ∈ places, c.isDigit = true) :
    denoted (whole ++ '.' :: places) =
      Nat.ofDigitChars 10 (whole ++ places) 0 * 10 ^ (-(places.length : Int)) := by
  have hmantissa : ∀ c ∈ whole ++ '.' :: places, decide (c ≠ 'e') = true := by
    intro c hc
    rcases List.mem_append.mp hc with hc | hc
    · exact ne_of_isDigit rfl (hwhole c hc)
    · rcases List.mem_cons.mp hc with rfl | hc
      · rfl
      · exact ne_of_isDigit rfl (hplaces c hc)
  have hself : (whole ++ '.' :: places).takeWhile (· ≠ 'e') = whole ++ '.' :: places :=
    List.takeWhile_eq_self_iff.mpr hmantissa
  have hrest : (whole ++ '.' :: places).dropWhile (· ≠ 'e') = [] :=
    List.dropWhile_eq_nil_iff.mpr hmantissa
  have hdrop : (whole ++ '.' :: places).dropWhile (· ≠ '.') = '.' :: places :=
    List.dropWhile_append_of_pos fun c hc => ne_of_isDigit rfl (hwhole c hc)
  have hfilter : (whole ++ '.' :: places).filter (· ≠ '.') = whole ++ places := by
    have hleft : whole.filter (· ≠ '.') = whole :=
      List.filter_eq_self.mpr fun c hc => ne_of_isDigit rfl (hwhole c hc)
    have hright : places.filter (· ≠ '.') = places :=
      List.filter_eq_self.mpr fun c hc => ne_of_isDigit rfl (hplaces c hc)
    rw [List.filter_append, hleft, List.filter_cons_of_neg (by decide), hright]
  unfold denoted
  dsimp only
  rw [hself, hrest, hdrop, hfilter]
  show _ * (10 : ℚ) ^ ((0 : Int) - _) = _
  rw [zero_sub]
  rfl

/-- Digits alone denote the number that they spell. -/
theorem denoted_digits (h : ∀ c ∈ digits, c.isDigit = true) :
    denoted digits = Nat.ofDigitChars 10 digits 0 := by
  have hself : digits.takeWhile (· ≠ 'e') = digits :=
    List.takeWhile_eq_self_iff.mpr fun c hc => ne_of_isDigit rfl (h c hc)
  have hrest : digits.dropWhile (· ≠ 'e') = [] :=
    List.dropWhile_eq_nil_iff.mpr fun c hc => ne_of_isDigit rfl (h c hc)
  have hdrop : digits.dropWhile (· ≠ '.') = [] :=
    List.dropWhile_eq_nil_iff.mpr fun c hc => ne_of_isDigit rfl (h c hc)
  have hfilter : digits.filter (· ≠ '.') = digits :=
    List.filter_eq_self.mpr fun c hc => ne_of_isDigit rfl (h c hc)
  unfold denoted
  dsimp only
  rw [hself, hrest, hdrop, hfilter]
  exact mul_one _

/-- An exponent is written with its sign, and is read as it was. -/
theorem power_sign (n : Int) :
    power ((if n < 0 then '-' else '+') :: (toString n.natAbs).toList) = n := by
  have hvalue : Nat.ofDigitChars 10 (toString n.natAbs).toList 0 = n.natAbs := by
    rw [show (toString n.natAbs).toList = Nat.toDigits 10 n.natAbs from Nat.toList_repr,
      Nat.ofDigitChars_ten_toDigits]
  split
  next hneg =>
    show -((Nat.ofDigitChars 10 _ 0 : Nat) : Int) = n
    rw [hvalue]
    omega
  next hpos =>
    show ((Nat.ofDigitChars 10 _ 0 : Nat) : Int) = n
    rw [hvalue]
    omega

theorem isDigit_of_mem_zeros {k : Nat} : ∀ c ∈ List.replicate k '0', c.isDigit = true := by
  intro c hc
  rw [List.eq_of_mem_replicate hc]
  rfl

/-- Zeros between the digits and the point. -/
theorem denoted_zeros_point (h : ∀ c ∈ digits, c.isDigit = true) (k : Nat) :
    denoted (digits ++ List.replicate k '0' ++ ['.', '0']) =
      Nat.ofDigitChars 10 digits 0 * 10 ^ (k : Int) := by
  have hwhole := List.forall_mem_append.mpr ⟨h, isDigit_of_mem_zeros (k := k)⟩
  have hzero : ∀ c ∈ ['0'], c.isDigit = true := isDigit_of_mem_zeros (k := 1)
  refine (denoted_point hwhole hzero).trans ?_
  rw [Nat.ofDigitChars_append, Nat.ofDigitChars_append, Nat.ofDigitChars_replicate_zero,
    zpow_natCast]
  show ((10 * (10 ^ k * Nat.ofDigitChars 10 digits 0) + 0 : Nat) : ℚ) * 10 ^ (-(1 : Int)) = _
  push_cast
  rw [zpow_neg, zpow_one]
  field_simp
  ring

/-- Zeros between the point and the digits. -/
theorem denoted_point_zeros (h : ∀ c ∈ digits, c.isDigit = true) (k : Nat) :
    denoted (['0', '.'] ++ List.replicate k '0' ++ digits) =
      Nat.ofDigitChars 10 digits 0 * 10 ^ (-(k : Int) - digits.length) := by
  have hplaces := List.forall_mem_append.mpr ⟨isDigit_of_mem_zeros (k := k), h⟩
  have hlength : -((List.replicate k '0' ++ digits).length : Int) = -(k : Int) - digits.length := by
    rw [List.length_append, List.length_replicate]
    omega
  rw [List.append_assoc]
  refine (denoted_point (isDigit_of_mem_zeros (k := 1)) hplaces).trans ?_
  rw [hlength, Nat.ofDigitChars_append, Nat.ofDigitChars_append, Nat.ofDigitChars_replicate_zero]
  rfl

/-- Far from the digits the point goes behind the first of them, and an exponent
tells its place. -/
theorem denoted_scientific (h : ∀ c ∈ digits, c.isDigit = true) {point : Int}
    (hright : ¬ (0 < point ∧ point ≤ 16)) (hleft : ¬ (-5 < point ∧ point ≤ 0)) :
    denoted (placePoint digits point) =
      Nat.ofDigitChars 10 digits 0 * 10 ^ (point - digits.length) := by
  unfold placePoint
  dsimp only
  rw [if_neg hright, if_neg hleft]
  -- no digits, one digit without a point, or a point behind the first
  match digits with
  | [] =>
    rw [denoted_exponent (fun c hc => absurd hc List.not_mem_nil), denoted_digits h]
    show ((0 : Nat) : ℚ) * _ = ((0 : Nat) : ℚ) * _
    rw [Nat.cast_zero, zero_mul, zero_mul]
  | [d] =>
    rw [denoted_exponent (fun c hc => ne_of_isDigit rfl (h c hc)), denoted_digits h, power_sign]
    rfl
  | d :: e :: rest =>
    obtain ⟨hd, hrest⟩ := List.forall_mem_cons.mp h
    have hmantissa : ∀ c ∈ d :: '.' :: e :: rest, decide (c ≠ 'e') = true :=
      List.forall_mem_cons.mpr ⟨ne_of_isDigit rfl hd, List.forall_mem_cons.mpr
        ⟨rfl, fun c hc => ne_of_isDigit rfl (hrest c hc)⟩⟩
    have hpoint : denoted (d :: '.' :: e :: rest) =
        Nat.ofDigitChars 10 (d :: e :: rest) 0 * 10 ^ (-((e :: rest).length : Int)) :=
      denoted_point (List.forall_mem_singleton.mpr hd) hrest
    have hpower : -((e :: rest).length : Int) + (point - 1) = point - (d :: e :: rest).length := by
      simp only [List.length_cons]
      omega
    rw [denoted_exponent hmantissa, hpoint, power_sign, mul_assoc,
      ← zpow_add₀ (by norm_num), hpower]

/-- Where the point is placed does not change what a numeral denotes. -/
theorem denoted_placePoint (h : ∀ c ∈ digits, c.isDigit = true) (point : Int) :
    denoted (placePoint digits point) =
      Nat.ofDigitChars 10 digits 0 * 10 ^ (point - digits.length) := by
  -- the four layouts, in the order in which the writer tries them
  by_cases hright : 0 < point ∧ point ≤ 16
  · unfold placePoint
    dsimp only
    rw [if_pos hright]
    split
    next hle =>
      rw [denoted_zeros_point h, Int.toNat_of_nonneg (by omega)]
    next hlt =>
      have hlength : -((digits.drop point.toNat).length : Int) = point - digits.length := by
        rw [List.length_drop]
        omega
      rw [denoted_point (fun c hc => h c (List.mem_of_mem_take hc))
        fun c hc => h c (List.mem_of_mem_drop hc), List.take_append_drop, hlength]
  · by_cases hleft : -5 < point ∧ point ≤ 0
    · unfold placePoint
      dsimp only
      rw [if_neg hright, if_pos hleft, denoted_point_zeros h, Int.toNat_of_nonneg (by omega),
        Int.neg_neg]
    · exact denoted_scientific h hright hleft

/-- What is dropped at the end of a list of digits are zeros. -/
theorem exists_dropTrailingZeros (digits : List Char) :
    ∃ k, digits = dropTrailingZeros digits ++ List.replicate k '0' := by
  refine ⟨(digits.reverse.takeWhile (· = '0')).length, ?_⟩
  have hzeros : digits.reverse.takeWhile (· = '0') =
      List.replicate (digits.reverse.takeWhile (· = '0')).length '0' := by
    refine List.eq_replicate_of_mem fun c hc => ?_
    exact of_decide_eq_true (List.mem_takeWhile_imp (p := (· = '0')) hc)
  have hsplit := congrArg List.reverse
    (List.takeWhile_append_dropWhile (p := (· = '0')) (l := digits.reverse))
  rw [List.reverse_append, List.reverse_reverse, hzeros, List.reverse_replicate] at hsplit
  exact hsplit.symm

/-- Dropping zeros at the end leaves digits. -/
theorem isDigit_of_mem_dropTrailingZeros (h : ∀ c ∈ digits, c.isDigit = true) :
    ∀ c ∈ dropTrailingZeros digits, c.isDigit = true := by
  obtain ⟨k, hk⟩ := exists_dropTrailingZeros digits
  intro c hc
  exact h c (hk ▸ List.mem_append_left _ hc)

/-- Zeros at the end of the digits do not change what a numeral denotes. -/
theorem denoted_placePoint_dropTrailingZeros (h : ∀ c ∈ digits, c.isDigit = true) (e : Int) :
    denoted (placePoint (dropTrailingZeros digits) (digits.length + e)) =
      Nat.ofDigitChars 10 digits 0 * 10 ^ e := by
  obtain ⟨k, hk⟩ := exists_dropTrailingZeros digits
  have hlength : digits.length = (dropTrailingZeros digits).length + k := by
    have hcount := congrArg List.length hk
    rwa [List.length_append, List.length_replicate] at hcount
  have hvalue : Nat.ofDigitChars 10 digits 0 =
      10 ^ k * Nat.ofDigitChars 10 (dropTrailingZeros digits) 0 := by
    conv => lhs; rw [hk]
    rw [Nat.ofDigitChars_append, Nat.ofDigitChars_replicate_zero]
  have hpower : (digits.length : Int) + e - (dropTrailingZeros digits).length = k + e := by omega
  rw [denoted_placePoint (isDigit_of_mem_dropTrailingZeros h), hvalue, hpower,
    zpow_add₀ (by norm_num), zpow_natCast]
  push_cast
  ring

/-- Where the point is placed, the numeral begins with a digit. -/
theorem placePoint_begins (h : ∀ c ∈ digits, c.isDigit = true) (hne : digits ≠ []) (point : Int) :
    ∃ c cs, placePoint digits point = c :: cs ∧ c.isDigit = true := by
  obtain ⟨d, rest, rfl⟩ := List.exists_cons_of_ne_nil hne
  have hd := h d List.mem_cons_self
  unfold placePoint
  dsimp only
  split
  next hinside =>
    split
    next => exact ⟨d, _, rfl, hd⟩
    next =>
      obtain ⟨p, hp⟩ := Nat.exists_eq_succ_of_ne_zero (show point.toNat ≠ 0 by omega)
      rw [hp]
      exact ⟨d, _, rfl, hd⟩
  next =>
    split
    next => exact ⟨'0', _, rfl, rfl⟩
    next =>
      cases rest with
      | nil => exact ⟨d, _, rfl, hd⟩
      | cons e rest => exact ⟨d, _, rfl, hd⟩

theorem isNumeric_of_isDigit {c : Char} (h : c.isDigit = true) : isNumeric c = true := by
  unfold isNumeric
  rw [h]
  rfl

theorem isDigit_of_mem_toDigits {n : Nat} : ∀ c ∈ Nat.toDigits 10 n, c.isDigit = true :=
  fun _ hc => Nat.isDigit_of_mem_toDigits (by decide) (by decide) hc

theorem isDigit_of_mem_toString {n : Nat} : ∀ c ∈ (toString n).toList, c.isDigit = true := by
  rw [show (toString n).toList = Nat.toDigits 10 n from Nat.toList_repr]
  exact isDigit_of_mem_toDigits

/-- A numeral has nothing but digits, points, exponents and their signs. -/
theorem isNumeric_of_mem_placePoint (h : ∀ c ∈ digits, c.isDigit = true) (point : Int) :
    ∀ c ∈ placePoint digits point, isNumeric c = true := by
  have hdigit : ∀ cs : List Char, (∀ c ∈ cs, c.isDigit = true) → ∀ c ∈ cs, isNumeric c = true :=
    fun cs hcs c hc => isNumeric_of_isDigit (hcs c hc)
  have hzeros : ∀ n, ∀ c ∈ List.replicate n '0', isNumeric c = true :=
    fun n => hdigit _ isDigit_of_mem_zeros
  have hpair : ∀ c d : Char, isNumeric c = true → isNumeric d = true →
      ∀ x ∈ [c, d], isNumeric x = true := by
    intro c d hc hd x hx
    rcases List.mem_cons.mp hx with rfl | hx
    · exact hc
    · exact List.mem_singleton.mp hx ▸ hd
  unfold placePoint
  dsimp only
  split
  next =>
    split
    next =>
      exact List.forall_mem_append.mpr ⟨List.forall_mem_append.mpr ⟨hdigit _ h, hzeros _⟩,
        hpair '.' '0' rfl rfl⟩
    next =>
      exact List.forall_mem_append.mpr ⟨hdigit _ fun c hc => h c (List.mem_of_mem_take hc),
        List.forall_mem_cons.mpr ⟨rfl, hdigit _ fun c hc => h c (List.mem_of_mem_drop hc)⟩⟩
  next =>
    split
    next =>
      exact List.forall_mem_append.mpr ⟨List.forall_mem_append.mpr ⟨hpair '0' '.' rfl rfl,
        hzeros _⟩, hdigit _ h⟩
    next =>
      have hexponent : ∀ sign : Char, isNumeric sign = true →
          ∀ c ∈ 'e' :: sign :: (toString (point - 1).natAbs).toList, isNumeric c = true :=
        fun sign hsign => List.forall_mem_cons.mpr ⟨rfl, List.forall_mem_cons.mpr
          ⟨hsign, hdigit _ isDigit_of_mem_toString⟩⟩
      refine List.forall_mem_append.mpr ⟨?_, hexponent _ (by split <;> rfl)⟩
      match digits with
      | [] => exact hdigit _ h
      | [d] => exact hdigit _ h
      | d :: e :: rest =>
        obtain ⟨hd, hrest⟩ := List.forall_mem_cons.mp h
        exact List.forall_mem_cons.mpr ⟨isNumeric_of_isDigit hd, List.forall_mem_cons.mpr
          ⟨rfl, hdigit _ hrest⟩⟩

/-- A numeral with a point placed is not the numeral of a whole number. -/
theorem exists_not_isDigit_placePoint (digits : List Char) (point : Int) :
    ∃ c ∈ placePoint digits point, c.isDigit = false := by
  unfold placePoint
  dsimp only
  split
  next =>
    split
    next => exact ⟨'.', List.mem_append_right _ List.mem_cons_self, rfl⟩
    next => exact ⟨'.', List.mem_append_right _ List.mem_cons_self, rfl⟩
  next =>
    split
    next => exact ⟨'.', List.mem_cons_of_mem _ List.mem_cons_self, rfl⟩
    next => exact ⟨'e', List.mem_append_right _ List.mem_cons_self, rfl⟩

end

/-! ## Sign and body of a number -/

namespace Number

/-- Whether the text of a number begins with a sign. -/
def isNegative : Number → Bool
  | .whole n => n < 0
  | .real x => x.negative

/-- The text of a magnitude. -/
def magnitudeText (magnitude : Nat) : List Char :=
  if magnitude = 0 then ['0', '.', '0']
  else
    let digits := (toString (shortest magnitude).1).toList
    placePoint (dropTrailingZeros digits) (digits.length + (shortest magnitude).2)

/-- The text of a number after its sign. -/
def body : Number → List Char
  | .whole n => Nat.toDigits 10 n.natAbs
  | .real x => magnitudeText x.magnitude

/-- A number is written as its sign and then its body. -/
theorem text_eq (n : Number) : n.text = (if n.isNegative then ['-'] else []) ++ n.body := by
  cases n with
  | whole n =>
    rcases Int.lt_or_le n 0 with hneg | hpos
    · obtain ⟨m, rfl⟩ : ∃ m : Nat, n = -((m + 1 : Nat) : Int) := ⟨(-n).toNat - 1, by omega⟩
      rw [Json.Reader.text_neg_succ, isNegative, if_pos (decide_eq_true hneg), body, Int.natAbs_neg,
        Int.natAbs_natCast]
      rfl
    · obtain ⟨m, rfl⟩ := Int.eq_ofNat_of_zero_le hpos
      have hsign : ¬ decide ((m : Int) < 0) = true := by
        rw [decide_eq_true_iff]
        omega
      rw [Json.Reader.text_natCast, isNegative, if_neg hsign, body, Int.natAbs_natCast]
      rfl
  | real x =>
    rw [text, body, isNegative]
    unfold realText magnitudeText
    by_cases hzero : x.magnitude = 0
    · rw [if_pos hzero, if_pos hzero]
    · rw [if_neg hzero, if_neg hzero]

theorem magnitudeText_zero : magnitudeText 0 = ['0', '.', '0'] := rfl

section

variable {magnitude : Nat} (h : 0 < magnitude)

include h

theorem magnitudeText_pos :
    magnitudeText magnitude = placePoint
      (dropTrailingZeros (toString (shortest magnitude).1).toList)
      ((toString (shortest magnitude).1).toList.length + (shortest magnitude).2) := by
  rw [magnitudeText, if_neg (Nat.ne_of_gt h)]

/-- The text of a magnitude denotes a number that rounds to it. -/
theorem roundsTo_denoted : RoundsTo magnitude (denoted (magnitudeText magnitude)) := by
  rw [magnitudeText_pos h, denoted_placePoint_dropTrailingZeros isDigit_of_mem_toString,
    show (toString (shortest magnitude).1).toList = Nat.toDigits 10 _ from Nat.toList_repr,
    Nat.ofDigitChars_ten_toDigits]
  exact roundsTo_shortest h

/-- The shortest numeral has a digit that is not zero, so dropping zeros leaves
some. -/
theorem digits_ne_nil : dropTrailingZeros (toString (shortest magnitude).1).toList ≠ [] := by
  intro hnil
  have hpos := (roundsTo_denoted h).pos
  rw [magnitudeText_pos h, hnil, denoted_placePoint fun c hc => absurd hc List.not_mem_nil] at hpos
  have hzero : ((Nat.ofDigitChars 10 [] 0 : Nat) : ℚ) = 0 := Nat.cast_zero
  rw [hzero, zero_mul] at hpos
  exact lt_irrefl _ hpos

end

/-- A magnitude begins with a digit, not with the point. -/
theorem magnitudeText_begins (magnitude : Nat) :
    ∃ c cs, magnitudeText magnitude = c :: cs ∧ c.isDigit = true := by
  rcases Nat.eq_zero_or_pos magnitude with rfl | hpos
  · exact ⟨'0', _, magnitudeText_zero, rfl⟩
  · rw [magnitudeText_pos hpos]
    exact placePoint_begins (isDigit_of_mem_dropTrailingZeros isDigit_of_mem_toString)
      (digits_ne_nil hpos) _

theorem isNumeric_of_mem_magnitudeText (magnitude : Nat) :
    ∀ c ∈ magnitudeText magnitude, isNumeric c = true := by
  rcases Nat.eq_zero_or_pos magnitude with rfl | hpos
  · rw [magnitudeText_zero]
    exact List.all_eq_true.mp rfl
  · rw [magnitudeText_pos hpos]
    exact isNumeric_of_mem_placePoint (isDigit_of_mem_dropTrailingZeros isDigit_of_mem_toString) _

/-- A double is never written with digits alone. -/
theorem exists_not_isDigit_magnitudeText (magnitude : Nat) :
    ∃ c ∈ magnitudeText magnitude, c.isDigit = false := by
  rcases Nat.eq_zero_or_pos magnitude with rfl | hpos
  · rw [magnitudeText_zero]
    exact ⟨'.', List.mem_cons_of_mem _ List.mem_cons_self, rfl⟩
  · rw [magnitudeText_pos hpos]
    exact exists_not_isDigit_placePoint _ _

theorem denoted_magnitudeText_zero : denoted (magnitudeText 0) = 0 := by
  rw [magnitudeText_zero, show ['0', '.', '0'] = ['0'] ++ '.' :: ['0'] from rfl,
    denoted_point (List.all_eq_true.mp rfl) (List.all_eq_true.mp rfl)]
  show ((0 : Nat) : ℚ) * _ = 0
  rw [Nat.cast_zero, zero_mul]

/-- No two magnitudes have the same text. -/
theorem magnitudeText_injective {m n : Nat} (h : magnitudeText m = magnitudeText n) : m = n := by
  have hzero : ∀ k, 0 < k → magnitudeText 0 ≠ magnitudeText k := by
    intro k hk heq
    have hpos := (roundsTo_denoted hk).pos
    rw [← heq, denoted_magnitudeText_zero] at hpos
    exact lt_irrefl _ hpos
  rcases Nat.eq_zero_or_pos m with rfl | hm
  · rcases Nat.eq_zero_or_pos n with rfl | hn
    · rfl
    · exact absurd h (hzero n hn)
  · rcases Nat.eq_zero_or_pos n with rfl | hn
    · exact absurd h.symm (hzero m hm)
    · exact eq_of_roundsTo (roundsTo_denoted hm) (h ▸ roundsTo_denoted hn)

/-- Without its sign a number begins with a digit, so the sign can be told. -/
theorem body_begins (n : Number) : ∃ c cs, n.body = c :: cs ∧ c.isDigit = true := by
  cases n with
  | whole n =>
    obtain ⟨c, cs, hcs, hdigit, -⟩ := Json.Reader.toDigits_eq_cons n.natAbs
    exact ⟨c, cs, hcs, hdigit⟩
  | real x => exact magnitudeText_begins x.magnitude

theorem isNumeric_of_mem_body (n : Number) : ∀ c ∈ n.body, isNumeric c = true := by
  cases n with
  | whole n => exact fun c hc => isNumeric_of_isDigit (isDigit_of_mem_toDigits c hc)
  | real x => exact isNumeric_of_mem_magnitudeText x.magnitude

/-- Sign and body tell the number. -/
theorem eq_of_body {m n : Number} (hsign : m.isNegative = n.isNegative) (hbody : m.body = n.body) :
    m = n := by
  -- the body of a double has something else than digits in it
  have hother : ∀ (a : Int) (x : Binary64), body (.whole a) ≠ body (.real x) := by
    intro a x heq
    obtain ⟨c, hc, hdigit⟩ := exists_not_isDigit_magnitudeText x.magnitude
    rw [body, body] at heq
    have htrue : c.isDigit = true := isDigit_of_mem_toDigits c (heq ▸ hc)
    exact absurd (hdigit.symm.trans htrue) Bool.false_ne_true
  cases m with
  | whole a =>
    cases n with
    | real x => exact absurd hbody (hother a x)
    | whole b =>
      have habs : a.natAbs = b.natAbs := by
        have hvalue := congrArg (fun digits => Nat.ofDigitChars 10 digits 0) hbody
        rwa [body, body, Nat.ofDigitChars_ten_toDigits, Nat.ofDigitChars_ten_toDigits] at hvalue
      have hiff : a < 0 ↔ b < 0 := decide_eq_decide.mp hsign
      obtain rfl : a = b := by omega
      rfl
  | real x =>
    cases n with
    | whole b => exact absurd hbody.symm (hother b x)
    | real y =>
      have hmagnitude : x.magnitude = y.magnitude := magnitudeText_injective hbody
      obtain ⟨xnegative, xmagnitude, _⟩ := x
      obtain ⟨ynegative, ymagnitude, _⟩ := y
      obtain rfl : xnegative = ynegative := hsign
      obtain rfl : xmagnitude = ymagnitude := hmagnitude
      rfl

/-! ## Texts -/

/-- The text of a number begins with a sign or a digit. -/
theorem text_begins (n : Number) : ∃ c cs, n.text = c :: cs ∧ (c = '-' ∨ c.isDigit = true) := by
  rw [text_eq]
  cases n.isNegative with
  | true => exact ⟨'-', n.body, rfl, .inl rfl⟩
  | false =>
    obtain ⟨c, cs, hcs, hdigit⟩ := n.body_begins
    exact ⟨c, cs, hcs, .inr hdigit⟩

/-- Only characters of numbers stand in the text of a number. -/
theorem isNumeric_of_mem_text (n : Number) : ∀ c ∈ n.text, isNumeric c = true := by
  rw [text_eq]
  refine List.forall_mem_append.mpr ⟨?_, n.isNumeric_of_mem_body⟩
  cases n.isNegative with
  | true => exact List.all_eq_true.mp rfl
  | false => exact fun c hc => absurd hc List.not_mem_nil

/-- No two numbers have the same text. -/
theorem text_injective {m n : Number} (h : m.text = n.text) : m = n := by
  obtain ⟨c, cs, hc, hcdigit⟩ := m.body_begins
  obtain ⟨d, ds, hd, hddigit⟩ := n.body_begins
  have hsign : ∀ c : Char, c.isDigit = true → c ≠ '-' := by
    rintro c hdigit rfl
    exact absurd hdigit (by decide)
  -- first the signs, which no body begins with; then the bodies
  rw [text_eq, text_eq] at h
  cases hm : m.isNegative with
  | true =>
    cases hn : n.isNegative with
    | true =>
      rw [hm, hn] at h
      exact eq_of_body (hm.trans hn.symm) (List.cons.inj h).2
    | false =>
      rw [hm, hn, hd] at h
      exact absurd (List.cons.inj h).1.symm (hsign d hddigit)
  | false =>
    cases hn : n.isNegative with
    | true =>
      rw [hm, hn, hc] at h
      exact absurd (List.cons.inj h).1 (hsign c hcdigit)
    | false =>
      rw [hm, hn] at h
      exact eq_of_body (hm.trans hn.symm) h

end Number

end Graft
