import Graft.Json.Reader
import Graft.Json.Writer

/-!
# Numbers as they are read

A number ends where a character follows that belongs to no number. Up to there
it is read in the same way whatever follows. Whole numbers that are read lie
within 64 bits, with or without sign, and such numbers are read back from the
digits that are written for them.

The readers of `Graft.Json.Reader` take a number apart into its whole part, its
fraction and its exponent. For each of them there is one lemma that appends a
rest to its input. The rest must stop the number: `Stops` asks for a first
character that is no digit, sign, point or exponent letter. The part that is
easy to miss is that a reader which has already stopped inside its input stays
where it is, and one that has come to the end goes on to look at the rest.

For whole numbers the digits are accumulated into 64 bits (`Numeral.absorb`) and
what does not fit becomes a fraction. So a number that is read as whole fits
(`Number.Fits`), and this is the condition under which the digits written for it
(`Nat.toDigits`) give it back: the accumulator then never overflows on the way
(`absorb_of_le`).

Main statements:
- `Json.Reader.number?_append`: what follows a number does not change it;
- `Json.Reader.fits_of_number?`: whole numbers that are read lie within 64 bits;
- `Json.Reader.number?_whole`: such numbers are read back.
-/

namespace Graft

/-- Whether a whole number lies within 64 bits, with or without sign; a double
always does. -/
def Number.Fits : Number → Prop
  | .whole n => -(Nat.pow 2 63 : Nat) ≤ n ∧ n ≤ Numeral.maxDigits
  | .real _ => True

namespace Json.Reader

/-! ## Readers that leave a rest -/

/-- Most readers make something of what another one has read, and leave the same
rest as this one. -/
theorem exists_of_map_eq_some {α β ρ : Type} {read : Option (α × ρ)} {make : α → β} {made : β}
    {left : ρ} (h : (read.map fun (a, left) => (make a, left)) = some (made, left)) :
    ∃ a, read = some (a, left) ∧ make a = made := by
  obtain ⟨⟨a, _⟩, hread, heq⟩ := Option.map_eq_some_iff.mp h
  obtain ⟨hmade, rfl⟩ := Prod.mk.inj heq
  exact ⟨a, hread, hmade⟩

/-! ## Where a number ends -/

/-- Whether a character may stand in a number. -/
def isNumeric (c : Char) : Bool :=
  c.isDigit || c = '.' || c = 'e' || c = 'E' || c = '+' || c = '-'

/-- Whether a text does not go on with a number. -/
def Stops : List Char → Prop
  | [] => True
  | c :: _ => isNumeric c = false

/-- No digit stands where a number stops. -/
theorem Stops.not_isDigit {c : Char} {rest : List Char} (h : Stops (c :: rest)) :
    c.isDigit = false := by
  have hnumeric : isNumeric c = false := h
  unfold isNumeric at hnumeric
  cases hdigit : c.isDigit with
  | false => rfl
  | true =>
    rw [hdigit] at hnumeric
    exact absurd hnumeric Bool.noConfusion

theorem Stops.ne {c d : Char} {rest : List Char} (h : Stops (c :: rest)) (hd : isNumeric d = true) :
    c ≠ d := by
  rintro rfl
  exact absurd (h.symm.trans hd) Bool.false_ne_true

theorem digit?_of_isDigit {c : Char} (h : c.isDigit = true) : digit? c = some (c.toNat - 48) := by
  rw [Char.isDigit_iff_toNat] at h
  have hbounds : '0' ≤ c ∧ c ≤ '9' :=
    ⟨UInt32.le_iff_toNat_le.mpr h.1, UInt32.le_iff_toNat_le.mpr h.2⟩
  rw [digit?, if_pos hbounds]
  rfl

theorem digit?_of_not_isDigit {c : Char} (h : c.isDigit = false) : digit? c = none := by
  rw [digit?, if_neg]
  rintro ⟨hlow, hhigh⟩
  have hdigit : c.isDigit = true :=
    Char.isDigit_iff_toNat.mpr ⟨UInt32.le_iff_toNat_le.mp hlow, UInt32.le_iff_toNat_le.mp hhigh⟩
  exact absurd (h.symm.trans hdigit) Bool.false_ne_true

/-- The digits of a text that stops are no digits of what stands before it. -/
theorem digits_of_stops {rest : List Char} (h : Stops rest) : digits rest = ([], rest) := by
  cases rest with
  | nil => rfl
  | cons c rest => rw [digits, digit?_of_not_isDigit h.not_isDigit]

section

variable {rest : List Char}

/-- The digits of a number are the same with a rest that stops it, and the rest
is left behind. -/
theorem digits_append (cs : List Char) (h : Stops rest) :
    digits (cs ++ rest) = ((digits cs).1, (digits cs).2 ++ rest) := by
  induction cs with
  | nil => exact digits_of_stops h
  | cons c cs ih =>
    rw [List.cons_append, digits, digits]
    cases digit? c with
    | none => rfl
    | some d => rw [ih]

/-- One digit at least has been read already, so the rest cannot supply the
first. -/
theorem digits1?_append {cs left : List Char} {ds : List Nat} (h : Stops rest)
    (hread : digits1? cs = some (ds, left)) : digits1? (cs ++ rest) = some (ds, left ++ rest) := by
  unfold digits1? at hread ⊢
  rw [digits_append cs h]
  generalize digits cs = found at hread ⊢
  obtain ⟨ds', left'⟩ := found
  cases ds' with
  | nil => exact nomatch hread
  | cons d ds' =>
    obtain ⟨rfl, rfl⟩ := Prod.mk.inj (Option.some.inj hread)
    rfl

theorem wholePart?_append {cs left : List Char} {ds : List Nat} (h : Stops rest)
    (hread : wholePart? cs = some (ds, left)) :
    wholePart? (cs ++ rest) = some (ds, left ++ rest) := by
  unfold wholePart? at hread ⊢
  rw [digits_append cs h]
  generalize digits cs = found at hread ⊢
  obtain ⟨found, left'⟩ := found
  rcases found with _ | ⟨_ | d, _ | ⟨e, found⟩⟩
  · exact nomatch hread
  · obtain ⟨rfl, rfl⟩ := Prod.mk.inj (Option.some.inj hread)
    rfl
  · exact nomatch hread
  · obtain ⟨rfl, rfl⟩ := Prod.mk.inj (Option.some.inj hread)
    rfl
  · obtain ⟨rfl, rfl⟩ := Prod.mk.inj (Option.some.inj hread)
    rfl

/-- Without a point there is no fraction, and a rest that stops the number
begins with none. -/
theorem fraction?_append {cs left : List Char} {fraction : Option (List Nat)} (h : Stops rest)
    (hread : fraction? cs = some (fraction, left)) :
    fraction? (cs ++ rest) = some (fraction, left ++ rest) := by
  unfold fraction? at hread
  split at hread
  next cs =>
    obtain ⟨ds, hdigits, rfl⟩ := exists_of_map_eq_some hread
    rw [List.cons_append, fraction?, digits1?_append h hdigits]
    rfl
  next hpoint =>
    obtain ⟨rfl, rfl⟩ := Prod.mk.inj (Option.some.inj hread)
    refine fraction?.eq_2 _ fun cs' heq => ?_
    cases cs with
    | nil =>
      rw [List.nil_append] at heq
      subst heq
      exact h.ne rfl rfl
    | cons c cs =>
      obtain ⟨rfl, -⟩ := List.cons.inj heq
      exact hpoint cs rfl

theorem signedExponent?_append {cs left : List Char} {e : Int} (h : Stops rest)
    (hread : signedExponent? cs = some (e, left)) :
    signedExponent? (cs ++ rest) = some (e, left ++ rest) := by
  unfold signedExponent? at hread
  split at hread
  next cs =>
    obtain ⟨⟨ds, found⟩, hdigits, hfound⟩ := Option.map_eq_some_iff.mp hread
    obtain ⟨rfl, rfl⟩ := Prod.mk.inj hfound
    rw [List.cons_append, signedExponent?, digits1?_append h hdigits]
    rfl
  next cs =>
    obtain ⟨⟨ds, found⟩, hdigits, hfound⟩ := Option.map_eq_some_iff.mp hread
    obtain ⟨rfl, rfl⟩ := Prod.mk.inj hfound
    rw [List.cons_append, signedExponent?, digits1?_append h hdigits]
    rfl
  next hplus hminus =>
    obtain ⟨⟨ds, found⟩, hdigits, hfound⟩ := Option.map_eq_some_iff.mp hread
    obtain ⟨rfl, rfl⟩ := Prod.mk.inj hfound
    cases cs with
    | nil => exact nomatch hdigits
    | cons c cs =>
      rw [signedExponent?.eq_3, digits1?_append h hdigits]
      · rfl
      · intro cs' heq
        obtain ⟨rfl, -⟩ := List.cons.inj heq
        exact hplus cs rfl
      · intro cs' heq
        obtain ⟨rfl, -⟩ := List.cons.inj heq
        exact hminus cs rfl

/-- Without its letter there is no exponent, and a rest that stops the number
begins with neither letter. -/
theorem exponent?_append {cs left : List Char} {exponent : Option Int} (h : Stops rest)
    (hread : exponent? cs = some (exponent, left)) :
    exponent? (cs ++ rest) = some (exponent, left ++ rest) := by
  unfold exponent? at hread
  split at hread
  next cs =>
    obtain ⟨e, hsigned, rfl⟩ := exists_of_map_eq_some hread
    rw [List.cons_append, exponent?, signedExponent?_append h hsigned]
    rfl
  next cs =>
    obtain ⟨e, hsigned, rfl⟩ := exists_of_map_eq_some hread
    rw [List.cons_append, exponent?, signedExponent?_append h hsigned]
    rfl
  next hlower hupper =>
    obtain ⟨rfl, rfl⟩ := Prod.mk.inj (Option.some.inj hread)
    cases cs with
    | nil =>
      refine exponent?.eq_3 _ ?_ ?_
      · rintro cs' rfl
        exact h.ne rfl rfl
      · rintro cs' rfl
        exact h.ne rfl rfl
    | cons c cs =>
      refine exponent?.eq_3 _ ?_ ?_
      · intro cs' heq
        obtain ⟨rfl, -⟩ := List.cons.inj heq
        exact hlower cs rfl
      · intro cs' heq
        obtain ⟨rfl, -⟩ := List.cons.inj heq
        exact hupper cs rfl

end

/-- Reads a number after its sign. -/
def unsigned? (negative : Bool) (cs : List Char) : Option (Number × List Char) :=
  match wholePart? cs with
  | none => none
  | some (whole, cs) =>
    match fraction? cs with
    | none => none
    | some (fraction, cs) =>
      match exponent? cs with
      | none => none
      | some (exponent, cs) =>
        ((Numeral.ofParts negative whole fraction exponent).toNumber?).map fun n => (n, cs)

/-- A sign is taken off before the number. -/
theorem number?_minus (cs : List Char) : number? ('-' :: cs) = unsigned? true cs := rfl

theorem number?_of_ne_minus {c : Char} (h : c ≠ '-') (cs : List Char) :
    number? (c :: cs) = unsigned? false (c :: cs) := by
  unfold number?
  split
  next negative cs' hsign =>
  split at hsign
  next heq => exact absurd (List.cons.inj heq).1 h
  next =>
    obtain ⟨rfl, rfl⟩ := Prod.mk.inj hsign
    rfl

/-- A number after its sign is the digits before the point, then a fraction,
then an exponent. -/
theorem unsigned?_eq_some_iff {negative : Bool} {cs left : List Char} {n : Number} :
    unsigned? negative cs = some (n, left) ↔
      ∃ whole afterWhole fraction afterFraction exponent,
        wholePart? cs = some (whole, afterWhole) ∧
        fraction? afterWhole = some (fraction, afterFraction) ∧
        exponent? afterFraction = some (exponent, left) ∧
        (Numeral.ofParts negative whole fraction exponent).toNumber? = some n := by
  -- the three parts are read one after the other, each from what the one before has left
  constructor
  · intro hread
    unfold unsigned? at hread
    cases hwhole : wholePart? cs with
    | none => rw [hwhole] at hread; exact nomatch hread
    | some found =>
      obtain ⟨whole, afterWhole⟩ := found
      rw [hwhole] at hread
      dsimp only at hread
      cases hfraction : fraction? afterWhole with
      | none => rw [hfraction] at hread; exact nomatch hread
      | some found =>
        obtain ⟨fraction, afterFraction⟩ := found
        rw [hfraction] at hread
        dsimp only at hread
        cases hexponent : exponent? afterFraction with
        | none => rw [hexponent] at hread; exact nomatch hread
        | some found =>
          obtain ⟨exponent, afterExponent⟩ := found
          rw [hexponent] at hread
          obtain ⟨value, hvalue, hfound⟩ := Option.map_eq_some_iff.mp hread
          obtain ⟨rfl, rfl⟩ := Prod.mk.inj hfound
          exact ⟨whole, afterWhole, fraction, afterFraction, exponent, rfl, hfraction, hexponent,
            hvalue⟩
  · rintro ⟨whole, afterWhole, fraction, afterFraction, exponent, hwhole, hfraction, hexponent,
      hvalue⟩
    unfold unsigned?
    simp only [hwhole, hfraction, hexponent, hvalue, Option.map_some]

theorem unsigned?_append {negative : Bool} {cs left rest : List Char} {n : Number} (h : Stops rest)
    (hread : unsigned? negative cs = some (n, left)) :
    unsigned? negative (cs ++ rest) = some (n, left ++ rest) := by
  obtain ⟨whole, afterWhole, fraction, afterFraction, exponent, hwhole, hfraction, hexponent,
    hvalue⟩ := unsigned?_eq_some_iff.mp hread
  exact unsigned?_eq_some_iff.mpr ⟨whole, _, fraction, _, exponent, wholePart?_append h hwhole,
    fraction?_append h hfraction, exponent?_append h hexponent, hvalue⟩

/-- What follows a number does not change it. -/
theorem number?_append {cs left rest : List Char} {n : Number} (h : Stops rest)
    (hread : number? cs = some (n, left)) : number? (cs ++ rest) = some (n, left ++ rest) := by
  cases cs with
  | nil => exact nomatch hread
  | cons c cs =>
    by_cases hsign : c = '-'
    · subst hsign
      rw [number?_minus] at hread
      rw [List.cons_append, number?_minus]
      exact unsigned?_append h hread
    · rw [number?_of_ne_minus hsign] at hread
      rw [List.cons_append, number?_of_ne_minus hsign]
      exact unsigned?_append h hread

/-! ## Whole numbers -/

/-- Digits are taken in only as long as the outcome lies within 64 bits. -/
theorem absorb_le {digits : Nat} (h : digits ≤ Numeral.maxDigits) (ds : List Nat) :
    (Numeral.absorb digits ds).1 ≤ Numeral.maxDigits := by
  induction ds generalizing digits with
  | nil => exact h
  | cons d ds ih =>
    unfold Numeral.absorb
    split
    next hfits => exact ih hfits
    next => exact h

theorem digits_ofParts_le (negative : Bool) (whole : List Nat) (fraction : Option (List Nat))
    (exponent : Option Int) :
    (Numeral.ofParts negative whole fraction exponent).digits ≤ Numeral.maxDigits :=
  absorb_le (absorb_le (Nat.zero_le _) whole) _

/-- A numeral becomes a whole number only where its digits lie within the range
of its sign. -/
theorem fits_of_toNumber? {numeral : Numeral} (h : numeral.digits ≤ Numeral.maxDigits) {n : Number}
    (hread : numeral.toNumber? = some n) : n.Fits := by
  unfold Numeral.toNumber? at hread
  split at hread
  next hwhole =>
    obtain rfl := Option.some.inj hread
    show _ ∧ _
    cases hnegative : numeral.negative with
    | false =>
      rw [if_neg Bool.false_ne_true]
      have hlow : -(Nat.pow 2 63 : Nat) ≤ (numeral.digits : Int) := by
        have hpos := Int.natCast_nonneg (Nat.pow 2 63)
        omega
      exact ⟨hlow, Int.ofNat_le.mpr h⟩
    | true =>
      rw [if_pos rfl]
      rcases hwhole.2 with hfalse | ⟨-, hbound⟩
      · exact absurd (hnegative.symm.trans hfalse) Bool.noConfusion
      · have hmax := Int.natCast_nonneg Numeral.maxDigits
        omega
  next =>
    obtain ⟨x, -, rfl⟩ := Option.map_eq_some_iff.mp hread
    trivial

/-- Whole numbers that are read lie within 64 bits. -/
theorem fits_of_number? {cs left : List Char} {n : Number} (hread : number? cs = some (n, left)) :
    n.Fits := by
  have hunsigned : ∀ negative more, unsigned? negative more = some (n, left) → n.Fits := by
    intro negative more hmore
    obtain ⟨whole, _, fraction, _, exponent, -, -, -, hvalue⟩ := unsigned?_eq_some_iff.mp hmore
    exact fits_of_toNumber? (digits_ofParts_le negative whole fraction exponent) hvalue
  cases cs with
  | nil => exact nomatch hread
  | cons c cs =>
    by_cases hsign : c = '-'
    · subst hsign
      exact hunsigned true cs hread
    · rw [number?_of_ne_minus hsign] at hread
      exact hunsigned false (c :: cs) hread

/-! ### Whole numbers that are read back -/

/-- A decimal numeral begins with a zero only for zero. -/
theorem toDigits_eq_cons (n : Nat) :
    ∃ c cs, Nat.toDigits 10 n = c :: cs ∧ c.isDigit = true ∧ (0 < n → c ≠ '0') := by
  induction n using Nat.base_induction 10 (by decide) with
  | single n hn =>
    refine ⟨n.digitChar, [], Nat.toDigits_of_lt_base hn, ?_, ?_⟩
    · rw [Nat.isDigit_digitChar]
      exact decide_eq_true hn
    · intro hpos heq
      exact Nat.ne_of_gt hpos (Nat.digitChar_eq_zero.mp heq)
  | digit n d hd hpos ih =>
    obtain ⟨c, cs, hcs, hdigit, hzero⟩ := ih
    refine ⟨c, cs ++ Nat.toDigits 10 d, ?_, hdigit, fun _ => hzero hpos⟩
    rw [← Nat.toDigits_append_toDigits (by decide) hpos hd, hcs, List.cons_append]

/-- Digits on their own are read one by one. -/
theorem digits_of_isDigit {cs : List Char} (h : ∀ c ∈ cs, c.isDigit = true) :
    digits cs = (cs.map fun c => c.toNat - 48, []) := by
  induction cs with
  | nil => rfl
  | cons c cs ih =>
    obtain ⟨hc, hcs⟩ := List.forall_mem_cons.mp h
    rw [digits, digit?_of_isDigit hc, ih hcs]
    rfl

/-- Reading more digits makes a number no smaller, so that no prefix of a small
number is too large. -/
theorem le_ofDigitChars (cs : List Char) (init : Nat) : init ≤ Nat.ofDigitChars 10 cs init := by
  induction cs generalizing init with
  | nil => exact Nat.le_refl init
  | cons c cs ih =>
    rw [Nat.ofDigitChars_cons]
    refine Nat.le_trans ?_ (ih _)
    omega

/-- Digits are taken in as long as the number that they stand for is not too
large. -/
theorem absorb_of_le {cs : List Char} {init : Nat}
    (h : Nat.ofDigitChars 10 cs init ≤ Numeral.maxDigits) :
    Numeral.absorb init (cs.map fun c => c.toNat - 48) = (Nat.ofDigitChars 10 cs init, 0) := by
  induction cs generalizing init with
  | nil => rfl
  | cons c cs ih =>
    rw [Nat.ofDigitChars_cons] at h ⊢
    have hnext : init * 10 + (c.toNat - 48) = 10 * init + (c.toNat - '0'.toNat) := by
      show init * 10 + (c.toNat - 48) = 10 * init + (c.toNat - 48)
      omega
    rw [List.map_cons, Numeral.absorb, hnext, if_pos (Nat.le_trans (le_ofDigitChars cs _) h), ih h]

/-- The digits of a natural number are read back as this number. -/
theorem unsigned?_toDigits (negative : Bool) {n : Nat} (hmax : n ≤ Numeral.maxDigits)
    (hnegative : negative = true → 0 < n ∧ n ≤ Nat.pow 2 63) :
    unsigned? negative (Nat.toDigits 10 n) =
      some (.whole (if negative then -(n : Int) else n), []) := by
  have hdigit : ∀ c ∈ Nat.toDigits 10 n, c.isDigit = true :=
    fun c hc => Nat.isDigit_of_mem_toDigits (by decide) (by decide) hc
  have hdigits := digits_of_isDigit hdigit
  have hvalue : Nat.ofDigitChars 10 (Nat.toDigits 10 n) 0 = n := Nat.ofDigitChars_ten_toDigits
  have habsorb : Numeral.absorb 0 ((Nat.toDigits 10 n).map fun c => c.toNat - 48) = (n, 0) := by
    rw [absorb_of_le (hvalue.symm ▸ hmax), hvalue]
  have hwhole : wholePart? (Nat.toDigits 10 n) =
      some ((Nat.toDigits 10 n).map fun c => c.toNat - 48, []) := by
    obtain ⟨c, cs, hcs, hc, hzero⟩ := toDigits_eq_cons n
    unfold wholePart?
    rw [hdigits, hcs, List.map_cons]
    cases cs with
    | nil => cases c.toNat - 48 <;> rfl
    | cons d cs =>
      -- a second digit stands only after one that is not zero
      have hpos : 0 < n := by
        rcases Nat.eq_zero_or_pos n with rfl | hpos
        · rw [Nat.toDigits_zero] at hcs
          exact nomatch hcs
        · exact hpos
      have hne : c.toNat - 48 ≠ 0 := by
        intro heq
        have hbounds := Char.isDigit_iff_toNat.mp hc
        have hlow : 48 ≤ c.toNat := hbounds.1
        have hc48 : c.toNat = '0'.toNat := by
          show c.toNat = 48
          omega
        exact hzero hpos (Char.toNat_inj.mp hc48)
      obtain ⟨d', hd'⟩ := Nat.exists_eq_succ_of_ne_zero hne
      rw [hd']
      rfl
  refine unsigned?_eq_some_iff.mpr ⟨_, _, none, [], none, hwhole, rfl, rfl, ?_⟩
  unfold Numeral.ofParts
  rw [habsorb]
  show Numeral.toNumber? ⟨negative, n, _, true⟩ = _
  unfold Numeral.toNumber?
  rw [if_pos]
  refine ⟨rfl, ?_⟩
  cases negative with
  | false => exact .inl rfl
  | true => exact .inr (hnegative rfl)

theorem text_natCast (n : Nat) : (Number.whole n).text = Nat.toDigits 10 n := Nat.toList_repr

theorem text_neg_succ (n : Nat) :
    (Number.whole (-((n + 1 : Nat) : Int))).text = '-' :: Nat.toDigits 10 (n + 1) := by
  show ("-" ++ Nat.repr (n + 1)).toList = _
  rw [String.toList_append, Nat.toList_repr]
  rfl

/-- A whole number of 64 bits is read back. -/
theorem number?_whole {n : Int} (h : (Number.whole n).Fits) :
    number? (Number.whole n).text = some (.whole n, []) := by
  obtain ⟨hlow, hhigh⟩ := h
  -- the sign is written apart, and the range below zero is larger by one
  rcases Int.lt_or_le n 0 with hneg | hpos
  · obtain ⟨m, rfl⟩ : ∃ m : Nat, n = -((m + 1 : Nat) : Int) := ⟨(-n).toNat - 1, by omega⟩
    have hbound : m + 1 ≤ Nat.pow 2 63 := by omega
    rw [text_neg_succ, number?_minus, unsigned?_toDigits true ?_ fun _ => ⟨m.succ_pos, hbound⟩]
    · rfl
    · exact Nat.le_trans hbound (by decide)
  · obtain ⟨m, rfl⟩ := Int.eq_ofNat_of_zero_le hpos
    obtain ⟨c, cs, hcs, hdigit, -⟩ := toDigits_eq_cons m
    have hsign : c ≠ '-' := by
      rintro rfl
      exact absurd hdigit (by decide)
    have hread := unsigned?_toDigits false (Int.ofNat_le.mp hhigh) (fun h => nomatch h)
    rw [text_natCast, hcs, number?_of_ne_minus hsign, ← hcs, hread]
    rfl

end Json.Reader

end Graft
