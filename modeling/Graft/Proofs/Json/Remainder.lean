import Graft.Proofs.Json.Numeral

/-!
# What a reader of JSON leaves, and the fuel it needs

Every reader of `Graft.Json.Reader` hands on the characters behind what it has
read. They are no more than it was given, and a string is shorter than the text
that spells it, by its quotes at least. So the strings in a value that is read
are all shorter than the text (`stringBound`), which is what keeps texts inside
each other finite: one that is held by another, as a raw value is by a string,
is the shorter one.

The lengths are followed from the digits of a number up to whole values, one
lemma a reader. Each lemma takes the reader apart where it succeeds and adds up
what its parts leave. The three readers that call each other (`value?`,
`items?`, `members?`) are treated together, by recursion on the fuel.

A reader that succeeds does so with any greater fuel too, and with the same
outcome (`value?_mono`). The fuel is only there to make the recursion
structural. A text is read with two units a character (`valueFuel`), and a
reader that uses up one character at least with every call never runs out of it;
what reads a text after some of it is gone so has enough left, and may be
compared with a run from the start.

Main statements:
- `Json.Reader.length_le_of_value?`: a reader of values leaves no more than it
  was given, and the strings that it has read are shorter than that;
- `Json.stringBound_le_of_parse?`: so are the strings in a text;
- `Json.Reader.value?_open_array`, `Json.Reader.value?_open_object`: what a
  bracket or a brace leaves to be read;
- `Json.Reader.value?_mono`: what has been read is read with more fuel as well.
-/

namespace Graft

namespace Json

mutual

/-- The least number that the lengths of all strings in a value lie below. Keys
do not count. -/
def stringBound : Json → Nat
  | .string s => s.length + 1
  | .array items => stringBoundOfItems items
  | .object members => stringBoundOfMembers members
  | .null | .bool _ | .number _ => 0

/-- The greatest such number of some values. -/
def stringBoundOfItems : List Json → Nat
  | [] => 0
  | v :: rest => max v.stringBound (stringBoundOfItems rest)

/-- The greatest such number of the values of some members. -/
def stringBoundOfMembers : List (String × Json) → Nat
  | [] => 0
  | (_, v) :: rest => max v.stringBound (stringBoundOfMembers rest)

end

namespace Reader

/-! ## Characters that are left -/

/-- Skipping blanks never adds a character. -/
theorem length_skipBlanks_le (cs : List Char) : (skipBlanks cs).length ≤ cs.length := by
  induction cs with
  | nil => exact Nat.le_refl 0
  | cons c rest ih =>
    rw [skipBlanks]
    split
    next => exact Nat.le_succ_of_le ih
    next => exact Nat.le_refl _

/-- Behind a character that follows blanks there is less than before them. -/
theorem length_lt_of_skipBlanks {cs rest : List Char} {c : Char} (h : skipBlanks cs = c :: rest) :
    rest.length < cs.length := by
  have hle := length_skipBlanks_le cs
  rw [h, List.length_cons] at hle
  omega

/-- The digits of a number are taken from the front. -/
theorem length_digits_le (cs : List Char) : (digits cs).2.length ≤ cs.length := by
  induction cs with
  | nil => exact Nat.le_refl 0
  | cons c rest ih =>
    rw [digits]
    split
    next => exact Nat.le_succ_of_le ih
    next => exact Nat.le_refl _

variable {cs left : List Char}

theorem length_le_of_digits1? {ds : List Nat} (h : digits1? cs = some (ds, left)) :
    left.length ≤ cs.length := by
  have hle := length_digits_le cs
  unfold digits1? at h
  split at h
  next => cases h
  next =>
    rw [Option.some.inj h] at hle
    exact hle

theorem length_le_of_wholePart? {ds : List Nat} (h : wholePart? cs = some (ds, left)) :
    left.length ≤ cs.length := by
  have hle := length_digits_le cs
  unfold wholePart? at h
  split at h
  next => cases h
  next => cases h
  next =>
    rw [Option.some.inj h] at hle
    exact hle

theorem length_le_of_fraction? {fraction : Option (List Nat)}
    (h : fraction? cs = some (fraction, left)) : left.length ≤ cs.length := by
  unfold fraction? at h
  split at h
  next rest =>
    obtain ⟨ds, hread, -⟩ := exists_of_map_eq_some h
    exact Nat.le_succ_of_le (length_le_of_digits1? hread)
  next =>
    obtain ⟨-, rfl⟩ := Prod.mk.inj (Option.some.inj h)
    exact Nat.le_refl _

theorem length_le_of_signedExponent? {e : Int} (h : signedExponent? cs = some (e, left)) :
    left.length ≤ cs.length := by
  unfold signedExponent? at h
  split at h
  next rest =>
    obtain ⟨⟨ds, _⟩, hread, heq⟩ := Option.map_eq_some_iff.mp h
    obtain ⟨-, rfl⟩ := Prod.mk.inj heq
    exact Nat.le_succ_of_le (length_le_of_digits1? hread)
  next rest =>
    obtain ⟨⟨ds, _⟩, hread, heq⟩ := Option.map_eq_some_iff.mp h
    obtain ⟨-, rfl⟩ := Prod.mk.inj heq
    exact Nat.le_succ_of_le (length_le_of_digits1? hread)
  next =>
    obtain ⟨⟨ds, _⟩, hread, heq⟩ := Option.map_eq_some_iff.mp h
    obtain ⟨-, rfl⟩ := Prod.mk.inj heq
    exact length_le_of_digits1? hread

/-- An exponent begins with a letter; without one, nothing is taken. -/
theorem length_le_of_exponent? {exponent : Option Int} (h : exponent? cs = some (exponent, left)) :
    left.length ≤ cs.length := by
  unfold exponent? at h
  split at h
  next =>
    obtain ⟨e, hread, -⟩ := exists_of_map_eq_some h
    exact Nat.le_succ_of_le (length_le_of_signedExponent? hread)
  next =>
    obtain ⟨e, hread, -⟩ := exists_of_map_eq_some h
    exact Nat.le_succ_of_le (length_le_of_signedExponent? hread)
  next =>
    obtain ⟨-, rfl⟩ := Prod.mk.inj (Option.some.inj h)
    exact Nat.le_refl _

theorem length_le_of_unsigned? {negative : Bool} {n : Number}
    (h : unsigned? negative cs = some (n, left)) : left.length ≤ cs.length := by
  obtain ⟨_, _, _, _, _, hwhole, hfraction, hexponent, -⟩ := unsigned?_eq_some_iff.mp h
  calc left.length
    _ ≤ _ := length_le_of_exponent? hexponent
    _ ≤ _ := length_le_of_fraction? hfraction
    _ ≤ cs.length := length_le_of_wholePart? hwhole

/-- A number, with or without sign, leaves no more than it was given. -/
theorem length_le_of_number? {n : Number} (h : number? cs = some (n, left)) :
    left.length ≤ cs.length := by
  cases cs with
  | nil => cases h
  | cons c rest =>
    by_cases hsign : c = '-'
    · subst hsign
      rw [number?_minus] at h
      exact Nat.le_succ_of_le (length_le_of_unsigned? h)
    · rw [number?_of_ne_minus hsign] at h
      exact length_le_of_unsigned? h

theorem length_le_of_hex4? {unit : Nat} (h : hex4? cs = some (unit, left)) :
    left.length ≤ cs.length := by
  unfold hex4? at h
  split at h
  next a b c d rest =>
    obtain ⟨_, -, heq⟩ := Option.map_eq_some_iff.mp h
    obtain ⟨-, rfl⟩ := Prod.mk.inj heq
    simp only [List.length_cons]
    omega
  next => cases h

/-- An escaped character takes four digits, or twice four and the escape between
them for a surrogate pair. -/
theorem length_le_of_unicodeEscape? {c : Char} (h : unicodeEscape? cs = some (c, left)) :
    left.length ≤ cs.length := by
  unfold unicodeEscape? at h
  split at h
  next => cases h
  next unit rest hunit =>
    have hle := length_le_of_hex4? hunit
    split at h
    next =>
      -- a high surrogate, and the low one after it
      split at h
      next more =>
        split at h
        next low rest hlow =>
          have hlow := length_le_of_hex4? hlow
          split at h
          next =>
            obtain ⟨-, rfl⟩ := Prod.mk.inj (Option.some.inj h)
            simp only [List.length_cons] at hle
            omega
          next => cases h
        next => cases h
      next => cases h
    next =>
      split at h
      next => cases h
      next =>
        obtain ⟨-, rfl⟩ := Prod.mk.inj (Option.some.inj h)
        exact hle

theorem length_le_of_escape? {c : Char} (h : escape? cs = some (c, left)) :
    left.length ≤ cs.length := by
  unfold escape? at h
  split at h
  case h_9 => exact Nat.le_succ_of_le (length_le_of_unicodeEscape? h)
  case h_10 => cases h
  all_goals
    obtain ⟨-, rfl⟩ := Prod.mk.inj (Option.some.inj h)
    exact Nat.le_succ _

/-- Every character of a string is spelled by one at least, and the quote behind
it by one more. -/
theorem length_lt_of_stringBody? {fuel : Nat} {body : List Char}
    (h : stringBody? fuel cs = some (body, left)) : body.length + left.length < cs.length := by
  -- along the body: an escape spells one character with two or more, any other stands for itself
  induction fuel generalizing cs body with
  | zero => cases h
  | succ fuel ih =>
    cases cs with
    | nil => cases h
    | cons c rest =>
      rw [stringBody?] at h
      split at h
      next =>
        obtain ⟨rfl, rfl⟩ := Prod.mk.inj (Option.some.inj h)
        simp only [List.length_nil, List.length_cons]
        omega
      next =>
        split at h
        next =>
          split at h
          next c rest hescape =>
            have hle := length_le_of_escape? hescape
            obtain ⟨body, hbody, rfl⟩ := exists_of_map_eq_some h
            have hlt := ih hbody
            simp only [List.length_cons]
            omega
          next => cases h
        next =>
          split at h
          next => cases h
          next =>
            obtain ⟨body, hbody, rfl⟩ := exists_of_map_eq_some h
            have hlt := ih hbody
            simp only [List.length_cons]
            omega

/-- A string is shorter than its spelling: the quotes are no part of it. -/
theorem length_lt_of_string? {s : String} (h : string? cs = some (s, left)) :
    s.length + left.length < cs.length := by
  obtain ⟨body, hbody, rfl⟩ := exists_of_map_eq_some h
  rw [String.length_ofList]
  exact length_lt_of_stringBody? hbody

theorem length_le_of_keyword? {letters : List Char} (h : keyword? letters cs = some left) :
    left.length ≤ cs.length := by
  induction letters generalizing cs with
  | nil =>
    obtain rfl := Option.some.inj h
    exact Nat.le_refl _
  | cons k letters ih =>
    cases cs with
    | nil => cases h
    | cons c cs =>
      rw [keyword?] at h
      split at h
      next => exact Nat.le_succ_of_le (ih h)
      next => cases h

/-- Of the values without parts only strings hold one, which is bounded by
`length_lt_of_string?`. -/
theorem length_le_of_scalar? {v : Json} (h : scalar? cs = some (v, left)) :
    left.length ≤ cs.length ∧ v.stringBound ≤ cs.length := by
  unfold scalar? at h
  split at h
  case h_4 rest =>
    obtain ⟨s, hread, rfl⟩ := exists_of_map_eq_some h
    have hlt := length_lt_of_string? hread
    rw [stringBound, List.length_cons]
    omega
  case h_5 =>
    obtain ⟨n, hread, rfl⟩ := exists_of_map_eq_some h
    exact ⟨length_le_of_number? hread, Nat.zero_le _⟩
  all_goals
    obtain ⟨_, hread, heq⟩ := Option.map_eq_some_iff.mp h
    obtain ⟨rfl, rfl⟩ := Prod.mk.inj heq
    exact ⟨Nat.le_succ_of_le (length_le_of_keyword? hread), Nat.zero_le _⟩

/-- A key leaves what stands behind its colon. -/
theorem length_le_of_key? {key : String} (h : key? cs = some (key, left)) :
    left.length ≤ cs.length := by
  unfold key? at h
  split at h
  next rest =>
    split at h
    next key rest hstring =>
      have hlt := length_lt_of_string? hstring
      split at h
      next rest hcolon =>
        obtain ⟨-, rfl⟩ := Prod.mk.inj (Option.some.inj h)
        have hcolon := length_lt_of_skipBlanks hcolon
        simp only [List.length_cons]
        omega
      next => cases h
    next => cases h
  next => cases h

mutual

/-- A reader of values leaves no more than it was given, and has read no string
that long. -/
theorem length_le_of_value? : ∀ (fuel : Nat) {depth : Nat} {cs left : List Char} {v : Json},
    value? fuel depth cs = some (v, left) → left.length ≤ cs.length ∧ v.stringBound ≤ cs.length
  | 0, _, _, _, _, h => by cases h
  | fuel + 1, depth, cs, left, v, h => by
    have hblanks := length_skipBlanks_le cs
    unfold value? at h
    split at h
    next rest hopen =>
      rw [hopen, List.length_cons] at hblanks
      split at h
      next => cases h
      next depth =>
        split at h
        next hclose =>
          obtain ⟨rfl, rfl⟩ := Prod.mk.inj (Option.some.inj h)
          have hlt := length_lt_of_skipBlanks hclose
          exact ⟨by omega, Nat.zero_le _⟩
        next =>
          obtain ⟨items, hitems, rfl⟩ := exists_of_map_eq_some h
          have hle := length_le_of_items? fuel hitems
          have hinner := length_skipBlanks_le rest
          rw [stringBound]
          omega
    next rest hopen =>
      rw [hopen, List.length_cons] at hblanks
      split at h
      next => cases h
      next depth =>
        split at h
        next hclose =>
          obtain ⟨rfl, rfl⟩ := Prod.mk.inj (Option.some.inj h)
          have hlt := length_lt_of_skipBlanks hclose
          exact ⟨by omega, Nat.zero_le _⟩
        next =>
          obtain ⟨members, hmembers, rfl⟩ := exists_of_map_eq_some h
          have hle := length_le_of_members? fuel hmembers
          have hinner := length_skipBlanks_le rest
          rw [stringBound]
          omega
    next =>
      have hle := length_le_of_scalar? h
      omega

/-- The items of an array, each within what the one before it has left. -/
theorem length_le_of_items? :
    ∀ (fuel : Nat) {depth : Nat} {cs left : List Char} {items : List Json},
    items? fuel depth cs = some (items, left) →
      left.length ≤ cs.length ∧ stringBoundOfItems items ≤ cs.length
  | 0, _, _, _, _, h => by cases h
  | fuel + 1, depth, cs, left, items, h => by
    unfold items? at h
    split at h
    next => cases h
    next first rest hfirst =>
      have hfirst := length_le_of_value? fuel hfirst
      split at h
      next hcomma =>
        have hlt := length_lt_of_skipBlanks hcomma
        obtain ⟨others, hothers, rfl⟩ := exists_of_map_eq_some h
        have hothers := length_le_of_items? fuel hothers
        rw [stringBoundOfItems]
        omega
      next hclose =>
        have hlt := length_lt_of_skipBlanks hclose
        obtain ⟨rfl, rfl⟩ := Prod.mk.inj (Option.some.inj h)
        rw [stringBoundOfItems, stringBoundOfItems]
        omega
      next => cases h

/-- The members of an object; the keys are not counted, as no raw value is read
from a key. -/
theorem length_le_of_members? :
    ∀ (fuel : Nat) {depth : Nat} {cs left : List Char} {members : Members},
    members? fuel depth cs = some (members, left) →
      left.length ≤ cs.length ∧ stringBoundOfMembers members ≤ cs.length
  | 0, _, _, _, _, h => by cases h
  | fuel + 1, depth, cs, left, members, h => by
    have hblanks := length_skipBlanks_le cs
    unfold members? at h
    split at h
    next => cases h
    next key rest hkey =>
      have hkey := length_le_of_key? hkey
      split at h
      next => cases h
      next first rest hfirst =>
        have hfirst := length_le_of_value? fuel hfirst
        split at h
        next hcomma =>
          have hlt := length_lt_of_skipBlanks hcomma
          obtain ⟨others, hothers, rfl⟩ := exists_of_map_eq_some h
          have hothers := length_le_of_members? fuel hothers
          rw [stringBoundOfMembers]
          omega
        next hclose =>
          have hlt := length_lt_of_skipBlanks hclose
          obtain ⟨rfl, rfl⟩ := Prod.mk.inj (Option.some.inj h)
          rw [stringBoundOfMembers, stringBoundOfMembers]
          omega
        next => cases h

end

end Reader

/-- A text spells a value if nothing but blanks follows it. -/
theorem parse?_eq_some_iff {text : String} {v : Json} :
    parse? text = some v ↔ ∃ left, Reader.value? (Reader.valueFuel text.toList) Reader.maxDepth
      text.toList = some (v, left) ∧ Reader.skipBlanks left = [] := by
  unfold parse?
  dsimp only
  cases hvalue : Reader.value? (Reader.valueFuel text.toList) Reader.maxDepth text.toList with
  | none => simp
  | some read =>
    obtain ⟨found, left⟩ := read
    simp only [List.isEmpty_iff, Option.ite_none_right_eq_some, Option.some.injEq, Prod.mk.injEq]
    constructor
    · rintro ⟨hblanks, rfl⟩
      exact ⟨left, ⟨rfl, rfl⟩, hblanks⟩
    · rintro ⟨_, ⟨rfl, rfl⟩, hblanks⟩
      exact ⟨hblanks, rfl⟩

/-- The strings in the value that a text spells are shorter than the text. -/
theorem stringBound_le_of_parse? {text : String} {v : Json} (h : parse? text = some v) :
    v.stringBound ≤ text.length := by
  obtain ⟨left, hvalue, -⟩ := parse?_eq_some_iff.mp h
  rw [← String.length_toList]
  exact (Reader.length_le_of_value? _ hvalue).2

namespace Reader

/-! ## Opening -/

/-- Opening an array costs one level, and then its items are read. -/
theorem value?_open_array {fuel depth : Nat} {cs behind inner : List Char}
    (hopen : skipBlanks cs = '[' :: behind) (hinner : skipBlanks behind = inner)
    (hbegins : ∀ rest, inner ≠ ']' :: rest) :
    value? (fuel + 1) depth cs =
      if depth = 0 then none
      else (items? fuel (depth - 1) inner).map fun (items, left) => (.array items, left) := by
  rw [value?, hopen]
  cases depth with
  | zero => rfl
  | succ depth =>
    split
    next rest heq =>
      obtain rfl := (List.cons.inj heq).2
      dsimp only
      rw [hinner]
      split
      next => exact absurd rfl (hbegins _)
      next => rfl
    next heq => exact absurd (List.cons.inj heq).1 (by decide)
    next hnot _ => exact absurd rfl (hnot behind)

/-- Opening an object costs one level, and then its members are read. -/
theorem value?_open_object {fuel depth : Nat} {cs behind inner : List Char}
    (hopen : skipBlanks cs = '{' :: behind) (hinner : skipBlanks behind = inner)
    (hbegins : ∀ rest, inner ≠ '}' :: rest) :
    value? (fuel + 1) depth cs =
      if depth = 0 then none
      else (members? fuel (depth - 1) inner).map fun (members, left) =>
        (.object members, left) := by
  rw [value?, hopen]
  cases depth with
  | zero => rfl
  | succ depth =>
    split
    next heq => exact absurd (List.cons.inj heq).1 (by decide)
    next rest heq =>
      obtain rfl := (List.cons.inj heq).2
      dsimp only
      rw [hinner]
      split
      next => exact absurd rfl (hbegins _)
      next => rfl
    next _ hnot => exact absurd rfl (hnot behind)

/-! ## More fuel -/

mutual

/-- What has been read is read in the same way with more fuel. -/
theorem value?_mono : ∀ {fuel more : Nat}, fuel ≤ more → ∀ {depth : Nat} {cs : List Char}
    {read : Json × List Char}, value? fuel depth cs = some read → value? more depth cs = some read
  | 0, _, _, _, _, _, h => by cases h
  | fuel + 1, 0, hle, _, _, _, _ => absurd hle (Nat.not_succ_le_zero fuel)
  | fuel + 1, more + 1, hle, depth, cs, read, h => by
    have hle := Nat.le_of_succ_le_succ hle
    unfold value? at h ⊢
    split at h
    next =>
      split at h
      next => cases h
      next depth =>
        split at h
        next => exact h
        next =>
          obtain ⟨found, hitems, rfl⟩ := Option.map_eq_some_iff.mp h
          exact Option.map_eq_some_iff.mpr ⟨found, items?_mono hle hitems, rfl⟩
    next =>
      split at h
      next => cases h
      next depth =>
        split at h
        next => exact h
        next =>
          obtain ⟨found, hmembers, rfl⟩ := Option.map_eq_some_iff.mp h
          exact Option.map_eq_some_iff.mpr ⟨found, members?_mono hle hmembers, rfl⟩
    next => exact h

theorem items?_mono : ∀ {fuel more : Nat}, fuel ≤ more → ∀ {depth : Nat} {cs : List Char}
    {read : List Json × List Char}, items? fuel depth cs = some read →
    items? more depth cs = some read
  | 0, _, _, _, _, _, h => by cases h
  | fuel + 1, 0, hle, _, _, _, _ => absurd hle (Nat.not_succ_le_zero fuel)
  | fuel + 1, more + 1, hle, depth, cs, read, h => by
    have hle := Nat.le_of_succ_le_succ hle
    unfold items? at h ⊢
    split at h
    next => cases h
    next first rest hfirst =>
      rw [value?_mono hle hfirst]
      dsimp only
      split at h
      next =>
        obtain ⟨found, hothers, rfl⟩ := Option.map_eq_some_iff.mp h
        exact Option.map_eq_some_iff.mpr ⟨found, items?_mono hle hothers, rfl⟩
      next => exact h
      next => cases h

theorem members?_mono : ∀ {fuel more : Nat}, fuel ≤ more → ∀ {depth : Nat} {cs : List Char}
    {read : Members × List Char},
    members? fuel depth cs = some read → members? more depth cs = some read
  | 0, _, _, _, _, _, h => by cases h
  | fuel + 1, 0, hle, _, _, _, _ => absurd hle (Nat.not_succ_le_zero fuel)
  | fuel + 1, more + 1, hle, depth, cs, read, h => by
    have hle := Nat.le_of_succ_le_succ hle
    unfold members? at h ⊢
    split at h
    next => cases h
    next key rest _ =>
      dsimp only
      split at h
      next => cases h
      next first rest hfirst =>
        rw [value?_mono hle hfirst]
        dsimp only
        split at h
        next =>
          obtain ⟨found, hothers, rfl⟩ := Option.map_eq_some_iff.mp h
          exact Option.map_eq_some_iff.mpr ⟨found, members?_mono hle hothers, rfl⟩
        next => exact h
        next => cases h

end

end Reader

end Json

end Graft
