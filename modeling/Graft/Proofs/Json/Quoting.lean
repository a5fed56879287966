import Graft.Json.Reader
import Graft.Json.Writer

/-!
# Strings between quotes

Every character of a string is written so that a reader takes it for itself and
for nothing more, and the closing quote is the first one that is not escaped. So
a string in quotes is read back, whatever follows it.

The writer (`escapeChar`) has three ways: a short escape for the quote, the
backslash and the common control characters, four hexadecimal digits for the
other control characters, and the character itself. `stringBody?_escape` treats
the three together as one step of the reader; the run over the whole string is
an induction on it with fuel for each character.

The rest behind the closing quote is arbitrary in all statements. Nothing that
follows a string can change where it ends, which is what makes keys and strings
inside larger texts readable on their own.

Main statements:
- `Json.Reader.stringBody?_escape`: one more character of a string;
- `Json.Reader.string?_quote`: a string in quotes is read back.
-/

namespace Graft.Json.Reader

/-- Two hexadecimal digits are enough for a control. -/
theorem hexValue?_control : ∀ n < 32,
    Text.hexValue? ['0', '0', hexDigit (n / 16), hexDigit (n % 16)] = some n := by
  decide

/-- A control that is written by its number is read back. -/
theorem escape?_control {c : Char} (h : c.toNat < 32) (rest : List Char) :
    escape? ('u' :: '0' :: '0' :: hexDigit (c.toNat / 16) :: hexDigit (c.toNat % 16) :: rest) =
      some (c, rest) := by
  have hunit : hex4? ('0' :: '0' :: hexDigit (c.toNat / 16) :: hexDigit (c.toNat % 16) :: rest) =
      some (c.toNat, rest) := by
    rw [hex4?, hexValue?_control c.toNat h]
    rfl
  rw [escape?, unicodeEscape?, hunit]
  dsimp only
  rw [if_neg (by omega), if_neg (by omega), Char.ofNat_toNat]

/-- A character as it is written in a string is read back, and the rest of the
string after it. -/
theorem stringBody?_escape (fuel : Nat) (c : Char) (rest : List Char) :
    stringBody? (fuel + 1) (escapeChar c ++ rest) =
      (stringBody? fuel rest).map fun (cs, left) => (c :: cs, left) := by
  -- an escape of one letter
  have hletter : ∀ letter : Char, escapeChar c = ['\\', letter] →
      escape? (letter :: rest) = some (c, rest) →
      stringBody? (fuel + 1) (escapeChar c ++ rest) =
        (stringBody? fuel rest).map fun (cs, left) => (c :: cs, left) := by
    intro letter hescape hread
    rw [hescape, List.cons_append, List.singleton_append, stringBody?, if_neg (by decide),
      if_pos rfl, hread]
  by_cases hquote : c = '"'
  · subst hquote
    exact hletter '"' rfl rfl
  by_cases hslash : c = '\\'
  · subst hslash
    exact hletter '\\' rfl rfl
  by_cases hb : c = '\x08'
  · subst hb
    exact hletter 'b' rfl rfl
  by_cases hf : c = '\x0c'
  · subst hf
    exact hletter 'f' rfl rfl
  by_cases hn : c = '\n'
  · subst hn
    exact hletter 'n' rfl rfl
  by_cases hr : c = '\r'
  · subst hr
    exact hletter 'r' rfl rfl
  by_cases ht : c = '\t'
  · subst ht
    exact hletter 't' rfl rfl
  rw [escapeChar, if_neg hquote, if_neg hslash, if_neg hb, if_neg hf, if_neg hn, if_neg hr,
    if_neg ht]
  by_cases hcontrol : c.toNat < 32
  · rw [if_pos hcontrol, List.cons_append, stringBody?, if_neg (by decide), if_pos rfl]
    have hread := escape?_control hcontrol rest
    simp only [List.cons_append, List.nil_append, hread]
  · rw [if_neg hcontrol, List.singleton_append, stringBody?, if_neg hquote, if_neg hslash,
      if_neg hcontrol]

/-- The body of a string is read back up to its closing quote. -/
theorem stringBody?_body (body rest : List Char) {fuel : Nat} (h : body.length < fuel) :
    stringBody? fuel (body.flatMap escapeChar ++ '"' :: rest) = some (body, rest) := by
  induction body generalizing fuel with
  | nil =>
    obtain ⟨fuel, rfl⟩ := Nat.exists_eq_succ_of_ne_zero (Nat.ne_of_gt h)
    rw [List.flatMap_nil, List.nil_append, stringBody?, if_pos rfl]
  | cons c body ih =>
    obtain ⟨fuel, rfl⟩ := Nat.exists_eq_succ_of_ne_zero (Nat.ne_of_gt (Nat.zero_lt_of_lt h))
    rw [List.flatMap_cons, List.append_assoc, Nat.succ_eq_add_one, stringBody?_escape,
      ih (Nat.lt_of_succ_lt_succ h)]
    rfl

/-- Every character is written with one character at least. -/
theorem escapeChar_ne_nil (c : Char) : escapeChar c ≠ [] := by
  unfold escapeChar
  repeat' split
  all_goals exact List.cons_ne_nil _ _

/-- So the fuel that a text provides is enough for the string that it spells. -/
theorem length_le_flatMap_escapeChar (body : List Char) :
    body.length ≤ (body.flatMap escapeChar).length := by
  induction body with
  | nil => exact Nat.le_refl 0
  | cons c body ih =>
    have hpos := List.length_pos_iff.mpr (escapeChar_ne_nil c)
    rw [List.flatMap_cons, List.length_append, List.length_cons]
    omega

/-- A string in quotes is read back. -/
theorem string?_quote (s : String) (rest : List Char) :
    ∃ cs, quote s ++ rest = '"' :: cs ∧ string? cs = some (s, rest) := by
  refine ⟨s.toList.flatMap escapeChar ++ '"' :: rest, ?_, ?_⟩
  · rw [quote, List.cons_append, List.cons_append, List.append_assoc, List.singleton_append]
  · have hfuel : s.toList.length <
        (s.toList.flatMap escapeChar ++ '"' :: rest).length + 1 := by
      have hlength := length_le_flatMap_escapeChar s.toList
      rw [List.length_append, List.length_cons]
      omega
    rw [string?, stringBody?_body s.toList rest hfuel, Option.map_some]
    show some (String.ofList s.toList, rest) = _
    rw [String.ofList_toList]

end Graft.Json.Reader
