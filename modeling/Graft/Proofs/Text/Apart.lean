import Graft.Proofs.Text.Split
import Mathlib.Data.List.Infix

/-!
# Needles that cannot overlap

If no occurrence of one needle can overlap one of another, then an occurrence of
the second lies within one of the literal texts around the occurrences of the
first. So a text can be split at one needle and its parts at the other in either
order: both ways cut it at the same places.

`Apart` rules out the four ways in which two occurrences could share a
character: either needle inside the other, or an end of one that begins the
other. It is decidable, symmetric, and false of the empty needle, which would
lie inside everything.

`splitBoth` keeps the two levels apart, as a list of lists: the parts around the
occurrences of the outer needle, each split at the inner one. Exchanging the
needles then is a statement about such lists, and the induction on the text asks
what happens when a first occurrence of one needle is taken off the front
(`splitBoth_outer`, `splitBoth_inner`) or a character that begins neither
(`splitBoth_cons`).

Main statements:
- `Apart.split_append`: the literal text that an occurrence of one needle joins
  is not split there by the other;
- `splitBoth_cons`, `splitBoth_outer`, `splitBoth_inner`: how a text is split at
  both needles.
-/

namespace Graft.Text

/-- Whether no occurrence of one needle can overlap one of the other in any text. -/
structure Apart (a b : List Char) : Prop where
  /-- The first does not lie within the second. -/
  not_isInfix_left : ¬ a <:+: b
  /-- The second does not lie within the first. -/
  not_isInfix_right : ¬ b <:+: a
  /-- The first does not end in what the second starts with. -/
  not_isPrefix_left : ∀ common, common ≠ [] → common <:+ a → ¬ common <+: b
  /-- The second does not end in what the first starts with. -/
  not_isPrefix_right : ∀ common, common ≠ [] → common <:+ b → ¬ common <+: a

namespace Apart

variable {a b : List Char}

/-- Only the endings of the needles need to be looked at. -/
theorem iff_tails : Apart a b ↔
    ¬ a <:+: b ∧ ¬ b <:+: a ∧ (∀ common ∈ a.tails, common ≠ [] → ¬ common <+: b) ∧
      ∀ common ∈ b.tails, common ≠ [] → ¬ common <+: a := by
  simp only [List.mem_tails]
  constructor
  · rintro ⟨hleft, hright, hends, hother⟩
    exact ⟨hleft, hright, fun common hmem hne => hends common hne hmem,
      fun common hmem hne => hother common hne hmem⟩
  · rintro ⟨hleft, hright, hends, hother⟩
    exact ⟨hleft, hright, fun common hne hmem => hends common hmem hne,
      fun common hne hmem => hother common hmem hne⟩

instance (a b : List Char) : Decidable (Apart a b) := decidable_of_iff _ iff_tails.symm

/-- The condition does not depend on the order of the needles. -/
theorem symm (h : Apart a b) : Apart b a :=
  ⟨h.not_isInfix_right, h.not_isInfix_left, h.not_isPrefix_right, h.not_isPrefix_left⟩

/-- The empty needle overlaps everything. -/
theorem ne_nil (h : Apart a b) : a ≠ [] := by
  rintro rfl
  exact h.not_isInfix_left List.nil_infix

/-- The second needle does not start within an occurrence of the first. -/
theorem not_isPrefix_append (h : Apart a b) {late : List Char} (hne : late ≠ [])
    (hlate : late <:+ a) (rest : List Char) : ¬ b <+: late ++ rest := by
  intro hprefix
  rcases List.prefix_or_prefix_of_prefix hprefix (List.prefix_append late rest) with hb | hcommon
  · exact h.not_isInfix_right (hb.isInfix.trans hlate.isInfix)
  · exact h.not_isPrefix_left late hne hlate hcommon

/-- An occurrence of the first needle joins the first literal text around the
second. -/
theorem split_append (h : Apart a b) (rest : List Char) :
    split b (a ++ rest) = (split b rest).modifyHead (a ++ ·) := by
  suffices hsuffix : ∀ late, late <:+ a →
      split b (late ++ rest) =
        (split b rest).modifyHead (late ++ ·) from hsuffix a (List.suffix_refl a)
  intro late hlate
  -- character by character: what is left of the occurrence does not start with the other needle
  induction late with
  | nil => exact (modifyHead_nil_append _).symm
  | cons c late ih =>
    have hnot : ¬ b <+: c :: (late ++ rest) :=
      h.not_isPrefix_append (List.cons_ne_nil c late) hlate rest
    rw [List.cons_append, split_cons hnot, ih ((List.suffix_cons c late).trans hlate),
      List.modifyHead_modifyHead]
    rfl

end Apart

/-- A text split at one needle, and its literal texts at another. -/
def splitBoth (outer inner text : List Char) : List (List (List Char)) :=
  (split outer text).map (split inner)

theorem splitBoth_ne_nil (outer inner text : List Char) : splitBoth outer inner text ≠ [] := by
  simpa [splitBoth] using split_ne_nil outer text

/-- A character at which neither needle occurs joins the first literal text. -/
theorem splitBoth_cons {outer inner : List Char} {c : Char} {rest : List Char}
    (houter : ¬ outer <+: c :: rest) (hinner : ¬ inner <+: c :: rest) :
    splitBoth outer inner (c :: rest) =
      (splitBoth outer inner rest).modifyHead (List.modifyHead (c :: ·)) := by
  obtain ⟨first, more, hsplit⟩ := List.exists_cons_of_ne_nil (split_ne_nil outer rest)
  have hfirst : ¬ inner <+: c :: first := fun h =>
    hinner (h.trans (List.cons_prefix_cons.mpr ⟨rfl, isPrefix_of_split hsplit⟩))
  rw [splitBoth, split_cons houter, splitBoth, hsplit, List.modifyHead_cons, List.map_cons,
    split_cons hfirst]
  rfl

/-- An occurrence of the needle that the text is split at first has the empty
text before it. -/
theorem splitBoth_outer {outer inner : List Char} (houter : outer ≠ []) (hinner : inner ≠ [])
    (rest : List Char) :
    splitBoth outer inner (outer ++ rest) = [[]] :: splitBoth outer inner rest := by
  rw [splitBoth, Text.split_append houter, List.map_cons, split_nil hinner]
  rfl

/-- An occurrence of the other needle has the empty text before it, within the
first literal text. -/
theorem splitBoth_inner {outer inner : List Char} (h : Apart inner outer) (rest : List Char) :
    splitBoth outer inner (inner ++ rest) =
      (splitBoth outer inner rest).modifyHead ([] :: ·) := by
  obtain ⟨first, more, hsplit⟩ := List.exists_cons_of_ne_nil (split_ne_nil outer rest)
  rw [splitBoth, h.split_append, splitBoth, hsplit, List.modifyHead_cons, List.map_cons,
    Text.split_append h.ne_nil]
  rfl

end Graft.Text
