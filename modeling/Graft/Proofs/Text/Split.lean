import Graft.Text.Place

/-!
# Splitting a text at a needle

A needle occurs in a text at those places where it is what follows. From left to
right, every occurrence that does not overlap the one taken before it is cut
out, and what is left are the literal texts around the occurrences: one more
than there are occurrences. The empty needle occurs at every place, also at both
ends. Replacing all occurrences is putting another text where the needle was.

This is the reference that searches for literal texts with constant replacements
are held against, and it mentions no pattern and no scanner: `split` runs down
the text by recursion on what is left of it, and `replaceAll` joins the parts
with the replacement between them.

The empty needle is the reason for `behind`. Behind an occurrence the split goes
on at once, but an empty occurrence must not be taken twice at one place, so one
character is passed first. For any other needle `behind` is the split itself.
`IsFirst` names the situation that all proofs by induction come down to: a text
before, the needle, a text after, and no earlier place that the needle follows.

Main statements:
- `split_cases`: a text without the needle is not split, and any other at the
  first occurrence;
- `not_isInfix_of_mem_split`: no literal text holds the needle;
- `replaceAll_append`, `replaceAll_of_not_isInfix`: the first occurrence is
  replaced, then those in what follows it, until there is none;
- `replaceAll_nil_needle`: the empty needle is replaced at every place.
-/

namespace Graft.Text

/-- What follows a needle is shorter than the text that starts with it. -/
theorem length_lt_append {needle : List Char} (hneedle : needle ≠ []) (rest : List Char) :
    rest.length < (needle ++ rest).length := by
  have hpos := List.length_pos_iff.mpr hneedle
  rw [List.length_append]
  omega

/-- The literal texts around the leftmost occurrences of a needle that do not
overlap. -/
def split (needle : List Char) : List Char → List (List Char)
  | [] => if needle.isEmpty then [[], []] else [[]]
  | c :: rest =>
    -- two occurrences of the empty needle have a character between them
    if needle.isEmpty then [] :: (split needle rest).modifyHead (c :: ·)
    else if needle.isPrefixOf (c :: rest) then [] :: split needle (rest.drop (needle.length - 1))
    else (split needle rest).modifyHead (c :: ·)
  termination_by text => text.length

/-- The text with all leftmost occurrences of a needle that do not overlap
replaced by another text. -/
def replaceAll (needle put text : List Char) : List Char := put.intercalate (split needle text)

theorem split_nil {needle : List Char} (hneedle : needle ≠ []) : split needle [] = [[]] := by
  rw [split, if_neg (by simpa using hneedle)]

/-- A character at which the needle does not occur joins the first literal text. -/
theorem split_cons {needle : List Char} {c : Char} {rest : List Char} (h : ¬ needle <+: c :: rest) :
    split needle (c :: rest) = (split needle rest).modifyHead (c :: ·) := by
  have hneedle : needle ≠ [] := by
    rintro rfl
    exact h List.nil_prefix
  rw [split, if_neg (by simpa using hneedle), if_neg (by rwa [List.isPrefixOf_iff_prefix])]

/-- An occurrence at the start has the empty text before it. -/
theorem split_append {needle : List Char} (hneedle : needle ≠ []) (rest : List Char) :
    split needle (needle ++ rest) = [] :: split needle rest := by
  obtain ⟨first, tail, rfl⟩ := List.exists_cons_of_ne_nil hneedle
  have hprefix : (first :: tail).isPrefixOf (first :: (tail ++ rest)) = true :=
    List.isPrefixOf_iff_prefix.mpr (List.prefix_append (first :: tail) rest)
  rw [List.cons_append, split, if_neg (by simp), if_pos hprefix, List.length_cons,
    Nat.add_sub_cancel, List.drop_left]

@[simp] theorem split_nil_nil : split [] [] = [[], []] := by
  rw [split]
  rfl

@[simp] theorem split_nil_cons (c : Char) (rest : List Char) :
    split [] (c :: rest) = [] :: (split [] rest).modifyHead (c :: ·) := by
  rw [split]
  rfl

/-- The literal texts behind an occurrence, given the text that follows it. -/
def behind (needle : List Char) : List Char → List (List Char)
  | [] => [[]]
  | c :: rest =>
    if needle.isEmpty then (split needle rest).modifyHead (c :: ·) else split needle (c :: rest)

/-- Only the empty needle has to be kept from matching twice at one place. -/
theorem behind_of_ne_nil {needle : List Char} (hneedle : needle ≠ []) (rest : List Char) :
    behind needle rest = split needle rest := by
  cases rest with
  | nil => exact (split_nil hneedle).symm
  | cons c rest => exact if_neg (by simpa using hneedle)

/-- An occurrence at the start has the empty text before it. -/
theorem split_of_append (needle rest : List Char) :
    split needle (needle ++ rest) = [] :: behind needle rest := by
  by_cases hneedle : needle = []
  · subst hneedle
    cases rest with
    | nil => exact split_nil_nil
    | cons c rest => exact split_nil_cons c rest
  · rw [split_append hneedle, behind_of_ne_nil hneedle]

/-- The empty needle occurs at every place. -/
theorem split_nil_needle (text : List Char) : split [] text = [] :: (text.map ([·]) ++ [[]]) := by
  induction text with
  | nil => exact split_nil_nil
  | cons c rest ih =>
    rw [split_nil_cons, ih]
    rfl

/-- Whether the first occurrence of a needle is the one between these two texts. -/
def IsFirst (needle before after : List Char) : Prop :=
  ∀ late, late ≠ [] → late <:+ before → ¬ needle <+: late ++ (needle ++ after)

/-- What is first stays first when a character before it is taken off. -/
theorem IsFirst.tail {needle before after : List Char} {c : Char}
    (h : IsFirst needle (c :: before) after) : IsFirst needle before after :=
  fun late hne hsuffix => h late hne (hsuffix.trans (List.suffix_cons c before))

theorem IsFirst.not_isPrefix {needle before after : List Char} {c : Char}
    (h : IsFirst needle (c :: before) after) : ¬ needle <+: c :: (before ++ (needle ++ after)) :=
  h (c :: before) (List.cons_ne_nil c before) (List.suffix_refl _)

theorem IsFirst.nil (needle after : List Char) : IsFirst needle [] after :=
  fun _ hne hsuffix => absurd (List.suffix_nil.mp hsuffix) hne

/-- A character can be put before what is first, if no occurrence begins with it. -/
theorem IsFirst.cons {needle before after : List Char} {c : Char}
    (h : IsFirst needle before after) (hnot : ¬ needle <+: c :: (before ++ (needle ++ after))) :
    IsFirst needle (c :: before) after := by
  intro late hne hsuffix
  rcases List.suffix_cons_iff.mp hsuffix with rfl | hsuffix
  · exact hnot
  · exact h late hne hsuffix

/-- A text is split at the first occurrence of the needle, if there is one. -/
theorem split_cases (needle text : List Char) :
    (¬ needle <:+: text ∧ split needle text = [text]) ∨
      ∃ before after, text = before ++ (needle ++ after) ∧ IsFirst needle before after ∧
        split needle text = before :: behind needle after := by
  -- along the text: the needle follows here, or the first occurrence lies in what is left
  induction text with
  | nil =>
    by_cases hneedle : needle = []
    · subst hneedle
      exact Or.inr ⟨[], [], rfl, .nil [] [], split_nil_nil⟩
    · exact Or.inl ⟨fun h => hneedle (List.infix_nil.mp h), split_nil hneedle⟩
  | cons c rest ih =>
    by_cases hstart : needle <+: c :: rest
    · obtain ⟨after, hafter⟩ := hstart
      rw [← hafter]
      exact Or.inr ⟨[], after, rfl, .nil needle after, split_of_append needle after⟩
    · rw [split_cons hstart]
      rcases ih with ⟨hnone, hsplit⟩ | ⟨before, after, rfl, hfirst, hsplit⟩
      · rw [hsplit]
        exact Or.inl ⟨fun h => (List.infix_cons_iff.mp h).elim hstart hnone, rfl⟩
      · rw [hsplit]
        exact Or.inr ⟨c :: before, after, rfl, hfirst.cons hstart, rfl⟩

/-- A text without the needle is not split. -/
theorem split_of_not_isInfix {needle text : List Char} (h : ¬ needle <:+: text) :
    split needle text = [text] := by
  rcases split_cases needle text with ⟨-, hsplit⟩ | ⟨before, after, rfl, -, -⟩
  · exact hsplit
  · exact absurd ⟨before, after, List.append_assoc _ _ _⟩ h

/-- There is a literal text before every occurrence and one behind the last. -/
theorem split_ne_nil (needle text : List Char) : split needle text ≠ [] := by
  rcases split_cases needle text with ⟨-, h⟩ | ⟨_, _, -, -, h⟩
  · rw [h]
    exact List.cons_ne_nil _ _
  · rw [h]
    exact List.cons_ne_nil _ _

/-- The first literal text is where the text starts. -/
theorem isPrefix_of_split {needle text first : List Char} {more : List (List Char)}
    (h : split needle text = first :: more) : first <+: text := by
  rcases split_cases needle text with ⟨-, hsplit⟩ | ⟨before, after, rfl, -, hsplit⟩
  · rw [h] at hsplit
    exact (List.cons.inj hsplit).1 ▸ List.prefix_refl _
  · rw [h] at hsplit
    exact (List.cons.inj hsplit).1 ▸ List.prefix_append _ _

theorem behind_ne_nil (needle rest : List Char) : behind needle rest ≠ [] := by
  cases rest with
  | nil => exact List.cons_ne_nil _ _
  | cons c rest =>
    rw [behind]
    split
    next => simpa using split_ne_nil needle rest
    next => exact split_ne_nil needle _

/-- A text that is not split is its only literal text. -/
theorem eq_of_split_eq_singleton {needle text last : List Char} (h : split needle text = [last]) :
    last = text := by
  rcases split_cases needle text with ⟨-, hsplit⟩ | ⟨_, after, -, -, hsplit⟩
  · rw [hsplit] at h
    exact (List.cons.inj h).1.symm
  · rw [hsplit] at h
    exact absurd (List.cons.inj h).2 (behind_ne_nil needle after)

/-- If nothing more is cut out behind an occurrence, what stands there is left
whole. -/
theorem eq_of_behind_eq_singleton {needle rest last : List Char} (h : behind needle rest = [last]) :
    last = rest := by
  cases rest with
  | nil => exact (List.cons.inj h).1.symm
  | cons c rest =>
    rw [behind] at h
    split at h
    next =>
      obtain ⟨first, more, hsplit⟩ := List.exists_cons_of_ne_nil (split_ne_nil needle rest)
      rw [hsplit, List.modifyHead_cons] at h
      obtain ⟨rfl, rfl⟩ := List.cons.inj h
      rw [eq_of_split_eq_singleton hsplit]
    next => exact eq_of_split_eq_singleton h

/-- What is put before the first of several texts comes before all that they
make up. -/
theorem intercalate_modifyHead {α : Type} (sep front : List α) {parts : List (List α)}
    (h : parts ≠ []) :
    sep.intercalate (parts.modifyHead (front ++ ·)) = front ++ sep.intercalate parts := by
  obtain ⟨first, more, rfl⟩ := List.exists_cons_of_ne_nil h
  rw [List.modifyHead_cons]
  cases more with
  | nil => rw [List.intercalate_singleton, List.intercalate_singleton]
  | cons second more =>
    rw [List.intercalate_cons_cons, List.intercalate_cons_cons, List.append_assoc front,
      List.append_assoc front]

theorem modifyHead_nil_append {α : Type} (parts : List (List α)) :
    parts.modifyHead ([] ++ ·) = parts := by
  cases parts <;> rfl

/-- The empty needle is replaced at every place, both ends included. -/
theorem replaceAll_nil_needle (put text : List Char) :
    replaceAll [] put text = put ++ text.flatMap fun c => c :: put := by
  have hmap : ∀ text : List Char, put.intercalate (text.map ([·]) ++ [[]]) =
      text.flatMap fun c => c :: put := by
    intro text
    induction text with
    | nil => exact List.intercalate_singleton
    | cons c rest ih =>
      rw [List.map_cons, List.cons_append, List.intercalate_cons_of_ne_nil (by simp), ih]
      rfl
  rw [replaceAll, split_nil_needle, List.intercalate_cons_of_ne_nil (by simp), hmap]
  rfl

/-- A text without the needle stays as it is. -/
theorem replaceAll_of_not_isInfix {needle text : List Char} (put : List Char)
    (h : ¬ needle <:+: text) : replaceAll needle put text = text := by
  rw [replaceAll, split_of_not_isInfix h, List.intercalate_singleton]

/-- The first occurrence is replaced, and all that follow it. -/
theorem replaceAll_append {needle before after : List Char} (put : List Char)
    (hneedle : needle ≠ []) (h : IsFirst needle before after) :
    replaceAll needle put (before ++ (needle ++ after)) =
      before ++ (put ++ replaceAll needle put after) := by
  induction before with
  | nil =>
    rw [replaceAll, List.nil_append, split_append hneedle,
      List.intercalate_cons_of_ne_nil (split_ne_nil _ _)]
    rfl
  | cons c before ih =>
    rw [replaceAll, List.cons_append, split_cons h.not_isPrefix]
    exact (intercalate_modifyHead put [c] (split_ne_nil needle _)).trans
      (congrArg (c :: ·) (ih h.tail))

/-- Nothing before the first occurrence holds the needle. -/
theorem IsFirst.not_isInfix {needle before after : List Char} (hneedle : needle ≠ [])
    (h : IsFirst needle before after) : ¬ needle <:+: before := by
  rintro ⟨front, back, rfl⟩
  refine h (needle ++ back) (by simp [hneedle]) ?_ ?_
  · exact ⟨front, (List.append_assoc _ _ _).symm⟩
  · rw [List.append_assoc]
    exact List.prefix_append _ _

/-- No literal text holds the needle. -/
theorem not_isInfix_of_mem_split {needle : List Char} (hneedle : needle ≠ []) (text : List Char) :
    ∀ part ∈ split needle text, ¬ needle <:+: part := by
  induction hn : text.length using Nat.strongRecOn generalizing text with
  | ind n ih =>
    subst hn
    intro part hmem
    rcases split_cases needle text with ⟨hnone, hsplit⟩ | ⟨before, after, rfl, hfirst, hsplit⟩
    · rw [hsplit, List.mem_singleton] at hmem
      exact hmem ▸ hnone
    · rw [hsplit, behind_of_ne_nil hneedle] at hmem
      rcases List.mem_cons.mp hmem with rfl | hmem
      · exact hfirst.not_isInfix hneedle
      · refine ih after.length ?_ after rfl part hmem
        rw [List.length_append]
        exact Nat.lt_add_left _ (length_lt_append hneedle after)

end Graft.Text
