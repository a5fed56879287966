import Graft.Proofs.Text.Part

/-!
# The places of a text in order

The places of a text are one for each way to cut it, and come in the order of
their offsets: what follows a place in the list are the places behind its next
character. So a search, which takes the first place that has a match, finds the
match with the least start.

A search is defined by running down the text and trying each place in turn. For
proofs that is inconvenient, as it has the order of the places built in. Here
the search is turned into a statement about a list: the first element, of those
at or behind the cursor, at which the engine has a match. As the list is sorted
by offsets (`pairwise_placesFrom`), first in the list means least offset, and
every place before it has none.

The statement on failure is its counterpart: nothing is found exactly if no
place at or behind the cursor has a match, and in particular if the cursor is
behind the end of the text.

Main statements:
- `pairwise_placesFrom`: the offsets increase;
- `exists_mem_placesFrom`: every cut of a text is at a place;
- `Regex.findFrom_eq_some_iff`, `Regex.findFrom_eq_none_iff`: what a search
  finds, by the matches at places.
-/

namespace Graft

namespace Text

/-- Places are at or behind the offset that they are counted from. -/
theorem le_offset_of_mem_placesFrom {before : Option Char} {offset : Nat} {text : List Char}
    {place : Place} (h : place ∈ placesFrom before offset text) : offset ≤ place.offset := by
  obtain ⟨front, -, hoffset⟩ := exists_append_of_mem_placesFrom h
  omega

/-- The offsets of the places of a text increase. -/
theorem pairwise_placesFrom (before : Option Char) (offset : Nat) (text : List Char) :
    (placesFrom before offset text).Pairwise (·.offset < ·.offset) := by
  induction text generalizing before offset with
  | nil => exact List.pairwise_singleton _ _
  | cons c rest ih =>
    have hpos := c.utf8Size_pos
    refine List.pairwise_cons.mpr ⟨fun place hmem => ?_, ih _ _⟩
    have hle := le_offset_of_mem_placesFrom hmem
    show offset < place.offset
    omega

/-- There is a place wherever a text is cut. -/
theorem exists_mem_placesFrom (before : Option Char) (offset : Nat) (front back : List Char) :
    ∃ place ∈ placesFrom before offset (front ++ back),
      place.offset = offset + byteLength front ∧ place.rest = back := by
  induction front generalizing before offset with
  | nil => cases back <;> exact ⟨_, List.mem_cons_self, rfl, rfl⟩
  | cons c front ih =>
    obtain ⟨place, hmem, hoffset, hrest⟩ := ih (some c) (offset + c.utf8Size)
    refine ⟨place, List.mem_cons_of_mem _ hmem, ?_, hrest⟩
    rw [hoffset, byteLength_cons, Nat.add_assoc]

/-- The places that follow a place of a text are those behind its next character. -/
theorem eq_of_placesFrom_eq {before : Option Char} {offset : Nat} {text : List Char}
    {passed rest : List Place}
    {place : Place} (h : placesFrom before offset text = passed ++ place :: rest) :
    rest = match place.rest with
      | [] => []
      | c :: after => placesFrom (some c) (place.offset + c.utf8Size) after := by
  induction passed generalizing before offset text with
  | nil =>
    cases text with
    | nil =>
      obtain ⟨rfl, rfl⟩ := List.cons.inj h
      rfl
    | cons c after =>
      obtain ⟨rfl, rfl⟩ := List.cons.inj h
      rfl
  | cons first passed ih =>
    cases text with
    | nil => exact absurd (List.cons.inj h).2 (by simp)
    | cons c after => exact ih (List.cons.inj h).2

end Text

namespace Regex

/-- What a search finds is the match at the first place, at or after the cursor,
that has one. -/
theorem findFrom_eq_some_iff {regex : Regex} {text : List Char} {cursor : Nat} {found : Match} :
    regex.findFrom text cursor = some found ↔
      ∃ place ∈ Text.places text, cursor ≤ place.offset ∧ regex.matchAt place = some found ∧
        ∀ earlier ∈ Text.places text, cursor ≤ earlier.offset → earlier.offset < place.offset →
          regex.matchAt earlier = none := by
  have hsorted := (Text.pairwise_placesFrom none 0 text).filter fun place =>
    decide (cursor ≤ place.offset)
  have hmem : ∀ place, place ∈ (Text.places text).filter (cursor ≤ ·.offset) ↔
      place ∈ Text.places text ∧ cursor ≤ place.offset := by
    intro place
    rw [List.mem_filter, decide_eq_true_eq]
  rw [findFrom_eq]
  -- the place that is found splits the list, and what stands before it has smaller offsets
  constructor
  · intro h
    obtain ⟨passed, place, rest, hsplit, hmatch, hnone⟩ := List.findSome?_eq_some_iff.mp h
    obtain ⟨hplace, hcursor⟩ :=
      (hmem place).mp (hsplit ▸ List.mem_append_right _ List.mem_cons_self)
    refine ⟨place, hplace, hcursor, hmatch, fun earlier hearlier hle hlt => hnone earlier ?_⟩
    have hbehind := (List.pairwise_append.mp (hsplit ▸ hsorted)).2.1
    have hin := (hmem earlier).mpr ⟨hearlier, hle⟩
    rw [hsplit] at hin
    rcases List.mem_append.mp hin with hpassed | hin
    · exact hpassed
    · -- the place itself and those behind it are not earlier
      rcases List.mem_cons.mp hin with rfl | hin
      · exact absurd hlt (Nat.lt_irrefl _)
      · have hgt := (List.pairwise_cons.mp hbehind).1 earlier hin
        omega
  · rintro ⟨place, hplace, hcursor, hmatch, hnone⟩
    obtain ⟨passed, rest, hsplit⟩ := List.append_of_mem ((hmem place).mpr ⟨hplace, hcursor⟩)
    refine List.findSome?_eq_some_iff.mpr ⟨passed, place, rest, hsplit, hmatch,
      fun earlier hearlier => ?_⟩
    obtain ⟨hin, hle⟩ := (hmem earlier).mp (hsplit ▸ List.mem_append_left _ hearlier)
    have hlt := (List.pairwise_append.mp (hsplit ▸ hsorted)).2.2 earlier hearlier place
      List.mem_cons_self
    exact hnone earlier hin hle hlt

/-- A search finds nothing exactly if no place at or after the cursor has a
match. -/
theorem findFrom_eq_none_iff {regex : Regex} {text : List Char} {cursor : Nat} :
    regex.findFrom text cursor = none ↔
      ∀ place ∈ Text.places text, cursor ≤ place.offset → regex.matchAt place = none := by
  rw [findFrom_eq, List.findSome?_eq_none_iff]
  refine forall_congr' fun place => ?_
  rw [List.mem_filter, decide_eq_true_eq, and_imp]

end Regex

end Graft
