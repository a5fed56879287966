import Graft.Proofs.Regex.Literal
import Graft.Proofs.Text.Places

/-!
# Looking for a literal text

A literal text occurs in another one at the offsets where it is what follows.
Its pattern matches at exactly these offsets, whatever characters it is made of,
so a search from a cursor finds the first occurrence that does not start before
the cursor. The empty text occurs at every place.

`OccursAt` cuts the text by itself and mentions no pattern, no places and no
engine. It is what a reader would expect of looking for a text, and the
specification that a search for a literal (`captures_at` of `Pattern::literal`)
is held against. The bridge between the two are the places of a text: every cut
is at one of them (`Text.exists_mem_placesFrom`), and a search takes the first
that has a match (`Regex.findFrom_eq_some_iff`).

Cursors need not be at boundaries. An offset in the middle of a character is a
cursor like any other, and the first occurrence at or after it starts at a
boundary because every occurrence does.

Main statements:
- `Text.occursAt_iff`: occurrences are at places that the text follows;
- `Pattern.literal_finds_first`: a search for a literal text finds its first
  occurrence, or there is none.
-/

namespace Graft

namespace Text

/-- Whether a needle occurs in a text at an offset. -/
def OccursAt (needle text : List Char) (offset : Nat) : Prop :=
  ∃ front back, text = front ++ (needle ++ back) ∧ byteLength front = offset

/-- Whether a needle occurs at an offset, and at no earlier one from the cursor
on. -/
def OccursFirst (needle text : List Char) (cursor offset : Nat) : Prop :=
  cursor ≤ offset ∧ OccursAt needle text offset ∧
    ∀ earlier, cursor ≤ earlier → earlier < offset → ¬ OccursAt needle text earlier

/-- A text occurs at an offset exactly if there is a place with this offset that
it follows. -/
theorem occursAt_iff {needle text : List Char} {offset : Nat} :
    OccursAt needle text offset ↔ ∃ place ∈ places text, place.offset = offset ∧
      needle <+: place.rest := by
  constructor
  · rintro ⟨front, back, rfl, rfl⟩
    obtain ⟨place, hmem, hoffset, hrest⟩ := exists_mem_placesFrom none 0 front (needle ++ back)
    rw [Nat.zero_add] at hoffset
    exact ⟨place, hmem, hoffset, hrest ▸ List.prefix_append needle back⟩
  · rintro ⟨place, hmem, rfl, back, hback⟩
    obtain ⟨front, htext, hoffset⟩ := exists_append_of_mem_placesFrom hmem
    rw [Nat.zero_add] at hoffset
    exact ⟨front, back, by rw [htext, hback], hoffset.symm⟩

end Text

namespace Regex

/-- The pattern of a text matches at the places that the text follows, and
nowhere else. -/
theorem matchAt_ofText_eq_some_iff {needle : List Char} {place : Place} {found : Match} :
    (ofExpr (.ofText needle) []).matchAt place = some found ↔
      needle <+: place.rest ∧ found = ⟨⟨place.offset, place.offset + Text.byteLength needle⟩,
        []⟩ := by
  rw [matchAt_ofText, ← List.isPrefixOf_iff_prefix]
  split
  next h =>
    rw [Option.some.injEq]
    exact ⟨fun heq => ⟨h, heq.symm⟩, fun heq => heq.2.symm⟩
  next h => exact ⟨nofun, fun heq => absurd heq.1 h⟩

theorem matchAt_ofText_eq_none_iff {needle : List Char} {place : Place} :
    (ofExpr (.ofText needle) []).matchAt place = none ↔ ¬ needle <+: place.rest := by
  refine ⟨fun h hbegins => ?_, matchAt_ofText_eq_none⟩
  rw [matchAt_ofText_eq_some_iff.mpr ⟨hbegins, rfl⟩] at h
  exact absurd h (Option.some_ne_none _)

/-- A search for a text finds its first occurrence. -/
theorem findFrom_ofText_eq_some_iff {needle text : List Char} {cursor : Nat} {found : Match} :
    (ofExpr (.ofText needle) []).findFrom text cursor = some found ↔
      ∃ offset, Text.OccursFirst needle text cursor offset ∧
        found = ⟨⟨offset, offset + Text.byteLength needle⟩, []⟩ := by
  rw [findFrom_eq_some_iff]
  -- the first place with a match and the first occurrence exclude the same earlier places
  constructor
  · rintro ⟨place, hmem, hcursor, hmatch, hnone⟩
    obtain ⟨hbegins, hfound⟩ := matchAt_ofText_eq_some_iff.mp hmatch
    refine ⟨place.offset, ⟨hcursor, Text.occursAt_iff.mpr ⟨place, hmem, rfl, hbegins⟩, ?_⟩, hfound⟩
    intro earlier hle hlt hoccurs
    obtain ⟨other, hother, rfl, hstarts⟩ := Text.occursAt_iff.mp hoccurs
    exact matchAt_ofText_eq_none_iff.mp (hnone other hother hle hlt) hstarts
  · rintro ⟨offset, ⟨hcursor, hoccurs, hfirst⟩, rfl⟩
    obtain ⟨place, hmem, rfl, hbegins⟩ := Text.occursAt_iff.mp hoccurs
    refine ⟨place, hmem, hcursor, matchAt_ofText_eq_some_iff.mpr ⟨hbegins, rfl⟩, ?_⟩
    intro earlier hearlier hle hlt
    rw [matchAt_ofText_eq_none_iff]
    intro hstarts
    exact hfirst earlier.offset hle hlt (Text.occursAt_iff.mpr ⟨earlier, hearlier, rfl, hstarts⟩)

/-- A search for a text finds nothing exactly if the text does not occur from
the cursor on. -/
theorem findFrom_ofText_eq_none_iff {needle text : List Char} {cursor : Nat} :
    (ofExpr (.ofText needle) []).findFrom text cursor = none ↔
      ∀ offset, cursor ≤ offset → ¬ Text.OccursAt needle text offset := by
  rw [findFrom_eq_none_iff]
  constructor
  · intro hnone offset hle hoccurs
    obtain ⟨place, hmem, rfl, hbegins⟩ := Text.occursAt_iff.mp hoccurs
    exact matchAt_ofText_eq_none_iff.mp (hnone place hmem hle) hbegins
  · intro hnever place hmem hle
    rw [matchAt_ofText_eq_none_iff]
    intro hbegins
    exact hnever place.offset hle (Text.occursAt_iff.mpr ⟨place, hmem, rfl, hbegins⟩)

end Regex

/-- The pattern of a text reads, whatever characters the text has, and it has no
groups. It counts everywhere, and is refused only where the text is too long. A
search from a cursor finds the first occurrence of the text that does not start
before the cursor, character by character as it stands, and nothing if there is
none. -/
theorem Pattern.literal_finds_first (needle : String) :
    ∃ e names, Regex.read? false (Regex.escape needle.toList) = some (e, names) ∧
      let pattern : Pattern :=
        ⟨String.ofList (Regex.escape needle.toList), Regex.ofExpr e names, true⟩
      Pattern.literal? needle =
          (if Text.byteLength needle.toList ≤ Regex.maxTextBytes then some pattern else none) ∧
        pattern.global = true ∧ pattern.regex.groupCount = 0 ∧ pattern.regex.names = [] ∧
        ∀ text cursor,
          (∀ found, pattern.regex.findFrom text cursor = some found ↔
            ∃ offset, Text.OccursFirst needle.toList text cursor offset ∧
              found = ⟨⟨offset, offset + Text.byteLength needle.toList⟩, []⟩) ∧
          (pattern.regex.findFrom text cursor = none ↔
            ∀ offset, cursor ≤ offset → ¬ Text.OccursAt needle.toList text offset) := by
  refine ⟨.ofText needle.toList, [], Regex.read?_escape needle.toList, literal?_eq needle, rfl,
    Regex.lastGroup_ofText needle.toList, rfl, ?_⟩
  intro text cursor
  exact ⟨fun found => Regex.findFrom_ofText_eq_some_iff, Regex.findFrom_ofText_eq_none_iff⟩

end Graft
