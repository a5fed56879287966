import Graft.Regex.Search

/-!
# Parts of a text

A span of bytes is a part of a text if the text can be cut at both of its ends
without cutting a character. What a search finds is such a part, and starts no
earlier than the search.

Texts are lists of characters and spans are byte offsets, as they are for the
scanner and the regular expressions that the program uses. The first section is
about single cuts: `IsBoundary` says that some number of characters takes up
exactly so many bytes, and it is decidable. The second is about spans, and shows
that two boundaries in order make a part (`isPart_of_isBoundary`), so that a
slice between them (`Text.between`) can be taken and has the length that the
offsets say.

The rest follows an engine from a place on. A thread stands behind the character
that it has taken, so it stays at places that can be reached from where it has
started (`Place.Reaches`), for one instruction (`Thread.reaches_of_mem_next`)
and for a run (`reaches_of_runThreads`). A match therefore starts and ends at
places, and places are boundaries.

Main statements:
- `Text.isPart_of_isBoundary`, `Text.between_byteLength`: boundaries in order
  make a part, and the slice between them is as long as the offsets say;
- `Text.exists_append_of_le`: of two cuts of a text, the later one cuts what
  follows the earlier one;
- `Regex.isPart_of_findFrom`: a search finds parts of the text, at or behind its
  cursor.
-/

namespace Graft

namespace Text

/-! ## Boundaries -/

/-- Whether an offset lies between two characters or at an end of the text,
computed. -/
def isBoundary : List Char → Nat → Bool
  | _, 0 => true
  | [], _ + 1 => false
  | c :: rest, n + 1 => c.utf8Size ≤ n + 1 && isBoundary rest (n + 1 - c.utf8Size)

/-- Whether a text can be cut at an offset is decided by taking characters off
the front. -/
theorem isBoundary_iff {text : List Char} {n : Nat} :
    isBoundary text n = true ↔ IsBoundary text n := by
  -- along the text: the offset is zero, or it lies behind the first character, or inside it
  induction text generalizing n with
  | nil =>
    cases n with
    | zero => exact ⟨fun _ => ⟨[], [], rfl, rfl⟩, fun _ => rfl⟩
    | succ n =>
      refine ⟨nofun, ?_⟩
      rintro ⟨front, back, htext, hlength⟩
      obtain ⟨rfl, -⟩ := List.append_eq_nil_iff.mp htext.symm
      exact absurd hlength (by simp)
  | cons c rest ih =>
    cases n with
    | zero => exact ⟨fun _ => ⟨[], c :: rest, rfl, rfl⟩, fun _ => rfl⟩
    | succ n =>
      rw [isBoundary, Bool.and_eq_true, decide_eq_true_eq, ih]
      constructor
      · rintro ⟨hle, front, back, rfl, hlength⟩
        refine ⟨c :: front, back, rfl, ?_⟩
        rw [byteLength_cons]
        omega
      · rintro ⟨front, back, htext, hlength⟩
        cases front with
        | nil => exact absurd hlength (by simp)
        | cons d front =>
          obtain ⟨rfl, rfl⟩ := List.cons.inj htext
          rw [byteLength_cons] at hlength
          exact ⟨by omega, front, back, rfl, by omega⟩

instance (text : List Char) (n : Nat) : Decidable (IsBoundary text n) :=
    decidable_of_iff _ isBoundary_iff

/-- No text can be cut behind its end. -/
theorem IsBoundary.le_byteLength {text : List Char} {n : Nat} (h : IsBoundary text n) :
    n ≤ byteLength text := by
  obtain ⟨front, back, rfl, rfl⟩ := h
  rw [byteLength_append]
  exact Nat.le_add_right _ _

theorem isBoundary_byteLength (text : List Char) : IsBoundary text (byteLength text) :=
  ⟨text, [], (List.append_nil text).symm, rfl⟩

/-! ## Parts -/

/-- Whether a span lies between two cuts of a text. -/
def IsPart (text : List Char) (span : Span) : Prop :=
  ∃ before inside after, text = before ++ (inside ++ after) ∧
    span = ⟨byteLength before, byteLength before + byteLength inside⟩

theorem IsPart.start_le_stop {text : List Char} {span : Span} (h : IsPart text span) :
    span.start ≤ span.stop := by
  obtain ⟨before, inside, after, -, rfl⟩ := h
  exact Nat.le_add_right _ _

/-- A part begins at a boundary. -/
theorem IsPart.isBoundary_start {text : List Char} {span : Span} (h : IsPart text span) :
    IsBoundary text span.start := by
  obtain ⟨before, inside, after, htext, rfl⟩ := h
  exact ⟨before, inside ++ after, htext, rfl⟩

/-- A part ends at a boundary. -/
theorem IsPart.isBoundary_stop {text : List Char} {span : Span} (h : IsPart text span) :
    IsBoundary text span.stop := by
  obtain ⟨before, inside, after, htext, rfl⟩ := h
  refine ⟨before ++ inside, after, ?_, byteLength_append before inside⟩
  rw [htext, List.append_assoc]

/-- A part stops behind its text. -/
theorem IsPart.start_add_byteLength {text : List Char} {span : Span} (h : IsPart text span) :
    span.start + byteLength (span.text text) = span.stop := by
  obtain ⟨before, inside, after, rfl, rfl⟩ := h
  rw [Span.text, between_append]

theorem eq_nil_of_byteLength {text : List Char} (h : byteLength text = 0) : text = [] := by
  have hlen := length_le_byteLength text
  exact List.eq_nil_of_length_eq_zero (by omega)

/-- Of two cuts of a text, the later one cuts what follows the earlier one. -/
theorem exists_append_of_le {a b c d : List Char} (h : a ++ b = c ++ d)
    (hle : byteLength a ≤ byteLength c) : ∃ between, c = a ++ between ∧ b = between ++ d := by
  rcases List.append_eq_append_iff.mp h with ⟨between, hc, hb⟩ | ⟨between, ha, hd⟩
  · exact ⟨between, hc, hb⟩
  · -- the later cut cannot lie before the earlier one, so they are the same
    have hnil : between = [] := by
      rw [ha, byteLength_append] at hle
      exact eq_nil_of_byteLength (by omega)
    subst hnil
    exact ⟨[], by rw [ha, List.append_nil, List.append_nil], hd.symm⟩

/-- Two boundaries in order are the ends of a part. -/
theorem isPart_of_isBoundary {text : List Char} {start stop : Nat} (hstart : IsBoundary text start)
    (hstop : IsBoundary text stop) (hle : start ≤ stop) : IsPart text ⟨start, stop⟩ := by
  obtain ⟨front, back, htext, rfl⟩ := hstart
  obtain ⟨before, after, hcut, rfl⟩ := hstop
  obtain ⟨inside, rfl, rfl⟩ := exists_append_of_le (htext.symm.trans hcut) hle
  exact ⟨front, inside, after, htext, by rw [byteLength_append]⟩

/-- What lies between a boundary and the end is what is left without the bytes
before it. -/
theorem between_byteLength {text : List Char} {n : Nat} (h : IsBoundary text n) :
    between text n (byteLength text) = dropBytes n text := by
  obtain ⟨front, back, rfl, rfl⟩ := h
  have hback := between_append front back []
  rw [List.append_nil] at hback
  rw [byteLength_append, hback, dropBytes_append]

/-- A place of a text cuts it in front of what follows the place. -/
theorem exists_append_of_mem_placesFrom {before : Option Char} {offset : Nat} {text : List Char}
    {place : Place} (h : place ∈ placesFrom before offset text) :
    ∃ front, text = front ++ place.rest ∧ place.offset = offset + byteLength front := by
  induction text generalizing before offset with
  | nil =>
    obtain rfl := List.mem_singleton.mp h
    exact ⟨[], rfl, rfl⟩
  | cons c rest ih =>
    rcases List.mem_cons.mp h with rfl | h
    · exact ⟨[], rfl, rfl⟩
    · obtain ⟨front, hrest, hoffset⟩ := ih h
      refine ⟨c :: front, congrArg (c :: ·) hrest, ?_⟩
      rw [hoffset, byteLength_cons, Nat.add_assoc]

end Text

/-- Whether a place is another one or comes after it in the same text. -/
def Place.Reaches (first last : Place) : Prop :=
  ∃ inside, first.rest = inside ++ last.rest ∧ last.offset = first.offset + Text.byteLength inside

theorem Place.Reaches.refl (place : Place) : place.Reaches place := ⟨[], rfl, rfl⟩

/-- What is reached in two steps is reached. -/
theorem Place.Reaches.trans {a b c : Place} (hab : a.Reaches b) (hbc : b.Reaches c) :
    a.Reaches c := by
  obtain ⟨x, hx, hxo⟩ := hab
  obtain ⟨y, hy, hyo⟩ := hbc
  refine ⟨x ++ y, ?_, ?_⟩
  · rw [hx, hy, List.append_assoc]
  · rw [hyo, hxo, Text.byteLength_append, Nat.add_assoc]

namespace Regex

/-- A thread goes on where it is, or behind the character that it takes. -/
theorem Thread.reaches_of_mem_next {thread onward : Thread} {instr : Instr}
    (h : onward ∈ thread.next instr) : thread.place.Reaches onward.place := by
  -- only taking a character moves a thread on; all other instructions leave it where it is
  cases instr with
  | accept => exact absurd h List.not_mem_nil
  | take chars target =>
    rw [Thread.next] at h
    split at h
    next c rest hrest =>
      split at h
      next =>
        obtain rfl := List.mem_singleton.mp h
        exact ⟨[c], hrest, rfl⟩
      next => exact absurd h List.not_mem_nil
    next => exact absurd h List.not_mem_nil
  | require condition target =>
    rw [Thread.next] at h
    split at h
    next =>
      obtain rfl := List.mem_singleton.mp h
      exact Place.Reaches.refl _
    next => exact absurd h List.not_mem_nil
  | save slot target =>
    obtain rfl := List.mem_singleton.mp h
    exact Place.Reaches.refl _
  | split first second =>
    rcases List.mem_cons.mp h with rfl | h
    · exact Place.Reaches.refl _
    · obtain rfl := List.mem_singleton.mp h
      exact Place.Reaches.refl _

/-- If all threads have come from a place, so has the one that accepts. -/
theorem reaches_of_runThreads {code : Code} {origin : Place} :
    ∀ {fuel : Nat} {threads : List Thread} {tried : Std.TreeSet Nat} {accepted : Thread},
      (∀ thread ∈ threads, origin.Reaches thread.place) →
      runThreads code fuel threads tried = some accepted → origin.Reaches accepted.place := by
  intro fuel
  induction fuel with
  | zero => intro threads tried accepted _ h; exact absurd h (by simp [runThreads])
  | succ fuel ih =>
    intro threads tried accepted hall h
    cases threads with
    | nil => exact absurd h (by simp [runThreads])
    | cons thread others =>
      have hothers : ∀ other ∈ others, origin.Reaches other.place :=
        fun other hmem => hall other (List.mem_cons_of_mem _ hmem)
      have hthread := hall thread List.mem_cons_self
      rw [runThreads] at h
      split at h
      next => exact ih hothers h
      next =>
        split at h
        next => exact (Option.some.inj h) ▸ hthread
        next instr _ _ =>
          refine ih (fun onward hmem => ?_) h
          rcases List.mem_append.mp hmem with hnext | hother
          · exact hthread.trans (Thread.reaches_of_mem_next hnext)
          · exact hothers onward hother
        next => exact ih hothers h

/-- A match at a place starts there and ends at a place that follows. -/
theorem reaches_of_matchAt {regex : Regex} {place : Place} {found : Match}
    (h : regex.matchAt place = some found) :
    ∃ last : Place, place.Reaches last ∧ found.span = ⟨place.offset, last.offset⟩ := by
  obtain ⟨thread, hrun, rfl⟩ := Option.map_eq_some_iff.mp h
  refine ⟨thread.place, reaches_of_runThreads ?_ hrun, rfl⟩
  intro first hmem
  obtain rfl := List.mem_singleton.mp hmem
  exact Place.Reaches.refl _

/-- What a search finds is a part of the text that starts at or behind the
cursor. -/
theorem isPart_of_findFrom {regex : Regex} {text : List Char} {cursor : Nat} {found : Match}
    (h : regex.findFrom text cursor = some found) :
    Text.IsPart text found.span ∧ cursor ≤ found.span.start := by
  rw [findFrom_eq] at h
  obtain ⟨place, hmem, hmatch⟩ := List.exists_of_findSome?_eq_some h
  obtain ⟨hplace, hcursor⟩ := List.mem_filter.mp hmem
  obtain ⟨front, htext, hoffset⟩ := Text.exists_append_of_mem_placesFrom hplace
  obtain ⟨last, ⟨inside, hrest, hlast⟩, hspan⟩ := reaches_of_matchAt hmatch
  rw [Nat.zero_add] at hoffset
  rw [hspan]
  refine ⟨⟨front, inside, last.rest, ?_, ?_⟩, of_decide_eq_true hcursor⟩
  · rw [htext, hrest]
  · rw [hlast, hoffset]

end Regex

end Graft
