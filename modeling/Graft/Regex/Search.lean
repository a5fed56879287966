import Graft.Regex.Parser
import Graft.Regex.Program
import Graft.Text.Place
import Std.Data.TreeSet

/-!
# Searching

A program is run at one place of the text by trying, in order of preference,
whatever its instructions allow. What has been tried once at an offset is not
tried there again, since it would end no better; so a run tries no more than the
instructions times the places that remain. A search runs the program at one
place after the other and takes the first match.

This gives the leftmost match, and among those at one place the one that is
preferred, which is what an engine with backtracking finds. The set of what has
been tried makes the run linear and is also what bounds its fuel.

The text is searched from a cursor, but conditions look at the characters on
both sides of a place, those before the cursor included: a search in the whole
text from a cursor (`captures_at`) is not a search in what follows the cursor.

Main statements:
- `Regex.findFrom_eq`: a search from a cursor finds the match at the first
  place, at or after the cursor, that has one.
-/

namespace Graft.Regex

/-- One of the ways that a run may go on. -/
structure Thread where
  /-- The instruction to run next. -/
  instr : Nat
  /-- Where in the text. -/
  place : Place
  /-- Slots with the offsets they remember, the last one saved first. -/
  saved : List (Nat × Nat)

namespace Thread

/-- The ways on from an instruction, in order of preference. -/
def next (thread : Thread) : Instr → List Thread
  | .accept => []
  | .take chars target =>
    match thread.place.rest with
    | c :: rest =>
      if chars.contains c.toNat then
        [⟨target, ⟨some c, thread.place.offset + c.utf8Size, rest⟩, thread.saved⟩]
      else []
    | [] => []
  | .require condition target =>
    if condition.holds thread.place.before thread.place.next then
      [{ thread with instr := target }]
    else []
  | .save slot target =>
    [{ thread with instr := target, saved := (slot, thread.place.offset) :: thread.saved }]
  | .split first second => [{ thread with instr := first }, { thread with instr := second }]

/-- A number for what the thread is about to try, different for every
instruction and offset. -/
def key (code : Code) (thread : Thread) : Nat := thread.place.offset * code.size + thread.instr

end Thread

/-- Runs threads, the first one before the others, and gives the first that
accepts. No more than `fuel` threads are looked at. -/
def runThreads (code : Code) : Nat → List Thread → Std.TreeSet Nat → Option Thread
  | 0, _, _ => none
  | _, [], _ => none
  | fuel + 1, thread :: others, tried =>
    if tried.contains (thread.key code) then runThreads code fuel others tried
    else match code[thread.instr]? with
      | some .accept => some thread
      | some instr =>
        runThreads code fuel (thread.next instr ++ others) (tried.insert (thread.key code))
      | none => runThreads code fuel others tried

/-- The fuel for a run at a place: every instruction is tried at most once at
each place that remains and leads on in at most two ways. -/
def fuelAt (code : Code) (place : Place) : Nat := 2 * code.size * (place.rest.length + 1) + 2

/-- The thread that accepts, if the program matches at this place. -/
def Program.run (program : Program) (place : Place) : Option Thread :=
  runThreads program.code (fuelAt program.code place) [⟨program.start, place, []⟩] ∅

end Graft.Regex

namespace Graft

/-- A part of a text, by the offsets of its ends. -/
structure Span where
  /-- The offset of its start. -/
  start : Nat
  /-- The offset of its end. -/
  stop : Nat
  deriving DecidableEq

/-- The text of a span. -/
def Span.text (span : Span) (text : List Char) : List Char := Text.between text span.start span.stop

/-- A match of a regular expression. -/
structure Match where
  /-- The matched text. -/
  span : Span
  /-- The groups in order; `none` for those that took no part. -/
  groups : List (Option Span)
  deriving DecidableEq

/-- A regular expression that is ready to be searched for. -/
structure Regex where
  /-- The program that matches it. -/
  program : Regex.Program
  /-- The number of its groups. -/
  groupCount : Nat
  /-- Names of groups with their indexes. -/
  names : List (String × Nat)

namespace Regex

/-- A regular expression for an expression. -/
def ofExpr (e : Expr) (names : List (String × Nat)) : Regex := ⟨e.program, e.lastGroup, names⟩

/-- Reads a pattern of any size: its expression, and the names of its groups.
`none` if the text is no pattern. -/
def read? (ignoreCase : Bool) (source : List Char) : Option (Expr × List (String × Nat)) := do
  let reader ← Reader.run (source.length + 1) { flags := { ignoreCase } } source
  let e ← reader.finish
  return (e, reader.names)

/-- Reads a pattern. `none` if the text is no pattern, or one that is too large. -/
def ofText? (ignoreCase : Bool) (source : List Char) : Option Regex := do
  let (e, names) ← read? ignoreCase source
  if e.isSmall then return ofExpr e names else none

/-- The span of a group among saved offsets. -/
def groupSpan (saved : List (Nat × Nat)) (index : Nat) : Option Span := do
  return ⟨← saved.lookup (startSlot index), ← saved.lookup (stopSlot index)⟩

/-- The match at a place, if there is one. -/
def matchAt (regex : Regex) (place : Place) : Option Match :=
  (regex.program.run place).map fun thread =>
    ⟨⟨place.offset, thread.place.offset⟩,
      (List.range regex.groupCount).map fun i => groupSpan thread.saved (i + 1)⟩

/-- The match at the first place that has one, among those at or after the
cursor. -/
def findAmong (regex : Regex) (cursor : Nat) (before : Option Char) (offset : Nat) :
    List Char → Option Match
  | [] => if offset < cursor then none else regex.matchAt ⟨before, offset, []⟩
  | c :: rest =>
    if offset < cursor then regex.findAmong cursor (some c) (offset + c.utf8Size) rest
    else match regex.matchAt ⟨before, offset, c :: rest⟩ with
      | some found => some found
      | none => regex.findAmong cursor (some c) (offset + c.utf8Size) rest

/-- Searches a text from a cursor on. What stands before the cursor still counts
for conditions. -/
def findFrom (regex : Regex) (text : List Char) (cursor : Nat) : Option Match :=
  regex.findAmong cursor none 0 text

/-- The index of the group with this name. -/
def groupIndex? (regex : Regex) (name : String) : Option Nat := regex.names.lookup name

theorem findAmong_eq (regex : Regex) (cursor : Nat) (before : Option Char) (offset : Nat)
    (text : List Char) :
    regex.findAmong cursor before offset text =
      ((Text.placesFrom before offset text).filter (cursor ≤ ·.offset)).findSome?
        regex.matchAt := by
  induction text generalizing before offset with
  | nil =>
    by_cases h : offset < cursor
    · simp [findAmong, Text.placesFrom, h, Nat.not_le.mpr h]
    · simp [findAmong, Text.placesFrom, h, Nat.not_lt.mp h]
  | cons c rest ih =>
    rw [findAmong, Text.placesFrom]
    by_cases h : offset < cursor
    · rw [if_pos h, ih, List.filter_cons_of_neg (by simpa using h)]
    · rw [if_neg h, ih, List.filter_cons_of_pos (by simpa using Nat.not_lt.mp h),
        List.findSome?_cons]
      cases regex.matchAt ⟨before, offset, c :: rest⟩ <;> rfl

/-- A search from a cursor finds the match at the first place, at or after the
cursor, that has one. -/
theorem findFrom_eq (regex : Regex) (text : List Char) (cursor : Nat) :
    regex.findFrom text cursor =
      ((Text.places text).filter (cursor ≤ ·.offset)).findSome? regex.matchAt :=
  regex.findAmong_eq cursor none 0 text

end Regex

end Graft
