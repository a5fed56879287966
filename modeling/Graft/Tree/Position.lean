/-!
# Places in a source file

Where a node came from: a point is a line, a column and perhaps an offset, a
position is the pair of points around the node. Positions are ordered by their
start, then by their end.

Lines and columns count from one, offsets from zero, but nothing enforces this:
any number that fits into its field is kept. Positions are carried along with
their nodes and never made up; what is put in by a replacement that is a text
has none.
-/

namespace Graft

/-- A place in a source file. Lines and columns count from one, offsets from
zero. -/
structure Point where
  /-- The line. -/
  line : UInt32
  /-- The column. -/
  column : UInt32
  /-- The offset from the start of the file, where it is known. -/
  offset : Option UInt64 := none
  deriving DecidableEq

/-- The part of a source file that a node came from. -/
structure Position where
  /-- The first place of the node. -/
  start : Point
  /-- The place after the node. -/
  stop : Point
  deriving DecidableEq

/-- An unknown offset comes before every known one. -/
def compareOffsets : Option UInt64 → Option UInt64 → Ordering
  | none, none => .eq
  | none, some _ => .lt
  | some _, none => .gt
  | some a, some b => compare a b

/-- The order of points: by line, then by column, then by offset. -/
def Point.compare (a b : Point) : Ordering :=
  (Ord.compare a.line b.line).then
    ((Ord.compare a.column b.column).then (compareOffsets a.offset b.offset))

/-- The order of positions: by start, then by end. -/
def Position.compare (a b : Position) : Ordering :=
  (a.start.compare b.start).then (a.stop.compare b.stop)

end Graft
