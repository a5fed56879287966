import Graft.Text.Hex

/-!
# Sets of code points

A set of code points is a list of closed ranges. The operations keep it in
*normal form*: ascending, with at least one code point missing between two
neighbours, so that membership can stop at the first range that lies beyond the
code point sought.

Tables of the Unicode standard are written down as text, ranges of hexadecimal
numbers set apart by blanks (`41-5A 61-7A AA`), and read by `Ranges.ofText`.
-/

namespace Graft.Unicode

/-- Closed ranges of code points, in ascending order. -/
abbrev Ranges := List (Nat × Nat)

namespace Ranges

/-- The greatest code point. -/
def maxCodePoint : Nat := 0x10FFFF

/-- Every code point. -/
def full : Ranges := [(0, maxCodePoint)]

/-- The set that holds one code point. -/
def single (c : Nat) : Ranges := [(c, c)]

/-- Whether a code point lies in the set. The search ends at the first range
that starts after it. -/
def contains : Ranges → Nat → Bool
  | [], _ => false
  | (lo, hi) :: rest, c => if c < lo then false else c ≤ hi || contains rest c

@[simp] theorem contains_single (c d : Nat) : contains (single c) d = decide (d = c) := by
  unfold single contains
  by_cases h : d < c
  · rw [if_pos h]; exact (decide_eq_false (by omega)).symm
  · rw [if_neg h]
    by_cases h' : d = c
    · subst h'; simp
    · have : ¬ d ≤ c := by omega
      simp [contains, h', this]

/-- Joins ranges that overlap or touch. The ranges are expected in ascending
order of their starts. -/
def coalesce : Ranges → Ranges
  | [] => []
  | [r] => [r]
  | (lo, hi) :: (lo', hi') :: rest =>
    if lo' ≤ hi + 1 then coalesce ((lo, max hi hi') :: rest)
    else (lo, hi) :: coalesce ((lo', hi') :: rest)
  termination_by rs => rs.length

/-- The normal form of any list of ranges. -/
def ofList (rs : List (Nat × Nat)) : Ranges :=
  coalesce (rs.mergeSort fun a b => a.1 ≤ b.1)

/-- The code points in either set. -/
def union (a b : Ranges) : Ranges := ofList (a ++ b)

/-- The gaps of a set in normal form, from `start` on. -/
def gapsFrom : Nat → Ranges → Ranges
  | start, [] => if start ≤ maxCodePoint then [(start, maxCodePoint)] else []
  | start, (lo, hi) :: rest =>
    if start < lo then (start, lo - 1) :: gapsFrom (hi + 1) rest else gapsFrom (hi + 1) rest

/-- The code points that are not in the set. -/
def complement (a : Ranges) : Ranges := gapsFrom 0 a

/-- The code points in both sets. -/
def inter (a b : Ranges) : Ranges := (a.complement.union b.complement).complement

/-- The code points in the first set and not in the second. -/
def diff (a b : Ranges) : Ranges := a.inter b.complement

/-- The code points in exactly one of the two sets. -/
def symmDiff (a b : Ranges) : Ranges := (a.diff b).union (b.diff a)

/-- Whether every code point of the set is an ASCII character. -/
def isAscii (a : Ranges) : Bool := List.all a fun r => r.2 ≤ 0x7F

/-- Reads ranges: `lo` is the start of the range at hand, if its hyphen has been
read, and `n` the number at hand. -/
def ofTextFrom : Option Nat → Option Nat → List Char → Ranges
  | lo, some n, [] => [(lo.getD n, n)]
  | _, none, [] => []
  | lo, n, c :: rest =>
    match Text.hexDigit? c with
    | some d => ofTextFrom lo (some (n.getD 0 * 16 + d)) rest
    | none =>
      if c = '-' then ofTextFrom n none rest
      else match n with
        | some n => (lo.getD n, n) :: ofTextFrom none none rest
        | none => ofTextFrom none none rest

/-- Reads ranges of hexadecimal numbers set apart by blanks. -/
def ofText (lines : List String) : Ranges :=
  (lines.map fun line => ofTextFrom none none line.toList).flatten

end Ranges

/-- A set of code points of the standard, under the names it goes by. -/
structure NamedRanges where
  /-- The names, in normal form. -/
  names : List String
  /-- The ranges, as text. -/
  text : List String

namespace NamedRanges

/-- The ranges that the text stands for. -/
def toRanges (entry : NamedRanges) : Ranges := Ranges.ofText entry.text

/-- The ranges of the entry with this name. -/
def find? (table : List NamedRanges) (name : String) : Option Ranges :=
  (table.find? fun entry => entry.names.contains name).map toRanges

end NamedRanges

/-- A set of code points described by how it differs from a union of other sets. -/
structure AdjustedRanges where
  /-- The names, in normal form. -/
  names : List String
  /-- The names of the sets that it starts from. -/
  base : List String
  /-- The code points it has besides. -/
  extra : List String
  /-- The code points it lacks. -/
  removed : List String

/-- Applies the differences to the set they are relative to. -/
def AdjustedRanges.adjust (entry : AdjustedRanges) (base : Ranges) : Ranges :=
  (base.union (Ranges.ofText entry.extra)).diff (Ranges.ofText entry.removed)

/-- The normal form of the name of a property, category or script: lower case,
without blanks, hyphens and underscores, and without a leading `is`. Only ASCII
characters count. -/
def normalName (name : String) : String :=
  let cs := name.toList
  let isDropped := fun c => c = ' ' || c = '_' || c = '-' || c.toNat > 0x7F
  let tidy := fun cs : List Char => (cs.filter (!isDropped ·)).map Char.toLower
  match cs with
  | a :: b :: rest =>
    if a.toLower = 'i' ∧ b.toLower = 's' then
      -- `isc` is a name of its own, and no prefixed `c`.
      if tidy rest = ['c'] then "isc" else String.ofList (tidy rest)
    else String.ofList (tidy cs)
  | _ => String.ofList (tidy cs)

end Graft.Unicode
