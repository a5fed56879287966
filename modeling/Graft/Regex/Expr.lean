import Graft.Unicode.Class

/-!
# Regular expressions

The form that a pattern has once it is read: flags and classes are resolved, so
that an expression consists of sets of characters, conditions on the two
characters at a place, and the ways to combine them. Alternatives and
repetitions are in order of preference, the first that leads to a match wins.

An expression that would take too much room to match is refused. The room is
counted in bytes, state by state, as a matcher that is compiled to states would
lay them out; for a text that stands for itself the count is exact, for classes
and repetitions it is an estimate.
-/

namespace Graft.Regex

open Unicode (Ranges)

/-- Which characters make up words. -/
inductive Alphabet where
  /-- The word characters of all scripts. -/
  | unicode
  /-- ASCII letters, digits and the underscore. -/
  | ascii
  deriving DecidableEq

/-- Whether a character makes up words. -/
def Alphabet.isWord : Alphabet → Char → Bool
  | unicode, c => Unicode.isWord c
  | ascii, c => c.isAlphanum || c = '_'

/-- What ends a line. -/
inductive LineEnd where
  /-- A line feed. -/
  | lf
  /-- A carriage return, a line feed, or both in this order. -/
  | crlf
  deriving DecidableEq

/-- A condition on a place of the text. -/
inductive Look where
  /-- The start of the text. -/
  | textStart
  /-- The end of the text. -/
  | textEnd
  /-- The start of a line. -/
  | lineStart (ending : LineEnd)
  /-- The end of a line. -/
  | lineEnd (ending : LineEnd)
  /-- A word begins or ends here. -/
  | wordBoundary (alphabet : Alphabet)
  /-- No word begins or ends here. -/
  | noWordBoundary (alphabet : Alphabet)
  /-- A word begins here. -/
  | wordStart (alphabet : Alphabet)
  /-- A word ends here. -/
  | wordEnd (alphabet : Alphabet)
  /-- No word character stands before this place. -/
  | noWordBefore (alphabet : Alphabet)
  /-- No word character stands after this place. -/
  | noWordAfter (alphabet : Alphabet)
  deriving DecidableEq

/-- Whether a condition holds between two characters; `none` stands for an end
of the text. -/
def Look.holds (look : Look) (before after : Option Char) : Bool :=
  match look with
  | textStart => before.isNone
  | textEnd => after.isNone
  | lineStart .lf => before.isNone || before = some '\n'
  | lineEnd .lf => after.isNone || after = some '\n'
  | lineStart .crlf =>
    before.isNone || before = some '\n' || (before = some '\r' && after ≠ some '\n')
  | lineEnd .crlf =>
    after.isNone || after = some '\r' || (after = some '\n' && before ≠ some '\r')
  | wordBoundary a => before.any a.isWord != after.any a.isWord
  | noWordBoundary a => before.any a.isWord == after.any a.isWord
  | wordStart a => !before.any a.isWord && after.any a.isWord
  | wordEnd a => before.any a.isWord && !after.any a.isWord
  | noWordBefore a => !before.any a.isWord
  | noWordAfter a => !after.any a.isWord

/-- A regular expression. -/
inductive Expr where
  /-- Matches the empty text. -/
  | empty
  /-- Matches one character of the set. -/
  | set (chars : Ranges)
  /-- Matches the empty text where the condition holds. -/
  | look (condition : Look)
  /-- Remembers where the body matched. -/
  | group (index : Nat) (body : Expr)
  /-- Matches the first, then the second. -/
  | concat (first second : Expr)
  /-- Matches one of two, the first in preference. -/
  | either (first second : Expr)
  /-- Matches the body at least `low` times and at most `high` times; as often
  as it can if it is greedy, else as rarely. -/
  | repetition (low : Nat) (high : Option Nat) (greedy : Bool) (body : Expr)

namespace Expr

/-- One character. -/
def char (c : Char) : Expr := .set (Ranges.single c.toNat)

/-- Expressions one after the other. -/
def ofSequence : List Expr → Expr
  | [] => .empty
  | [e] => e
  | e :: rest => .concat e (ofSequence rest)

/-- Expressions of which one matches, earlier ones in preference. -/
def ofAlternatives : List Expr → Expr
  | [] => .empty
  | [e] => e
  | e :: rest => .either e (ofAlternatives rest)

/-- A text that stands for itself. -/
def ofText (text : List Char) : Expr := ofSequence (text.map char)

/-- Whether the expression can match the empty text only. -/
def emptyOnly : Expr → Bool
  | .empty | .look _ => true
  | .set _ => false
  | .group _ body => body.emptyOnly
  | .concat a b | .either a b => a.emptyOnly && b.emptyOnly
  | .repetition _ high _ body => body.emptyOnly || high = some 0

/-- A repetition in its shortest form. A body that matches the empty text only
is not repeated, and no repetition at all drops the body with its groups. -/
def repeated (low : Nat) (high : Option Nat) (greedy : Bool) (body : Expr) : Expr :=
  let (low, high) :=
    if body.emptyOnly then (min low 1, some (min (high.getD 1) 1)) else (low, high)
  if low = 0 ∧ high = some 0 then .empty
  else if low = 1 ∧ high = some 1 then body
  else .repetition low high greedy body

/-- The greatest index of a group; 0 if there is none. -/
def lastGroup : Expr → Nat
  | .empty | .set _ | .look _ => 0
  | .group index body => max index body.lastGroup
  | .concat a b | .either a b => max a.lastGroup b.lastGroup
  | .repetition _ _ _ body => body.lastGroup

/-! ## Size -/

/-- About how many bytes a matcher needs for a set. A single character takes a
state for each of its bytes. Otherwise a range of ASCII characters is one
transition, any other range several, and characters of three bytes or more take
some states of their own. -/
def setWeight : Ranges → Nat
  | [(lo, hi)] => if lo = hi then 32 * (Char.ofNat lo).utf8Size else rangesWeight [(lo, hi)]
  | chars => rangesWeight chars
where
  /-- The bytes for one state and its transitions. -/
  rangesWeight (chars : Ranges) : Nat :=
    chars.foldr (fun r bytes => (if r.2 ≤ 0x7F then 8 else 60) + bytes) 32 +
      if chars.any (0x7FF < ·.2) then 300 else 0

/-- The bytes for a choice between two ways on. -/
def choiceWeight : Nat := 40

/-- About how many bytes a matcher needs for the expression, all copies of
repeated parts included. -/
def weight : Expr → Nat
  | .empty | .look _ => 32
  | .set chars => setWeight chars
  | .group _ body => body.weight + 64
  | .concat a b => a.weight + b.weight
  | .either a b => a.weight + b.weight + choiceWeight
  | .repetition low none _ body => max low 1 * body.weight + choiceWeight
  | .repetition low (some high) _ body =>
    low * body.weight + (high - low) * (body.weight + choiceWeight)

/-- The bytes for what a matcher needs besides its expression: five states of 32
bytes, which mark the start and the end of the match, accept, and look for a
place to start, and 8 bytes for the two ways on of the last. -/
def frameWeight : Nat := 5 * 32 + 8

/-- The bytes that a matcher may take. -/
def weightLimit : Nat := 10 * Nat.pow 2 20

/-- Whether the expression is small enough to be matched. Texts that stand for
themselves are weighed like all others. -/
def isSmall (e : Expr) : Bool := e.weight + frameWeight ≤ weightLimit

end Expr

end Graft.Regex
