import Graft.Regex.Search

/-!
# Patterns

A pattern is a regular expression that is ready to be searched for, with the
text it was read from, and whether every match in a leaf counts or only the
first.

There is one way to make a pattern, from a text with its flags (`parse`,
`with_flags`). A literal text is escaped first and read like any other
(`literal`), so it is subject to the same limit on the size of patterns, and is
always searched for everywhere. A pattern that counts only once (`once`) comes
from a flag.

Main statements:
- `Pattern.global_of_literal?`: a literal text is searched for everywhere.
-/

namespace Graft

/-- What is searched for in the leaves of a tree. -/
structure Pattern where
  /-- The text the pattern was read from. -/
  source : String
  /-- What it matches. -/
  regex : Regex
  /-- Whether every match in a leaf counts, or only the first. -/
  global : Bool

namespace Pattern

/-- Reads a pattern. `none` if the text is no regular expression, or one that is
too large. -/
def ofText? (source : String) (global ignoreCase : Bool) : Option Pattern :=
  (Regex.ofText? ignoreCase source.toList).map fun regex => ⟨source, regex, global⟩

/-- The pattern that matches a text literally, wherever it stands. `none` if the
text is too long. -/
def literal? (text : String) : Option Pattern :=
  ofText? (String.ofList (Regex.escape text.toList)) true false

theorem global_of_literal? {text : String} {pattern : Pattern}
    (h : literal? text = some pattern) : pattern.global = true := by
  obtain ⟨_, _, rfl⟩ := Option.map_eq_some_iff.mp h
  rfl

end Pattern

/-- What a rule looks for. -/
inductive Find where
  /-- A text, literally. -/
  | literal (text : String)
  /-- The matches of a pattern. -/
  | pattern (pattern : Pattern)

/-- The text of the pattern that a rule searches for. -/
def Find.source : Find → String
  | .literal text => String.ofList (Regex.escape text.toList)
  | .pattern given => given.source

/-- The pattern that a rule searches for. -/
def Find.toPattern? : Find → Option Pattern
  | .literal text => Pattern.literal? text
  | .pattern given => some given

end Graft
