import Graft.Rule.Replacer
import Graft.Tree.DataError

/-!
# Rules

A rule says what to look for and what to do with each match. Rules are given as
a list of pairs, or as a table from literal texts to replacers; both are made
into one list of rules, whose order is the order in which they are applied.

Making them ready (`into_pairs`) turns every literal text into a pattern, in
order, and fails at the first that is too long. What has been given as a pattern
already is taken as it is. A set keeps the form that it was given in until then,
as a table does not stop being a table by being read.

`RuleError` lists all that can be wrong with rules, whether it is found while
they are read from JSON or while they are made ready. Of a bad pattern it keeps
the text, not the reason in the words of the engine.

Main statements:
- `RuleSet.rules_table`: a table gives the same rules as the list of its
  entries.
-/

namespace Graft

variable {σ : Type}

/-- Why a value does not describe rules. -/
inductive RuleError where
  /-- The text of a pattern is no regular expression, or one that is too large. -/
  | badPattern (source : String)
  /-- The rules are neither a text, nor a list, nor a table. -/
  | notRules
  /-- An item of the list is not a pair. -/
  | notAPair (index : Nat)
  /-- A pattern object lacks the text of its regular expression. -/
  | noRegex
  /-- What to look for is neither a text nor a pattern object. -/
  | notAFind (found : Json)
  /-- A replacement is of no known kind. -/
  | notAReplacement (found : Json)
  /-- A replacement is not well formed as a node. -/
  | badNode (cause : DataError)

/-- One rule, ready to be applied. -/
structure Rule (σ : Type) where
  /-- What to look for. -/
  pattern : Pattern
  /-- What to do with each match. -/
  replacer : Replacer σ

/-- Rules as they are given. -/
inductive RuleSet (σ : Type) where
  /-- Pairs of what to look for and what to do. -/
  | list (pairs : List (Find × Replacer σ))
  /-- Literal texts with what to do. -/
  | table (entries : List (String × Replacer σ))

namespace Rule

/-- The rule for a pair. -/
def ofPair (pair : Find × Replacer σ) : Except RuleError (Rule σ) :=
  match pair.1.toPattern? with
  | some pattern => .ok ⟨pattern, pair.2⟩
  | none => .error (.badPattern pair.1.source)

end Rule

namespace RuleSet

/-- One rule alone; without a replacer it deletes. -/
def single (find : Find) (replacer : Option (Replacer σ)) : RuleSet σ :=
  .list [(find, replacer.getD default)]

/-- The rules in order. A literal text is made a pattern only here, and the
first that is too long is an error. -/
def rules : RuleSet σ → Except RuleError (List (Rule σ))
  | list pairs => pairs.mapM Rule.ofPair
  | table entries => entries.mapM fun (text, replacer) => Rule.ofPair (.literal text, replacer)

/-- A table gives the same rules as the list of its entries. -/
theorem rules_table (entries : List (String × Replacer σ)) :
    (table entries).rules = (list (entries.map fun e => (.literal e.1, e.2))).rules := by
  simp only [rules, List.mapM_map]
  rfl

end RuleSet

/-- What is wrong with the rules, in words. Why a pattern is refused is told in
the words of whoever reads patterns, which are left out. -/
def RuleError.message : RuleError → String
  | .badPattern _ => "Invalid pattern"
  | .notRules => argument "Expected array or object as schema"
  | .notAPair index => argument s!"Expected `[find, replace]` tuple at index {index}"
  | .noRegex => argument "Expected `regex` string in pattern object"
  | .notAFind found =>
    argument s!"Expected string or pattern object as find, got {found.compact}"
  | .notAReplacement found =>
    argument s!"Expected string, null, false or nodes as replacement, got {found.compact}"
  | .badNode cause => argument s!"Invalid replacement node: {cause.message}"
where
  /-- Introduces the fault of an argument. -/
  argument (text : String) : String := "Invalid argument: " ++ text

end Graft
