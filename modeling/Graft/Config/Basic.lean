import Graft.Rule.Decode
import Graft.Tree.ElementTest

/-!
# Configurations

A configuration holds rules in their JSON form and the tag names to leave alone,
which take the place of the default ones or add to them.

The rules stay JSON until they are needed (`schema`), so a configuration with
rules that make no sense is a configuration, and fails only where its rules are
used. What is left alone (`options`) is a test by tag name in all cases: the
default names, the given ones, or both.

Main statements:
- `Config.ignoring_none`: without tag names the default ones are left alone.
-/

namespace Graft

/-- Tag names, as one or as a list. -/
inductive TagNames where
  | one (name : String)
  | many (names : List String)
  deriving DecidableEq

namespace TagNames

/-- All the names. -/
def toList : TagNames → List String
  | one name => [name]
  | many names => names

/-- The test that the elements with these names pass. -/
def toTest : TagNames → ElementTest
  | one name => .tag name
  | many names => .tags names

/-- The JSON form. -/
def toJson : TagNames → Json
  | one name => .string name
  | many names => .array (names.map .string)

end TagNames

/-- Rules and what they leave alone. -/
structure Config where
  /-- The rules in their JSON form. -/
  rules : Json := .array []
  /-- Tag names to leave alone. -/
  ignore : Option TagNames := none
  /-- Whether the tag names add to the default ones. -/
  extendDefaultIgnore : Bool := false

instance : Inhabited Config := ⟨{}⟩

namespace Config

/-- The names that a configuration file may have, in the order they are looked
for. -/
def fileNames : List String := [".textsplice.jsonc", ".textsplice.json"]

/-- The rules, read from their JSON form. -/
def ruleSet {σ : Type} (config : Config) : Except RuleError (RuleSet σ) :=
  RuleSet.ofJson config.rules

/-- What is left alone. -/
def ignoring (config : Config) : Ignore :=
  match config.ignore with
  | none => .default
  | some tags => if config.extendDefaultIgnore then .defaultWith tags.toList else ⟨tags.toTest⟩

/-- Equality of configurations up to the order of members and the sign of zero. -/
def same (a b : Config) : Bool :=
  a.rules.same b.rules && a.ignore = b.ignore && a.extendDefaultIgnore = b.extendDefaultIgnore

/-- The JSON form. -/
def toJson (config : Config) : Json :=
  .object ([("rules", config.rules)] ++
    (config.ignore.map fun tags => ("ignore", tags.toJson)).toList ++
    [("extendDefaultIgnore", .bool config.extendDefaultIgnore)])

theorem ignoring_none (config : Config) (h : config.ignore = none) :
    config.ignoring = .default := by
  simp [ignoring, h]

end Config

end Graft
