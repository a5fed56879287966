import Graft.Rule.RuleSet
import Graft.Tree.Decode

/-!
# Rules in JSON

A text is one rule that deletes. A list holds pairs of what to look for and a
replacement, which may be left out; an object maps literal texts to
replacements. What to look for is a text or an object with a regular expression;
a replacement is a text, `null` to delete, `false` to reject, a node, or a list
of nodes. The first fault in order is the one that is reported.

There is one reader for each part, with the faults that belong to it: the whole
(`from_value`), a pair (`tuple_from_value`), what to look for
(`find_from_value`), a replacement (`replacement_from_value`) and a node in it
(`node_from_value`). Regular expressions are compiled while they are read, so a
bad one is reported at its place among the others. Literal texts are not made
patterns here, and a text that is too long for one passes.

Flags beside a regular expression count only if they are booleans. A flag of
another type is not a fault; the pattern is made as if it were not there.

Main statements:
- `Replacement.ofJson_null`, `Replacement.ofJson_empty`: `null` and the empty
  text both delete.
-/

namespace Graft

variable {σ : Type}

/-- Reads a node of a replacement. -/
def RuleError.nodeOfJson (v : Json) : Except RuleError Node :=
  match Node.ofJson .outer v with
  | .ok node => .ok node
  | .error cause => .error (.badNode cause)

namespace Replacement

/-- Reads a replacement. -/
def ofJson : Json → Except RuleError Replacement
  | .null => .ok .delete
  | .bool false => .ok .reject
  | .string value => .ok (ofText value)
  | .object members => (RuleError.nodeOfJson (.object members)).map ofNode
  | .array items => (items.mapM RuleError.nodeOfJson).map .nodes
  | other => .error (.notAReplacement other)

@[simp] theorem ofJson_null : ofJson .null = .ok .delete := rfl

@[simp] theorem ofJson_empty : ofJson (.string "") = .ok .delete := rfl

end Replacement

/-- Reads what to look for. The flags of a regular expression count only if they
are booleans. -/
def Find.ofJson : Json → Except RuleError Find
  | .string text => .ok (.literal text)
  | .object fields =>
    let flag := fun (name : String) (default : Bool) =>
      ((Members.get? fields name).bind Json.bool?).getD default
    match (Members.get? fields "regex").bind Json.string? with
    | none => .error .noRegex
    | some source =>
      match Pattern.ofText? source (flag "global" true) (flag "ignoreCase" false) with
      | some given => .ok (.pattern given)
      | none => .error (.badPattern source)
  | other => .error (.notAFind other)

namespace RuleSet

/-- Reads the pair at an index of a list. -/
def pairOfJson (index : Nat) : Json → Except RuleError (Find × Replacer σ)
  | .array [find] => do
    let find ← Find.ofJson find
    return (find, .constant .delete)
  | .array [find, replacement] => do
    let find ← Find.ofJson find
    let replacement ← Replacement.ofJson replacement
    return (find, .constant replacement)
  | _ => .error (.notAPair index)

/-- Reads the pairs of a list from this index on. -/
def pairsOfJson (index : Nat) : List Json → Except RuleError (List (Find × Replacer σ))
  | [] => .ok []
  | item :: rest => do
    let pair ← pairOfJson index item
    let pairs ← pairsOfJson (index + 1) rest
    return pair :: pairs

/-- Reads the entries of a table. -/
def entriesOfJson : Members → Except RuleError (List (String × Replacer σ))
  | [] => .ok []
  | (text, v) :: rest => do
    let replacement ← Replacement.ofJson v
    let entries ← entriesOfJson rest
    return (text, .constant replacement) :: entries

/-- Reads rules. -/
def ofJson : Json → Except RuleError (RuleSet σ)
  | .string text => .ok (single (.literal text) none)
  | .array items => (pairsOfJson 0 items).map .list
  | .object members => (entriesOfJson members).map .table
  | _ => .error .notRules

end RuleSet

end Graft
