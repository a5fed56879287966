import Graft.Rule.Pattern
import Graft.Tree.Node

/-!
# Replacements

What is done with a match: it is deleted, replaced by a text or by nodes, or
rejected as if it were no match. A replacer gives the same answer for every
match, or works it out from the match and a state of its own.

`Replacement.toNodes` is `into_nodes`: it tells apart that nothing takes the
place of a match, which deletes it, from that the match is rejected. An empty
text puts in nothing. Nodes are put in as they are given, also if there are
empty texts among them.

A replacer may be any function of the caller's, and may keep what it likes
between two calls. Its state is therefore a parameter here, which `Replacer.ask`
takes and gives back; nothing is assumed of it anywhere. What such a function
can see of a match is gathered in `Found`: the spans of the match and its
groups, their names, the whole text of the leaf, and the nodes from the root
down to the leaf as they are at the time of the call.

Main statements:
- `Replacement.toNodes_ofText`: a text stands for one text node, the empty text
  for none.
-/

namespace Graft

/-- What is done with one match. -/
inductive Replacement where
  /-- The matched text is removed. -/
  | delete
  /-- A text takes the place of the matched text. -/
  | text (value : String)
  /-- Nodes take the place of the matched text, in order. -/
  | nodes (nodes : List Node)
  /-- The match does not count. -/
  | reject

instance : Inhabited Replacement := ⟨.delete⟩

namespace Replacement

/-- The replacement by a text. The empty text deletes. -/
def ofText (value : String) : Replacement := if value.isEmpty then .delete else .text value

/-- The replacement by one node. -/
def ofNode (node : Node) : Replacement := .nodes [node]

/-- The nodes that take the place of the match; `none` if it is rejected. -/
def toNodes : Replacement → Option (List Node)
  | .delete => some []
  | .text value => some (if value.isEmpty then [] else [Node.ofText value])
  | .nodes given => some given
  | .reject => none

/-- A text stands for one text node, the empty text for none. -/
theorem toNodes_ofText (value : String) :
    (ofText value).toNodes = some (if value.isEmpty then [] else [Node.ofText value]) := by
  by_cases h : value.isEmpty = true <;> simp [ofText, toNodes, h]

end Replacement

/-- A match as a replacer sees it. -/
structure Found where
  /-- Where the match and its groups are. -/
  spans : Match
  /-- The names of groups with their indexes. -/
  names : List (String × Nat)
  /-- The whole text of the leaf. -/
  input : List Char
  /-- The nodes from the root down to the leaf, both included. -/
  stack : List Node

namespace Found

/-- The offset of the match in the leaf's text. -/
def index (found : Found) : Nat := found.spans.span.start

/-- The matched text. -/
def value (found : Found) : List Char := found.spans.span.text found.input

/-- What the groups matched, in order; `none` for a group that took no part. -/
def groups (found : Found) : List (Option (List Char)) :=
  found.spans.groups.map fun group => group.map (·.text found.input)

/-- What a group matched; group 0 is the whole match. -/
def group? (found : Found) : Nat → Option (List Char)
  | 0 => some found.value
  | i + 1 => (found.groups[i]?).join

/-- What the group with this name matched. -/
def named? (found : Found) (name : String) : Option (List Char) :=
  (found.names.lookup name).bind found.group?

/-- The leaf that is searched. -/
def leaf? (found : Found) : Option Node := found.stack.getLast?

/-- The leaf's parent. -/
def parent? (found : Found) : Option Node := found.stack.dropLast.getLast?

end Found

/-- What decides on matches, with state of type `σ`. -/
inductive Replacer (σ : Type) where
  /-- The same replacement for every match. -/
  | constant (replacement : Replacement)
  /-- The replacement that a function gives for the match and the state, and the
  state after it. -/
  | function (replace : Found → σ → Replacement × σ)

namespace Replacer

variable {σ : Type}

instance : Inhabited (Replacer σ) := ⟨.constant .delete⟩

/-- Asks the replacer about a match. -/
def ask (replacer : Replacer σ) (found : Found) (state : σ) : Replacement × σ :=
  match replacer with
  | constant replacement => (replacement, state)
  | function replace => replace found state

@[simp] theorem ask_constant (replacement : Replacement) (found : Found) (state : σ) :
    (constant replacement).ask found state = (replacement, state) := rfl

end Replacer

end Graft
