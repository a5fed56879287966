import Graft.Splice.Leaf
import Graft.Tree.ElementTest
import Graft.Tree.Walk

/-!
# Passes

Every rule is applied in one walk over the tree as the rules before it have left
it. A leaf is spliced unless it is the whole tree or one of its ancestors is
left alone; the walk then goes on behind what was put in, so a rule never
searches what it has itself produced.

`findAndReplace` is `find_and_replace`: the rules are made ready first
(`into_pairs`), so that a pattern which cannot be made fails the call before the
tree is touched, and then there is one pass for each rule. `Rule.visit` is the
visit of a pass, and `Rule.scan` the part of it that looks: it takes the stack
of the path (`stack`), asks whether the leaf is ignored (`is_ignored`), and
splices its text. The rest carries out the splice in the parent, at the index of
the leaf, and resumes at the index behind the nodes that were put in. All this
is done in the tree of the moment. A leaf that has no parent is never replaced,
as there is nothing to splice it into.

A pass also counts the leaves that it has spliced, for the log. The state of a
replacer goes from pass to pass; rules share it, which gives each of them a
state of its own by taking a product.

Main statements:
- `applyAll_nil`, `tree_applyAll_cons`: rules are applied one after the other.
-/

namespace Graft

variable {σ : Type}

/-- What a pass keeps track of. -/
structure Progress (σ : Type) where
  /-- The replacer's state. -/
  state : σ
  /-- The number of leaves that have been spliced. -/
  splices : Nat

/-- What one pass did. -/
structure PassReport where
  /-- The text of the pattern searched for. -/
  source : String
  /-- The number of leaves that were spliced. -/
  splices : Nat
  deriving DecidableEq

/-- A tree after some passes. -/
structure Outcome (σ : Type) where
  /-- The tree. -/
  tree : Node
  /-- The replacers' state. -/
  state : σ
  /-- What the passes did, in order. -/
  passes : List PassReport

namespace Rule

/-- What takes the place of the leaf at a path, and the state after it. -/
def scan (rule : Rule σ) (ignore : Ignore) (tree : Node) (path : Path) (state : σ) :
    Option (List Node) × σ :=
  match tree.stack? path with
  | none => (none, state)
  | some stack =>
    if ignore.excludes stack path then (none, state)
    else match stack.getLast?.bind Node.value? with
      | none => (none, state)
      | some text => rule.spliceLeaf text stack state

/-- Splices the leaf at a path into its parent and says to go on behind it. -/
def visit (rule : Rule σ) (ignore : Ignore) (progress : Progress σ) (tree : Node) (path : Path) :
    Visited (Progress σ) :=
  match path.getLast? with
  | none => ⟨some .descend, tree, progress⟩
  | some index =>
    match rule.scan ignore tree path progress.state with
    | (none, state) => ⟨some .descend, tree, { progress with state }⟩
    | (some nodes, state) =>
      ⟨some (.resume (index + nodes.length)),
        tree.modifyAt (·.spliceChildren index 1 nodes) path.dropLast,
        ⟨state, progress.splices + 1⟩⟩

/-- The visitor that splices leaves. -/
def visitor (rule : Rule σ) (ignore : Ignore) : Visitor (Progress σ) where
  accepts := Node.isText
  visit := rule.visit ignore

/-- The fuel for a walk that goes no further than the nodes of the tree: each is
entered once and, below it, left once. -/
def walkFuel (tree : Node) : Nat := 2 * tree.size

/-- Applies the rule in one walk over the tree. -/
def apply (rule : Rule σ) (ignore : Ignore) (tree : Node) (state : σ) : Outcome σ :=
  let walked := walk (rule.visitor ignore) (walkFuel tree) tree ⟨state, 0⟩
  ⟨walked.tree, walked.state.state, [⟨rule.pattern.source, walked.state.splices⟩]⟩

/-- Applies rules one after the other. -/
def applyAll (ignore : Ignore) : List (Rule σ) → Node → σ → Outcome σ
  | [], tree, state => ⟨tree, state, []⟩
  | rule :: rest, tree, state =>
    let first := rule.apply ignore tree state
    let outcome := applyAll ignore rest first.tree first.state
    ⟨outcome.tree, outcome.state, first.passes ++ outcome.passes⟩

@[simp] theorem applyAll_nil (ignore : Ignore) (tree : Node) (state : σ) :
    applyAll ignore [] tree state = ⟨tree, state, []⟩ := rfl

theorem tree_applyAll_cons (ignore : Ignore) (rule : Rule σ) (rest : List (Rule σ)) (tree : Node)
    (state : σ) :
    (applyAll ignore (rule :: rest) tree state).tree =
      (applyAll ignore rest (rule.apply ignore tree state).tree
        (rule.apply ignore tree state).state).tree := rfl

end Rule

/-- Finds what the rules look for in the texts of a tree, and replaces it. The
rules are made ready before the tree is touched. -/
def findAndReplace (tree : Node) (rules : RuleSet σ) (ignore : Ignore) (state : σ) :
    Except RuleError (Outcome σ) :=
  rules.rules.map fun ready => Rule.applyAll ignore ready tree state

end Graft
