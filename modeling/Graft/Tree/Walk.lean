import Graft.Tree.Path

/-!
# Walking a tree that changes

A walk goes through a tree in document order and shows every node that its
visitor accepts to it. The visitor sees the whole tree and the path of the node,
may return a changed tree, and says how to go on; the walk then goes on by path
in the tree as it is. A visitor that replaces a node among its siblings says at
which index of the parent to resume.

This is `visit_parents` with its helpers. There the tree is changed in place and
handed to the visitor together with a path of indexes; the walk (`visit_at`)
recurses with this path and asks for the number of children (`child_count`)
after every visit, since the visitor may have changed it. Nothing else is
remembered between visits. Here the tree is a value that is passed along, and
the recursion is a loop over the path to enter next:

- `Step.descend`, `Step.skip` and `Step.resume` are the ways to go on, and no
  step at all is the break that ends the walk;
- the path is kept backwards, so that going up and to the next sibling are one
  pattern match;
- a path whose last index is beyond its parent's children means that the parent
  has been finished.

Since a visitor may add nodes ahead of the walk for ever, the walk runs on fuel,
one unit for every path it looks at. Running out is told apart from completion
and from being stopped (`Ending`). A pass never runs out
(`Graft.Proofs.Splice.Calls`), and any other visitor can be followed with as
much fuel as it takes.

Main statements:
- `walkFrom_zero`, `walkFrom_enter`, `walkFrom_leave`, `walkFrom_end`: out of
  fuel, at a child, and beyond the last one.
-/

namespace Graft

/-- How the walk goes on after a visit. -/
inductive Step where
  /-- Down to the node's children, then to its next sibling. -/
  | descend
  /-- To the node's next sibling. -/
  | skip
  /-- To the child of the node's parent at this index, in the tree as it is
  after the visit. -/
  | resume (index : Nat)
  deriving DecidableEq

/-- What a visit returns. -/
structure Visited (σ : Type) where
  /-- How to go on; `none` ends the walk. -/
  step : Option Step
  /-- The tree after the visit. -/
  tree : Node
  /-- The visitor's state after the visit. -/
  state : σ

/-- A visitor with state of type `σ`. -/
structure Visitor (σ : Type) where
  /-- The nodes to be shown to the visitor. The others are still walked into. -/
  accepts : Node → Bool
  /-- Visits the node at a path of the tree. -/
  visit : σ → Node → Path → Visited σ

/-- How a walk ended. -/
inductive Ending where
  /-- All of the tree has been walked. -/
  | completed
  /-- The visitor ended the walk. -/
  | stopped
  /-- The fuel ran out. -/
  | outOfFuel
  deriving DecidableEq

/-- What a walk returns. -/
structure Walked (σ : Type) where
  /-- How the walk ended. -/
  ending : Ending
  /-- The tree at the end. -/
  tree : Node
  /-- The visitor's state at the end. -/
  state : σ

variable {σ : Type}

/-- Shows the node at a path to the visitor, if there is one and it is accepted.
A node that is not shown is descended into. -/
def Visitor.meet (visitor : Visitor σ) (tree : Node) (path : Path) (state : σ) : Visited σ :=
  match tree.get? path with
  | some node =>
    if visitor.accepts node then visitor.visit state tree path else ⟨some .descend, tree, state⟩
  | none => ⟨some .descend, tree, state⟩

/-- Walks on from child `i` of the node whose path, read backwards, is `up`. -/
def walkFrom (visitor : Visitor σ) : Nat → Node → Nat → List Nat → σ → Walked σ
  | 0, tree, _, _, state => ⟨.outOfFuel, tree, state⟩
  | fuel + 1, tree, i, up, state =>
    -- counted anew at every step: the visit before may have changed the siblings
    if i < tree.childCount up.reverse then
      let visited := visitor.meet tree (i :: up).reverse state
      match visited.step with
      | some .descend => walkFrom visitor fuel visited.tree 0 (i :: up) visited.state
      | some .skip => walkFrom visitor fuel visited.tree (i + 1) up visited.state
      | some (.resume k) => walkFrom visitor fuel visited.tree k up visited.state
      | none => ⟨.stopped, visited.tree, visited.state⟩
    else
      match up with
      | [] => ⟨.completed, tree, state⟩
      | j :: up => walkFrom visitor fuel tree (j + 1) up state

/-- Walks a tree, looking at no more than `fuel` paths below its root. Anything
but `descend` at the root ends the walk, since the root has no siblings. -/
def walk (visitor : Visitor σ) (fuel : Nat) (tree : Node) (state : σ) : Walked σ :=
  let visited := visitor.meet tree [] state
  -- the root has no siblings to go on with, so skipping and resuming both end here
  match visited.step with
  | some .descend => walkFrom visitor fuel visited.tree 0 [] visited.state
  | some .skip | some (.resume _) => ⟨.completed, visited.tree, visited.state⟩
  | none => ⟨.stopped, visited.tree, visited.state⟩

@[simp] theorem walkFrom_zero (visitor : Visitor σ) (tree : Node) (i : Nat) (up : List Nat)
    (state : σ) : walkFrom visitor 0 tree i up state = ⟨.outOfFuel, tree, state⟩ := rfl

/-- A child of the node is shown to the visitor, which says how the walk goes on. -/
theorem walkFrom_enter (visitor : Visitor σ) (fuel : Nat) {tree : Node} {i : Nat} {up : List Nat}
    (state : σ) (h : i < tree.childCount up.reverse) :
    walkFrom visitor (fuel + 1) tree i up state =
      let visited := visitor.meet tree (i :: up).reverse state
      match visited.step with
      | some .descend => walkFrom visitor fuel visited.tree 0 (i :: up) visited.state
      | some .skip => walkFrom visitor fuel visited.tree (i + 1) up visited.state
      | some (.resume k) => walkFrom visitor fuel visited.tree k up visited.state
      | none => ⟨.stopped, visited.tree, visited.state⟩ := by
  cases up <;> rw [walkFrom, if_pos h]

/-- Beyond the last child, the walk goes on with the next sibling of the parent. -/
theorem walkFrom_leave (visitor : Visitor σ) (fuel : Nat) {tree : Node} {i j : Nat}
    {up : List Nat} (state : σ) (h : tree.childCount (j :: up).reverse ≤ i) :
    walkFrom visitor (fuel + 1) tree i (j :: up) state =
      walkFrom visitor fuel tree (j + 1) up state := by
  rw [walkFrom, if_neg (by omega)]

/-- Beyond the last child of the root, the walk is complete. -/
theorem walkFrom_end (visitor : Visitor σ) (fuel : Nat) {tree : Node} {i : Nat} (state : σ)
    (h : tree.childCount [] ≤ i) :
    walkFrom visitor (fuel + 1) tree i [] state = ⟨.completed, tree, state⟩ := by
  rw [walkFrom, List.reverse_nil, if_neg (by omega)]

end Graft
