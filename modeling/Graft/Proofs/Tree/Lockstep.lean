import Graft.Proofs.Tree.Outline
import Graft.Proofs.Tree.Visits
import Mathlib.Data.List.Forall2

/-!
# Walks in step

Two trees that differ in metadata only are walked in step by a visitor that does
not look at metadata: the same paths are visited, in trees that keep having one
outline, with states that stay alike, and the walks end in the same way.

What is alike of two states is a parameter, a relation that every visit has to
keep (`Visitor.KeepsStep`). For the walk of a search it is equality; for the
walk that keeps a record it is equality of the replacer's states, and of the
records up to metadata in the nodes on the stacks. The induction is on the fuel
of the two walks, which stand at the same place.

Main statements:
- `Visitor.KeepsStep.walkFrom`, `Visitor.KeepsStep.walk`: if the visits are in
  step, so are the walks;
- `Visitor.KeepsStep.visits`: so are their records, visit by visit.
-/

namespace Graft

variable {σ : Type} {alike : σ → σ → Prop}

/-- Whether two visits say the same about how to go on, and leave trees with one
outline and states that are alike. -/
structure Visited.InStep (alike : σ → σ → Prop) (first second : Visited σ) : Prop where
  step : first.step = second.step
  outline : first.tree.outline = second.tree.outline
  state : alike first.state second.state

/-- Whether two walks end in the same way, with trees with one outline and
states that are alike. -/
structure Walked.InStep (alike : σ → σ → Prop) (first second : Walked σ) : Prop where
  ending : first.ending = second.ending
  outline : first.tree.outline = second.tree.outline
  state : alike first.state second.state

/-- Whether two recorded visits are of the same path in trees with one outline,
and in step. -/
structure Visit.InStep (alike : σ → σ → Prop) (first second : Visit σ) : Prop where
  path : first.path = second.path
  tree : first.tree.outline = second.tree.outline
  state : alike first.state second.state
  outcome : first.outcome.InStep alike second.outcome

/-- Whether a visitor does not look at metadata: its visits of accepted nodes
are in step where the trees have one outline and the states are alike. -/
structure Visitor.KeepsStep (visitor : Visitor σ) (alike : σ → σ → Prop) : Prop where
  accepts : ∀ node : Node, visitor.accepts node.outline = visitor.accepts node
  visit : ∀ {tree other node : Node} {path : Path} {state current : σ},
    tree.outline = other.outline →
    tree.get? path = some node → visitor.accepts node = true → alike state current →
      (visitor.visit state tree path).InStep alike (visitor.visit current other path)

namespace Node

variable {tree other : Node}

/-- In trees with one outline a path leads to nodes with one outline, or to none
in both. -/
theorem map_outline_get? (h : tree.outline = other.outline) (path : Path) :
    (tree.get? path).map outline = (other.get? path).map outline := by
  rw [← get?_outline, ← get?_outline, h]

/-- So both walks find as many children, and go up at the same time. -/
theorem childCount_eq_of_outline (h : tree.outline = other.outline) (path : Path) :
    tree.childCount path = other.childCount path := by
  rw [← childCount_outline tree, ← childCount_outline other, h]

end Node

namespace Visitor.KeepsStep

variable {visitor : Visitor σ}

/-- At each path, both trees have a node that is shown, or neither has. -/
theorem meet (h : visitor.KeepsStep alike) {tree other : Node}
    (hsame : tree.outline = other.outline) (path : Path)
    {state current : σ} (hstate : alike state current) :
    (visitor.meet tree path state).InStep alike (visitor.meet other path current) := by
  have hnodes := Node.map_outline_get? hsame path
  rw [Visitor.meet, Visitor.meet]
  cases hnode : tree.get? path with
  | none =>
    rw [hnode] at hnodes
    rw [Option.map_eq_none_iff.mp hnodes.symm]
    exact ⟨rfl, hsame, hstate⟩
  | some node =>
    rw [hnode] at hnodes
    obtain ⟨found, hfound, houtline⟩ := Option.map_eq_some_iff.mp hnodes.symm
    have haccepts : visitor.accepts found = visitor.accepts node := by
      rw [← h.accepts found, houtline, h.accepts]
    rw [hfound]
    dsimp only
    rw [haccepts]
    split
    next haccepted => exact h.visit hsame hnode haccepted hstate
    next => exact ⟨rfl, hsame, hstate⟩

/-- Walks that go on from the same place are in step. -/
theorem walkFrom (h : visitor.KeepsStep alike) (fuel : Nat) :
    ∀ {tree other : Node} (i : Nat) (up : List Nat) {state current : σ},
      tree.outline = other.outline →
      alike state current →
        (Graft.walkFrom visitor fuel tree i up state).InStep alike
          (Graft.walkFrom visitor fuel other i up current) := by
  induction fuel with
  | zero => intro tree other i up state current hsame hstate; exact ⟨rfl, hsame, hstate⟩
  | succ fuel ih =>
    intro tree other i up state current hsame hstate
    have hcount := Node.childCount_eq_of_outline hsame up.reverse
    rcases Nat.lt_or_ge i (tree.childCount up.reverse) with hlt | hge
    · have hmeet := h.meet hsame (i :: up).reverse hstate
      rw [walkFrom_enter _ _ _ hlt, walkFrom_enter _ _ _ (hcount ▸ hlt)]
      dsimp only
      rw [← hmeet.step]
      -- the step that both visits say is where both walks go on
      split
      next => exact ih _ _ hmeet.outline hmeet.state
      next => exact ih _ _ hmeet.outline hmeet.state
      next => exact ih _ _ hmeet.outline hmeet.state
      next => exact ⟨rfl, hmeet.outline, hmeet.state⟩
    · cases up with
      | nil =>
        rw [walkFrom_end _ _ _ hge, walkFrom_end _ _ _ (hcount ▸ hge)]
        exact ⟨rfl, hsame, hstate⟩
      | cons j up =>
        rw [walkFrom_leave _ _ _ hge, walkFrom_leave _ _ _ (hcount ▸ hge)]
        exact ih _ _ hsame hstate

/-- Walks of trees with one outline are in step. -/
theorem walk (h : visitor.KeepsStep alike) (fuel : Nat) {tree other : Node}
    (hsame : tree.outline = other.outline) {state current : σ} (hstate : alike state current) :
    (Graft.walk visitor fuel tree state).InStep alike (Graft.walk visitor fuel other current) := by
  have hmeet := h.meet hsame [] hstate
  unfold Graft.walk
  dsimp only
  rw [← hmeet.step]
  split
  next => exact h.walkFrom fuel _ _ hmeet.outline hmeet.state
  next => exact ⟨rfl, hmeet.outline, hmeet.state⟩
  next => exact ⟨rfl, hmeet.outline, hmeet.state⟩
  next => exact ⟨rfl, hmeet.outline, hmeet.state⟩

/-- With a record, the visits are in step one by one as well. -/
theorem recording (h : visitor.KeepsStep alike) :
    visitor.recording.KeepsStep fun first second =>
      alike first.1 second.1 ∧ List.Forall₂ (Visit.InStep alike) first.2 second.2 where
  accepts := h.accepts
  visit := by
    rintro tree other node path ⟨state, seen⟩ ⟨current, others⟩ hsame hnode haccepts ⟨hstate, hseen⟩
    have hvisit := h.visit hsame hnode haccepts hstate
    have hnew : List.Forall₂ (Visit.InStep alike)
      [⟨state, tree, path, visitor.visit state tree path⟩]
        [⟨current, other, path, visitor.visit current other path⟩] :=
      .cons ⟨rfl, hsame, hstate, hvisit⟩ .nil
    exact ⟨hvisit.step, hvisit.outline, hvisit.state, List.rel_append hseen hnew⟩

/-- The visits of walks of trees with one outline are in step one by one. -/
theorem visits (h : visitor.KeepsStep alike) (fuel : Nat) {tree other : Node}
    (hsame : tree.outline = other.outline) {state current : σ} (hstate : alike state current) :
    List.Forall₂ (Visit.InStep alike) (Graft.walk visitor.recording fuel tree (state, [])).state.2
      (Graft.walk visitor.recording fuel other (current, [])).state.2 := by
  have hstart : alike state current ∧ List.Forall₂ (Visit.InStep alike) [] [] := ⟨hstate, .nil⟩
  exact (h.recording.walk fuel hsame hstart).state.2

end Visitor.KeepsStep

end Graft
