import Graft.Tree.Walk

/-!
# Walks that see less of a state

A visitor may keep more in its state than what it does depends on: a record of
its calls beside the state of a replacer, or the visits that it has made. A view
takes such a state to a smaller one. If every single visit comes out the same
through the view, with the same step and the same tree, so does the whole walk.

This is how everything that is proved of a recorded walk is proved of the walk
itself. The record is kept by a finer visitor (`Visitor.recording`,
`Replacer.recording`), whose state is a pair, and the view forgets the second
half.

Main statements:
- `Visitor.SeenAs.meet`: where the visit of a node comes out the same, so does
  meeting it;
- `Visitor.SeenAs.walk`: a walk, seen through a view, is the walk of the coarser
  visitor.
-/

namespace Graft

variable {σ τ : Type}

/-- What a visit returns, with the state seen through a view. -/
def Visited.map (view : τ → σ) (visited : Visited τ) : Visited σ :=
  ⟨visited.step, visited.tree, view visited.state⟩

def Walked.map (view : τ → σ) (walked : Walked τ) : Walked σ :=
  ⟨walked.ending, walked.tree, view walked.state⟩

/-- Whether one visitor is another one, with its state seen through a view. -/
structure Visitor.SeenAs (fine : Visitor τ) (view : τ → σ) (coarse : Visitor σ) : Prop where
  accepts : coarse.accepts = fine.accepts
  visit : ∀ state tree path,
    coarse.visit (view state) tree path = (fine.visit state tree path).map view

namespace Visitor.SeenAs

variable {view : τ → σ} {fine : Visitor τ} {coarse : Visitor σ}

/-- A node that is not accepted is passed by both, so only the visit matters. -/
theorem meet (h : fine.SeenAs view coarse) (tree : Node) (path : Path) (state : τ) :
    coarse.meet tree path (view state) = (fine.meet tree path state).map view := by
  unfold Visitor.meet
  rw [h.accepts]
  cases tree.get? path with
  | none => rfl
  | some node =>
    dsimp only
    split
    next => exact h.visit state tree path
    next => rfl

/-- With any fuel and from any place on, by induction on the fuel: the step that
is taken is the same, so both go on at the same place. -/
theorem walkFrom (h : fine.SeenAs view coarse) :
    ∀ (fuel : Nat) (tree : Node) (i : Nat) (up : List Nat) (state : τ),
      Graft.walkFrom coarse fuel tree i up (view state) =
        (Graft.walkFrom fine fuel tree i up state).map view := by
  intro fuel
  induction fuel with
  | zero => intro tree i up state; rfl
  | succ fuel ih =>
    intro tree i up state
    rcases Nat.lt_or_ge i (tree.childCount up.reverse) with hlt | hge
    · rw [walkFrom_enter _ _ _ hlt, walkFrom_enter _ _ _ hlt, h.meet]
      obtain ⟨step, tree, state⟩ := fine.meet tree (i :: up).reverse state
      dsimp only [Visited.map]
      split
      next => exact ih _ _ _ _
      next => exact ih _ _ _ _
      next => exact ih _ _ _ _
      next => rfl
    · cases up with
      | nil =>
        rw [walkFrom_end _ _ _ hge, walkFrom_end _ _ _ hge]
        rfl
      | cons j up =>
        rw [walkFrom_leave _ _ _ hge, walkFrom_leave _ _ _ hge]
        exact ih _ _ _ _

/-- If the visits are the same through a view, so is the walk. -/
theorem walk (h : fine.SeenAs view coarse) (fuel : Nat) (tree : Node) (state : τ) :
    Graft.walk coarse fuel tree (view state) = (Graft.walk fine fuel tree state).map view := by
  unfold Graft.walk
  rw [h.meet]
  obtain ⟨step, tree, state⟩ := fine.meet tree [] state
  dsimp only [Visited.map]
  split
  next => exact h.walkFrom _ _ _ _ _
  next => rfl
  next => rfl
  next => rfl

end Visitor.SeenAs

end Graft
