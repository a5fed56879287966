import Graft.Proofs.Tree.View

/-!
# Visits of a walk

A walk is recorded as the list of its visits, each with the tree and the state
that it was made in and what came of it. The record is all that it adds: seen
without the record, the walk is the walk of `visit_parents` itself.

The record tells the walk step by step (`Visitor.Trace`): the first visit is
made on the tree at the start, every other one on the tree and in the state that
the visit before it has left, and the last one leaves what the walk ends with.
Between two visits nothing happens to the tree. So what every visit keeps true
is true at the end, and it is enough to show it of the nodes that are accepted.

Main statements:
- `Visitor.walk_preserves`: what every visit keeps true is true at the end of a
  walk;
- `Visitor.walk_recording`: a walk that is recorded is the walk itself;
- `Visitor.trace_walk`: the visits lead from the start of the walk to its end.
-/

namespace Graft

variable {σ : Type}

/-- One visit of a walk: the visitor's state and the tree before it, the path of
the node that is visited, and what the visit returned. -/
structure Visit (σ : Type) where
  state : σ
  tree : Node
  path : Path
  outcome : Visited σ

def Visit.node? (visit : Visit σ) : Option Node := visit.tree.get? visit.path

/-- The visitor with a record of its visits. -/
def Visitor.recording (visitor : Visitor σ) : Visitor (σ × List (Visit σ)) where
  accepts := visitor.accepts
  visit recorded tree path :=
    let outcome := visitor.visit recorded.1 tree path
    ⟨outcome.step, outcome.tree, outcome.state, recorded.2 ++ [⟨recorded.1, tree, path, outcome⟩]⟩

/-- Whether visits follow one another from a tree and a state to others: each is
shown the tree and has the state that the one before has left. -/
inductive Visitor.Trace (visitor : Visitor σ) : Node → σ → List (Visit σ) → Node → σ → Prop
  | nil (tree : Node) (state : σ) : Trace visitor tree state [] tree state
  | cons {tree last : Node} {state final : σ} {rest : List (Visit σ)} (path : Path)
      (h : Trace visitor (visitor.visit state tree path).tree (visitor.visit state tree path).state
        rest last final) :
      Trace visitor tree state (⟨state, tree, path, visitor.visit state tree path⟩ :: rest)
        last final

namespace Visitor

/-- What every visit of an accepted node keeps true of the tree and the state is
true at the end of a walk. -/
theorem walk_preserves_of_accepts (visitor : Visitor σ) (holds : Node → σ → Prop)
    (h : ∀ state tree path node, tree.get? path = some node → visitor.accepts node = true →
      holds tree state →
      holds (visitor.visit state tree path).tree (visitor.visit state tree path).state)
    (fuel : Nat) {tree : Node} {state : σ} (hstart : holds tree state) :
    holds (walk visitor fuel tree state).tree (walk visitor fuel tree state).state := by
  have hmeet : ∀ path {tree state}, holds tree state →
      holds (visitor.meet tree path state).tree (visitor.meet tree path state).state := by
    intro path tree state hholds
    rw [meet]
    cases hnode : tree.get? path with
    | none => exact hholds
    | some node =>
      dsimp only
      split
      next haccepts => exact h state tree path node hnode haccepts hholds
      next => exact hholds
  -- a walk changes the tree and the state in its visits only, so no more than `hmeet` is needed
  have hfrom : ∀ fuel i up {tree state}, holds tree state →
      holds (walkFrom visitor fuel tree i up state).tree
        (walkFrom visitor fuel tree i up state).state := by
    intro fuel
    induction fuel with
    | zero => intro i up tree state hholds; exact hholds
    | succ fuel ih =>
      intro i up tree state hholds
      rcases Nat.lt_or_ge i (tree.childCount up.reverse) with hlt | hge
      · have hnext := hmeet (i :: up).reverse hholds
        rw [walkFrom_enter _ _ _ hlt]
        dsimp only
        split
        next => exact ih _ _ hnext
        next => exact ih _ _ hnext
        next => exact ih _ _ hnext
        next => exact hnext
      · cases up with
        | nil => rw [walkFrom_end _ _ _ hge]; exact hholds
        | cons j up => rw [walkFrom_leave _ _ _ hge]; exact ih _ _ hholds
  have hroot := hmeet [] hstart
  rw [walk]
  split
  next => exact hfrom fuel _ _ hroot
  next => exact hroot
  next => exact hroot
  next => exact hroot

/-- What every visit keeps true of the tree and the state is true at the end of
a walk. -/
theorem walk_preserves (visitor : Visitor σ) {holds : Node → σ → Prop}
    (h : ∀ state tree path, holds tree state →
      holds (visitor.visit state tree path).tree (visitor.visit state tree path).state)
    (fuel : Nat) {tree : Node} {state : σ} (hstart : holds tree state) :
    holds (walk visitor fuel tree state).tree (walk visitor fuel tree state).state :=
  visitor.walk_preserves_of_accepts holds
    (fun state tree path _ _ _ => h state tree path) fuel hstart

/-- A trace goes on with the visit of any path, made where it has ended. -/
theorem Trace.concat {visitor : Visitor σ} {first last : Node} {state final : σ}
    {visits : List (Visit σ)} (h : visitor.Trace first state visits last final) (path : Path) :
    visitor.Trace first state (visits ++ [⟨final, last, path, visitor.visit final last path⟩])
      (visitor.visit final last path).tree (visitor.visit final last path).state := by
  induction h with
  | nil tree state => exact .cons path (.nil _ _)
  | cons before _ ih => exact .cons before ih

/-- What came of a visit is what the visitor makes of the tree and the state it
was made in. -/
theorem Trace.outcome_of_mem {visitor : Visitor σ} {first last : Node} {state final : σ}
    {visits : List (Visit σ)} (h : visitor.Trace first state visits last final) :
    ∀ visit ∈ visits, visit.outcome = visitor.visit visit.state visit.tree visit.path := by
  induction h with
  | nil => intro visit hmem; exact absurd hmem List.not_mem_nil
  | cons path _ ih =>
    intro visit hmem
    rcases List.mem_cons.mp hmem with rfl | hmem
    · rfl
    · exact ih visit hmem

/-- The record does not matter to what a visit does. -/
theorem recording_seenAs (visitor : Visitor σ) : visitor.recording.SeenAs Prod.fst visitor :=
  ⟨rfl, fun _ _ _ => rfl⟩

/-- A walk that is recorded is the walk itself. -/
theorem walk_recording (visitor : Visitor σ) (fuel : Nat) (tree : Node) (state : σ) :
    walk visitor fuel tree state = (walk visitor.recording fuel tree (state, [])).map Prod.fst :=
  visitor.recording_seenAs.walk fuel tree (state, [])

/-- The visits of a walk follow one another from its start to its end. -/
theorem trace_walk (visitor : Visitor σ) (fuel : Nat) (tree : Node) (state : σ) :
    visitor.Trace tree state (walk visitor.recording fuel tree (state, [])).state.2
      (walk visitor.recording fuel tree (state, [])).tree
      (walk visitor.recording fuel tree (state, [])).state.1 := by
  have hkeep : ∀ (recorded : σ × List (Visit σ)) (current : Node) (path : Path),
      visitor.Trace tree state recorded.2 current recorded.1 →
        visitor.Trace tree state (visitor.recording.visit recorded current path).state.2
          (visitor.recording.visit recorded current path).tree
          (visitor.recording.visit recorded current path).state.1 :=
    fun _ _ path h => h.concat path
  exact visitor.recording.walk_preserves hkeep fuel (.nil tree state)

end Visitor

end Graft
