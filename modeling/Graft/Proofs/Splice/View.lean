import Graft.Proofs.Tree.View
import Graft.Splice.Pass

/-!
# Passes that see less of a state

A replacer may keep more in its state than its answers depend on, such as a
record of what it has been asked. Whatever is done with such a replacer comes
out as with one that has the smaller state.

`Rule.SeenAs` says of two rules that they have one pattern, and that the answers
of the first, with its state seen through a view, are those of the second. This
one condition is carried through everything that is done with a rule: the loop
in a leaf (`spliceFrom_view`, by induction on its fuel), the scan of a text in a
tree, the visits of a walk, a pass, and all passes. In each case the statement
is an equation, with the view applied to the state that comes out.

No condition is put on the view. It need not be injective, and what it hides may
depend on everything that the replacer has been shown.

Main statements:
- `Splice.Leaf.spliceFrom_view`, `Rule.SeenAs.spliceLeaf`: what takes a leaf's
  place, seen through a view;
- `Rule.SeenAs.apply`, `Rule.applyAll_view`: passes, seen through a view.
-/

namespace Graft

variable {σ τ : Type}

/-- What a pass keeps track of, with the state seen through a view. -/
def Progress.map (view : τ → σ) (progress : Progress τ) : Progress σ :=
  ⟨view progress.state, progress.splices⟩

def Outcome.map (view : τ → σ) (outcome : Outcome τ) : Outcome σ :=
  ⟨outcome.tree, view outcome.state, outcome.passes⟩

/-- If the answers to matches are the same through a view, so is what takes the
leaf's place. -/
theorem Splice.Leaf.spliceFrom_view (view : τ → σ) (leaf : Leaf τ)
    {answer : Match → σ → Option (List Node) × σ}
    (h : ∀ found state, answer found (view state) = Prod.map id view (leaf.answer found state)) :
    ∀ (fuel cursor start : Nat) (state : τ),
      spliceFrom ⟨leaf.text, leaf.find, leaf.global, answer⟩ fuel cursor start (view state) =
        Prod.map id view (leaf.spliceFrom fuel cursor start state) := by
  intro fuel
  -- turn by turn: both search from one cursor, get one answer, and go on from the same place
  induction fuel with
  | zero => intro cursor start state; rfl
  | succ fuel ih =>
    intro cursor start state
    rw [spliceFrom, spliceFrom]
    by_cases hcursor : Text.byteLength leaf.text < cursor
    · rw [if_pos hcursor, if_pos hcursor]
      rfl
    · rw [if_neg hcursor, if_neg hcursor]
      dsimp only
      cases leaf.find cursor with
      | none => rfl
      | some found =>
        dsimp only
        rw [h]
        obtain ⟨given, state⟩ := leaf.answer found state
        cases hglobal : leaf.global with
        | false => cases given <;> rfl
        | true =>
          rw [hglobal] at ih
          cases given with
          | none => exact ih _ _ _
          | some nodes =>
            have hmore := ih (leaf.cursorAfter found.span) found.span.stop state
            dsimp only [Prod.map, id]
            rw [if_pos rfl, if_pos rfl,
              show cursorAfter ⟨leaf.text, leaf.find, true, answer⟩ found.span =
                leaf.cursorAfter found.span from rfl, hmore]
            rfl

/-- Whether one rule is another one, with its replacer's state seen through a
view. -/
structure Rule.SeenAs (fine : Rule τ) (view : τ → σ) (coarse : Rule σ) : Prop where
  pattern : coarse.pattern = fine.pattern
  ask : ∀ found state,
    coarse.replacer.ask found (view state) = Prod.map id view (fine.replacer.ask found state)

namespace Rule.SeenAs

variable {view : τ → σ} {fine : Rule τ} {coarse : Rule σ}

/-- What is made of a text is the same, and so is the state, seen through the
view. -/
theorem spliceLeaf (h : fine.SeenAs view coarse) (text : String) (stack : List Node) (state : τ) :
    coarse.spliceLeaf text stack (view state) =
      Prod.map id view (fine.spliceLeaf text stack state) := by
  obtain ⟨pattern, replacer⟩ := coarse
  obtain rfl : pattern = fine.pattern := h.pattern
  refine Splice.Leaf.spliceFrom_view view (fine.leaf text.toList stack) ?_ _ 0 0 state
  intro found state
  show Prod.map Replacement.toNodes id (replacer.ask _ (view state)) = _
  rw [h.ask]
  rfl

/-- So is what is made of the text at a path, or that it is left alone. -/
theorem scan (h : fine.SeenAs view coarse) (ignore : Ignore) (tree : Node) (path : Path)
    (state : τ) :
    coarse.scan ignore tree path (view state) =
      Prod.map id view (fine.scan ignore tree path state) := by
  unfold Rule.scan
  cases tree.stack? path with
  | none => rfl
  | some stack =>
    dsimp only
    split
    next => rfl
    next =>
      split
      next => rfl
      next text _ => exact h.spliceLeaf text stack state

/-- If the answers are the same through a view, so are the visits of a pass. -/
theorem visitor (h : fine.SeenAs view coarse) (ignore : Ignore) :
    (fine.visitor ignore).SeenAs (Progress.map view) (coarse.visitor ignore) where
  accepts := rfl
  visit progress tree path := by
    show coarse.visit ignore (progress.map view) tree path =
      (fine.visit ignore progress tree path).map (Progress.map view)
    unfold Rule.visit
    cases path.getLast? with
    | none => rfl
    | some index =>
      dsimp only [Progress.map]
      rw [h.scan]
      obtain ⟨spliced, state⟩ := fine.scan ignore tree path progress.state
      cases spliced <;> rfl

/-- If the answers are the same through a view, so is a pass. -/
theorem apply (h : fine.SeenAs view coarse) (ignore : Ignore) (tree : Node) (state : τ) :
    coarse.apply ignore tree (view state) = (fine.apply ignore tree state).map view := by
  have hwalk := (h.visitor ignore).walk (walkFuel tree) tree ⟨state, 0⟩
  rw [Progress.map] at hwalk
  unfold Rule.apply
  rw [hwalk, h.pattern]
  rfl

end Rule.SeenAs

/-- If the answers are the same through a view, so are all passes. -/
theorem Rule.applyAll_view {view : τ → σ} (ignore : Ignore) {refine : Rule σ → Rule τ}
    (h : ∀ rule, (refine rule).SeenAs view rule) (rules : List (Rule σ)) (tree : Node) (state : τ) :
    applyAll ignore rules tree (view state) =
      (applyAll ignore (rules.map refine) tree state).map view := by
  induction rules generalizing tree state with
  | nil => rfl
  | cons rule rest ih =>
    rw [applyAll, (h rule).apply, List.map_cons, applyAll]
    dsimp only [Outcome.map]
    rw [ih]
    rfl

end Graft
