import Graft.Proofs.Tree.Visits
import Graft.Splice.Pass

/-!
# Searching in vain

A pass changes a tree only where a text is searched and has a match. Texts that
are left alone, and texts without a match, stay as they are; so if there are no
others, the tree is the same after all passes.

`Rule.FindsNothing` asks of every text in the tree that it is ignored where it
stands or that no search of it finds anything. In a tree that has not been
changed this is asked of the tree itself, so that the invariant of the walk is
plain equality with the tree at the start: a visit that finds nothing decides to
go on and changes nothing, and the question is asked of the same tree again.

Nothing is said of the states. A replacer is not asked at all, so they are the
same as well, but what follows needs the tree alone.

Main statements:
- `Rule.apply_of_findsNothing`: a pass that finds nothing leaves the tree as it
  is;
- `findAndReplace_of_findsNothing`: so does a search whose rules find nothing.
-/

namespace Graft

variable {σ : Type}

/-- Whether a rule has no match in any text that it searches: the texts below no
element that is left alone. -/
def Rule.FindsNothing (rule : Rule σ) (ignore : Ignore) (tree : Node) : Prop :=
  ∀ path stack value info, tree.stack? path = some stack →
    tree.get? path = some (.text value info) → ignore.excludes stack path = false →
      rule.pattern.regex.findFrom value.toList 0 = none

/-- In a text without a match nothing is replaced. -/
theorem Rule.spliceLeaf_of_findFrom {rule : Rule σ} {text : String} (stack : List Node) (state : σ)
    (h : rule.pattern.regex.findFrom text.toList 0 = none) :
    rule.spliceLeaf text stack state = (none, state) :=
  (rule.leaf text.toList stack).spliceFrom_noMatch _ 0 state h

/-- A pass that finds nothing leaves the tree as it is. -/
theorem Rule.apply_of_findsNothing {rule : Rule σ} {ignore : Ignore} {tree : Node}
    (h : rule.FindsNothing ignore tree) (state : σ) :
    (rule.apply ignore tree state).tree = tree := by
  refine (rule.visitor ignore).walk_preserves_of_accepts
    (fun current (_ : Progress σ) => current = tree) ?_ _ rfl
  -- the tree has not changed up to this visit, so the condition on it still holds
  rintro progress current path node hnode haccepts rfl
  obtain ⟨value, info, rfl⟩ := Node.exists_of_isText haccepts
  have hsome : (current.stack? path).isSome = true := by rw [Node.stack?_isSome, hnode]; rfl
  obtain ⟨stack, hstack⟩ := Option.isSome_iff_exists.mp hsome
  have hlast : stack.getLast? = some (.text value info) := by
    rw [Node.getLast?_of_stack? hstack, hnode]
  have hscan : rule.scan ignore current path progress.state = (none, progress.state) := by
    rw [Rule.scan, hstack]
    dsimp only
    split
    next => rfl
    next hshown =>
      rw [hlast]
      exact spliceLeaf_of_findFrom stack _
        (h path stack value info hstack hnode (Bool.eq_false_iff.mpr hshown))
  show (rule.visit ignore progress current path).tree = current
  rw [Rule.visit]
  cases path.getLast? with
  | none => rfl
  | some index =>
    dsimp only
    rw [hscan]

/-- Passes that find nothing leave the tree as it is. -/
theorem Rule.applyAll_of_findsNothing {rules : List (Rule σ)} {ignore : Ignore} {tree : Node}
    (h : ∀ rule ∈ rules, rule.FindsNothing ignore tree) (state : σ) :
    (Rule.applyAll ignore rules tree state).tree = tree := by
  induction rules generalizing state with
  | nil => rfl
  | cons rule rest ih =>
    obtain ⟨hrule, hrest⟩ := List.forall_mem_cons.mp h
    rw [Rule.tree_applyAll_cons, Rule.apply_of_findsNothing hrule]
    exact ih hrest _

/-- A search whose rules are ready and find nothing leaves the tree as it is. -/
theorem findAndReplace_of_findsNothing {tree : Node} {rules : RuleSet σ} {ready : List (Rule σ)}
    {ignore : Ignore} {state : σ} {outcome : Outcome σ} (hready : rules.rules = .ok ready)
    (h : ∀ rule ∈ ready, rule.FindsNothing ignore tree)
    (hrun : findAndReplace tree rules ignore state = .ok outcome) : outcome.tree = tree := by
  rw [findAndReplace, hready] at hrun
  obtain rfl := Except.ok.inj hrun
  exact Rule.applyAll_of_findsNothing h state

end Graft
