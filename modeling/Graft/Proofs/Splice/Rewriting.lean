import Graft.Proofs.Tree.Editing
import Graft.Splice.Pass

/-!
# A pass as a plain recursion

A pass walks a tree by paths while it changes it (`visit_parents`, which looks
the node up again at every step). Its result is told here without paths: the
children of every node are gone through from left to right, a text gives way to
what its splice made of it, and any other child is gone through in turn. The
ancestors that the ignore test and the replacer are shown are those of the
moment: on the left of the way down they hold what has been put in so far, on
the right what the tree held before.

The recursion (`rewriteBelow`, `rewriteSiblings`) carries a way: the shells of
the ancestors with their siblings on both sides, those on the left being done.
Whatever a pass looks at, the stack and the ignore test, can be computed from
the way and the node at its end (`scan_plug`). The comparison with the walk is
that of editors in general (`Graft.Proofs.Tree.Editing`); all that is left to do
here is to cast a rule as an editor, with its three decisions: go on, pass over,
or replace a text and resume behind what was put in.

This is the form in which most later proofs take a pass apart, since its
induction is the one on trees.

Main statements:
- `Rule.scan_plug`: what a pass looks at, at the end of a way;
- `Rule.apply_eq_rewrite`: a pass does what the recursion does;
- `findAndReplace_eq_foldl`: so does the whole search, rule after rule.
-/

namespace Graft

variable {σ : Type}

namespace Rule

/-- What takes the place of a text at the end of a way, and the state after it.
Nothing does below an ancestor that is left alone. -/
def spliceAt (rule : Rule σ) (ignore : Ignore) (way : Way) (value : String) (info : Info)
    (state : σ) :
    Option (List Node) × σ :=
  if way.isIgnored ignore (.text value info) then (none, state)
  else rule.spliceLeaf value (way.stack (.text value info)) state

mutual

/-- What a node at the end of a way becomes, with all that lies below it. A text
that is not a child of anything is kept. -/
def rewriteBelow (rule : Rule σ) (ignore : Ignore) (way : Way) : Node → σ → Node × σ
  | .root children info, state =>
    let (children, state) := rule.rewriteSiblings ignore way (.root info) [] children state
    (.root children info, state)
  | .element tag properties children info, state =>
    let (children, state) :=
      rule.rewriteSiblings ignore way (.element tag properties info) [] children state
    (.element tag properties children info, state)
  | .text value info, state => (.text value info, state)
  | .comment value info, state => (.comment value info, state)
  | .doctype name info, state => (.doctype name info, state)

/-- What children of a node at the end of a way become, behind those that are
done. -/
def rewriteSiblings (rule : Rule σ) (ignore : Ignore) (way : Way) (shell : Shell)
    (done : List Node) : List Node → σ → List Node × σ
  | [], state => ([], state)
  | .text value info :: rest, state =>
    let (spliced, state) := rule.spliceAt ignore (⟨shell, done, rest⟩ :: way) value info state
    let nodes := spliced.getD [.text value info]
    let (others, state) := rule.rewriteSiblings ignore way shell (done ++ nodes) rest state
    (nodes ++ others, state)
  | child :: rest, state =>
    let (inner, state) := rule.rewriteBelow ignore (⟨shell, done, rest⟩ :: way) child state
    let (others, state) := rule.rewriteSiblings ignore way shell (done ++ [inner]) rest state
    (inner :: others, state)

end

/-- What a tree becomes in one pass, and the replacer's state after it. -/
def rewrite (rule : Rule σ) (ignore : Ignore) (tree : Node) (state : σ) : Node × σ :=
  rule.rewriteBelow ignore [] tree state

/-- A child that is no text is gone through in turn. -/
theorem rewriteSiblings_of_not_isText (rule : Rule σ) (ignore : Ignore) (way : Way) (shell : Shell)
    (done : List Node) {child : Node} (rest : List Node) (state : σ) (h : child.isText = false) :
    rule.rewriteSiblings ignore way shell done (child :: rest) state =
      let (inner, state) := rule.rewriteBelow ignore (⟨shell, done, rest⟩ :: way) child state
      let (others, state) := rule.rewriteSiblings ignore way shell (done ++ [inner]) rest state
      (inner :: others, state) := by
  refine rewriteSiblings.eq_3 rule ignore way shell done state child rest ?_
  -- the equation for texts comes first, and does not apply
  rintro value info rfl
  exact absurd h (by simp [Node.isText])

/-- A pass looks at a text at the end of a way together with the ancestors on
the way. -/
theorem scan_plug (rule : Rule σ) (ignore : Ignore) (way : Way) (value : String) (info : Info)
    (state : σ) :
    rule.scan ignore (way.plug (.text value info)) way.path state =
      rule.spliceAt ignore way value info state := by
  have hlast : (way.stack (.text value info)).getLast?.bind Node.value? = some value := by
    rw [Way.stack, List.getLast?_concat]
    rfl
  rw [scan, Way.stack?_path, spliceAt]
  dsimp only
  rw [Way.excludes_eq, hlast]

/-- What a pass decides about the text at a path. -/
def decide (rule : Rule σ) (ignore : Ignore) (progress : Progress σ) (tree : Node) (path : Path) :
    Decision × Progress σ :=
  match path.getLast? with
  | none => (.descend, progress)
  | some _ =>
    match rule.scan ignore tree path progress.state with
    | (none, state) => (.descend, { progress with state })
    | (some nodes, state) => (.replace nodes, ⟨state, progress.splices + 1⟩)

/-- A pass as an editor: it replaces the texts whose splice gives something, and
keeps all else. -/
def editor (rule : Rule σ) (ignore : Ignore) : Editor (Progress σ) where
  accepts := Node.isText
  decide := rule.decide ignore

/-- Carrying out what an editor decides is what the visit of the rule does,
resumption included. -/
theorem carryOut_decide (rule : Rule σ) (ignore : Ignore) (progress : Progress σ) (tree : Node)
    (path : Path) :
    Editor.carryOut tree path (rule.decide ignore progress tree path) =
      rule.visit ignore progress tree path := by
  unfold decide visit
  cases hpath : path.getLast? with
  | none => rfl
  | some index =>
    dsimp only
    obtain ⟨spliced, state⟩ := rule.scan ignore tree path progress.state
    cases spliced with
    | none => rfl
    | some nodes => simp only [Editor.carryOut, hpath]

/-- As a visitor, the editor of a rule is the visitor of the rule. -/
theorem visitor_editor (rule : Rule σ) (ignore : Ignore) :
    (rule.editor ignore).visitor = rule.visitor ignore := by
  have hvisit : (rule.editor ignore).visitor.visit = (rule.visitor ignore).visit := by
    funext progress tree path
    exact rule.carryOut_decide ignore progress tree path
  show (⟨Node.isText, (rule.editor ignore).visitor.visit⟩ : Visitor (Progress σ)) = _
  rw [hvisit]
  rfl

/-- What the pass decides about a text at the end of a way. -/
theorem meet_text (rule : Rule σ) (ignore : Ignore) (level : Level) (up : Way) (value : String)
    (info : Info) (progress : Progress σ) :
    (rule.editor ignore).meet (level :: up) (.text value info) progress =
      match rule.spliceAt ignore (level :: up) value info progress.state with
      | (none, state) => (.descend, { progress with state })
      | (some nodes, state) => (.replace nodes, ⟨state, progress.splices + 1⟩) := by
  refine (if_pos rfl).trans ?_
  show rule.decide ignore progress _ _ = _
  rw [decide, Way.getLast?_path]
  dsimp only
  rw [scan_plug]

/-- Nodes that are not texts are entered, with nothing done to them. -/
theorem meet_of_not_isText (rule : Rule σ) (ignore : Ignore) (way : Way) {node : Node}
    (progress : Progress σ) (h : node.isText = false) :
    (rule.editor ignore).meet way node progress = (.descend, progress) := by
  refine if_neg ?_
  show ¬ node.isText = true
  rw [h]
  exact Bool.false_ne_true

mutual

/-- Below a node, the pass does what the recursion does, and goes through all of
it. -/
theorem below_editor (rule : Rule σ) (ignore : Ignore) (way : Way) :
    ∀ (node : Node) (progress : Progress σ),
      let edited := (rule.editor ignore).below way node progress
      (edited.content, edited.state.state) = rule.rewriteBelow ignore way node progress.state ∧
        edited.finished = true
  | .root children info, progress => by
    obtain ⟨h, hfin⟩ := rule.siblings_editor ignore way (.root info) [] children progress
    rw [Editor.below, rewriteBelow, ← h]
    exact ⟨rfl, hfin⟩
  | .element tag properties children info, progress => by
    obtain ⟨h, hfin⟩ :=
      rule.siblings_editor ignore way (.element tag properties info) [] children progress
    rw [Editor.below, rewriteBelow, ← h]
    exact ⟨rfl, hfin⟩
  | .text value info, progress => ⟨rfl, rfl⟩
  | .comment value info, progress => ⟨rfl, rfl⟩
  | .doctype name info, progress => ⟨rfl, rfl⟩

/-- Among siblings, the pass does what the recursion does, and goes through all
of them. -/
theorem siblings_editor (rule : Rule σ) (ignore : Ignore) (way : Way) (shell : Shell)
    (done : List Node) : ∀ (rest : List Node) (progress : Progress σ),
      let edited := (rule.editor ignore).siblings way shell done rest progress
      (edited.content, edited.state.state) =
          rule.rewriteSiblings ignore way shell done rest progress.state ∧
        edited.finished = true
  | [], progress => ⟨rfl, rfl⟩
  | child :: rest, progress => by
    cases hchild : child.isText with
    | true =>
      obtain ⟨value, info, rfl⟩ := Node.exists_of_isText hchild
      rw [Editor.siblings, rewriteSiblings, meet_text]
      obtain ⟨spliced, state⟩ :=
        rule.spliceAt ignore (⟨shell, done, rest⟩ :: way) value info progress.state
      cases spliced with
      | none =>
        obtain ⟨h, hfin⟩ := rule.siblings_editor ignore way shell (done ++ [.text value info]) rest
          { progress with state }
        dsimp only [Option.getD]
        rw [← h]
        exact ⟨rfl, hfin⟩
      | some nodes =>
        -- the nodes put in join those that are done, so neither recursion looks at them again
        obtain ⟨h, hfin⟩ := rule.siblings_editor ignore way shell (done ++ nodes) rest
          ⟨state, progress.splices + 1⟩
        dsimp only [Option.getD]
        rw [← h]
        exact ⟨rfl, hfin⟩
    | false =>
      obtain ⟨hin, hinfin⟩ := rule.below_editor ignore (⟨shell, done, rest⟩ :: way) child progress
      rw [Editor.siblings, rewriteSiblings_of_not_isText _ _ _ _ _ _ _ hchild,
        meet_of_not_isText _ _ _ _ hchild, ← hin]
      dsimp only
      rw [if_pos hinfin]
      generalize (rule.editor ignore).below (⟨shell, done, rest⟩ :: way) child progress = edited
      obtain ⟨h, hfin⟩ :=
        rule.siblings_editor ignore way shell (done ++ [edited.content]) rest edited.state
      rw [← h]
      exact ⟨rfl, hfin⟩

end

theorem meet_root (rule : Rule σ) (ignore : Ignore) (tree : Node) (progress : Progress σ) :
    (rule.editor ignore).meet [] tree progress = (.descend, progress) := by
  rw [Editor.meet]
  by_cases h : tree.isText = true
  · exact if_pos h
  · exact if_neg h

/-- A walk with fuel enough goes through all of the tree and does what the
recursion does. -/
theorem walk_eq_rewrite (rule : Rule σ) (ignore : Ignore) {fuel : Nat} (tree : Node)
    (progress : Progress σ) (h : walkFuel tree ≤ fuel) :
    ∃ splices, walk (rule.visitor ignore) fuel tree progress =
      ⟨.completed, (rule.rewrite ignore tree progress.state).1,
        ⟨(rule.rewrite ignore tree progress.state).2, splices⟩⟩ := by
  obtain ⟨hbelow, hfin⟩ := rule.below_editor ignore [] tree progress
  rw [← visitor_editor, Editor.walk_eq_run _ tree progress h, Editor.run, meet_root, rewrite,
    ← hbelow]
  dsimp only
  rw [if_pos hfin]
  exact ⟨_, rfl⟩

/-- A pass does what the recursion does. -/
theorem apply_eq_rewrite (rule : Rule σ) (ignore : Ignore) (tree : Node) (state : σ) :
    ((rule.apply ignore tree state).tree, (rule.apply ignore tree state).state) =
      rule.rewrite ignore tree state := by
  obtain ⟨splices, h⟩ := rule.walk_eq_rewrite ignore tree ⟨state, 0⟩ (Nat.le_refl _)
  rw [apply, h]

/-- Rules that are applied one after the other rewrite what the ones before them
have left. -/
theorem applyAll_eq_foldl (ignore : Ignore) (rules : List (Rule σ)) (tree : Node) (state : σ) :
    ((applyAll ignore rules tree state).tree, (applyAll ignore rules tree state).state) =
      rules.foldl (fun current rule => rule.rewrite ignore current.1 current.2) (tree, state) := by
  induction rules generalizing tree state with
  | nil => rfl
  | cons rule rest ih =>
    rw [List.foldl_cons, ← apply_eq_rewrite]
    exact ih _ _

end Rule

/-- Finding and replacing is one plain rewriting of the tree for each rule, in
order, from the first tree and state to the last; if a rule has no pattern,
nothing is rewritten. -/
theorem findAndReplace_eq_foldl (tree : Node) (rules : RuleSet σ) (ignore : Ignore) (state : σ) :
    (findAndReplace tree rules ignore state).map (fun outcome => (outcome.tree, outcome.state)) =
      rules.rules.map fun ready =>
        ready.foldl (fun current rule =>
          rule.rewrite ignore current.1 current.2) (tree, state) := by
  rw [findAndReplace]
  cases rules.rules with
  | error cause => rfl
  | ok ready => exact congrArg Except.ok (Rule.applyAll_eq_foldl ignore ready tree state)

end Graft
