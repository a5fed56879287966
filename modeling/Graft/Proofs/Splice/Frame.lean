import Graft.Proofs.Splice.Edits
import Graft.Proofs.Splice.Lifting

/-!
# What a search leaves alone

A search (`find_and_replace`) that puts in nothing but texts leaves all other
nodes as they are and where they are, so the tree without its texts stays the
same. A text in which no match is accepted outlasts the pass, and where no match
is accepted at all, nothing changes. So rules that reject every match can be put
in among others anywhere, as long as they leave the states of the others be.

The three statements are proved in three ways. The first is lifted from single
texts to trees and passes (`Lifts`): the splice of a text is made of texts, and
taking all texts out of siblings makes this nothing. The second is about one
pass and uses that a pass is a substitution of the texts whose matches are not
all rejected. The third is a simulation: a list of rules and the same list with
others put in (`RejectsMore`, one rule for a pair that is in both and one for a
pair that is put in) run side by side, and the additional passes leave tree and
state as they are.

States are compared through a view. Rules that are put in may keep books of
their own, for example of what they have been asked; what has to agree is the
part of the state that the other rules see.

Main statements:
- `keepsFrame_lifts`: siblings without their texts, through splices and passes;
- `Rule.apply_reject`: a pass that rejects every match;
- `RejectsMore.findAndReplace`: rules that reject every match among others;
- `findAndReplace_frame`: what a search leaves alone.
-/

namespace Graft

variable {σ τ : Type}

namespace Node

mutual

/-- The tree without the texts below its root. -/
def withoutTexts : Node → Node
  | .root children info => .root (withoutTextsAmong children) info
  | .element tag properties children info =>
    .element tag properties (withoutTextsAmong children) info
  | .text value info => .text value info
  | .comment value info => .comment value info
  | .doctype name info => .doctype name info

/-- Siblings without the texts among and below them. -/
def withoutTextsAmong : List Node → List Node
  | [] => []
  | child :: rest =>
    if child.isText then withoutTextsAmong rest else child.withoutTexts :: withoutTextsAmong rest

end

/-- Texts are taken out of siblings one after the other. -/
theorem withoutTextsAmong_append (first later : List Node) :
    withoutTextsAmong (first ++ later) = withoutTextsAmong first ++ withoutTextsAmong later := by
  induction first with
  | nil => rfl
  | cons child rest ih =>
    rw [List.cons_append, withoutTextsAmong, withoutTextsAmong, ih]
    split <;> rfl

/-- Of siblings that are all texts nothing is left. -/
theorem withoutTextsAmong_eq_nil {nodes : List Node} (h : ∀ node ∈ nodes, node.isText = true) :
    withoutTextsAmong nodes = [] := by
  induction nodes with
  | nil => rfl
  | cons node rest ih =>
    obtain ⟨hnode, hrest⟩ := List.forall_mem_cons.mp h
    rw [withoutTextsAmong, if_pos hnode, ih hrest]

theorem withoutTextsAmong_shell (shell : Shell) (children : List Node) :
    withoutTextsAmong [shell.node children] = [shell.node (withoutTextsAmong children)] := by
  cases shell <;> rfl

end Node

/-! ## Answers that put in texts only -/

/-- Whether nodes in the place of a match, if there are some, are all texts. So
are those of a deletion and of a text. -/
def PutsTexts (given : Option (List Node)) : Prop :=
    ∀ nodes, given = some nodes → ∀ node ∈ nodes, node.isText = true

/-- Deletions, texts and rejections put in texts only; nodes need not. -/
theorem Replacement.putsTexts {replacement : Replacement}
    (h : ∀ nodes, replacement ≠ .nodes nodes) :
    PutsTexts replacement.toNodes := by
  intro nodes hnodes node hmem
  cases replacement with
  | delete =>
    obtain rfl := Option.some.inj hnodes
    exact absurd hmem List.not_mem_nil
  | text value =>
    obtain rfl := Option.some.inj hnodes
    split at hmem
    next => exact absurd hmem List.not_mem_nil
    next => exact List.mem_singleton.mp hmem ▸ rfl
  | nodes given => exact absurd rfl (h given)
  | reject => exact nomatch hnodes

/-- Whether siblings without their texts are the same before and after, if all
that is put in is texts. -/
def KeepsFrame (before after : List Node) (calls : List Call) : Prop :=
  (∀ call ∈ calls, PutsTexts call.answer.toNodes) →
    Node.withoutTextsAmong after = Node.withoutTextsAmong before

/-- That the tree without its texts is kept carries over from splices to passes
and to whole searches. -/
theorem keepsFrame_lifts : Lifts KeepsFrame where
  refl _ _ := rfl
  append hfirst hsecond h := by
    obtain ⟨hcalls, hmore⟩ := List.forall_mem_append.mp h
    rw [Node.withoutTextsAmong_append, Node.withoutTextsAmong_append, hfirst hcalls, hsecond hmore]
  trans hfirst hsecond h := by
    obtain ⟨hcalls, hmore⟩ := List.forall_mem_append.mp h
    exact (hsecond hmore).trans (hfirst hcalls)
  node shell before after calls hkeeps h := by
    rw [Node.withoutTextsAmong_shell, Node.withoutTextsAmong_shell, hkeeps h]

/-- What takes the place of a text is texts, if all that is put in is texts. -/
theorem Rule.keepsFrame_onTexts (rule : Rule σ) : rule.HoldsOnTexts KeepsFrame := by
  intro value info stack state h
  cases hspliced : (rule.spliceLeaf value stack state).1 with
  | none => rfl
  | some nodes =>
    obtain ⟨after, -, -, -, hsplice⟩ := rule.exists_scan_callsOn value stack state
    have htexts : ∀ node ∈ nodes, node.isText = true := by
      intro node hmem
      rcases Splice.mem_assemble (hsplice.symm.trans hspliced) hmem with
        ⟨literal, -, rfl⟩ | ⟨given, hgiven, put, hput, hin⟩
      · rfl
      · obtain ⟨call, hcall, rfl⟩ := List.mem_map.mp hgiven
        exact h call hcall put hput node hin
    rw [Option.getD_some, Node.withoutTextsAmong_eq_nil htexts]
    rfl

/-! ## Answers that reject -/

/-- Whether siblings are the same before and after, if all matches are rejected. -/
def StaysIfRejected (before after : List Node) (calls : List Call) : Prop :=
  (∀ call ∈ calls, call.answer.toNodes = none) → after = before

/-- So does that nothing changes where every match is rejected. -/
theorem staysIfRejected_lifts : Lifts StaysIfRejected where
  refl _ _ := rfl
  append hfirst hsecond h := by
    obtain ⟨hcalls, hmore⟩ := List.forall_mem_append.mp h
    rw [hfirst hcalls, hsecond hmore]
  trans hfirst hsecond h := by
    obtain ⟨hcalls, hmore⟩ := List.forall_mem_append.mp h
    exact (hsecond hmore).trans (hfirst hcalls)
  node shell before after calls hstays h := by rw [hstays h]

theorem Rule.staysIfRejected_onTexts (rule : Rule σ) : rule.HoldsOnTexts StaysIfRejected := by
  intro value info stack state h
  rw [(rule.spliceLeaf_eq_none_iff value stack state).mpr h]
  rfl

/-- Whether a replacer rejects every match and leaves the part of its state that
is seen through a view be. -/
def Replacer.Rejects (replacer : Replacer τ) (view : τ → σ) : Prop :=
  ∀ found state, (replacer.ask found state).1 = .reject ∧
    view (replacer.ask found state).2 = view state

/-- A pass that rejects every match changes nothing that is seen. -/
theorem Rule.apply_reject {rule : Rule τ} {view : τ → σ} (h : rule.replacer.Rejects view)
    (ignore : Ignore) (tree : Node) (state : τ) :
    (rule.apply ignore tree state).tree = tree ∧
      view (rule.apply ignore tree state).state = view state := by
  -- what holds of texts, that they stay the same, is lifted to the tree
  have hlifts : Lifts fun before after _ => after = before := {
    refl := fun _ => rfl
    append := fun hfirst hsecond => by rw [hfirst, hsecond]
    trans := fun hfirst hsecond => hsecond.trans hfirst
    node := fun shell _ _ _ hsame => by rw [hsame] }
  have hnone : ∀ found state, (rule.replacer.ask found state).1.toNodes = none := by
    intro found state
    rw [(h found state).1]
    rfl
  have htexts : rule.HoldsOnTexts fun before after _ => after = before := by
    intro value info stack state
    have hcalls := Rule.holdsOnTexts_of_answers
      (Q := fun _ given => given = none) hnone value info stack state
    rw [(rule.spliceLeaf_eq_none_iff value stack state).mpr hcalls]
    rfl
  constructor
  · obtain ⟨_, -, hsame⟩ := hlifts.apply htexts ignore tree (state, [])
    rw [rule.recording_seenAs.apply ignore tree (state, [])]
    exact (List.cons.inj hsame).1
  · -- seen through the view, the answer is the same for all matches and the state is never changed
    have hseen : rule.SeenAs view ⟨rule.pattern, .constant .reject⟩ :=
      ⟨rfl, fun found state => Prod.ext (h found state).1.symm (h found state).2.symm⟩
    have hstill : (⟨rule.pattern, .constant .reject⟩ : Rule Unit).SeenAs (fun _ => view state)
        ⟨rule.pattern, .constant .reject⟩ := ⟨rfl, fun _ _ => rfl⟩
    have hview := hseen.apply ignore tree state
    rw [hstill.apply ignore tree ()] at hview
    exact (congrArg Outcome.state hview).symm

/-- Whether a list of pairs is another one, each replacer with its state seen
through a view, and with other pairs put in that reject every match. -/
inductive RejectsMore (view : τ → σ) : List (Find × Replacer τ) → List (Find × Replacer σ) → Prop
  | nil : RejectsMore view [] []
  | same {find : Find} {fine : Replacer τ} {coarse : Replacer σ} {rest : List (Find × Replacer τ)}
      {others : List (Find × Replacer σ)}
      (hask : ∀ found state,
        coarse.ask found (view state) = Prod.map id view (fine.ask found state))
      (hrest : RejectsMore view rest others) :
        RejectsMore view ((find, fine) :: rest) ((find, coarse) :: others)
  | more {find : Find} {replacer : Replacer τ} {rest : List (Find × Replacer τ)}
      {others : List (Find × Replacer σ)}
      (hfits : find.Fits) (hrejects : replacer.Rejects view)
        (hrest : RejectsMore view rest others) :
      RejectsMore view ((find, replacer) :: rest) others

/-- With rules that reject every match among them, rules can be made ready
exactly if they can without, and the same one is refused where they cannot. -/
theorem RejectsMore.rules {view : τ → σ} {more : List (Find × Replacer τ)}
    {pairs : List (Find × Replacer σ)} (h : RejectsMore view more pairs) :
    (∃ cause, (RuleSet.list more).rules = .error cause ∧
      (RuleSet.list pairs).rules = .error cause) ∨
      (∀ pair ∈ more, pair.1.Fits) ∧ ∀ pair ∈ pairs, pair.1.Fits := by
  -- a pair that is put in fits, so it adds no fault; the others fail where they failed before
  induction h with
  | nil => exact .inr ⟨fun _ hmem => absurd hmem List.not_mem_nil, fun _ hmem =>
    absurd hmem List.not_mem_nil⟩
  | @same find fine coarse rest others hask hrest ih =>
    by_cases hfits : find.Fits
    · refine ih.imp ?_ ?_
      · rintro ⟨cause, hmore, hpairs⟩
        refine ⟨cause, ?_, ?_⟩
        · rw [RuleSet.rules_list_cons, if_pos hfits, hmore]
          rfl
        · rw [RuleSet.rules_list_cons, if_pos hfits, hpairs]
          rfl
      · rintro ⟨hmore, hpairs⟩
        exact ⟨List.forall_mem_cons.mpr ⟨hfits, hmore⟩, List.forall_mem_cons.mpr ⟨hfits, hpairs⟩⟩
    · refine .inl ⟨.badPattern find.source, ?_, ?_⟩
      · rw [RuleSet.rules_list_cons, if_neg hfits]
      · rw [RuleSet.rules_list_cons, if_neg hfits]
  | @more find replacer rest others hfits hrejects hrest ih =>
    refine ih.imp ?_ ?_
    · rintro ⟨cause, hmore, hpairs⟩
      refine ⟨cause, ?_, hpairs⟩
      rw [RuleSet.rules_list_cons, if_pos hfits, hmore]
      rfl
    · rintro ⟨hmore, hpairs⟩
      exact ⟨List.forall_mem_cons.mpr ⟨hfits, hmore⟩, hpairs⟩

/-- Rules that reject every match leave the tree and the states of the others to
them as they were. -/
theorem RejectsMore.findAndReplace {view : τ → σ} {more : List (Find × Replacer τ)}
    {pairs : List (Find × Replacer σ)}
    (h : RejectsMore view more pairs) (ignore : Ignore) (tree : Node) (state : τ) :
    (Graft.findAndReplace tree (.list more) ignore state).map
      (fun outcome => (outcome.tree, view outcome.state)) =
      (Graft.findAndReplace tree (.list pairs) ignore (view state)).map
        fun outcome => (outcome.tree, outcome.state) := by
  rw [Graft.findAndReplace, Graft.findAndReplace]
  rcases h.rules with ⟨cause, hmore, hpairs⟩ | ⟨hmore, hpairs⟩
  · rw [hmore, hpairs]
    rfl
  rw [RuleSet.rules_list hmore, RuleSet.rules_list hpairs]
  refine congrArg Except.ok ?_
  dsimp only
  clear hmore hpairs
  -- a pass of a rule that both lists have, or an additional one that leaves tree and view alone
  induction h generalizing tree state with
  | nil => rfl
  | @same find fine coarse rest others hask hrest ih =>
    have hseen : (⟨find.toPattern, fine⟩ : Rule τ).SeenAs view ⟨find.toPattern, coarse⟩ :=
      ⟨rfl, hask⟩
    have hfirst := hseen.apply ignore tree state
    rw [List.map_cons, List.map_cons, Rule.applyAll.eq_def, Rule.applyAll.eq_def]
    dsimp only
    rw [hfirst]
    exact ih _ _
  | @more find replacer rest others hfits hrejects hrest ih =>
    have hrule : (⟨find.toPattern, replacer⟩ : Rule τ).replacer.Rejects view := hrejects
    obtain ⟨htree, hstate⟩ := Rule.apply_reject hrule ignore tree state
    rw [List.map_cons, Rule.applyAll.eq_def]
    dsimp only
    rw [ih, htree, hstate]

/-! ## The whole search -/

/-- A tree that is a text is left as it is. -/
theorem Rule.tree_applyAll_of_isText (ignore : Ignore) (rules : List (Rule σ)) {tree : Node}
    (state : σ) (h : tree.isText = true) : (applyAll ignore rules tree state).tree = tree := by
  induction rules generalizing state with
  | nil => rfl
  | cons rule rest ih =>
    have hfirst : (rule.apply ignore tree state).tree = tree :=
      (rule.tree_apply ignore tree state).trans (Node.substitute_of_isText _ h)
    rw [tree_applyAll_cons, hfirst, ih]

/-- What a search leaves alone. If all that it puts in is texts, which includes
deletions, the tree without its texts is the same before and after. If all
matches are rejected, or there are none, the tree itself is the same. In each of
its passes a text in which no match is accepted stays as it is, where the pass
has moved it to; the root always stays. And pairs that reject every match can be
put in among others anywhere, if the states of the others do not depend on them.
-/
theorem findAndReplace_frame (tree : Node) {rules : RuleSet σ} {ready : List (Rule σ)}
    (hready : rules.rules = .ok ready) (ignore : Ignore) (state : σ) :
    (∃ outcome calls, findAndReplace tree rules ignore state = .ok outcome ∧
      findAndReplace tree rules.recording ignore (state, []) =
        .ok ⟨outcome.tree, (outcome.state, calls), outcome.passes⟩ ∧
      ((∀ call ∈ calls, PutsTexts call.answer.toNodes) →
        outcome.tree.withoutTexts = tree.withoutTexts) ∧
      ((∀ call ∈ calls, call.answer.toNodes = none) → outcome.tree = tree)) ∧
    (∀ before rule after, ready = before ++ rule :: after →
      let given := Rule.applyAll ignore before tree state
      let left := (rule.apply ignore given.tree given.state).tree
      let edits := rule.edits ignore given.tree given.state
      left = given.tree.substitute edits ∧ (given.tree.isText = true → left = given.tree) ∧
      List.Forall₂ (fun path visit => visit.node? = given.tree.get? path ∧
          ((∀ call ∈ rule.callsIn ignore visit, call.answer.toNodes = none) →
            edits path = none ∧ left.get? (edits.moved path) = given.tree.get? path))
        given.tree.textPaths (rule.visits ignore given.tree given.state)) ∧
    ∀ (τ : Type) (view : τ → σ) (more : List (Find × Replacer τ))
      (pairs : List (Find × Replacer σ)) (start : τ),
      RejectsMore view more pairs → view start = state →
        (findAndReplace tree (.list more) ignore start).map
          (fun outcome => (outcome.tree, view outcome.state)) =
          (findAndReplace tree (.list pairs) ignore state).map fun outcome =>
            (outcome.tree, outcome.state) := by
  refine ⟨?_, fun before rule after _ => ?_, ?_⟩
  · obtain ⟨outcome, calls, hrun, hrecording, hframe, hstays⟩ :=
      (keepsFrame_lifts.and staysIfRejected_lifts).findAndReplace hready
        (fun rule _ value info stack current => ⟨rule.keepsFrame_onTexts value info stack current,
          rule.staysIfRejected_onTexts value info stack current⟩) tree ignore state
    refine ⟨outcome, calls, hrun, hrecording, fun hcalls => ?_, fun hcalls =>
      (List.cons.inj (hstays hcalls)).1⟩
    cases htext : tree.isText with
    | true =>
      rw [findAndReplace, hready] at hrun
      rw [← Except.ok.inj hrun, Rule.tree_applyAll_of_isText ignore ready state htext]
    | false =>
      have htree : Node.withoutTextsAmong [tree] = [tree.withoutTexts] :=
        if_neg (by rw [htext]; exact Bool.false_ne_true)
      have hsame := (hframe hcalls).trans htree
      rw [Node.withoutTextsAmong] at hsame
      split at hsame
      next => exact absurd hsame (List.cons_ne_nil _ _).symm
      next => exact (List.cons.inj hsame).1
  · intro given left edits
    have hleft : left = given.tree.substitute edits := rule.tree_apply ignore given.tree given.state
    refine ⟨hleft, fun htext => hleft.trans (Node.substitute_of_isText _ htext), ?_⟩
    refine (rule.forall₂_edits ignore given.tree given.state).imp ?_
    rintro path visit ⟨hvisit, hnode, hedit⟩
    refine ⟨hnode, fun hcalls => ?_⟩
    have hstays : edits path = none := hedit.trans ((Rule.decided_eq_none_iff hvisit).mpr hcalls)
    obtain ⟨-, -, -, value, info, htext⟩ := Rule.visit_of_mem_visits hvisit
    obtain ⟨found, hfound, -, hsame⟩ := Rule.bare_get?_apply (hnode.symm.trans htext) hstays
    refine ⟨hstays, ?_⟩
    rw [← hnode, htext, ← hsame rfl]
    exact hfound
  · rintro τ view more pairs start h rfl
    exact h.findAndReplace ignore tree start

/-- A text and a part of another one are deleted around a comment and a
paragraph, and a rule that rejects every match has a pass of its own behind. -/
theorem findAndReplace_frame_around :
    let tree := Node.ofChildren [.ofText "a", .ofComment "a", .ofText "ab",
      .ofTag "p" [.ofText "b"]]
    let delete : Rule Unit := ⟨(Find.literal "a").toPattern, .constant .delete⟩
    let reject : Rule Unit := ⟨(Find.literal "b").toPattern, .constant .reject⟩
    let few : List (Find × Replacer Unit) := [(.literal "a", .constant .delete)]
    let more : List (Find × Replacer Unit) := few ++ [(.literal "b", .constant .reject)]
    let idle : RuleSet Unit := .list [(.literal "b", .constant .reject)]
    (∃ outcome, findAndReplace tree (.list more) .default () = .ok outcome ∧
      outcome.tree.withoutTexts = .ofChildren [.ofComment "a", .ofTag "p" []]) ∧
    (∃ outcome, findAndReplace tree idle .default () = .ok outcome ∧ outcome.tree = tree) ∧
    (RuleSet.list more).rules = .ok [delete, reject] ∧
    (delete.apply .default tree ()).tree.get? [2, 0] = tree.get? [3, 0] ∧
    (findAndReplace tree (.list more) .default ()).map
      (fun outcome => (outcome.tree, outcome.state)) =
      (findAndReplace tree (.list few) .default ()).map fun outcome =>
        (outcome.tree, outcome.state) := by
  intro tree delete reject few more idle
  have hready : (RuleSet.list more).rules = .ok [delete, reject] := RuleSet.rules_list (by decide)
  have hfew : (RuleSet.list few).rules = .ok _ := RuleSet.rules_list (by decide)
  have hidleReady : idle.rules = .ok [reject] := RuleSet.rules_list (by decide)
  obtain ⟨⟨outcome, calls, hrun, hrecording, hframe, -⟩, hpasses, -⟩ :=
    findAndReplace_frame tree hready .default ()
  obtain ⟨⟨idled, rejected, hidle, hidleRecording, -, hstays⟩, -, -⟩ :=
    findAndReplace_frame tree hidleReady .default ()
  obtain ⟨-, -, hmore⟩ := findAndReplace_frame tree hfew .default ()
  refine ⟨⟨outcome, hrun, hframe ?_⟩, ⟨idled, hidle, hstays ?_⟩, hready, ?_, ?_⟩
  · refine findAndReplace_calls (Q := fun _ given => PutsTexts given) hready ?_ hrecording
    intro rule hrule found state
    rcases List.mem_cons.mp hrule with rfl | hrule
    · exact Replacement.putsTexts nofun
    · exact List.mem_singleton.mp hrule ▸ Replacement.putsTexts nofun
  · refine findAndReplace_calls (Q := fun _ given => given = none) hidleReady ?_ hidleRecording
    intro rule hrule found state
    exact List.mem_singleton.mp hrule ▸ rfl
  · -- the text in the paragraph has no match
    obtain ⟨-, -, hvisits⟩ := hpasses [] delete [reject] rfl
    have hlast : 2 < (delete.visits .default tree ()).length := by decide +kernel
    have hnone : ∀ h : 2 < (delete.visits .default tree ()).length,
        (delete.callsIn .default ((delete.visits .default tree ()).get ⟨2, h⟩)).length = 0 := by
          decide +kernel
    have hmoved : (delete.edits .default tree ()).moved [3, 0] = [2, 0] := by decide +kernel
    obtain ⟨-, hleft⟩ := hvisits.get (i := 2) (by decide) hlast
    rw [← hmoved]
    refine (hleft fun call hmem => ?_).2
    have hmem : call ∈ delete.callsIn .default ((delete.visits .default tree ()).get ⟨2, hlast⟩) :=
      hmem
    rw [List.eq_nil_of_length_eq_zero (hnone hlast)] at hmem
    exact absurd hmem List.not_mem_nil
  · exact hmore Unit id more few ()
      (.same (fun _ _ => rfl) (.more (by decide) (fun _ _ => ⟨rfl, rfl⟩) .nil)) rfl

end Graft
