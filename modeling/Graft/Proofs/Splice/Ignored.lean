import Graft.Proofs.Splice.Recording
import Graft.Proofs.Splice.Rewriting
import Graft.Proofs.Tree.Outermost

/-!
# Elements that are left alone

The ignore test is asked of the ancestors of a text when the text is looked at,
in a tree that has been changed by then. With a test by tag name (`ignore` with
tag names only), that makes no difference: what lies below an element that
passes it stays as it is through all passes, and no replacer is asked about it.
Replacements may bring in more such elements, which then are left alone in their
turn.

What is kept is told by the outermost elements that pass the test, each with all
it holds, in document order. `Spares` says of siblings before and after, and of
the calls in between, that these elements are a sublist of those afterwards,
that they are the same if no answer brings one in, and that no call was made
below one. It is preserved by doing nothing, by siblings one after the other,
and from children to their parent, and this is all that the recursion of a pass
needs.

The lemmas that go down the tree carry the way down with them, since the ignore
test depends on ancestors. Below an element that passes the test everything is
shielded and the recursion does nothing (`rewriteBelow_of_shielded`); elsewhere
the splice of a text spares what is left alone, because a text holds no
elements.

Main statements:
- `Rule.rewriteBelow_of_shielded`: what lies below an element that is left alone
  is kept;
- `Rule.spares_below`, `Rule.spares_applyAll`: a pass, and all passes, spare
  what is left alone;
- `findAndReplace_spares`: so does the whole search.
-/

namespace Graft

variable {σ : Type}

/-- Whether a match was found in a text none of whose ancestors passes the test. -/
def Call.IsOutside (call : Call) (test : ElementTest) : Prop :=
  ∀ ancestor ∈ call.found.stack.dropLast, ∀ index parent, test.check ancestor index parent = false

/-- Whether the answer brings in no element that passes the test, at any depth. -/
def Call.BringsNone (call : Call) (test : ElementTest) : Prop :=
  ∀ nodes, call.answer.toNodes = some nodes → ∀ node ∈ nodes, node.IsFreeOf test

/-- Whether the elements that pass a test have been left alone: no match below
them was asked about, the outermost of them are all still there with all they
hold, and no others are there unless an answer brought them in. -/
structure Spares (test : ElementTest) (before after : List Node) (calls : List Call) : Prop where
  outside : ∀ call ∈ calls, call.IsOutside test
  kept : (Node.outermostAmong test before).Sublist (Node.outermostAmong test after)
  same : (∀ call ∈ calls, call.BringsNone test) →
    Node.outermostAmong test after = Node.outermostAmong test before

namespace Spares

variable {test : ElementTest}

theorem refl (test : ElementTest) (nodes : List Node) : Spares test nodes nodes [] :=
  ⟨fun _ hmem => absurd hmem List.not_mem_nil, List.Sublist.refl _, fun _ => rfl⟩

/-- Siblings one after the other. -/
theorem append {before after others result : List Node} {calls more : List Call}
    (h : Spares test before after calls) (hothers : Spares test others result more) :
    Spares test (before ++ others) (after ++ result) (calls ++ more) where
  outside call hmem := (List.mem_append.mp hmem).elim (h.outside call) (hothers.outside call)
  kept := by
    rw [Node.outermostAmong_append, Node.outermostAmong_append]
    exact h.kept.append hothers.kept
  same hnone := by
    obtain ⟨hfirst, hsecond⟩ := List.forall_mem_append.mp hnone
    rw [Node.outermostAmong_append, Node.outermostAmong_append, h.same hfirst,
      hothers.same hsecond]

/-- Passes one after the other. -/
theorem trans {first second third : List Node} {calls more : List Call}
    (h : Spares test first second calls) (hnext : Spares test second third more) :
    Spares test first third (calls ++ more) where
  outside call hmem := (List.mem_append.mp hmem).elim (h.outside call) (hnext.outside call)
  kept := h.kept.trans hnext.kept
  same hnone := by
    obtain ⟨hfirst, hsecond⟩ := List.forall_mem_append.mp hnone
    rw [hnext.same hsecond, h.same hfirst]

/-- What holds of the children of an ancestor that does not pass the test holds
of the ancestor. -/
theorem node {before after : List Node} {calls : List Call} (h : Spares test before after calls)
    (htest : test.byTag = true) {shell : Shell} (hshell : shell.passes test = false) :
    Spares test [shell.node before] [shell.node after] calls := by
  have hlist : ∀ children,
      Node.outermostAmong test [shell.node children] = Node.outermostAmong test children := by
    intro children
    have hcheck := shell.check_node htest children none none
    rw [hshell] at hcheck
    rw [Node.outermostAmong, Node.outermostAmong, List.append_nil]
    cases shell with
    | root info => rfl
    | element tag properties info =>
      rw [Shell.node] at hcheck ⊢
      rw [Node.outermost, hcheck, if_neg Bool.false_ne_true]
  exact ⟨h.outside, by rw [hlist, hlist]; exact h.kept,
    fun hnone => by rw [hlist, hlist]; exact h.same hnone⟩

end Spares

namespace Rule

mutual

/-- Below an ancestor that is left alone, everything is kept. -/
theorem rewriteBelow_of_shielded (rule : Rule σ) {ignore : Ignore}
    (htest : ignore.test.byTag = true) {way : Way} (hway : way.shielded ignore.test = true) :
    ∀ (node : Node) (state : σ), rule.rewriteBelow ignore way node state = (node, state)
  | .root children info, state => by
    have hshielded : ((Shell.root info).passes ignore.test || way.shielded ignore.test) = true := by
      rw [hway, Bool.or_true]
    rw [rewriteBelow, rule.rewriteSiblings_of_shielded htest hshielded [] children state]
  | .element tag properties children info, state => by
    have hshielded : ((Shell.element tag properties info).passes ignore.test ||
        way.shielded ignore.test) = true := by
      rw [hway, Bool.or_true]
    rw [rewriteBelow, rule.rewriteSiblings_of_shielded htest hshielded [] children state]
  | .text value info, state => rfl
  | .comment value info, state => rfl
  | .doctype name info, state => rfl

/-- Nor is anything done among the children of such an element. -/
theorem rewriteSiblings_of_shielded (rule : Rule σ) {ignore : Ignore}
    (htest : ignore.test.byTag = true) {way : Way} {shell : Shell}
    (hway : (shell.passes ignore.test || way.shielded ignore.test) = true) (done : List Node) :
    ∀ (rest : List Node) (state : σ),
      rule.rewriteSiblings ignore way shell done rest state = (rest, state)
  | [], state => rfl
  | child :: rest, state => by
    have hlevel : Way.shielded (⟨shell, done, rest⟩ :: way) ignore.test = true := hway
    cases hchild : child.isText with
    | true =>
      obtain ⟨value, info, rfl⟩ := Node.exists_of_isText hchild
      rw [rewriteSiblings, spliceAt, Way.isIgnored_eq_shielded htest, hlevel, if_pos rfl]
      dsimp only [Option.getD]
      rw [rule.rewriteSiblings_of_shielded htest hway (done ++ [Node.text value info]) rest state]
      rfl
    | false =>
      rw [rewriteSiblings_of_not_isText _ _ _ _ _ _ _ hchild,
        rule.rewriteBelow_of_shielded htest hlevel child state]
      dsimp only
      rw [rule.rewriteSiblings_of_shielded htest hway (done ++ [child]) rest state]

end

/-- A text with no ancestor that is left alone is searched, and its calls are
recorded. -/
theorem spliceAt_recording (rule : Rule σ) {ignore : Ignore} (htest : ignore.test.byTag = true)
    {way : Way} (hway : way.shielded ignore.test = false) (value : String) (info : Info)
    (state : σ) (before : List Call) :
    let stack := way.stack (.text value info)
    rule.recording.spliceAt ignore way value info (state, before) =
      ((rule.spliceLeaf value stack state).1, (rule.spliceLeaf value stack state).2,
        before ++ rule.callsOn value stack state) := by
  intro stack
  rw [spliceAt, Way.isIgnored_eq_shielded htest, hway, if_neg Bool.false_ne_true]
  exact rule.spliceLeaf_recording value stack state before

/-- The splice of a text with no ancestor that is left alone spares what is left
alone. -/
theorem spares_spliceLeaf (rule : Rule σ) {test : ElementTest} (htest : test.byTag = true)
    {way : Way} (hway : way.shielded test = false) (value : String) (info : Info) (state : σ) :
    let stack := way.stack (.text value info)
    Spares test [.text value info]
      ((rule.spliceLeaf value stack state).1.getD [.text value info])
      (rule.callsOn value stack state) := by
  intro stack
  -- the calls of the splice are told of the stack above the text, none of which passes the test
  obtain ⟨after, -, hfound, -, hsplice⟩ := rule.exists_scan_callsOn value stack state
  refine ⟨fun call hmem ancestor hancestor => ?_, List.nil_sublist _, fun hnone => ?_⟩
  · rw [congrArg Found.stack (hfound call hmem)] at hancestor
    have hdrop : stack.dropLast = way.ancestors (.text value info) := List.dropLast_concat
    exact fun index parent => Way.check_of_mem_ancestors htest hway (hdrop ▸ hancestor) index parent
  · cases hspliced : (rule.spliceLeaf value stack state).1 with
    | none => rfl
    | some nodes =>
      rw [hsplice] at hspliced
      refine Node.outermostAmong_eq_nil fun node hmem => ?_
      have hcases := Splice.mem_assemble hspliced hmem
      rcases hcases with ⟨literal, -, rfl⟩ | ⟨given, hgiven, put, hput, hin⟩
      · exact Node.isFreeOf_ofText test _
      · obtain ⟨call, hcall, rfl⟩ := List.mem_map.mp hgiven
        exact hnone call hcall put hput node hin

/-- If a pass spares what is left alone among the children of a node, then also
in the node: either the node is left alone with all of them, or it is not one of
those that are listed. -/
theorem spares_shell (rule : Rule σ) {ignore : Ignore} (htest : ignore.test.byTag = true)
    (way : Way) (shell : Shell) (children : List Node) (recorded : σ × List Call)
    (h : shell.passes ignore.test = false →
      let result := rule.recording.rewriteSiblings ignore way shell [] children recorded
      ∃ calls, result.2.2 = recorded.2 ++ calls ∧ Spares ignore.test children result.1 calls) :
    let result := rule.recording.rewriteSiblings ignore way shell [] children recorded
    ∃ calls, result.2.2 = recorded.2 ++ calls ∧
      Spares ignore.test [shell.node children] [shell.node result.1] calls := by
  intro result
  cases hshell : shell.passes ignore.test with
  | true =>
    -- the node is listed itself, and the pass changes nothing in it
    have hshielded : (shell.passes ignore.test || way.shielded ignore.test) = true := by
      rw [hshell, Bool.true_or]
    have hresult : result = (children, recorded) :=
      rule.recording.rewriteSiblings_of_shielded htest hshielded [] children recorded
    rw [hresult]
    exact ⟨[], (List.append_nil _).symm, .refl _ _⟩
  | false =>
    obtain ⟨calls, hcalls, hspares⟩ := h hshell
    exact ⟨calls, hcalls, hspares.node htest hshell⟩

mutual

/-- Below a node none of whose ancestors is left alone, a pass spares what is
left alone. -/
theorem spares_below (rule : Rule σ) {ignore : Ignore} (htest : ignore.test.byTag = true)
    {way : Way}
    (hway : way.shielded ignore.test = false) : ∀ (node : Node) (recorded : σ × List Call),
      let result := rule.recording.rewriteBelow ignore way node recorded
      ∃ calls, result.2.2 = recorded.2 ++ calls ∧ Spares ignore.test [node] [result.1] calls
  | .root children info, recorded => by
    rw [rewriteBelow]
    exact rule.spares_shell htest way (.root info) children recorded
      fun hshell => rule.spares_siblings htest hway hshell [] children recorded
  | .element tag properties children info, recorded => by
    rw [rewriteBelow]
    exact rule.spares_shell htest way (.element tag properties info) children recorded
      fun hshell => rule.spares_siblings htest hway hshell [] children recorded
  | .text value info, recorded => ⟨[], (List.append_nil _).symm, .refl _ _⟩
  | .comment value info, recorded => ⟨[], (List.append_nil _).symm, .refl _ _⟩
  | .doctype name info, recorded => ⟨[], (List.append_nil _).symm, .refl _ _⟩

/-- Among siblings none of whose ancestors is left alone, a pass spares what is
left alone. -/
theorem spares_siblings (rule : Rule σ) {ignore : Ignore} (htest : ignore.test.byTag = true)
    {way : Way} (hway : way.shielded ignore.test = false) {shell : Shell}
    (hshell : shell.passes ignore.test = false) (done : List Node) :
    ∀ (rest : List Node) (recorded : σ × List Call),
      let result := rule.recording.rewriteSiblings ignore way shell done rest recorded
      ∃ calls, result.2.2 = recorded.2 ++ calls ∧ Spares ignore.test rest result.1 calls
  | [], recorded => ⟨[], (List.append_nil _).symm, .refl _ _⟩
  | child :: rest, recorded => by
    have hlevel : Way.shielded (⟨shell, done, rest⟩ :: way) ignore.test = false := by
      rw [Way.shielded_cons, hshell, hway]
      rfl
    cases hchild : child.isText with
    | true =>
      obtain ⟨value, info, rfl⟩ := Node.exists_of_isText hchild
      obtain ⟨state, before⟩ := recorded
      have hfirst := rule.spares_spliceLeaf htest hlevel value info state
      rw [rewriteSiblings, rule.spliceAt_recording htest hlevel]
      dsimp only at hfirst ⊢
      -- the calls of the text come first, then those of its next siblings
      generalize rule.spliceLeaf value _ state = spliced at hfirst ⊢
      obtain ⟨calls, hcalls, hrest⟩ := rule.spares_siblings htest hway hshell
        (done ++ spliced.1.getD [.text value info]) rest (spliced.2, _)
      exact ⟨_, hcalls.trans (List.append_assoc _ _ _), hfirst.append hrest⟩
    | false =>
      rw [rewriteSiblings_of_not_isText _ _ _ _ _ _ _ hchild]
      obtain ⟨first, hstate, hfirst⟩ := rule.spares_below htest hlevel child recorded
      generalize rule.recording.rewriteBelow ignore (⟨shell, done, rest⟩ :: way) child recorded =
        inner at hstate hfirst ⊢
      obtain ⟨calls, hcalls, hrest⟩ := rule.spares_siblings htest hway hshell
        (done ++ [inner.1]) rest inner.2
      rw [hstate, List.append_assoc] at hcalls
      exact ⟨first ++ calls, hcalls, hfirst.append hrest⟩

end

/-- A pass over a whole tree spares what is left alone. -/
theorem spares_apply (rule : Rule σ) {ignore : Ignore} (htest : ignore.test.byTag = true)
    (tree : Node) (recorded : σ × List Call) :
    let outcome := rule.recording.apply ignore tree recorded
    ∃ calls, outcome.state.2 = recorded.2 ++ calls ∧
      Spares ignore.test [tree] [outcome.tree] calls := by
  intro outcome
  have hrewrite := rule.recording.apply_eq_rewrite ignore tree recorded
  have hway : Way.shielded [] ignore.test = false := rfl
  obtain ⟨calls, hcalls, hspares⟩ := rule.spares_below htest hway tree recorded
  have hresult : rule.recording.rewriteBelow ignore [] tree recorded =
      (outcome.tree, outcome.state) := hrewrite.symm
  rw [hresult] at hcalls hspares
  exact ⟨calls, hcalls, hspares⟩

/-- Passes one after the other spare what is left alone. -/
theorem spares_applyAll {ignore : Ignore} (htest : ignore.test.byTag = true)
    (rules : List (Rule σ)) (tree : Node) (recorded : σ × List Call) :
    let outcome := applyAll ignore (rules.map recording) tree recorded
    ∃ calls, outcome.state.2 = recorded.2 ++ calls ∧
      Spares ignore.test [tree] [outcome.tree] calls := by
  induction rules generalizing tree recorded with
  | nil => exact ⟨[], (List.append_nil _).symm, .refl _ _⟩
  | cons rule rest ih =>
    obtain ⟨first, hstate, hfirst⟩ := rule.spares_apply htest tree recorded
    obtain ⟨calls, hcalls, hrest⟩ := ih (rule.recording.apply ignore tree recorded).tree
      (rule.recording.apply ignore tree recorded).state
    rw [hstate, List.append_assoc] at hcalls
    exact ⟨first ++ calls, hcalls, hfirst.trans hrest⟩

end Rule

/-- Finding and replacing spares what a test by tag name leaves alone: no
replacer is asked about a match below an element that passes the test, the
outermost elements that pass it are all kept, in order and with all they hold,
and no others are there in the end unless an answer brought one in. -/
theorem findAndReplace_spares (tree : Node) {rules : RuleSet σ} {ready : List (Rule σ)}
    (hready : rules.rules = .ok ready) {ignore : Ignore} (htest : ignore.test.byTag = true)
    (state : σ) :
    ∃ outcome calls, findAndReplace tree rules ignore state = .ok outcome ∧
      findAndReplace tree rules.recording ignore (state, []) =
        .ok ⟨outcome.tree, (outcome.state, calls), outcome.passes⟩ ∧
      (∀ call ∈ calls, ∀ ancestor ∈ call.found.stack.dropLast, ∀ index parent,
        ignore.ignores ancestor index parent = false) ∧
      (tree.outermost ignore.test).Sublist (outcome.tree.outermost ignore.test) ∧
      ((∀ call ∈ calls, call.BringsNone ignore.test) →
        outcome.tree.outermost ignore.test = tree.outermost ignore.test) := by
  have hall := Rule.applyAll_recording ignore ready tree state []
  obtain ⟨calls, hcalls, houtside, hkept, hsame⟩ :=
    Rule.spares_applyAll htest ready tree (state, [])
  have hrecording : findAndReplace tree rules.recording ignore (state, []) =
      .ok (Rule.applyAll ignore (ready.map Rule.recording) tree (state, [])) := by
    rw [findAndReplace, RuleSet.rules_recording, hready]
    rfl
  have hone : ∀ node : Node, Node.outermostAmong ignore.test [node] = node.outermost ignore.test :=
    fun node => List.append_nil _
  rw [hone, hone] at hkept hsame
  generalize Rule.applyAll ignore (ready.map Rule.recording) tree (state, []) = recorded
    at hall hcalls hkept hsame hrecording
  obtain rfl : calls = recorded.state.2 := hcalls.symm
  refine ⟨recorded.map Prod.fst, recorded.state.2, ?_, hrecording, houtside, hkept, hsame⟩
  rw [findAndReplace, hready, ← hall]
  rfl

/-- A text in a script is kept by default, where one beside the script is
replaced. -/
theorem findAndReplace_spares_script :
    let script := Node.ofTag "script" [Node.ofText "a"]
    let rules : RuleSet Unit := .list [(.literal "a", .constant (.text "b"))]
    (∃ ready, rules.rules = .ok ready) ∧ Ignore.default.test.byTag = true ∧
      ∃ outcome, findAndReplace (.ofChildren [script, .ofText "a"]) rules .default () =
        .ok outcome ∧
        [script].Sublist (outcome.tree.outermost Ignore.default.test) := by
  intro script rules
  have htest : Ignore.default.test.byTag = true := rfl
  obtain ⟨ready, hready⟩ : ∃ ready, rules.rules = .ok ready := ⟨_, rfl⟩
  obtain ⟨outcome, calls, hrun, -, -, hkept, -⟩ :=
    findAndReplace_spares (.ofChildren [script, .ofText "a"]) hready htest ()
  exact ⟨⟨ready, hready⟩, htest, outcome, hrun, hkept⟩

end Graft
