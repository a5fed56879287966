import Graft.Proofs.Rule.Fitting
import Graft.Proofs.Splice.Ignored
import Graft.Proofs.Splice.Literal
import Graft.Proofs.Tree.Replacing

/-!
# Rules for literal texts

A rule that looks for a literal text and always puts the same in its place needs
no state and does not look at the tree around a text. With a test by tag name
its pass is a replacement of the tree's texts, each on its own, and several such
rules are several replacements one after the other. If texts are put in, the
text content of the result is that of the tree with the literal text replaced in
every text that is not left alone.

`Rule.Puts` says of a rule that what it makes of a text is a function of its
value, whatever stack and state there are. The pass of such a rule is
`Node.replaceTexts` with this function, a recursion on the tree without ways,
paths or states (`Rule.Puts.apply`). The step from one to the other is about the
ignore test: by tag name it is asked once on the way down, and the recursion
carries the outcome.

For the text content, every text is looked at as a leaf that is hidden or not.
The content of the whole is that of the leaves one after the other, and what is
put for a leaf has the content that `Text.replaceAll` computes.

Main statements:
- `Rule.Puts.apply`: the pass of such a rule, as a replacement of texts;
- `findAndReplace_literals`: so are the passes of several such rules;
- `findAndReplace_literal_textContent`: the text content of the result.
-/

namespace Graft

variable {σ : Type}

/-- Whether a rule puts nodes for a text that depend on nothing but its value. -/
def Rule.Puts (rule : Rule σ) (put : String → Option (List Node)) : Prop :=
  ∀ value stack state, rule.spliceLeaf value stack state = (put value, state)

namespace Rule.Puts

variable {rule : Rule σ} {put : String → Option (List Node)}

mutual

/-- Below a node none of whose ancestors is left alone, the pass replaces the
texts. -/
theorem rewriteBelow (h : rule.Puts put) {ignore : Ignore} (htest : ignore.test.byTag = true)
    {way : Way} (hway : way.shielded ignore.test = false) : ∀ (node : Node) (state : σ),
      rule.rewriteBelow ignore way node state = (node.replaceTexts ignore.test put, state)
  | .root children info, state => by
    have hshell : (Shell.root info).passes ignore.test = false := rfl
    rw [Rule.rewriteBelow, h.rewriteSiblings htest hway hshell [] children state]
    rfl
  | .element tag properties children info, state => by
    rw [Rule.rewriteBelow, Node.replaceTexts]
    cases hshell : (Shell.element tag properties info).passes ignore.test with
    | true =>
      have hshielded : ((Shell.element tag properties info).passes ignore.test ||
          way.shielded ignore.test) = true := by
        rw [hshell, Bool.true_or]
      rw [rule.rewriteSiblings_of_shielded htest hshielded [] children state, if_pos rfl]
    | false =>
      rw [h.rewriteSiblings htest hway hshell [] children state, if_neg Bool.false_ne_true]
  | .text value info, state => rfl
  | .comment value info, state => rfl
  | .doctype name info, state => rfl

/-- Among siblings none of whose ancestors is left alone, the pass replaces the
texts. -/
theorem rewriteSiblings (h : rule.Puts put) {ignore : Ignore} (htest : ignore.test.byTag = true)
    {way : Way} (hway : way.shielded ignore.test = false) {shell : Shell}
    (hshell : shell.passes ignore.test = false) (done : List Node) :
    ∀ (rest : List Node) (state : σ), rule.rewriteSiblings ignore way shell done rest state =
      (Node.replaceTextsAmong ignore.test put rest, state)
  | [], state => rfl
  | child :: rest, state => by
    have hlevel : Way.shielded (⟨shell, done, rest⟩ :: way) ignore.test = false := by
      rw [Way.shielded_cons, hshell, hway]
      rfl
    -- a text is spliced on the spot, any other child is gone through
    cases hchild : child.isText with
    | true =>
      obtain ⟨value, info, rfl⟩ := Node.exists_of_isText hchild
      rw [Rule.rewriteSiblings, spliceAt, Way.isIgnored_eq_shielded htest, hlevel,
        if_neg Bool.false_ne_true, h value]
      dsimp only
      rw [h.rewriteSiblings htest hway hshell _ rest state]
      rfl
    | false =>
      rw [rewriteSiblings_of_not_isText _ _ _ _ _ _ _ hchild,
        h.rewriteBelow htest hlevel child state]
      dsimp only
      rw [h.rewriteSiblings htest hway hshell _ rest state,
        Node.replaceTextsAmong_of_not_isText _ _ _ hchild]

end

/-- The pass of a rule that looks at nothing but the value of a text is a
replacement of texts. -/
theorem apply (h : rule.Puts put) {ignore : Ignore} (htest : ignore.test.byTag = true) (tree : Node)
    (state : σ) : ((rule.apply ignore tree state).tree, (rule.apply ignore tree state).state) =
      (tree.replaceTexts ignore.test put, state) := by
  have hway : Way.shielded [] ignore.test = false := rfl
  exact (rule.apply_eq_rewrite ignore tree state).trans (h.rewriteBelow htest hway tree state)

end Rule.Puts

/-- A rule for a literal text puts what the splice of the text alone gives. -/
theorem Rule.puts_literal (find : String) (replacement : Replacement) :
    (Rule.literal find replacement : Rule σ).Puts (replacement.putFor find) :=
  fun value stack state => Rule.spliceLeaf_literal find replacement value stack state

/-- Rules that each put one replacement wherever a literal text occurs. -/
def RuleSet.literals (pairs : List (String × Replacement)) : RuleSet σ :=
  .list (pairs.map fun pair => (.literal pair.1, .constant pair.2))

/-- The passes of rules for literal texts are replacements of texts one after
the other. -/
theorem Rule.applyAll_literals {ignore : Ignore} (htest : ignore.test.byTag = true)
    (pairs : List (String × Replacement)) (tree : Node) (state : σ) :
    (applyAll ignore (pairs.map fun pair => literal pair.1 pair.2) tree state).tree =
      pairs.foldl (fun tree pair => tree.replaceTexts ignore.test (pair.2.putFor pair.1)) tree := by
  induction pairs generalizing tree state with
  | nil => rfl
  | cons pair rest ih =>
    have hfirst := (puts_literal pair.1 pair.2).apply htest tree state
    obtain ⟨htree, hstate⟩ := Prod.mk.inj hfirst
    rw [List.map_cons, tree_applyAll_cons, htree, hstate, ih]
    rfl

/-- Rules for literal texts that are not too long replace texts one after the
other. -/
theorem findAndReplace_literals (tree : Node) {pairs : List (String × Replacement)}
    (hfits : ∀ pair ∈ pairs, (Find.literal pair.1).Fits) {ignore : Ignore}
    (htest : ignore.test.byTag = true) (state : σ) :
    ∃ outcome, findAndReplace tree (.literals pairs) ignore state = .ok outcome ∧
      outcome.tree =
        pairs.foldl (fun tree pair =>
          tree.replaceTexts ignore.test (pair.2.putFor pair.1)) tree := by
  refine ⟨_, ?_, Rule.applyAll_literals htest pairs tree state⟩
  have hrules : (RuleSet.literals pairs : RuleSet σ).rules =
      .ok (pairs.map fun pair => Rule.literal pair.1 pair.2) := by
    rw [RuleSet.literals, RuleSet.rules_list (List.forall_mem_map.mpr hfits), List.map_map]
    rfl
  rw [findAndReplace, hrules]
  rfl

/-- A rule for a text that is too long is refused, whatever the tree. -/
theorem findAndReplace_of_not_fits (tree : Node) {find : Find} (hlong : ¬ find.Fits)
    {replacer : Replacer σ} {rest : List (Find × Replacer σ)} (ignore : Ignore) (state : σ) :
    findAndReplace tree (.list ((find, replacer) :: rest)) ignore state =
      .error (.badPattern find.source) := by
  have hrules : (RuleSet.list ((find, replacer) :: rest)).rules =
      .error (.badPattern find.source) :=
    RuleSet.rules_list_eq_error_iff.mpr ⟨[], _, rest, rfl, fun _ hmem =>
      absurd hmem List.not_mem_nil, hlong, rfl⟩
  rw [findAndReplace, hrules]
  rfl

/-! ## Text content -/

/-- The content of a fragment is its text, also if it is empty and there is no
node. -/
theorem textContents_fragment (text : List Char) :
    Node.textContents (fragment text) = String.ofList text := by
  cases text with
  | nil => rfl
  | cons c rest => exact String.append_empty

/-- The text content of literal texts with nodes between them. -/
theorem textContents_intercalate (nodes : List Node) (parts : List (List Char)) :
    Node.textContents (nodes.intercalate (parts.map fragment)) =
      String.ofList ((Node.textContents nodes).toList.intercalate parts) := by
  induction parts with
  | nil => rfl
  | cons first more ih =>
    cases more with
    | nil =>
      rw [List.map_singleton, List.intercalate_singleton, List.intercalate_singleton,
        textContents_fragment]
    | cons second more =>
      rw [List.map_cons, List.map_cons, List.intercalate_cons_cons, List.intercalate_cons_cons,
        Node.textContents_append, Node.textContents_append, textContents_fragment,
        String.ofList_append, String.ofList_append, String.ofList_toList, ← ih, List.map_cons]

/-- What is put for a text has the text content of the text with all occurrences
replaced. -/
theorem textContents_putFor {replacement : Replacement} {nodes : List Node}
    (hnodes : replacement.toNodes = some nodes) (find value : String) :
    Node.textContents ((replacement.putFor find value).getD [.ofText value]) =
      String.ofList (Text.replaceAll find.toList (Node.textContents nodes).toList
        value.toList) := by
  have hkept : Node.textContents [.ofText value] = Node.textContents (fragment value.toList) := by
    rw [textContents_fragment, String.ofList_toList]
    exact String.append_empty
  have hput : replacement.putFor find value =
      interleave nodes (Text.split find.toList value.toList) := by
    rw [Replacement.putFor, hnodes]
    rfl
  have hsplit := interleave_getD nodes (Text.split_ne_nil find.toList value.toList)
    fun _ => Text.eq_of_split_eq_singleton
  rw [Text.replaceAll, ← textContents_intercalate, ← hsplit, hput]
  cases interleave nodes (Text.split find.toList value.toList) with
  | none => exact hkept
  | some given => rfl

/-- A replacement by a text puts nodes with this text content. -/
theorem exists_toNodes_of_text {replacement : Replacement} {put : String}
    (h : replacement = .text put ∨ replacement = .ofText put) :
    ∃ nodes, replacement.toNodes = some nodes ∧ Node.textContents nodes = put := by
  have hnodes : replacement.toNodes = some (if put.isEmpty then [] else [Node.ofText put]) := by
    rcases h with rfl | rfl
    · rfl
    · exact Replacement.toNodes_ofText put
  refine ⟨_, hnodes, ?_⟩
  split
  next hempty => exact (String.isEmpty_iff.mp hempty).symm
  next => exact String.append_empty

namespace Node

/-- The content of leaves that have been replaced, leaf by leaf. -/
theorem join_flatMap_textsFor (test : ElementTest) (put : String → Option (List Node))
    (leaves : List TextLeaf) :
    String.join ((leaves.flatMap (textsFor test put)).map TextLeaf.value) =
      String.join (leaves.map fun leaf =>
        if leaf.hidden then leaf.value
        else textContents ((put leaf.value).getD [.ofText leaf.value])) := by
  have hleaf : ∀ leaf : TextLeaf, String.join ((textsFor test put leaf).map TextLeaf.value) =
      if leaf.hidden then leaf.value
      else textContents ((put leaf.value).getD [.ofText leaf.value]) := by
    intro leaf
    have hself : String.join ([leaf].map TextLeaf.value) = leaf.value := by
      rw [List.map_singleton, String.join_cons, String.join_nil, String.append_empty]
    rw [textsFor]
    split
    next => exact hself
    next =>
      cases put leaf.value with
      | none => exact hself.trans (String.append_empty).symm
      | some nodes => exact (textContents_eq_join test false nodes).symm
  induction leaves with
  | nil => rfl
  | cons leaf rest ih =>
    rw [List.flatMap_cons, List.map_append, String.join_append, hleaf, ih, List.map_cons,
      String.join_cons]

/-- The text content of a tree whose texts have been replaced. -/
theorem textContent_replaceTexts (test : ElementTest) (put : String → Option (List Node))
    {tree : Node} (htree : tree.isText = false) :
    (tree.replaceTexts test put).textContent =
      String.join ((tree.texts test false).map fun leaf =>
        if leaf.hidden then leaf.value
        else textContents ((put leaf.value).getD [.ofText leaf.value])) := by
  rw [textContent_eq_join test false, texts_replaceTexts test put htree, join_flatMap_textsFor]

end Node

/-- Finding a literal text and replacing it by a text replaces all its leftmost
occurrences that do not overlap, in every text of the tree on its own, and keeps
the texts that have an ancestor that is left alone. Only a text that is too long
to be a pattern is refused. -/
theorem findAndReplace_literal_textContent {tree : Node} (htree : tree.isText = false)
    (find put : String) {replacement : Replacement}
    (hreplacement : replacement = .text put ∨ replacement = .ofText put) {ignore : Ignore}
    (htest : ignore.test.byTag = true) (state : σ) :
    (findAndReplace tree (.list [(.literal find, .constant replacement)]) ignore state).map
        (fun outcome => outcome.tree.textContent) =
      if (Find.literal find).Fits then
        .ok (String.join ((tree.texts ignore.test false).map fun leaf =>
          if leaf.hidden then leaf.value
          else String.ofList (Text.replaceAll find.toList put.toList leaf.value.toList)))
      else .error (.badPattern (Find.literal find).source) := by
  split
  next hfits =>
    have hpairs : ∀ pair ∈ [(find, replacement)], (Find.literal pair.1).Fits :=
      List.forall_mem_singleton.mpr hfits
    obtain ⟨outcome, hrun, hresult⟩ := findAndReplace_literals tree hpairs htest state
    obtain ⟨nodes, hnodes, rfl⟩ := exists_toNodes_of_text hreplacement
    have hcontent := Node.textContent_replaceTexts ignore.test (replacement.putFor find) htree
    simp only [textContents_putFor hnodes find] at hcontent
    refine (congrArg (Except.map _) hrun).trans (congrArg Except.ok ?_)
    show outcome.tree.textContent = _
    rw [hresult]
    exact hcontent
  next hlong => exact congrArg (Except.map _) (findAndReplace_of_not_fits tree hlong ignore state)

/-- The needle overlaps itself in the text and stands in what is put for it; a
script is kept. -/
theorem findAndReplace_literal_textContent_overlap :
    let tree := Node.ofChildren [.ofTag "p" [.ofText "aaa"], .ofTag "script" [.ofText "aaa"]]
    let rules : RuleSet Unit := .list [(.literal "aa", .constant (.text "aab"))]
    tree.isText = false ∧ Ignore.default.test.byTag = true ∧
      (findAndReplace tree rules .default ()).map (fun outcome => outcome.tree.textContent) =
        .ok "aabaaaa" := by
  intro tree rules
  have htree : tree.isText = false := rfl
  have htest : Ignore.default.test.byTag = true := rfl
  have htexts : tree.texts Ignore.default.test false = [⟨"aaa", false⟩, ⟨"aaa", true⟩] := by decide
  have hreplaced : Text.replaceAll "aa".toList "aab".toList "aaa".toList = "aaba".toList := by
    refine (Text.replaceAll_append _ (by decide) (.nil "aa".toList ['a'])).trans ?_
    rw [Text.replaceAll_of_not_isInfix _ (by decide)]
    rfl
  have hcontent := findAndReplace_literal_textContent htree "aa" "aab" (Or.inl rfl) htest ()
  rw [if_pos (by decide)] at hcontent
  refine ⟨htree, htest, hcontent.trans (congrArg Except.ok ?_)⟩
  rw [htexts, List.map_cons, List.map_singleton, if_neg Bool.false_ne_true, if_pos rfl, hreplaced]
  decide

end Graft
