import Graft.Proofs.Splice.Replacing

/-!
# Searching again

When the occurrences of a literal text have been cut out of the texts of a tree,
none is left in the parts around them, even if the literal text overlaps itself;
parts that come to stand next to each other stay texts of their own. If what was
put in does not hold the literal text either, there is nothing left to find.

The first half is about one text: none of the parts of a split holds the needle
(`Text.not_isInfix_of_mem_split`), so what is put for a text holds it only if
the replacement does (`Replacement.lacks_putFor`). The second half is about the
search that is made again. By the equation with `Node.replaceTexts`, it is a
recursion in which no text that is searched holds the needle, so nothing is
replaced, and the tree is the same and not only equal in content.

A rejection cuts nothing out, and the literal text stays where it is, so
rejections are excluded. The condition on all other replacements
(`Replacement.Lacks`) is about the texts in what is put in, at any depth.

Main statements:
- `Replacement.lacks_putFor`: what is put for a text does not hold the literal
  text;
- `findAndReplace_settles`: after one search no text that is searched holds it,
  and a second search changes nothing.
-/

namespace Graft

variable {σ : Type}

/-- Whether no text of what a replacement puts in, at any depth, holds a needle. -/
def Replacement.Lacks (replacement : Replacement) (needle : String) : Prop :=
  ∀ nodes, replacement.toNodes = some nodes → ∀ node ∈ nodes, ∀ path value info,
    node.get? path = some (.text value info) → ¬ needle.toList <:+: value.toList

theorem Replacement.Lacks.not_isInfix {replacement : Replacement} {needle : String}
    (h : replacement.Lacks needle) {nodes : List Node} (hnodes : replacement.toNodes = some nodes)
    {node : Node} (hnode : node ∈ nodes) {test : ElementTest} {hidden : Bool} {leaf : TextLeaf}
    (hleaf : leaf ∈ node.texts test hidden) : ¬ needle.toList <:+: leaf.value.toList := by
  obtain ⟨path, info, hget⟩ := Node.exists_get?_of_mem_texts hidden node hleaf
  exact h nodes hnodes node hnode path leaf.value info hget

theorem Replacement.lacks_delete (needle : String) : Replacement.delete.Lacks needle := by
  intro nodes hnodes node hnode
  obtain rfl := Option.some.inj hnodes
  exact absurd hnode List.not_mem_nil

/-- A text that does not hold the needle can be put in its place. -/
theorem Replacement.lacks_text {put needle : String} (h : ¬ needle.toList <:+: put.toList) :
    (Replacement.text put).Lacks needle := by
  intro nodes hnodes node hnode path value info hget
  obtain rfl := Option.some.inj hnodes
  split at hnode
  next => exact absurd hnode List.not_mem_nil
  next =>
    obtain rfl := List.mem_singleton.mp hnode
    cases path with
    | nil =>
      cases hget
      exact h
    | cons i path => exact absurd hget (by simp [Node.get?_cons, Node.ofText, Node.children])

/-- The texts of a literal text as a node. -/
theorem value_of_mem_texts_fragment {test : ElementTest} {text : List Char} {node : Node}
    {leaf : TextLeaf} (hnode : node ∈ fragment text) (hleaf : leaf ∈ node.texts test false) :
    leaf.value.toList = text := by
  rw [fragment] at hnode
  split at hnode
  next => exact absurd hnode List.not_mem_nil
  next =>
    obtain rfl := List.mem_singleton.mp hnode
    obtain rfl := List.mem_singleton.mp hleaf
    exact String.toList_ofList

/-- No text of what is put for a text holds the literal text. -/
theorem Replacement.lacks_putFor {replacement : Replacement} {find : String} (hfind : find ≠ "")
    (hlacks : replacement.Lacks find) {value : String} {given : List Node}
    (hgiven : replacement.putFor find value = some given) (test : ElementTest) :
    ∀ leaf ∈ Node.textsAmong test false given, ¬ find.toList <:+: leaf.value.toList := by
  intro leaf hleaf
  have hneedle : find.toList ≠ [] := fun h => hfind (String.toList_eq_nil_iff.mp h)
  obtain ⟨nodes, hnodes, hinterleave⟩ := Option.bind_eq_some_iff.mp hgiven
  obtain ⟨node, hnode, hbelow⟩ := Node.mem_textsAmong.mp hleaf
  by_cases hinfix : find.toList <:+: value.toList
  · rw [putFor_of_isInfix hnodes hinfix] at hgiven
    obtain rfl := Option.some.inj hgiven
    rcases mem_intercalate_fragment hnode with hput | ⟨part, hpart, hfragment⟩
    · exact hlacks.not_isInfix hnodes hput hbelow
    · rw [value_of_mem_texts_fragment hfragment hbelow]
      exact Text.not_isInfix_of_mem_split hneedle _ part hpart
  · exact absurd (hgiven.symm.trans (putFor_of_not_isInfix replacement hinfix)) (by simp)

/-- When a literal text has been replaced, no text that is searched holds it. -/
theorem Node.not_isInfix_of_mem_texts {replacement : Replacement} {nodes : List Node}
    (hnodes : replacement.toNodes = some nodes) {find : String} (hfind : find ≠ "")
    (hlacks : replacement.Lacks find) (test : ElementTest) {tree : Node}
    (htree : tree.isText = false) :
    ∀ leaf ∈ (tree.replaceTexts test (replacement.putFor find)).texts test false,
      leaf.hidden = false → ¬ find.toList <:+: leaf.value.toList := by
  intro leaf hleaf hhidden
  rw [texts_replaceTexts test _ htree] at hleaf
  obtain ⟨origin, -, hleaf⟩ := List.mem_flatMap.mp hleaf
  rw [textsFor] at hleaf
  split at hleaf
  next horigin =>
    -- a text that was left alone still is
    obtain rfl := List.mem_singleton.mp hleaf
    exact absurd (hhidden.symm.trans horigin) Bool.false_ne_true
  next =>
    cases hput : replacement.putFor find origin.value with
    | none =>
      rw [hput] at hleaf
      obtain rfl := List.mem_singleton.mp hleaf
      intro hinfix
      rw [Replacement.putFor_of_isInfix hnodes hinfix] at hput
      exact absurd hput (by simp)
    | some given =>
      rw [hput] at hleaf
      exact Replacement.lacks_putFor hfind hlacks hput test leaf hleaf

/-- A second replacement of the same literal text changes nothing. -/
theorem Node.replaceTexts_putFor_twice {replacement : Replacement} {nodes : List Node}
    (hnodes : replacement.toNodes = some nodes) {find : String} (hfind : find ≠ "")
    (hlacks : replacement.Lacks find) (test : ElementTest) (tree : Node) :
    let result := tree.replaceTexts test (replacement.putFor find)
    result.replaceTexts test (replacement.putFor find) = result := by
  intro result
  cases htree : tree.isText with
  | true =>
    obtain ⟨value, info, rfl⟩ := exists_of_isText htree
    rfl
  | false =>
    refine replaceTexts_eq_self fun leaf hleaf hhidden => ?_
    exact replacement.putFor_of_not_isInfix
      (not_isInfix_of_mem_texts hnodes hfind hlacks test htree leaf hleaf hhidden)

/-- If the nodes that are put for a literal text do not hold it, then after one
search no text holds it that has a parent and no ancestor that is left alone,
and a second search changes nothing. A text that is too long to be a pattern is
refused. -/
theorem findAndReplace_settles (tree : Node) {find : String} (hfind : find ≠ "")
    {replacement : Replacement} (hreplacement : replacement ≠ .reject)
    (hlacks : replacement.Lacks find) {ignore : Ignore} (htest : ignore.test.byTag = true)
    (state : σ) :
    let rules : RuleSet σ := .list [(.literal find, .constant replacement)]
    (¬ (Find.literal find).Fits →
      findAndReplace tree rules ignore state = .error (.badPattern (Find.literal find).source)) ∧
    ((Find.literal find).Fits → ∃ outcome, findAndReplace tree rules ignore state = .ok outcome ∧
      (∀ path ancestors value info,
        outcome.tree.stack? path = some (ancestors ++ [.text value info]) → ancestors ≠ [] →
          (∀ ancestor ∈ ancestors, ∀ index parent, ignore.ignores ancestor index parent = false) →
            ¬ find.toList <:+: value.toList) ∧
      ∀ later, ∃ again, findAndReplace outcome.tree rules ignore later = .ok again ∧
        again.tree = outcome.tree) := by
  intro rules
  refine ⟨fun hlong => findAndReplace_of_not_fits tree hlong ignore state, fun hfits => ?_⟩
  have hpair : ∀ pair ∈ [(find, replacement)], (Find.literal pair.1).Fits :=
    List.forall_mem_singleton.mpr hfits
  obtain ⟨nodes, hnodes⟩ : ∃ nodes, replacement.toNodes = some nodes := by
    cases replacement with
    | reject => exact absurd rfl hreplacement
    | _ => exact ⟨_, rfl⟩
  obtain ⟨outcome, hrun, hresult⟩ :=
    findAndReplace_literals tree hpair htest state
  have hresult : outcome.tree = tree.replaceTexts ignore.test (replacement.putFor find) := hresult
  refine ⟨outcome, hrun, fun path ancestors value info hstack hparent hshown => ?_, fun later => ?_⟩
  · cases htree : tree.isText with
    | true =>
      -- a text that is the whole tree has no parent
      have htext : outcome.tree.isText = true := by rw [hresult, Node.isText_replaceTexts, htree]
      exact absurd (Node.ancestors_eq_nil_of_isText htext hstack) hparent
    | false =>
      have hleaf := Node.mem_texts_of_stack? htest hstack fun ancestor hmem =>
        hshown ancestor hmem none none
      rw [hresult] at hleaf
      exact Node.not_isInfix_of_mem_texts hnodes hfind hlacks ignore.test htree _ hleaf rfl
  · obtain ⟨again, hagain, hsecond⟩ :=
      findAndReplace_literals outcome.tree hpair htest later
    refine ⟨again, hagain, hsecond.trans ?_⟩
    rw [hresult]
    exact Node.replaceTexts_putFor_twice hnodes hfind hlacks ignore.test tree

/-- What is left of `aabb` and what is put in would make another `ab`, but are
texts of their own. -/
theorem findAndReplace_settles_side_by_side :
    let tree := Node.ofChildren [.ofTag "p" [.ofText "aabb"]]
    let rules : RuleSet Unit := .list [(.literal "ab", .constant (.text "b"))]
    "ab" ≠ "" ∧ Replacement.text "b" ≠ .reject ∧ (Replacement.text "b").Lacks "ab" ∧
      Ignore.default.test.byTag = true ∧
      ∃ outcome, findAndReplace tree rules .default () = .ok outcome ∧
        ∃ again, findAndReplace outcome.tree rules .default () = .ok again ∧
          again.tree = outcome.tree := by
  intro tree rules
  have hfind : "ab" ≠ "" := by decide
  have hreplacement : Replacement.text "b" ≠ .reject := Replacement.noConfusion
  have hlacks : (Replacement.text "b").Lacks "ab" := Replacement.lacks_text (by decide)
  have htest : Ignore.default.test.byTag = true := rfl
  obtain ⟨outcome, hrun, -, hagain⟩ :=
    (findAndReplace_settles tree hfind hreplacement hlacks htest ()).2 (by decide)
  exact ⟨hfind, hreplacement, hlacks, htest, outcome, hrun, hagain ()⟩

end Graft
