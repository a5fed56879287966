import Graft.Proofs.Tree.Texts

/-!
# Replacing the texts of a tree

If what is put in the place of a text depends on its value alone, and which
texts are left alone goes by the tag names of their ancestors, then the texts of
a tree can be replaced in any order, and the texts of the result are those that
were put in and those that were left alone. That is the case for every rule with
a literal text and a constant replacement, whose pass is such a replacement of
texts.

`Node.replaceTexts` goes down the tree and stops at every element that passes
the test; `Node.replaceTextsAmong` does the same for siblings, where the nodes
put in for a text stand among its siblings. All lemmas come in these two halves,
and in the half for siblings the one split that counts is whether the first of
them is a text.

Two replacements one after the other are one (`Node.putBoth`): what the first
puts in is gone through by the second, and where the first puts nothing the
second sees the text itself.

Main statements:
- `Node.textsAmong_replaceTexts`: the texts of the result;
- `Node.replaceTexts_eq_self`: nothing changes if nothing is put anywhere;
- `Node.replaceTexts_replaceTexts`: two replacements one after the other are one
  replacement.
-/

namespace Graft

namespace Node

mutual

/-- The tree with other nodes in the place of its texts. A text that is the
whole tree is kept, and so is a text with an ancestor that passes the test, or
one that nothing is put for. -/
def replaceTexts (test : ElementTest) (put : String → Option (List Node)) : Node → Node
  | .root children info => .root (replaceTextsAmong test put children) info
  | .element tag properties children info =>
    if (Shell.element tag properties info).passes test then .element tag properties children info
    else .element tag properties (replaceTextsAmong test put children) info
  | .text value info => .text value info
  | .comment value info => .comment value info
  | .doctype name info => .doctype name info

/-- Children with other nodes in the place of their texts. -/
def replaceTextsAmong (test : ElementTest) (put : String → Option (List Node)) :
    List Node → List Node
  | [] => []
  | .text value info :: rest =>
    (put value).getD [.text value info] ++ replaceTextsAmong test put rest
  | child :: rest => child.replaceTexts test put :: replaceTextsAmong test put rest

end

/-- The texts that a text of a tree leads to. -/
def textsFor (test : ElementTest) (put : String → Option (List Node)) (leaf : TextLeaf) :
    List TextLeaf :=
  if leaf.hidden then [leaf] else ((put leaf.value).map (textsAmong test false)).getD [leaf]

variable {test : ElementTest} {put : String → Option (List Node)}

/-- A sibling that is no text stays one node, whatever is replaced below it. -/
theorem replaceTextsAmong_of_not_isText (test : ElementTest) (put : String → Option (List Node))
    {child : Node} (rest : List Node) (h : child.isText = false) :
    replaceTextsAmong test put (child :: rest) =
      child.replaceTexts test put :: replaceTextsAmong test put rest := by
  refine replaceTextsAmong.eq_3 test put child rest ?_
  rintro value info rfl
  exact absurd h (by simp [isText])

/-- Siblings are replaced one after the other, each without regard to the others. -/
theorem replaceTextsAmong_append (test : ElementTest) (put : String → Option (List Node))
    (a b : List Node) :
    replaceTextsAmong test put (a ++ b) =
      replaceTextsAmong test put a ++ replaceTextsAmong test put b := by
  induction a with
  | nil => rfl
  | cons child rest ih =>
    cases hchild : child.isText with
    | true =>
      obtain ⟨value, info, rfl⟩ := exists_of_isText hchild
      rw [List.cons_append, replaceTextsAmong, ih, replaceTextsAmong, List.append_assoc]
    | false =>
      rw [List.cons_append, replaceTextsAmong_of_not_isText test put _ hchild, ih,
        replaceTextsAmong_of_not_isText test put _ hchild, List.cons_append]

/-- Nodes with others between them are replaced each on their own. -/
theorem replaceTextsAmong_intercalate (test : ElementTest) (put : String → Option (List Node))
    (sep : List Node) (parts : List (List Node)) :
    replaceTextsAmong test put (sep.intercalate parts) =
      (replaceTextsAmong test put sep).intercalate (parts.map (replaceTextsAmong test put)) := by
  induction parts with
  | nil => rfl
  | cons first more ih =>
    cases more with
    | nil => rw [List.map_singleton, List.intercalate_singleton, List.intercalate_singleton]
    | cons second more =>
      rw [List.intercalate_cons_cons, replaceTextsAmong_append, replaceTextsAmong_append, ih,
        List.map_cons, List.map_cons]
      exact List.intercalate_cons_cons.symm

/-- Texts that are all hidden lead to themselves. -/
theorem flatMap_textsFor_of_hidden {leaves : List TextLeaf}
    (h : ∀ leaf ∈ leaves, leaf.hidden = true) :
    leaves.flatMap (textsFor test put) = leaves := by
  induction leaves with
  | nil => rfl
  | cons leaf rest ih =>
    obtain ⟨hleaf, hrest⟩ := List.forall_mem_cons.mp h
    rw [List.flatMap_cons, ih hrest, textsFor, if_pos hleaf]
    rfl

mutual

/-- The texts of a tree whose texts have been replaced are those that each text
leads to. -/
theorem texts_replaceTexts (test : ElementTest) (put : String → Option (List Node)) :
    ∀ {node : Node}, node.isText = false →
      (node.replaceTexts test put).texts test false =
        (node.texts test false).flatMap (textsFor test put)
  | .root children info, _ => textsAmong_replaceTexts test put children
  | .element tag properties children info, _ => by
    rw [replaceTexts, texts, Bool.false_or]
    cases hpasses : (Shell.element tag properties info).passes test with
    | true =>
      rw [if_pos rfl, texts, hpasses, Bool.or_true,
        flatMap_textsFor_of_hidden (hidden_of_mem_textsAmong children)]
    | false =>
      rw [if_neg Bool.false_ne_true, texts, hpasses, Bool.or_false]
      exact textsAmong_replaceTexts test put children
  | .comment value info, _ => rfl
  | .doctype name info, _ => rfl

/-- The texts among siblings afterwards are what has been put in for each text
that was there. -/
theorem textsAmong_replaceTexts (test : ElementTest) (put : String → Option (List Node)) :
    ∀ nodes : List Node, textsAmong test false (replaceTextsAmong test put nodes) =
      (textsAmong test false nodes).flatMap (textsFor test put)
  | [] => rfl
  | child :: rest => by
    rw [textsAmong, List.flatMap_append, ← textsAmong_replaceTexts test put rest]
    cases hchild : child.isText with
    | true =>
      obtain ⟨value, info, rfl⟩ := exists_of_isText hchild
      rw [replaceTextsAmong, textsAmong_append, texts, List.flatMap_singleton, textsFor,
        if_neg Bool.false_ne_true]
      cases put value <;> rfl
    | false =>
      rw [replaceTextsAmong_of_not_isText test put rest hchild, textsAmong,
        texts_replaceTexts test put hchild]

end

mutual

/-- A tree stays as it is if nothing is put for its texts, those apart that are
left alone. -/
theorem replaceTexts_eq_self : ∀ {node : Node},
    (∀ leaf ∈ node.texts test false, leaf.hidden = false → put leaf.value = none) →
      node.replaceTexts test put = node
  | .root children info, h => by
    rw [replaceTexts, replaceTextsAmong_eq_self h]
  | .element tag properties children info, h => by
    rw [replaceTexts]
    cases hpasses : (Shell.element tag properties info).passes test with
    | true => exact if_pos rfl
    | false =>
      rw [texts, hpasses] at h
      rw [if_neg Bool.false_ne_true, replaceTextsAmong_eq_self h]
  | .text value info, _ => rfl
  | .comment value info, _ => rfl
  | .doctype name info, _ => rfl

/-- The same of siblings. -/
theorem replaceTextsAmong_eq_self : ∀ {nodes : List Node},
    (∀ leaf ∈ textsAmong test false nodes, leaf.hidden = false → put leaf.value = none) →
      replaceTextsAmong test put nodes = nodes
  | [], _ => rfl
  | child :: rest, h => by
    obtain ⟨hfirst, hrest⟩ := List.forall_mem_append.mp h
    have hrest := replaceTextsAmong_eq_self hrest
    cases hchild : child.isText with
    | true =>
      obtain ⟨value, info, rfl⟩ := exists_of_isText hchild
      rw [replaceTextsAmong, hrest, hfirst ⟨value, false⟩ (List.mem_singleton_self _) rfl]
      rfl
    | false =>
      rw [replaceTextsAmong_of_not_isText test put rest hchild, hrest, replaceTexts_eq_self hfirst]

end

/-- What two replacements one after the other put for a text: the second is made
in what the first has put, or else in the text itself. -/
def putBoth (test : ElementTest) (first second : String → Option (List Node)) (value : String) :
    Option (List Node) :=
  ((first value).map (replaceTextsAmong test second)).or (second value)

/-- A node that is replaced below stays of its kind. -/
theorem isText_replaceTexts (test : ElementTest) (put : String → Option (List Node)) (node : Node) :
    (node.replaceTexts test put).isText = node.isText := by
  cases node with
  | element tag properties children info =>
    rw [replaceTexts]
    split <;> rfl
  | _ => rfl

mutual

/-- Two replacements one after the other are one replacement. -/
theorem replaceTexts_replaceTexts (test : ElementTest)
    (first second : String → Option (List Node)) :
    ∀ node : Node, (node.replaceTexts test first).replaceTexts test second =
      node.replaceTexts test (putBoth test first second)
  | .root children info => by
    rw [replaceTexts, replaceTexts, replaceTexts,
      replaceTextsAmong_replaceTexts test first second children]
  | .element tag properties children info => by
    rw [replaceTexts, replaceTexts]
    cases hpasses : (Shell.element tag properties info).passes test with
    | true => rw [if_pos rfl, if_pos rfl, replaceTexts, if_pos hpasses]
    | false =>
      rw [if_neg Bool.false_ne_true, if_neg Bool.false_ne_true, replaceTexts, hpasses,
        if_neg Bool.false_ne_true, replaceTextsAmong_replaceTexts test first second children]
  | .text value info => rfl
  | .comment value info => rfl
  | .doctype name info => rfl

/-- The same of siblings: what the first replacement has put in for a text is
gone through by the second. -/
theorem replaceTextsAmong_replaceTexts (test : ElementTest)
    (first second : String → Option (List Node)) : ∀ nodes : List Node,
      replaceTextsAmong test second (replaceTextsAmong test first nodes) =
        replaceTextsAmong test (putBoth test first second) nodes
  | [] => rfl
  | child :: rest => by
    have hrest := replaceTextsAmong_replaceTexts test first second rest
    cases hchild : child.isText with
    | true =>
      obtain ⟨value, info, rfl⟩ := exists_of_isText hchild
      rw [replaceTextsAmong, replaceTextsAmong_append, hrest, replaceTextsAmong, putBoth]
      cases first value with
      | some nodes => rfl
      | none =>
        show replaceTextsAmong test second [.text value info] ++ _ = _
        rw [replaceTextsAmong, replaceTextsAmong, List.append_nil]
        rfl
    | false =>
      have hresult := (isText_replaceTexts test first child).trans hchild
      rw [replaceTextsAmong_of_not_isText test first rest hchild,
        replaceTextsAmong_of_not_isText test second _ hresult, hrest,
        replaceTextsAmong_of_not_isText test _ rest hchild,
        replaceTexts_replaceTexts test first second child]

end

end Node

end Graft
