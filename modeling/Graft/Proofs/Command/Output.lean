import Graft.Command.Apply
import Graft.Proofs.Splice.Settling
import Graft.Proofs.Splice.Unmatched
import Graft.Proofs.Tree.Nesting
import Graft.Proofs.Tree.Rereading

/-!
# Reading what has been written

What the command (`run_apply`) writes for a tree that it has read and not
changed is the text of this tree (`write_tree`), and this is read as the same
tree again (`read_tree`). There is one exception. The reader allows 127 levels,
the writer spells out children and properties also where there are none, and a
root or element may have been read without either: if one lies inside 63 others,
it takes the levels 127 and 128, and the text is refused.

The proof puts the parts together that have been proved of trees in JSON: what
is read is a value with unique keys whose numbers are legible; the text spells
this value, in one layout or the other; and a reader takes the value back
exactly if it lies within its levels. The bound in terms of the tree
(`Node.nest_toJson_le_iff`) then turns levels into ancestors that are parents.
The tree is the same on the nose, not only up to the order of members, as
nothing has changed it.

All this is said of texts in which no object begins with the key of raw texts.
What such an object stands for may be nested as deep as it likes wherever it
lies, and may be a null, which is not read back as data.

The examples are a paragraph that is accepted, with a double in its data, and
roots inside each other that are one too many, given as sequences so that they
can be read at all.

Main statements:
- `Command.ofDocument_outputText`: the text of a tree that has been read is
  accepted exactly if it lies within 127 levels, and gives back the tree;
- `Command.output_accepted_iff`: when no rule finds anything, what is written is
  accepted exactly if no root or element lies inside 63 others.
-/

namespace Graft.Command

open Json.Reader (maxDepth)

/-- On one line or on several, the text spells the tree in one of the layouts,
with a line break behind it. -/
theorem toList_outputText (tree : Node) (pretty : Bool) :
    ∃ layout : Json.Layout,
      (outputText tree pretty).toList = Json.spell layout 0 tree.toJson ++ ['\n'] := by
  cases pretty with
  | false =>
    refine ⟨.compact, ?_⟩
    rw [outputText, if_neg Bool.false_ne_true, String.toList_append, Node.compact, Json.compact,
      String.toList_ofList, Json.spell_compact]
    rfl
  | true =>
    refine ⟨.indented, ?_⟩
    rw [outputText, if_pos rfl, String.toList_append, Node.pretty, Json.pretty,
      String.toList_ofList, Json.spell_indented]
    rfl

/-- The text of a tree that has been read from a value is accepted exactly if it
is not nested too deep, and gives back the tree. Of its doubles it is asked that
they are read back from their own text. -/
theorem ofDocument_outputText {v : Json} (hv : Json.Within maxDepth v) (hfree : v.RawFree)
    {tree : Node} (hread : Node.ofJson .outer v = .ok tree)
    (hreals : ∀ x, Number.real x ∈ tree.toJson.numbers → (Number.real x).IsLegible)
    (pretty : Bool) :
    Node.ofDocument (outputText tree pretty) =
      if tree.toJson.nest ≤ maxDepth then .ok tree else .error .notJson := by
  obtain ⟨layout, hlayout⟩ := toList_outputText tree pretty
  obtain ⟨hkeyed, htreeFree⟩ := Node.everywhere_isKeyed_of_ofJson hread
  have hnull := Node.everywhere_hasNoNullData_of_ofJson hread hfree
  have hlegible : ∀ n ∈ tree.toJson.numbers, n.IsLegible := by
    intro n hn
    cases n with
    | real x => exact hreals x hn
    | whole n => exact Json.Reader.number?_whole (Node.fits_of_ofJson hread hfree hv.numbers _ hn)
  have hspell := Document.nodeOfChars_spell layout hkeyed htreeFree hlegible
  rw [Node.withoutNullData_eq_self hnull] at hspell
  rw [Node.ofDocument, hlayout]
  exact hspell

/-- When no rule finds anything in a tree that has been accepted, what is
written for it, on one line or indented, is accepted again and gives the same
tree, unless a root or an element lies inside 63 others; then it is refused as
too deep. Of the text it is assumed that no object in it begins with the key of
raw texts, and of the doubles in the tree that they are read back from the text
that is written for them. -/
theorem output_accepted_iff {σ : Type} {text : String} {tree : Node}
    (hread : Node.ofDocument text = .ok tree)
    (hfree : ∀ v, Json.parse? text = some v → v.RawFree)
    (hreals : ∀ x, Number.real x ∈ tree.toJson.numbers →
      Json.Reader.number? (Number.real x).text = some (.real x, []))
    {rules : RuleSet σ} {ready : List (Rule σ)} (hready : rules.rules = .ok ready) {ignore : Ignore}
    (hnothing : ∀ rule ∈ ready, rule.FindsNothing ignore tree) (state : σ) (pretty : Bool) :
    ∃ outcome, findAndReplace tree rules ignore state = .ok outcome ∧
      (Node.ofDocument (outputText outcome.tree pretty) = .ok tree ↔
        ∀ path node, tree.get? path = some node → node.isParent = true → path.length < 63) ∧
      ((∃ path node, tree.get? path = some node ∧ node.isParent = true ∧ 63 ≤ path.length) →
        Node.ofDocument (outputText outcome.tree pretty) = .error .notJson) := by
  obtain ⟨v, hparse, hvalue⟩ := Node.exists_parse?_of_ofDocument hread
  obtain ⟨left, hspelled, -⟩ := Json.parse?_eq_some_iff.mp hparse
  have hv := Json.Reader.within_of_value? _ hspelled
  have htext := ofDocument_outputText hv (hfree v hparse) hvalue hreals pretty
  have hnest := Node.nest_toJson_le_iff_of_ofJson hvalue (hfree v hparse) hv.nest
  have hrun : findAndReplace tree rules ignore state =
      .ok (Rule.applyAll ignore ready tree state) := by
    rw [findAndReplace, hready]
    rfl
  have hsame := findAndReplace_of_findsNothing hready hnothing hrun
  refine ⟨_, hrun, ?_, ?_⟩
  · rw [hsame, htext]
    -- a root or element inside others spells out its children two levels deeper for each of them
    constructor
    · intro haccepted path node hnode hparent
      by_cases hdeep : tree.toJson.nest ≤ maxDepth
      · have hlevel : 2 * path.length + 2 ≤ 127 := hnest.mp hdeep path node hnode hparent
        omega
      · rw [if_neg hdeep] at haccepted
        exact absurd haccepted error_ne_ok
    · intro hroom
      rw [if_pos]
      refine hnest.mpr fun path node hnode hparent => ?_
      have hlevel := hroom path node hnode hparent
      show 2 * path.length + 2 ≤ 127
      omega
  · rintro ⟨path, node, hnode, hparent, hlong⟩
    rw [hsame, htext, if_neg]
    intro hdeep
    have hlevel : 2 * path.length + 2 ≤ 127 := hnest.mp hdeep path node hnode hparent
    omega

/-- One half: a double that is read back. -/
def half : Decimal.Binary64 := ⟨false, 0x3FE0000000000000, by decide⟩

/-- The text of one half is read back as one half. -/
theorem isLegible_half : (Number.real half).IsLegible := by
  unfold Number.IsLegible
  decide +kernel

/-- An element with a single child that has no children holds two nodes. -/
theorem get?_onlyChild {tag : String} {properties : Members} {leaf : Node} {info : Info}
    (hleaf : leaf.children = []) {path : Path} {node : Node}
    (h : (Node.element tag properties [leaf] info).get? path = some node) :
    path = [] ∧ node = .element tag properties [leaf] info ∨ path = [0] ∧ node = leaf := by
  -- the element itself, its child, or nothing
  cases path with
  | nil => exact .inl ⟨rfl, (Option.some.inj h).symm⟩
  | cons i path =>
    rw [Node.get?_cons] at h
    obtain ⟨child, hchild, hbelow⟩ := Option.bind_eq_some_iff.mp h
    obtain rfl := List.mem_singleton.mp (List.mem_of_getElem? hchild)
    cases i with
    | zero =>
      cases path with
      | nil => exact .inr ⟨rfl, (Option.some.inj hbelow).symm⟩
      | cons j path =>
        rw [Node.get?_cons, hleaf] at hbelow
        exact nomatch hbelow
    | succ i => exact nomatch hchild

/-- A paragraph given as a sequence, whose text has a double as data, is written
and read again. -/
theorem output_accepted_iff_paragraph :
    let items : List Json :=
      [.string "p", .object [], .array [.array [.string "text", .string "a", .null,
      .number (.real half)]]]
    let text := (Json.array (.string Kind.element.name :: items)).compact ++ "\n"
    let tree : Node := .element "p" [] [.text "a" { data := some (.number (.real half)) }] {}
    let rules : RuleSet Unit := .list [(.literal "b", .constant .delete)]
    Node.ofDocument text = .ok tree ∧
      (∀ v, Json.parse? text = some v → v.RawFree) ∧
      (∀ x, Number.real x ∈ tree.toJson.numbers →
        Json.Reader.number? (Number.real x).text = some (.real x, [])) ∧
      (∃ ready, rules.rules = .ok ready ∧ ∀ rule ∈ ready, rule.FindsNothing .default tree) ∧
      ∃ outcome, findAndReplace tree rules .default () = .ok outcome ∧
        Node.ofDocument (outputText outcome.tree true) = .ok tree := by
  intro items text tree rules
  have hlegible : ∀ n ∈ Json.numbersOfItems items, n.IsLegible := by
    intro n hn
    obtain rfl := List.mem_singleton.mp hn
    exact isLegible_half
  have hfree : ∀ v, Json.parse? text = some v → v.RawFree := by
    intro v hv
    have hparse := Json.parse?_compact (v := .array (.string Kind.element.name :: items)) hlegible
      (by decide)
    obtain rfl := Option.some.inj (hparse.symm.trans hv)
    simp [items, Json.RawFree, Json.AreRawFree, Members.AreRawFree, Members.raw?]
  have hread : Node.ofDocument text = .ok tree := by
    rw [Node.ofDocument, String.toList_append, Json.compact, String.toList_ofList,
      ← Json.spell_compact 0]
    exact Document.nodeOfChars_spell_array .compact _ _ hlegible rfl (by decide)
  have hreals : ∀ x, Number.real x ∈ tree.toJson.numbers →
      Json.Reader.number? (Number.real x).text = some (.real x, []) := by
    intro x hx
    have hx : Number.real x ∈ [Number.real half] := hx
    rw [List.mem_singleton.mp hx]
    exact isLegible_half
  have htext : ∀ path node, tree.get? path = some node →
      node.isText = true → node = .text "a" { data := some (.number (.real half)) } := by
    intro path node hnode htext
    rcases get?_onlyChild rfl hnode with ⟨-, rfl⟩ | ⟨-, hleaf⟩
    · exact absurd htext Bool.false_ne_true
    · exact hleaf
  let ready : List (Rule Unit) := [⟨(Find.literal "b").toPattern, .constant .delete⟩]
  have hready : rules.rules = .ok ready := RuleSet.rules_list (by decide)
  have hnothing : ∀ rule ∈ ready, rule.FindsNothing .default tree := by
    intro rule hrule path stack value info _ hnode _
    obtain rfl := List.mem_singleton.mp hrule
    obtain ⟨rfl, -⟩ := Node.text.inj (htext path _ hnode rfl)
    exact Regex.findFrom_of_not_isInfix [] (by decide)
  obtain ⟨outcome, hrun, haccepted, -⟩ :=
    output_accepted_iff hread hfree hreals hready hnothing () true
  refine ⟨hread, hfree, hreals, ⟨ready, hready, hnothing⟩, outcome, hrun, haccepted.mpr ?_⟩
  intro path node hnode hparent
  rcases get?_onlyChild rfl hnode with ⟨rfl, -⟩ | ⟨rfl, -⟩
  · exact Nat.zero_lt_succ _
  · exact Nat.succ_lt_succ (Nat.zero_lt_succ _)

/-! ## Nested too deep to be written -/

/-- Roots inside each other. -/
def nestedRoots : Nat → Node
  | 0 => .root [] {}
  | n + 1 => .root [nestedRoots n] {}

/-- The same, as sequences of a kind and perhaps children. -/
def nestedSequences : Nat → Json
  | 0 => .array [.string "root"]
  | n + 1 => .array [.string "root", .array [nestedSequences n]]

/-- Sequences with a kind and one child are read as roots inside each other. -/
theorem ofJson_nestedSequences (n : Nat) (site : Site) :
    Node.ofJson site (nestedSequences n) = .ok (nestedRoots n) := by
  -- one more root around those that have been read inside another node
  induction n generalizing site with
  | zero => cases site <;> rfl
  | succ n ih =>
    have hchildren : Node.childrenOfJson (.array [nestedSequences n]) = .ok [nestedRoots n] := by
      rw [Node.childrenOfJson, Node.nodesOfItems, ih]
      rfl
    have hfields : Node.fieldsOfItems Kind.root.fields {} [.array [nestedSequences n]] =
        .ok (NodeFields.mark { children := [nestedRoots n] } .children) := by
      rw [Kind.fields, Node.fieldsOfItems, if_pos rfl, hchildren]
      exact Node.fieldsOfItems.eq_1 [.position, .data] _
    have hkind : Kind.ofJson site (.string "root") = .ok .root := Kind.ofJson_name site .root
    rw [nestedSequences, Node.ofJson, hkind]
    show (Node.fieldsOfItems Kind.root.fields {} [.array [nestedSequences n]]).bind _ = _
    rw [hfields]
    rfl

/-- As sequences they take two levels for each root, so more of them fit than
can be written. -/
theorem nest_nestedSequences (n : Nat) : (nestedSequences n).nest = 2 * n + 1 := by
  induction n with
  | zero => rfl
  | succ n ih =>
    simp only [nestedSequences, Json.nest, Json.nestItems, ih]
    omega

theorem numbers_nestedSequences (n : Nat) : (nestedSequences n).numbers = [] := by
  induction n with
  | zero => rfl
  | succ n ih => simp only [nestedSequences, Json.numbers, Json.numbersOfItems, ih, List.append_nil]

theorem rawFree_nestedSequences (n : Nat) : (nestedSequences n).RawFree := by
  induction n with
  | zero => exact ⟨trivial, trivial⟩
  | succ n ih => exact ⟨trivial, ⟨ih, trivial⟩, trivial⟩

theorem numbers_toJson_nestedRoots (n : Nat) : (nestedRoots n).toJson.numbers = [] := by
  induction n with
  | zero => rfl
  | succ n ih =>
    simp only [nestedRoots, Node.toJson, Node.toJsonList, Json.numbers,
      Node.numbersOfMembers_append,
      Json.numbersOfMembers, Json.numbersOfItems, ih, List.append_nil]
    rfl

/-- Each root lies behind as many first children as there are roots around it. -/
theorem get?_nestedRoots {n k : Nat} (h : k ≤ n) :
    (nestedRoots n).get? (List.replicate k 0) = some (nestedRoots (n - k)) := by
  induction k generalizing n with
  | zero => exact Node.get?_nil _
  | succ k ih =>
    obtain ⟨n, rfl⟩ := Nat.exists_eq_succ_of_ne_zero (n := n) (by omega)
    rw [List.replicate_succ, Node.get?_cons]
    show (nestedRoots n).get? (List.replicate k 0) = _
    rw [ih (Nat.le_of_succ_le_succ h), Nat.succ_sub_succ]

theorem isParent_nestedRoots (n : Nat) : (nestedRoots n).isParent = true := by
  cases n <;> rfl

/-- There is no text among nested roots. -/
theorem isText_get?_nestedRoots {n : Nat} {path : Path} {node : Node}
    (h : (nestedRoots n).get? path = some node) : node.isText = false := by
  induction path generalizing n with
  | nil =>
    obtain rfl := Option.some.inj h
    cases n <;> rfl
  | cons i path ih =>
    rw [Node.get?_cons] at h
    obtain ⟨child, hchild, hbelow⟩ := Option.bind_eq_some_iff.mp h
    cases n with
    | zero => exact nomatch hchild
    | succ n =>
      obtain rfl := List.mem_singleton.mp (List.mem_of_getElem? hchild)
      exact ih hbelow

/-- Sixty-four roots inside each other, given as sequences, are accepted; no
rule finds anything in them, and what is written for them is refused. -/
theorem output_refused_nestedRoots :
    let rules : RuleSet Unit := .list [(.literal "a", .constant .delete)]
    Node.ofDocument ((nestedSequences 63).compact ++ "\n") = .ok (nestedRoots 63) ∧
      (∃ ready, rules.rules = .ok ready ∧ ∀ rule ∈ ready,
        rule.FindsNothing .default (nestedRoots 63)) ∧
      ∃ outcome, findAndReplace (nestedRoots 63) rules .default () = .ok outcome ∧
        ∀ pretty, Node.ofDocument (outputText outcome.tree pretty) = .error .notJson := by
  intro rules
  -- as sequences the roots take 127 levels, and only spelling out the children takes one more
  have hvalue := ofJson_nestedSequences 63 .outer
  have hwithin : Json.Within maxDepth (nestedSequences 63) := by
    refine ⟨?_, ?_⟩
    · rw [nest_nestedSequences]
      exact Nat.le_refl 127
    · rw [numbers_nestedSequences]
      exact fun n hn => absurd hn List.not_mem_nil
  have hread : Node.ofDocument ((nestedSequences 63).compact ++ "\n") = .ok (nestedRoots 63) := by
    rw [Node.ofDocument, String.toList_append, Json.compact, String.toList_ofList,
      ← Json.spell_compact 0]
    refine Document.nodeOfChars_spell_array .compact .root [.array [nestedSequences 62]] ?_
      hvalue ?_
    · simp only [Json.numbersOfItems, Json.numbers, numbers_nestedSequences, List.append_nil]
      exact fun n hn => absurd hn List.not_mem_nil
    · simp only [Json.nestItems, Json.nest, nest_nestedSequences]
      decide
  let ready : List (Rule Unit) := [⟨(Find.literal "a").toPattern, .constant .delete⟩]
  have hready : rules.rules = .ok ready := RuleSet.rules_list (by decide)
  have hnothing : ∀ rule ∈ ready, rule.FindsNothing .default (nestedRoots 63) := by
    intro rule _ path stack value info _ hnode _
    exact absurd (isText_get?_nestedRoots hnode) Bool.noConfusion
  have hrun : findAndReplace (nestedRoots 63) rules .default () =
      .ok (Rule.applyAll .default ready (nestedRoots 63) ()) := by
    rw [findAndReplace, hready]
    rfl
  refine ⟨hread, ⟨ready, hready, hnothing⟩, _, hrun, fun pretty => ?_⟩
  have hreals : ∀ x, Number.real x ∈ (nestedRoots 63).toJson.numbers →
      (Number.real x).IsLegible := by
    rw [numbers_toJson_nestedRoots]
    exact fun x hx => absurd hx List.not_mem_nil
  have hfree := rawFree_nestedSequences 63
  rw [findAndReplace_of_findsNothing hready hnothing hrun,
    ofDocument_outputText hwithin hfree hvalue hreals, if_neg]
  intro hnest
  have hlevel := (Node.nest_toJson_le_iff_of_ofJson hvalue hfree hwithin.nest).mp hnest
    (List.replicate 63 0) _ (get?_nestedRoots (Nat.le_refl 63)) (isParent_nestedRoots _)
  rw [List.length_replicate] at hlevel
  exact absurd hlevel (by decide)

end Graft.Command
