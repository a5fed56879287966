import Graft.Proofs.Splice.Settling
import Graft.Proofs.Text.Apart

/-!
# Rules in either order

Two rules for literal texts that cannot overlap, neither of which puts in what
the other looks for, can change places. Whichever comes first cuts the texts of
the tree into parts, and the other one then finds in the parts what it would
have found in the whole. So after both, a text has been cut from left to right
wherever either literal text occurs, and it does not matter which of the two was
looked for first.

The proof is about one text at first. `weave` is what two rules put for it: the
text cut at the outer needle, its parts at the inner one, and the replacements
in between. It carries along the characters since the last cut, and one lemma
each says what it does at a character (`weave_cons`), at the outer needle
(`weave_outer`) and at the inner one (`weave_inner`). In this form the two
needles play the same part, and the commutation is an induction on the text that
asks what comes first in it.

For trees, the second rule sees what the first has put in as well. It changes
nothing there, by the condition that neither replacement holds what the other
looks for (`Replacement.Lacks`), and nothing behind elements that are left
alone, whose shape is the same for both. Rules that reject or put in nothing are
covered by the same statement.

Main statements:
- `weave_comm`: cutting a text at two needles gives the same in either order;
- `Node.putBoth_putFor`: what two rules put for a text, as a text cut at both
  needles;
- `findAndReplace_exchange`: two such rules can change places.
-/

namespace Graft

variable {σ : Type}

/-- A text split at two needles, with nodes where each of them occurred. What
waits in front of the text joins its first literal text. -/
def weave (outer inner : List Char) (atOuter atInner : List Node) (waiting text : List Char) :
    List Node :=
  let parts := (Text.splitBoth outer inner text).modifyHead (List.modifyHead (waiting ++ ·))
  atOuter.intercalate (parts.map fun texts => atInner.intercalate (texts.map fragment))

section Weave

variable {outer inner : List Char} (atOuter atInner : List Node)

/-- At the end of a text the characters since the last cut are left. -/
theorem weave_nil (houter : outer ≠ []) (hinner : inner ≠ []) (waiting : List Char) :
    weave outer inner atOuter atInner waiting [] = fragment waiting := by
  rw [weave, Text.splitBoth, Text.split_nil houter, List.map_singleton, Text.split_nil hinner,
    List.modifyHead_cons, List.modifyHead_cons, List.append_nil, List.map_singleton,
    List.intercalate_singleton, List.map_singleton, List.intercalate_singleton]

/-- Without characters waiting, it is the text cut at both needles. -/
theorem weave_of_nil (text : List Char) :
    weave outer inner atOuter atInner [] text =
      atOuter.intercalate ((Text.splitBoth outer inner text).map fun texts =>
        atInner.intercalate (texts.map fragment)) := by
  have hkeep : List.modifyHead (([] : List Char) ++ ·) = id := funext Text.modifyHead_nil_append
  rw [weave, hkeep, List.modifyHead_id]
  rfl

/-- A character at which neither needle occurs waits with what is in front of it. -/
theorem weave_cons {c : Char} {rest : List Char} (houter : ¬ outer <+: c :: rest)
    (hinner : ¬ inner <+: c :: rest) (waiting : List Char) :
    weave outer inner atOuter atInner waiting (c :: rest) =
      weave outer inner atOuter atInner (waiting ++ [c]) rest := by
  have hjoin : (List.modifyHead (waiting ++ ·)) ∘ (List.modifyHead (c :: ·)) =
      List.modifyHead ((waiting ++ [c]) ++ ·) := by
    funext texts
    cases texts with
    | nil => rfl
    | cons text more => exact congrArg (· :: more) (List.append_assoc waiting [c] text).symm
  rw [weave, weave, Text.splitBoth_cons houter hinner, List.modifyHead_modifyHead, hjoin]

/-- An occurrence of the needle that the text is split at first ends what waits
in front of it. -/
theorem weave_outer (houter : outer ≠ []) (hinner : inner ≠ []) (waiting rest : List Char) :
    weave outer inner atOuter atInner waiting (outer ++ rest) =
      fragment waiting ++ atOuter ++ weave outer inner atOuter atInner [] rest := by
  have hmore : (Text.splitBoth outer inner rest).map (fun texts =>
      atInner.intercalate (texts.map fragment)) ≠ [] :=
    mt List.map_eq_nil_iff.mp (Text.splitBoth_ne_nil outer inner rest)
  rw [weave_of_nil, weave, Text.splitBoth_outer houter hinner, List.modifyHead_cons,
    List.modifyHead_cons, List.append_nil, List.map_cons, List.intercalate_cons_of_ne_nil hmore,
    List.map_singleton, List.intercalate_singleton]

/-- So does an occurrence of the other needle, within the first literal text. -/
theorem weave_inner (h : Text.Apart inner outer) (waiting rest : List Char) :
    weave outer inner atOuter atInner waiting (inner ++ rest) =
      fragment waiting ++ atInner ++ weave outer inner atOuter atInner [] rest := by
  obtain ⟨first, more, hsplit⟩ := List.exists_cons_of_ne_nil (Text.split_ne_nil outer rest)
  have hfirst : (Text.split inner first).map fragment ≠ [] :=
    mt List.map_eq_nil_iff.mp (Text.split_ne_nil inner first)
  have hparts : Text.splitBoth outer inner rest =
      Text.split inner first :: more.map (Text.split inner) := by
    rw [Text.splitBoth, hsplit, List.map_cons]
  rw [weave_of_nil, weave, Text.splitBoth_inner h, hparts, List.modifyHead_cons,
    List.modifyHead_cons, List.modifyHead_cons, List.append_nil, List.map_cons, List.map_cons,
    List.intercalate_cons_of_ne_nil hfirst, List.map_cons]
  exact Text.intercalate_modifyHead atOuter (fragment waiting ++ atInner) (List.cons_ne_nil _ _)

/-- A text is cut at two needles that cannot overlap in either order. -/
theorem weave_comm (h : Text.Apart outer inner) (waiting text : List Char) :
    weave outer inner atOuter atInner waiting text =
      weave inner outer atInner atOuter waiting text := by
  have houter := h.ne_nil
  have hinner := h.symm.ne_nil
  -- an occurrence takes more than one character of the text, so the induction is on its length
  induction hn : text.length using Nat.strongRecOn generalizing waiting text with
  | ind n ih =>
    subst hn
    by_cases hstart : outer <+: text
    · obtain ⟨rest, rfl⟩ := hstart
      rw [weave_outer atOuter atInner houter hinner, weave_inner atInner atOuter h,
        ih _ (Text.length_lt_append houter rest) [] rest rfl]
    · by_cases hother : inner <+: text
      · obtain ⟨rest, rfl⟩ := hother
        rw [weave_inner atOuter atInner h.symm, weave_outer atInner atOuter hinner houter,
          ih _ (Text.length_lt_append hinner rest) [] rest rfl]
      · cases text with
        | nil =>
          rw [weave_nil atOuter atInner houter hinner, weave_nil atInner atOuter hinner houter]
        | cons c rest =>
          rw [weave_cons atOuter atInner hstart hother, weave_cons atInner atOuter hother hstart,
            ih rest.length (Nat.lt_succ_self _) (waiting ++ [c]) rest rfl]

end Weave

/-- Where a replacement is put in nodes that do not hold what is looked for,
with literal texts between them, it is put in the literal texts. -/
theorem Node.replaceTextsAmong_intercalate_fragment {replacement : Replacement} {nodes : List Node}
    (hnodes : replacement.toNodes = some nodes) {find : String} (hfind : find.toList ≠ [])
    (test : ElementTest) {sep : List Node}
    (hsep : replaceTextsAmong test (replacement.putFor find) sep = sep) (parts : List (List Char)) :
    replaceTextsAmong test (replacement.putFor find) (sep.intercalate (parts.map fragment)) =
      sep.intercalate (parts.map fun part =>
        nodes.intercalate ((Text.split find.toList part).map fragment)) := by
  have hpart : ∀ part : List Char,
      replaceTextsAmong test (replacement.putFor find) (fragment part) =
        nodes.intercalate ((Text.split find.toList part).map fragment) := by
    intro part
    cases part with
    | nil =>
      -- the empty text is no node, and nothing is found in it
      rw [Text.split_nil hfind, List.map_singleton, List.intercalate_singleton]
      rfl
    | cons c rest =>
      have hput : replacement.putFor find (String.ofList (c :: rest)) =
          interleave nodes (Text.split find.toList (c :: rest)) := by
        rw [Replacement.putFor, hnodes, String.toList_ofList]
        rfl
      have hsplit := interleave_getD nodes (Text.split_ne_nil find.toList (c :: rest))
        fun _ => Text.eq_of_split_eq_singleton
      rw [← hsplit, ← hput]
      exact List.append_nil _
  rw [replaceTextsAmong_intercalate, hsep, List.map_map]
  exact congrArg (sep.intercalate <| List.map · parts) (funext hpart)

/-- A replacement leaves nodes as they are that do not hold what is looked for. -/
theorem Replacement.Lacks.replaceTextsAmong_eq_self {replacement : Replacement} {nodes : List Node}
    (hnodes : replacement.toNodes = some nodes) {find : String} (hlacks : replacement.Lacks find)
    (other : Replacement) (test : ElementTest) :
    Node.replaceTextsAmong test (other.putFor find) nodes = nodes := by
  refine Node.replaceTextsAmong_eq_self fun leaf hleaf _ => other.putFor_of_not_isInfix ?_
  obtain ⟨node, hnode, hbelow⟩ := Node.mem_textsAmong.mp hleaf
  exact hlacks.not_isInfix hnodes hnode hbelow

/-- What two rules for literal texts put for a text one after the other, if the
first does not put in what the second looks for. -/
theorem Node.putBoth_putFor {one other : Replacement} {atFirst atSecond : List Node}
    (hone : one.toNodes = some atFirst) (hother : other.toNodes = some atSecond)
    {first second : String} (hsecond : second.toList ≠ []) (hlacks : one.Lacks second)
    (test : ElementTest) (value : String) :
    putBoth test (one.putFor first) (other.putFor second) value =
      if first.toList <:+: value.toList ∨ second.toList <:+: value.toList then
        some (weave first.toList second.toList atFirst atSecond [] value.toList)
      else none := by
  rw [putBoth, weave_of_nil, Text.splitBoth, List.map_map]
  by_cases hfirst : first.toList <:+: value.toList
  · -- the second rule looks at the literal texts, and at what the first has put in
    have hsep := hlacks.replaceTextsAmong_eq_self hone other test
    rw [if_pos (Or.inl hfirst), Replacement.putFor_of_isInfix hone hfirst, Option.map_some,
      replaceTextsAmong_intercalate_fragment hother hsecond test hsep]
    rfl
  · rw [Replacement.putFor_of_not_isInfix one hfirst, Text.split_of_not_isInfix hfirst,
      List.map_singleton, List.intercalate_singleton, Option.map_none, Option.none_or]
    by_cases hinfix : second.toList <:+: value.toList
    · rw [if_pos (Or.inr hinfix), Replacement.putFor_of_isInfix hother hinfix]
      rfl
    · rw [if_neg (not_or.mpr ⟨hfirst, hinfix⟩), Replacement.putFor_of_not_isInfix other hinfix]

/-- A replacement that rejects every match puts nothing for any text. -/
theorem Replacement.putFor_of_rejects {replacement : Replacement} (h : replacement.toNodes = none)
    (find : String) : replacement.putFor find = fun _ => none := by
  funext value
  rw [putFor, h]
  rfl

/-- To put nothing before or after is the same. -/
theorem Node.putBoth_none_comm (test : ElementTest) (put : String → Option (List Node)) :
    putBoth test (fun _ => none) put = putBoth test put fun _ => none := by
  funext value
  cases hput : put value with
  | none =>
    rw [putBoth, putBoth, hput]
    rfl
  | some nodes =>
    have hkeep : replaceTextsAmong test (fun _ => none) nodes = nodes :=
      replaceTextsAmong_eq_self fun _ _ _ => rfl
    rw [putBoth, putBoth, hput, Option.map_some, hkeep]
    rfl

/-- Two rules for literal texts put the same for a text in either order. -/
theorem Node.putBoth_comm {one other : Replacement} {first second : String}
    (hapart : Text.Apart first.toList second.toList) (hone : one.Lacks second)
    (hother : other.Lacks first) (test : ElementTest) :
    putBoth test (one.putFor first) (other.putFor second) =
      putBoth test (other.putFor second) (one.putFor first) := by
  cases hnodes : one.toNodes with
  | none => rw [Replacement.putFor_of_rejects hnodes, putBoth_none_comm]
  | some atFirst =>
    cases hothers : other.toNodes with
    | none => rw [Replacement.putFor_of_rejects hothers, putBoth_none_comm]
    | some atSecond =>
      funext value
      rw [putBoth_putFor hnodes hothers hapart.symm.ne_nil hone,
        putBoth_putFor hothers hnodes hapart.ne_nil hother, weave_comm atFirst atSecond hapart]
      simp only [or_comm]

/-- Two rules of which one looks for a text that is too long are refused. -/
theorem findAndReplace_pair_of_not_fits (tree : Node) {first second : Find × Replacer σ}
    (hlong : ¬ (first.1.Fits ∧ second.1.Fits)) (ignore : Ignore) (state : σ) :
    (findAndReplace tree (.list [first, second]) ignore state).toOption = none := by
  rw [findAndReplace]
  cases hrules : (RuleSet.list [first, second]).rules with
  | error cause => rfl
  | ok ready =>
    have hfits := (RuleSet.rules_list_eq_ok_iff.mp hrules).1
    exact absurd ⟨hfits first List.mem_cons_self,
      hfits second (List.mem_cons_of_mem _ List.mem_cons_self)⟩ hlong

/-- Two rules for literal texts that cannot overlap, neither of which puts in
what the other looks for, lead to the same tree in either order. If one of the
texts is too long to be a pattern, neither order leads to a tree. -/
theorem findAndReplace_exchange (tree : Node) {first second : String}
    (hapart : Text.Apart first.toList second.toList) {one other : Replacement}
    (hone : one.Lacks second) (hother : other.Lacks first) {ignore : Ignore}
    (htest : ignore.test.byTag = true) (state : σ) :
    let there := findAndReplace tree
      (.list [(.literal first, .constant one), (.literal second, .constant other)]) ignore state
    let back := findAndReplace tree
      (.list [(.literal second, .constant other), (.literal first, .constant one)]) ignore state
    (¬ ((Find.literal first).Fits ∧ (Find.literal second).Fits) →
      there.toOption = none ∧ back.toOption = none) ∧
    ((Find.literal first).Fits → (Find.literal second).Fits →
      ∃ outcome exchanged, there = .ok outcome ∧ back = .ok exchanged ∧
        outcome.tree = exchanged.tree) := by
  -- a text that is too long fails both orders, in the pass over the rules before any tree is looked
  -- at
  intro there back
  refine ⟨fun hlong => ?_, fun hfirst hsecond => ?_⟩
  · exact ⟨findAndReplace_pair_of_not_fits tree (fun h => hlong ⟨h.1, h.2⟩) ignore state,
      findAndReplace_pair_of_not_fits tree (fun h => hlong ⟨h.2, h.1⟩) ignore state⟩
  have hthere : ∀ pair ∈ [(first, one), (second, other)], (Find.literal pair.1).Fits :=
    List.forall_mem_cons.mpr ⟨hfirst, List.forall_mem_singleton.mpr hsecond⟩
  have hback : ∀ pair ∈ [(second, other), (first, one)], (Find.literal pair.1).Fits :=
    List.forall_mem_cons.mpr ⟨hsecond, List.forall_mem_singleton.mpr hfirst⟩
  obtain ⟨outcome, hrun, hresult⟩ := findAndReplace_literals tree hthere htest state
  obtain ⟨exchanged, hexchanged, hother'⟩ := findAndReplace_literals tree hback htest state
  refine ⟨outcome, exchanged, hrun, hexchanged, ?_⟩
  have hresult : outcome.tree = (tree.replaceTexts ignore.test (one.putFor first)).replaceTexts
      ignore.test (other.putFor second) := hresult
  have hother' : exchanged.tree = (tree.replaceTexts ignore.test (other.putFor second)).replaceTexts
      ignore.test (one.putFor first) := hother'
  rw [hresult, hother', Node.replaceTexts_replaceTexts, Node.replaceTexts_replaceTexts,
    Node.putBoth_comm hapart hone hother]

/-- Where `ab` is deleted, `c` and `d` come to stand side by side, but are texts
of their own. -/
theorem findAndReplace_exchange_side_by_side :
    let tree := Node.ofChildren [.ofTag "p" [.ofText "cabd, cd"]]
    let one : Find × Replacer Unit := (.literal "ab", .constant .delete)
    let other : Find × Replacer Unit := (.literal "cd", .constant (.text "x"))
    Text.Apart "ab".toList "cd".toList ∧ Replacement.delete.Lacks "cd" ∧
      (Replacement.text "x").Lacks "ab" ∧ Ignore.default.test.byTag = true ∧
      ∃ outcome exchanged, findAndReplace tree (.list [one, other]) .default () = .ok outcome ∧
        findAndReplace tree (.list [other, one]) .default () = .ok exchanged ∧
        outcome.tree = exchanged.tree := by
  intro tree one other
  have hapart : Text.Apart "ab".toList "cd".toList := by decide
  have hone : Replacement.delete.Lacks "cd" := Replacement.lacks_delete "cd"
  have hother : (Replacement.text "x").Lacks "ab" := Replacement.lacks_text (by decide)
  have htest : Ignore.default.test.byTag = true := rfl
  exact ⟨hapart, hone, hother, htest,
    (findAndReplace_exchange tree hapart hone hother htest ()).2 (by decide) (by decide)⟩

end Graft
