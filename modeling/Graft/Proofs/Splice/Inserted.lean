import Graft.Proofs.Splice.Lifting
import Graft.Proofs.Tree.Everywhere

/-!
# What holds of every node of the result

A search makes no nodes but plain texts that are not empty and what its
replacers answer (`into_nodes`), and of the nodes that it keeps it changes
nothing but the children. So what holds of every node before, of such texts and
of every node in an answer, and does not depend on children, holds of every node
after. That a node is no empty text is a case of this.

The condition on the answers comes in two forms. `Replacer.Gives` asks it of
every answer that a replacer could give, which is what can be said of rules that
have been read. `KeepsEverywhere` asks it only of the answers in the record of
calls, so it also covers replacers that could break it and do not, and this is
the form that is lifted from the splice of a text to whole searches.

Both rest on what takes the place of a text: fragments, which are never empty,
and the nodes of the accepted answers (`Rule.everywhere_onTexts`, by
`mem_assemble`). Parents keep everything but their children, so a property of
nodes that ignores children passes from the children to the parent.

Main statements:
- `Rule.everywhere_onTexts`: it holds of all that takes the place of a text;
- `findAndReplace_keepsEverywhere`, `findAndReplace_everywhere`: it holds
  everywhere in the result, if it does in all answers that are given, or in all
  that can be;
- `findAndReplace_noEmptyTexts`: a search leaves no empty texts behind.
-/

namespace Graft

variable {σ : Type}

/-- Whether something holds everywhere in the nodes of a replacement. -/
def Replacement.Puts (replacement : Replacement) (holds : Node → Prop) : Prop :=
  ∀ nodes, replacement.toNodes = some nodes → ∀ node ∈ nodes, node.Everywhere holds

/-- Whether a replacer answers with nothing but nodes of which something holds
everywhere. -/
def Replacer.Gives (replacer : Replacer σ) (holds : Node → Prop) : Prop :=
  ∀ found state nodes, (replacer.ask found state).1.toNodes = some nodes →
    ∀ node ∈ nodes, node.Everywhere holds

/-- A constant replacement gives what it puts in, whatever is found. -/
theorem Replacer.gives_constant {replacement : Replacement} {holds : Node → Prop}
    (h : ∀ nodes, replacement.toNodes = some nodes → ∀ node ∈ nodes, node.Everywhere holds) :
    (Replacer.constant replacement : Replacer σ).Gives holds := by
  intro found state nodes hnodes
  rw [Replacer.ask_constant] at hnodes
  exact h nodes hnodes

section

variable {holds : Node → Prop}

/-- Whether something that holds everywhere in some nodes and in all answers
holds everywhere in others. -/
def KeepsEverywhere (holds : Node → Prop) (before after : List Node) (calls : List Call) : Prop :=
  (∀ call ∈ calls, call.answer.Puts holds) → (∀ node ∈ before, node.Everywhere holds) →
    ∀ node ∈ after, node.Everywhere holds

/-- Whole trees keep what does not depend on children if their parts do. -/
theorem keepsEverywhere_lifts
    (hshell : ∀ node children, holds node → holds (node.withChildren children)) :
    Lifts (KeepsEverywhere holds) where
  refl nodes _ h := h
  append hfirst hsecond hputs h := by
    obtain ⟨hcalls, hmore⟩ := List.forall_mem_append.mp hputs
    obtain ⟨hbefore, hothers⟩ := List.forall_mem_append.mp h
    exact List.forall_mem_append.mpr ⟨hfirst hcalls hbefore, hsecond hmore hothers⟩
  trans hfirst hsecond hputs h := by
    obtain ⟨hcalls, hmore⟩ := List.forall_mem_append.mp hputs
    exact hsecond hmore (hfirst hcalls h)
  node shell before after calls hkeeps hputs h := by
    intro node hmem
    obtain rfl := List.mem_singleton.mp hmem
    obtain ⟨hroot, hchildren⟩ := Node.everywhere_iff.mp (h _ List.mem_cons_self)
    rw [shell.children_node] at hchildren
    refine Node.everywhere_iff.mpr ⟨?_, ?_⟩
    · have hother := hshell _ after hroot
      rwa [shell.withChildren_node] at hother
    · rw [shell.children_node]
      exact hkeeps hputs hchildren

variable (htext : ∀ value, value ≠ "" → holds (Node.ofText value))

include htext

/-- What takes the place of a text is plain text that is not empty, or what the
replacer has answered. -/
theorem Rule.everywhere_onTexts (rule : Rule σ) : rule.HoldsOnTexts (KeepsEverywhere holds) := by
  intro value info stack state hputs h
  cases hspliced : (rule.spliceLeaf value stack state).1 with
  | none => exact h
  | some nodes =>
    obtain ⟨after, -, -, -, hsplice⟩ := rule.exists_scan_callsOn value stack state
    intro node hmem
    -- a node of the result is literal text between matches or an answer to one of them
    rcases Splice.mem_assemble (hsplice.symm.trans hspliced) hmem with
      ⟨literal, hliteral, rfl⟩ | ⟨given, hgiven, put, hput, hin⟩
    · exact Node.everywhere_ofText (htext _ fun hempty =>
        hliteral (String.ofList_eq_empty_iff.mp hempty))
    · obtain ⟨call, hcall, rfl⟩ := List.mem_map.mp hgiven
      exact hputs call hcall put hput node hin

variable (hshell : ∀ node children, holds node → holds (node.withChildren children))

include hshell

/-- What holds everywhere in a tree, of plain texts that are not empty, and
everywhere in the answers that are given, and does not depend on children, holds
everywhere in the result. -/
theorem findAndReplace_keepsEverywhere (tree : Node) {rules : RuleSet σ} {ready : List (Rule σ)}
    (hready : rules.rules = .ok ready) (ignore : Ignore) (state : σ) :
    ∃ outcome calls, findAndReplace tree rules ignore state = .ok outcome ∧
      findAndReplace tree rules.recording ignore (state, []) =
        .ok ⟨outcome.tree, (outcome.state, calls), outcome.passes⟩ ∧
      ((∀ call ∈ calls, call.answer.Puts holds) → tree.Everywhere holds →
        outcome.tree.Everywhere holds) := by
  obtain ⟨outcome, calls, hrun, hrecording, hkeeps⟩ :=
    (keepsEverywhere_lifts hshell).findAndReplace hready
    (fun rule _ => rule.everywhere_onTexts htext) tree ignore state
  exact ⟨outcome, calls, hrun, hrecording, fun hputs htree =>
    hkeeps hputs (List.forall_mem_singleton.mpr htree) _ List.mem_cons_self⟩

/-- So it does if it holds everywhere in all answers that the replacers can give. -/
theorem findAndReplace_everywhere {rules : RuleSet σ}
    (hgives : ∀ ready, rules.rules = .ok ready → ∀ rule ∈ ready, rule.replacer.Gives holds)
    {tree : Node} (htree : tree.Everywhere holds) {ignore : Ignore} {state : σ}
    {outcome : Outcome σ}
    (hrun : findAndReplace tree rules ignore state = .ok outcome) :
    outcome.tree.Everywhere holds := by
  obtain ⟨ready, hready, -⟩ := map_eq_ok hrun
  obtain ⟨found, calls, hfound, hrecording, hkeeps⟩ :=
    findAndReplace_keepsEverywhere htext hshell tree hready ignore state
  obtain rfl := Except.ok.inj (hfound.symm.trans hrun)
  exact hkeeps (findAndReplace_calls (Q := fun _ given => ∀ nodes, given = some nodes →
    ∀ node ∈ nodes, node.Everywhere holds) hready (hgives ready hready) hrecording) htree

end

/-! ## Empty texts -/

/-- Whether there is no empty text in a tree. -/
def Node.NoEmptyTexts (tree : Node) : Prop :=
    tree.Everywhere fun node => ∀ info, node ≠ .text "" info

theorem Node.ofText_ne_empty {value : String} (h : value ≠ "") (info : Info) :
    Node.ofText value ≠ .text "" info :=
  fun hempty => h (Node.text.inj hempty).1

/-- Among the answers, only nodes that are given as such can hold empty texts. -/
theorem Replacement.puts_noEmptyTexts {replacement : Replacement}
    (h : ∀ nodes, replacement = .nodes nodes → ∀ node ∈ nodes, node.NoEmptyTexts) :
    replacement.Puts fun node => ∀ info, node ≠ .text "" info := by
  intro nodes hnodes node hmem
  -- a deletion puts in nothing, an empty text neither, and other texts are not empty
  cases replacement with
  | delete =>
    obtain rfl := Option.some.inj hnodes
    exact absurd hmem List.not_mem_nil
  | text value =>
    obtain rfl := Option.some.inj hnodes
    split at hmem
    next => exact absurd hmem List.not_mem_nil
    next hvalue =>
      obtain rfl := List.mem_singleton.mp hmem
      refine Node.everywhere_ofText (Node.ofText_ne_empty ?_)
      rintro rfl
      exact hvalue rfl
  | nodes given =>
    obtain rfl := Option.some.inj hnodes
    exact h given rfl node hmem
  | reject => exact nomatch hnodes

/-- A search leaves no empty texts behind, in a tree without any, unless they
are in nodes that it is given: neither before, between and behind the matches,
whatever is matched and however often, nor for empty texts that are to take the
place of a match. -/
theorem findAndReplace_noEmptyTexts (tree : Node) {rules : RuleSet σ} {ready : List (Rule σ)}
    (hready : rules.rules = .ok ready) (ignore : Ignore) (state : σ) :
    ∃ outcome calls, findAndReplace tree rules ignore state = .ok outcome ∧
      findAndReplace tree rules.recording ignore (state, []) =
        .ok ⟨outcome.tree, (outcome.state, calls), outcome.passes⟩ ∧
      ((∀ call ∈ calls, ∀ nodes, call.answer = .nodes nodes → ∀ node ∈ nodes, node.NoEmptyTexts) →
        tree.NoEmptyTexts → outcome.tree.NoEmptyTexts) := by
  have hshell : ∀ (node : Node) children, (∀ info, node ≠ .text "" info) →
      ∀ info, node.withChildren children ≠ .text "" info := by
    intro node children h
    cases node with
    | text value other => exact h
    | _ => nofun
  obtain ⟨outcome, calls, hrun, hrecording, hkeeps⟩ :=
    findAndReplace_keepsEverywhere (fun _ => Node.ofText_ne_empty) hshell tree hready ignore state
  exact ⟨outcome, calls, hrun, hrecording, fun hcalls =>
    hkeeps fun call hcall => Replacement.puts_noEmptyTexts (hcalls call hcall)⟩

/-- The empty text is found before, between and behind two letters, and an empty
text put in its place, which leaves two texts; one of them is then put in a tag.
-/
theorem findAndReplace_noEmptyTexts_letters :
    let tree := Node.ofChildren [.ofText "ab"]
    let tagged := Node.ofTag "b" [.ofText "b"]
    let rules : RuleSet Unit :=
      .list [(.literal "", .constant (.text "")), (.literal "b", .constant (.nodes [tagged]))]
    (∃ ready, rules.rules = .ok ready) ∧ tree.NoEmptyTexts ∧
      ∃ outcome, findAndReplace tree rules .default () = .ok outcome ∧
        outcome.tree.children.map Node.textContent = ["a", "b"] ∧ outcome.tree.NoEmptyTexts := by
  intro tree tagged rules
  have hready : rules.rules = .ok _ := RuleSet.rules_list (by decide)
  have hletters : ∀ value, value ≠ "" → (Node.ofText value).NoEmptyTexts := fun _ hvalue =>
    Node.everywhere_ofText (Node.ofText_ne_empty hvalue)
  have htree : tree.NoEmptyTexts :=
    Node.everywhere_iff.mpr ⟨nofun, List.forall_mem_singleton.mpr (hletters "ab" (by decide))⟩
  have htagged : tagged.NoEmptyTexts :=
    Node.everywhere_iff.mpr ⟨nofun, List.forall_mem_singleton.mpr (hletters "b" (by decide))⟩
  obtain ⟨outcome, calls, hrun, hrecording, hkeeps⟩ :=
    findAndReplace_noEmptyTexts tree hready .default ()
  refine ⟨⟨_, hready⟩, htree, outcome, hrun, ?_, hkeeps ?_ htree⟩
  · have htexts : (findAndReplace tree rules .default ()).toOption.map
        (fun outcome => outcome.tree.children.map Node.textContent) = some ["a", "b"] := by
          decide +kernel
    rw [hrun] at htexts
    exact Option.some.inj htexts
  · have hcalls := findAndReplace_calls (Q := fun _ given => ∀ nodes, given = some nodes →
      ∀ node ∈ nodes, node.NoEmptyTexts) hready ?_ hrecording
    · intro call hcall nodes hnodes
      exact hcalls call hcall nodes (congrArg Replacement.toNodes hnodes)
    · intro rule hrule found state nodes hnodes
      rcases List.mem_cons.mp hrule with rfl | hrule
      · obtain rfl := Option.some.inj hnodes
        exact fun node hmem => absurd hmem List.not_mem_nil
      · obtain rfl := List.mem_singleton.mp hrule
        obtain rfl := Option.some.inj hnodes
        exact List.forall_mem_singleton.mpr htagged

end Graft
