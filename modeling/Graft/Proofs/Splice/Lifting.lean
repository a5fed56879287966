import Graft.Proofs.Rule.Fitting
import Graft.Proofs.Splice.Recording
import Graft.Proofs.Splice.Rewriting

/-!
# From texts to trees

A pass does nothing but splice texts, whatever it is that leaves some of them
alone. So what can be said of the splice of every text, of its nodes before and
after and of its calls, can be said of a pass and of a whole search, if it
carries over from siblings to lists of siblings, from the children of a node to
the node, and from one pass to the next.

These conditions are the fields of `Lifts`, on a relation of siblings before,
siblings after and calls. It is proved for a relation once; the recursion over
the tree (`rewriteBelow`), the passes (`applyAll`) and the search
(`findAndReplace`, with the record of its calls) are then the same for all of
them. Relations that lift can be joined (`Lifts.and`), so that a statement with
several parts is lifted in one go.

`Rule.HoldsOnTexts` is what remains to be shown for each relation: that it holds
between a single text and what its splice makes of it. No tree, path or way
occurs in it. What depends on the ancestors, such as the ignore test, cannot be
said in this way, and has recursions of its own (`Graft.Proofs.Splice.Ignored`).

Main statements:
- `Lifts.below`, `Lifts.apply`, `Lifts.applyAll`: what holds of texts holds of a
  pass, and of all passes;
- `Lifts.findAndReplace`: so it does of the whole search, and of the record of
  its calls;
- `findAndReplace_calls`: what holds of all answers holds of all calls of a
  search.
-/

namespace Graft

variable {σ : Type}

/-- Whether a relation between nodes before and after and the calls of a
replacer holds of the whole if it holds of the parts. -/
structure Lifts (P : List Node → List Node → List Call → Prop) : Prop where
  /-- It holds where nothing is done. -/
  refl : ∀ nodes, P nodes nodes []
  /-- Siblings one after the other. -/
  append : ∀ {before after others result calls more}, P before after calls → P others result more →
    P (before ++ others) (after ++ result) (calls ++ more)
  /-- Passes one after the other. -/
  trans : ∀ {first second third calls more}, P first second calls → P second third more →
    P first third (calls ++ more)
  /-- Children, and the node that they are children of. -/
  node : ∀ (shell : Shell) {before after calls}, P before after calls →
    P [shell.node before] [shell.node after] calls

/-- What is said of each call on its own lifts. -/
theorem Lifts.ofCalls (Q : Call → Prop) : Lifts fun _ _ calls => ∀ call ∈ calls, Q call where
  refl _ _ hmem := absurd hmem List.not_mem_nil
  append h hothers := List.forall_mem_append.mpr ⟨h, hothers⟩
  trans h hnext := List.forall_mem_append.mpr ⟨h, hnext⟩
  node _ _ _ _ h := h

theorem Lifts.and {P Q : List Node → List Node → List Call → Prop} (hP : Lifts P) (hQ : Lifts Q) :
    Lifts fun before after calls => P before after calls ∧ Q before after calls where
  refl nodes := ⟨hP.refl nodes, hQ.refl nodes⟩
  append h hothers := ⟨hP.append h.1 hothers.1, hQ.append h.2 hothers.2⟩
  trans h hnext := ⟨hP.trans h.1 hnext.1, hQ.trans h.2 hnext.2⟩
  node shell _ _ _ h := ⟨hP.node shell h.1, hQ.node shell h.2⟩

/-- Whether a relation holds of the splice of every text. -/
def Rule.HoldsOnTexts (rule : Rule σ) (P : List Node → List Node → List Call → Prop) : Prop :=
  ∀ value info stack state,
    P [.text value info] ((rule.spliceLeaf value stack state).1.getD [.text value info])
      (rule.callsOn value stack state)

/-- What holds of all answers of a replacer holds of its calls about a text. -/
theorem Rule.holdsOnTexts_of_answers {rule : Rule σ} {Q : Found → Option (List Node) → Prop}
    (h : ∀ found state, Q found (rule.replacer.ask found state).1.toNodes) :
    rule.HoldsOnTexts fun _ _ calls => ∀ call ∈ calls, Q call.found call.answer.toNodes := by
  intro value info stack state call hcall
  obtain ⟨after, hscan, hfound, -, -⟩ := rule.exists_scan_callsOn value stack state
  obtain ⟨before, hanswer⟩ := hscan.exists_answer call.answered (List.mem_map_of_mem hcall)
  have hask : (rule.replacer.ask call.found before.1).1.toNodes = call.answer.toNodes := by
    rw [hfound call hcall]
    exact hanswer
  exact hask ▸ h call.found before.1

namespace Lifts

variable {P : List Node → List Node → List Call → Prop} {rule : Rule σ}

/-- A text at the end of a way: either it is left alone, or it is searched. -/
theorem spliceAt (h : Lifts P) (htexts : rule.HoldsOnTexts P) (ignore : Ignore) (way : Way)
    (value : String) (info : Info) (recorded : σ × List Call) :
    let result := rule.recording.spliceAt ignore way value info recorded
    ∃ calls, result.2.2 = recorded.2 ++ calls ∧
      P [.text value info] (result.1.getD [.text value info]) calls := by
  rw [Rule.spliceAt]
  split
  next => exact ⟨[], (List.append_nil _).symm, h.refl _⟩
  next =>
    rw [rule.spliceLeaf_recording]
    exact ⟨_, rfl, htexts value info _ _⟩

mutual

/-- It holds of the children of a node, before and after they have been gone
through. -/
theorem below (h : Lifts P) (htexts : rule.HoldsOnTexts P) (ignore : Ignore) (way : Way) :
    ∀ (node : Node) (recorded : σ × List Call),
      let result := rule.recording.rewriteBelow ignore way node recorded
      ∃ calls, result.2.2 = recorded.2 ++ calls ∧ P [node] [result.1] calls
  | .root children info, recorded => by
    obtain ⟨calls, hcalls, hchildren⟩ :=
      h.siblings htexts ignore way (.root info) [] children recorded
    rw [Rule.rewriteBelow]
    exact ⟨calls, hcalls, h.node (.root info) hchildren⟩
  | .element tag properties children info, recorded => by
    obtain ⟨calls, hcalls, hchildren⟩ :=
      h.siblings htexts ignore way (.element tag properties info) [] children recorded
    rw [Rule.rewriteBelow]
    exact ⟨calls, hcalls, h.node (.element tag properties info) hchildren⟩
  | .text value info, recorded => ⟨[], (List.append_nil _).symm, h.refl _⟩
  | .comment value info, recorded => ⟨[], (List.append_nil _).symm, h.refl _⟩
  | .doctype name info, recorded => ⟨[], (List.append_nil _).symm, h.refl _⟩

/-- And of siblings from some point on, whatever stands to their left. -/
theorem siblings (h : Lifts P) (htexts : rule.HoldsOnTexts P) (ignore : Ignore) (way : Way)
    (shell : Shell) (done : List Node) : ∀ (rest : List Node) (recorded : σ × List Call),
      let result := rule.recording.rewriteSiblings ignore way shell done rest recorded
      ∃ calls, result.2.2 = recorded.2 ++ calls ∧ P rest result.1 calls
  | [], recorded => ⟨[], (List.append_nil _).symm, h.refl []⟩
  | child :: rest, recorded => by
    cases hchild : child.isText with
    | true =>
      obtain ⟨value, info, rfl⟩ := Node.exists_of_isText hchild
      obtain ⟨first, hstate, hfirst⟩ :=
        h.spliceAt htexts ignore (⟨shell, done, rest⟩ :: way) value info recorded
      -- the calls of the text come first, then those of its next siblings
      rw [Rule.rewriteSiblings]
      generalize rule.recording.spliceAt ignore (⟨shell, done, rest⟩ :: way) value info recorded =
        spliced at hstate hfirst ⊢
      obtain ⟨calls, hcalls, hrest⟩ := h.siblings htexts ignore way shell
        (done ++ spliced.1.getD [.text value info]) rest spliced.2
      rw [hstate, List.append_assoc] at hcalls
      exact ⟨first ++ calls, hcalls, h.append hfirst hrest⟩
    | false =>
      obtain ⟨first, hstate, hfirst⟩ :=
        h.below htexts ignore (⟨shell, done, rest⟩ :: way) child recorded
      rw [Rule.rewriteSiblings_of_not_isText _ _ _ _ _ _ _ hchild]
      generalize rule.recording.rewriteBelow ignore (⟨shell, done, rest⟩ :: way) child recorded =
        inner at hstate hfirst ⊢
      obtain ⟨calls, hcalls, hrest⟩ := h.siblings htexts ignore way shell
        (done ++ [inner.1]) rest inner.2
      rw [hstate, List.append_assoc] at hcalls
      exact ⟨first ++ calls, hcalls, h.append hfirst hrest⟩

end

/-- What holds of texts holds of a pass. -/
theorem apply (h : Lifts P) (htexts : rule.HoldsOnTexts P) (ignore : Ignore) (tree : Node)
    (recorded : σ × List Call) :
    let outcome := rule.recording.apply ignore tree recorded
    ∃ calls, outcome.state.2 = recorded.2 ++ calls ∧ P [tree] [outcome.tree] calls := by
  intro outcome
  have hrewrite : rule.recording.rewriteBelow ignore [] tree recorded =
      (outcome.tree, outcome.state) := (rule.recording.apply_eq_rewrite ignore tree recorded).symm
  have hbelow := h.below htexts ignore [] tree recorded
  rwa [hrewrite] at hbelow

/-- What holds of texts holds of passes one after the other. -/
theorem applyAll (h : Lifts P) {rules : List (Rule σ)}
    (htexts : ∀ rule ∈ rules, rule.HoldsOnTexts P)
    (ignore : Ignore) (tree : Node) (recorded : σ × List Call) :
    let outcome := Rule.applyAll ignore (rules.map Rule.recording) tree recorded
    ∃ calls, outcome.state.2 = recorded.2 ++ calls ∧ P [tree] [outcome.tree] calls := by
  induction rules generalizing tree recorded with
  | nil => exact ⟨[], (List.append_nil _).symm, h.refl _⟩
  | cons rule rest ih =>
    obtain ⟨hrule, hrest⟩ := List.forall_mem_cons.mp htexts
    obtain ⟨first, hstate, hfirst⟩ := h.apply hrule ignore tree recorded
    obtain ⟨calls, hcalls, hmore⟩ := ih hrest (rule.recording.apply ignore tree recorded).tree
      (rule.recording.apply ignore tree recorded).state
    rw [hstate, List.append_assoc] at hcalls
    exact ⟨first ++ calls, hcalls, h.trans hfirst hmore⟩

/-- What holds of texts holds of a search, and of all calls that a record of it
has. -/
theorem findAndReplace (h : Lifts P) {rules : RuleSet σ} {ready : List (Rule σ)}
    (hready : rules.rules = .ok ready) (htexts : ∀ rule ∈ ready, rule.HoldsOnTexts P) (tree : Node)
    (ignore : Ignore) (state : σ) :
    ∃ outcome calls, Graft.findAndReplace tree rules ignore state = .ok outcome ∧
      Graft.findAndReplace tree rules.recording ignore (state, []) =
        .ok ⟨outcome.tree, (outcome.state, calls), outcome.passes⟩ ∧
      P [tree] [outcome.tree] calls := by
  obtain ⟨hrun, hrecording⟩ := findAndReplace_recording hready tree ignore state
  obtain ⟨calls, hcalls, hholds⟩ := h.applyAll htexts ignore tree (state, [])
  generalize Rule.applyAll ignore (ready.map Rule.recording) tree (state, []) = recorded
    at hrun hrecording hcalls hholds
  obtain rfl : calls = recorded.state.2 := hcalls.symm
  exact ⟨recorded.map Prod.fst, recorded.state.2, hrun, hrecording, hholds⟩

end Lifts

/-- What holds of all answers of all replacers holds of all calls of a search. -/
theorem findAndReplace_calls {Q : Found → Option (List Node) → Prop} {rules : RuleSet σ}
    {ready : List (Rule σ)} (hready : rules.rules = .ok ready)
    (h : ∀ rule ∈ ready, ∀ found state, Q found (rule.replacer.ask found state).1.toNodes)
    {tree : Node} {ignore : Ignore} {state : σ} {recorded : Outcome (σ × List Call)}
    (hrecorded : findAndReplace tree rules.recording ignore (state, []) = .ok recorded) :
    ∀ call ∈ recorded.state.2, Q call.found call.answer.toNodes := by
  obtain ⟨outcome, calls, -, hrecording, hcalls⟩ :=
    (Lifts.ofCalls fun call => Q call.found call.answer.toNodes).findAndReplace hready
      (fun rule hrule => Rule.holdsOnTexts_of_answers (h rule hrule)) tree ignore state
  obtain rfl := Except.ok.inj (hrecording.symm.trans hrecorded)
  exact hcalls

end Graft
