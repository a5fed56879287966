import Graft.Proofs.Splice.Lifting
import Graft.Proofs.Splice.Replacing

/-!
# Replacements that keep the text

A replacement that wraps what was found, or makes several nodes of it, keeps the
text content as it was (`text_content`). If all that are accepted do so, the
text content of the tree is the same in the end: each pass cuts texts into
parts, but the parts still make up the texts, and the next pass starts from
them.

The condition is on the calls that are made, not on the replacer: an accepted
match gives way to nodes with the content of the match (`Call.KeepsText`). A
replacer that keeps the text for the matches in this tree and not for others is
covered, and a rejected match counts as kept.

For a single text the pieces of its scan do the work. Between the accepted
matches stand fragments, which have the content they are cut from, and the nodes
of an answer have the content of their match, so the contents of the pieces in
order are the text. That parents have the content of their children is all that
is needed to lift this to trees and passes (`keepsContent_lifts`).

Main statements:
- `Rule.textContents_spliceLeaf`: the splice of a text keeps it;
- `findAndReplace_keeps_textContent`: so does the whole search, whatever is left
  alone.
-/

namespace Graft

variable {σ : Type}

/-- Whether an accepted match is replaced by nodes whose text content is the
match. -/
def Call.KeepsText (call : Call) : Prop :=
  ∀ nodes, call.answer.toNodes = some nodes →
    Node.textContents nodes = String.ofList call.found.value

/-- Whether the text content is kept if every answer keeps its match. -/
def KeepsContent (before after : List Node) (calls : List Call) : Prop :=
  (∀ call ∈ calls, call.KeepsText) → Node.textContents after = Node.textContents before

/-- A parent has the content of its children, whatever its kind. -/
theorem Shell.textContents_node (shell : Shell) (children : List Node) :
    Node.textContents [shell.node children] = Node.textContents children := by
  cases shell <;> exact String.append_empty

/-- Whole trees keep their text content if their parts do. -/
theorem keepsContent_lifts : Lifts KeepsContent where
  refl nodes _ := rfl
  append h hothers hkeep := by
    obtain ⟨hfirst, hsecond⟩ := List.forall_mem_append.mp hkeep
    rw [Node.textContents_append, Node.textContents_append, h hfirst, hothers hsecond]
  trans h hnext hkeep := by
    obtain ⟨hfirst, hsecond⟩ := List.forall_mem_append.mp hkeep
    exact (hnext hsecond).trans (h hfirst)
  node shell _ _ _ h hkeep := by
    rw [shell.textContents_node, shell.textContents_node, h hkeep]

namespace Splice

/-- Every piece stands for an accepted match. -/
theorem Piece.mem_replaced (offset : Nat) {pieces : List Piece} {piece : Piece}
    (h : piece ∈ pieces) :
    ∃ start, ⟨start, piece.matched, piece.nodes⟩ ∈ replaced offset pieces := by
  induction pieces generalizing offset with
  | nil => exact absurd h List.not_mem_nil
  | cons first rest ih =>
    rcases List.mem_cons.mp h with rfl | h
    · exact ⟨_, List.mem_cons_self⟩
    · obtain ⟨start, hmem⟩ := ih (offset + Text.byteLength first.text) h
      exact ⟨start, List.mem_cons_of_mem _ hmem⟩

/-- Pieces lead to nodes that have their text, if each match is replaced by
nodes that have its text. -/
theorem textContents_output {pieces : List Piece}
    (h : ∀ piece ∈ pieces, Node.textContents piece.nodes = String.ofList piece.matched) :
    Node.textContents (pieces.flatMap Piece.output) =
      String.ofList (pieces.flatMap Piece.text) := by
  induction pieces with
  | nil => rfl
  | cons piece rest ih =>
    obtain ⟨hpiece, hrest⟩ := List.forall_mem_cons.mp h
    rw [List.flatMap_cons, List.flatMap_cons, Node.textContents_append, ih hrest, Piece.output,
      Piece.text, Node.textContents_append, textContents_fragment, hpiece, String.ofList_append,
      String.ofList_append]

end Splice

/-- The splice of a text keeps it, if every answer keeps its match. -/
theorem Rule.textContents_spliceLeaf (rule : Rule σ) {value : String} {stack : List Node}
    {state : σ} (h : ∀ call ∈ rule.callsOn value stack state, call.KeepsText) {nodes : List Node}
    (hnodes : (rule.spliceLeaf value stack state).1 = some nodes) :
    Node.textContents nodes = value := by
  obtain ⟨after, hscan, hfound, -, hsplice⟩ := rule.exists_scan_callsOn value stack state
  have hleaf := rule.recording.findsParts_leaf value.toList stack
  rw [hsplice] at hnodes
  obtain ⟨pieces, last, htext, rfl, hpieces⟩ :=
    hscan.inPieces hleaf (List.nil_append _).symm (Nat.le_refl 0) hnodes
  -- each piece stands for the match of a call, and the answer keeps it
  have hkept : ∀ piece ∈ pieces, Node.textContents piece.nodes = String.ofList piece.matched := by
    intro piece hmem
    obtain ⟨start, hreplaced⟩ := Splice.Piece.mem_replaced _ hmem
    rw [← hpieces] at hreplaced
    obtain ⟨answered, hanswered, hgiven⟩ := List.mem_filterMap.mp hreplaced
    obtain ⟨call, hcall, rfl⟩ := List.mem_map.mp hanswered
    obtain ⟨put, hput, heq⟩ := Option.map_eq_some_iff.mp hgiven
    obtain ⟨-, hmatched, rfl⟩ := Splice.Replaced.mk.inj heq
    have hvalue : call.found.value = piece.matched := by
      rw [Found.value, congrArg Found.input (hfound call hcall)]
      exact hmatched
    rw [h call hcall piece.nodes hput, hvalue]
  rw [Node.textContents_append, Splice.textContents_output hkept, textContents_fragment,
    ← String.ofList_append]
  exact (congrArg String.ofList htext.symm).trans String.ofList_toList

/-- Every rule keeps the content of every text, if every answer keeps its match. -/
theorem Rule.keepsContent_onTexts (rule : Rule σ) : rule.HoldsOnTexts KeepsContent := by
  intro value info stack state hkeep
  have hvalue : Node.textContents [.text value info] = value := String.append_empty
  cases hspliced : (rule.spliceLeaf value stack state).1 with
  | none => rfl
  | some nodes => exact (rule.textContents_spliceLeaf hkeep hspliced).trans hvalue.symm

/-! ## Replacers that always keep the text -/

/-- Whether a replacer only ever answers with nodes that have the text of the
match, or rejects it. -/
def Replacer.KeepsText (replacer : Replacer σ) : Prop :=
  ∀ found state nodes, (replacer.ask found state).1.toNodes = some nodes →
    Node.textContents nodes = String.ofList found.value

/-- If all replacers keep the text, then all calls of a search do. -/
theorem findAndReplace_calls_keepsText {rules : RuleSet σ} {ready : List (Rule σ)}
    (hready : rules.rules = .ok ready) (h : ∀ rule ∈ ready, rule.replacer.KeepsText) (tree : Node)
    (ignore : Ignore) (state : σ) {recorded : Outcome (σ × List Call)}
    (hrecorded : findAndReplace tree rules.recording ignore (state, []) = .ok recorded) :
    ∀ call ∈ recorded.state.2, call.KeepsText := by
  refine findAndReplace_calls (Q := fun found given => ∀ nodes, given = some nodes →
    Node.textContents nodes = String.ofList found.value) hready h hrecorded

/-- A search in which every accepted match is replaced by nodes with the text of
the match leaves the text content of the tree as it was, through all passes. -/
theorem findAndReplace_keeps_textContent (tree : Node) {rules : RuleSet σ} {ready : List (Rule σ)}
    (hready : rules.rules = .ok ready) (ignore : Ignore) (state : σ) :
    ∃ outcome calls, findAndReplace tree rules ignore state = .ok outcome ∧
      findAndReplace tree rules.recording ignore (state, []) =
        .ok ⟨outcome.tree, (outcome.state, calls), outcome.passes⟩ ∧
      ((∀ call ∈ calls, call.KeepsText) → outcome.tree.textContent = tree.textContent) := by
  obtain ⟨outcome, calls, hrun, hrecording, hkeeps⟩ :=
    keepsContent_lifts.findAndReplace hready (fun rule _ =>
      rule.keepsContent_onTexts) tree ignore state
  have hone : ∀ node : Node, Node.textContents [node] = node.textContent :=
    fun _ => String.append_empty
  rw [KeepsContent, hone, hone] at hkeeps
  exact ⟨outcome, calls, hrun, hrecording, hkeeps⟩

/-- A match can be wrapped in one pass and wrapped again in the next. -/
theorem findAndReplace_keeps_textContent_wrapping :
    let tree := Node.ofChildren [.ofTag "p" [.ofText "abc"]]
    let wrap : Found → Unit → Replacement × Unit := fun found state =>
      (.nodes [.ofTag "b" [.ofText (String.ofList found.value)]], state)
    let rules : RuleSet Unit :=
      .list [(.literal "bc", .function wrap), (.literal "b", .function wrap)]
    (∃ ready, rules.rules = .ok ready) ∧
      ∃ outcome, findAndReplace tree rules .default () = .ok outcome ∧
        outcome.tree.textContent = "abc" := by
  intro tree wrap rules
  have hready : rules.rules = .ok _ := RuleSet.rules_list (by decide)
  obtain ⟨outcome, calls, hrun, hrecording, hkeeps⟩ :=
    findAndReplace_keeps_textContent tree hready .default ()
  refine ⟨⟨_, hready⟩, outcome, hrun, hkeeps ?_⟩
  refine findAndReplace_calls_keepsText hready ?_ tree .default () hrecording
  have hwrap : (Replacer.function wrap).KeepsText := by
    rintro found state nodes ⟨⟩
    exact (String.append_empty).trans String.append_empty
  exact List.forall_mem_cons.mpr ⟨hwrap, List.forall_mem_singleton.mpr hwrap⟩

end Graft
