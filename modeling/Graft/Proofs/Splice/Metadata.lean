import Graft.Proofs.Rule.Reading
import Graft.Proofs.Splice.Outlasting
import Graft.Proofs.Tree.Lockstep

/-!
# Searches that do not see metadata

A search goes by the texts of a tree, by where they are, and by the tag names
above them. If its replacers look at nothing but their matches, searches of two
trees that differ in metadata only do the same: the same matches are asked about
in the same order and get the same answers, and the same nodes are put in the
same places. What is left of each tree keeps its own metadata.

Metadata is what `Node.outline` takes away: positions and data, properties, the
values of comments and the names of document types. Two runs are compared in
lockstep on trees with one outline. `Visitor.KeepsStep` and its walk
(`Graft.Proofs.Tree.Lockstep`) know nothing of splices; here the visitor of a
rule is shown to be one that keeps step, for rules that do so on texts
(`Rule.KeepsStep`).

How alike the states have to be is a parameter. For the search itself it is
equality. For the search that is recorded the calls hold stacks, and those
differ in metadata by nature, so that they are compared by their outlines
(`Call.Alike`). Both instances come from one condition on the replacer,
`ReadsMatch`: its answer and its next state do not depend on the stack.

At the end the edits are compared: passes in step put the same nodes in the same
places, so the two substitutions are equal, and what they spare in each tree is
carried over with its own metadata (`carries_applyAll`).

Main statements:
- `Rule.KeepsStep.visitor`, `Rule.KeepsStep.applyAll`: passes over trees with
  one outline are in step;
- `Rule.KeepsStep.editsAll`: they put the same nodes in the same places;
- `Replacer.ReadsMatch.keepsStep`, `Replacer.ReadsMatch.recording_keepsStep`:
  which rules are in step;
- `findAndReplace_ignores_metadata`: so whole searches are.
-/

namespace Graft

variable {σ τ : Type}

/-- Whether what takes the place of a text goes by the text and the outlines
around it: the same nodes do where states are alike, and states stay alike. -/
def Rule.KeepsStep (rule : Rule τ) (alike : τ → τ → Prop) : Prop :=
  ∀ (text : String) {stack other : List Node} {state current : τ},
    stack.map Node.outline = other.map Node.outline → alike state current →
      (rule.spliceLeaf text stack state).1 = (rule.spliceLeaf text other current).1 ∧
        alike (rule.spliceLeaf text stack state).2 (rule.spliceLeaf text other current).2

/-- Whether two passes over the same texts have spliced the same number of them
so far, with states that are alike. -/
structure Progress.InStep (alike : τ → τ → Prop) (first second : Progress τ) : Prop where
  state : alike first.state second.state
  splices : first.splices = second.splices

/-- Whether two trees have one outline after the same passes, with states that
are alike. -/
structure Outcome.InStep (alike : τ → τ → Prop) (first second : Outcome τ) : Prop where
  outline : first.tree.outline = second.tree.outline
  state : alike first.state second.state
  passes : first.passes = second.passes

/-- Trees with one outline have their texts at the same paths. -/
theorem Node.textPaths_eq_of_outline {tree other : Node} (h : tree.outline = other.outline) :
    tree.textPaths = other.textPaths := by
  have houtline : ∀ node : Node, node.outline.textPaths = node.textPaths := by
    intro node
    rw [textPaths, descendants_outline, List.filter_map, List.map_map, textPaths]
    refine congrArg _ (List.filter_congr fun one _ => ?_)
    exact one.2.isText_outline
  rw [← houtline tree, ← houtline other, h]

namespace Rule

theorem walkFuel_of_outline {tree other : Node} (h : tree.outline = other.outline) :
    walkFuel tree = walkFuel other := by
  rw [walkFuel, walkFuel, ← tree.size_outline, ← other.size_outline, h]

/-- A text is scanned unless an ancestor is left alone. -/
theorem scan_of_text (rule : Rule τ) (ignore : Ignore) {tree : Node} {path : Path}
    {stack : List Node} {value : String}
    {info : Info} (hstack : tree.stack? path = some stack)
    (htext : tree.get? path = some (.text value info))
    (state : τ) : rule.scan ignore tree path state =
      if ignore.excludes stack path then (none, state) else rule.spliceLeaf value stack state := by
  have hlast : stack.getLast?.bind Node.value? = some value := by
    rw [Node.getLast?_of_stack? hstack, htext]
    rfl
  rw [scan, hstack]
  dsimp only
  rw [hlast]

namespace KeepsStep

variable {rule : Rule τ} {alike : τ → τ → Prop} {ignore : Ignore} {tree other : Node}

/-! ## Passes -/

/-- Texts at one path are scanned in step. -/
theorem scan (h : rule.KeepsStep alike) (htest : ignore.test.byTag = true)
    (hsame : tree.outline = other.outline)
    {path : Path} {value : String} {info : Info} (htext : tree.get? path = some (.text value info))
    {state current : τ} (hstate : alike state current) :
    (rule.scan ignore tree path state).1 = (rule.scan ignore other path current).1 ∧
      alike (rule.scan ignore tree path state).2 (rule.scan ignore other path current).2 := by
  -- at the same path stands a text with the same value, below ancestors with the same outlines
  obtain ⟨found, hfound, houtline⟩ : ∃ found, other.get? path = some found ∧
      found.outline = (Node.text value info).outline := by
    have hnodes := Node.map_outline_get? hsame path
    rw [htext] at hnodes
    exact Option.map_eq_some_iff.mp hnodes.symm
  obtain ⟨_, rfl⟩ := Node.outline_eq_text houtline
  obtain ⟨stack, hstack⟩ : ∃ stack, tree.stack? path = some stack :=
    Option.isSome_iff_exists.mp (by rw [Node.stack?_isSome, htext]; rfl)
  obtain ⟨above, habove, hstacks⟩ : ∃ above, other.stack? path = some above ∧
      above.map Node.outline = stack.map Node.outline := by
    have hstacks := tree.stack?_outline path
    rw [hsame, Node.stack?_outline, hstack] at hstacks
    exact Option.map_eq_some_iff.mp hstacks
  have hexcludes : ignore.excludes stack path = ignore.excludes above path := by
    rw [← Ignore.excludes_outline htest stack, ← hstacks, Ignore.excludes_outline htest above]
  rw [rule.scan_of_text ignore hstack htext, rule.scan_of_text ignore habove hfound, hexcludes]
  split
  next => exact ⟨rfl, hstate⟩
  next => exact h value hstacks.symm hstate

/-- Passes over trees with one outline are in step. -/
theorem visitor (h : rule.KeepsStep alike) (htest : ignore.test.byTag = true) :
    (rule.visitor ignore).KeepsStep (Progress.InStep alike) where
  accepts := Node.isText_outline
  visit := by
    intro tree other node path progress current hsame hnode haccepts hprogress
    obtain ⟨value, info, rfl⟩ := Node.exists_of_isText haccepts
    obtain ⟨hspliced, hstate⟩ := h.scan htest hsame hnode hprogress.state
    show (rule.visit ignore progress tree path).InStep _ (rule.visit ignore current other path)
    unfold Rule.visit
    -- the root is never replaced; at any other path both trees are edited at the same index
    cases path.getLast? with
    | none => exact ⟨rfl, hsame, hprogress⟩
    | some index =>
      dsimp only
      generalize rule.scan ignore tree path progress.state = first at hspliced hstate
      generalize rule.scan ignore other path current.state = second at hspliced hstate
      obtain ⟨spliced, state⟩ := first
      obtain ⟨_, next⟩ := second
      obtain rfl := hspliced
      cases spliced with
      | none => exact ⟨rfl, hsame, hstate, hprogress.splices⟩
      | some nodes =>
        have hedit : ∀ node : Node,
            (node.modifyAt (·.spliceChildren index 1 nodes) path.dropLast).outline =
              node.outline.modifyAt (·.spliceChildren index 1 (nodes.map Node.outline))
                path.dropLast :=
          Node.outline_modifyAt
            (fun parent => parent.outline_spliceChildren index 1 nodes) path.dropLast
        exact ⟨rfl, by rw [hedit, hedit, hsame], hstate, congrArg (· + 1) hprogress.splices⟩

/-- A pass as a whole, from states that are alike to states that are alike. -/
theorem apply (h : rule.KeepsStep alike) (htest : ignore.test.byTag = true)
    (hsame : tree.outline = other.outline) {state current : τ} (hstate : alike state current) :
    (rule.apply ignore tree state).InStep alike (rule.apply ignore other current) := by
  have hstart : Progress.InStep alike ⟨state, 0⟩ ⟨current, 0⟩ := ⟨hstate, rfl⟩
  have hwalk := (h.visitor htest).walk (walkFuel other) hsame hstart
  rw [Rule.apply, Rule.apply, walkFuel_of_outline hsame]
  exact ⟨hwalk.outline, hwalk.state.state, by rw [hwalk.state.splices]⟩

/-- All passes over trees with one outline are in step. -/
theorem applyAll {rules : List (Rule τ)} (h : ∀ rule ∈ rules, rule.KeepsStep alike)
    (htest : ignore.test.byTag = true) (hsame : tree.outline = other.outline) {state current : τ}
    (hstate : alike state current) :
    (Rule.applyAll ignore rules tree state).InStep alike
      (Rule.applyAll ignore rules other current) := by
  induction rules generalizing tree other state current with
  | nil => exact ⟨hsame, hstate, rfl⟩
  | cons rule rest ih =>
    obtain ⟨hrule, hrest⟩ := List.forall_mem_cons.mp h
    have hfirst := hrule.apply htest hsame hstate
    have hothers := ih hrest hfirst.outline hfirst.state
    rw [Rule.applyAll, Rule.applyAll]
    exact ⟨hothers.outline, hothers.state, by rw [hfirst.passes, hothers.passes]⟩

/-! ## Edits -/

/-- The visits of passes over trees with one outline are in step one by one. -/
theorem visits (h : rule.KeepsStep alike) (htest : ignore.test.byTag = true)
    (hsame : tree.outline = other.outline) {state current : τ} (hstate : alike state current) :
    List.Forall₂ (Visit.InStep (Progress.InStep alike)) (rule.visits ignore tree state)
      (rule.visits ignore other current) := by
  have hstart : Progress.InStep alike ⟨state, 0⟩ ⟨current, 0⟩ := ⟨hstate, rfl⟩
  have hkept : ∀ {first second : Visit (Progress τ)}, first.InStep (Progress.InStep alike) second →
      ((!first.path.isEmpty) = true ↔ (!second.path.isEmpty) = true) := by
    intro first second hvisit
    rw [hvisit.path]
  rw [Rule.visits, Rule.visits, walkFuel_of_outline hsame]
  exact List.rel_filter
    (fun _ _ hvisit => hkept hvisit) ((h.visitor htest).visits (walkFuel other) hsame hstart)

/-- Visits that are in step decide the same. -/
theorem decided (h : rule.KeepsStep alike) (htest : ignore.test.byTag = true)
    {first second : Visit (Progress τ)}
    (hvisit : first.InStep (Progress.InStep alike) second) {value : String} {info : Info}
    (htext : first.node? = some (.text value info)) :
    rule.decided ignore first = rule.decided ignore second := by
  obtain ⟨hspliced, -⟩ := h.scan htest hvisit.tree htext hvisit.state.state
  unfold Rule.decided decide
  rw [← hvisit.path]
  cases first.path.getLast? with
  | none => rfl
  | some index =>
    dsimp only
    generalize rule.scan ignore first.tree first.path first.state.state = given at hspliced
    generalize rule.scan ignore second.tree first.path second.state.state = made at hspliced
    obtain ⟨spliced, state⟩ := given
    obtain ⟨_, next⟩ := made
    obtain rfl := hspliced
    cases spliced <;> rfl

/-- Passes over trees with one outline put the same nodes in the same places. -/
theorem edits (h : rule.KeepsStep alike) (htest : ignore.test.byTag = true)
    (hsame : tree.outline = other.outline) {state current : τ} (hstate : alike state current) :
    rule.edits ignore tree state = rule.edits ignore other current := by
  have hdecided : (rule.visits ignore tree state).map (rule.decided ignore) =
      (rule.visits ignore other current).map (rule.decided ignore) := by
    have htexts : ∀ visit ∈ rule.visits ignore tree state, ∃ value info,
        visit.node? = some (.text value info) :=
      fun visit hmem => (visit_of_mem_visits hmem).2.2.2
    have hvisits := h.visits htest hsame hstate
    generalize rule.visits ignore tree state = first at htexts hvisits ⊢
    generalize rule.visits ignore other current = second at hvisits ⊢
    -- visit by visit: both decide the same, as the text and the state say what is decided
    induction hvisits with
    | nil => rfl
    | cons hvisit _ ih =>
      obtain ⟨⟨value, info, htext⟩, htexts⟩ := List.forall_mem_cons.mp htexts
      rw [List.map_cons, List.map_cons, h.decided htest hvisit htext, ih htexts]
  refine congrArg Mark.substitution (Mark.eq_of_maps ?_ ?_)
  · rw [map_place_marks, map_place_marks, Node.textPaths_eq_of_outline hsame]
  · rw [map_decision_marks, map_decision_marks, hdecided]

/-- All passes put the same nodes in the same places, each in the tree that the
one before it has left. -/
theorem editsAll {rules : List (Rule τ)} (h : ∀ rule ∈ rules, rule.KeepsStep alike)
    (htest : ignore.test.byTag = true) (hsame : tree.outline = other.outline) {state current : τ}
    (hstate : alike state current) :
    Rule.editsAll ignore rules tree state = Rule.editsAll ignore rules other current := by
  induction rules generalizing tree other state current with
  | nil => rfl
  | cons rule rest ih =>
    obtain ⟨hrule, hrest⟩ := List.forall_mem_cons.mp h
    have hfirst := hrule.apply htest hsame hstate
    rw [Rule.editsAll, Rule.editsAll, hrule.edits htest hsame hstate]
    exact congrArg _ (ih hrest hfirst.outline hfirst.state)

end KeepsStep

end Rule

/-! ## Replacers that go by their matches -/

/-- The match with the outlines of the nodes around it. -/
def Found.outline (found : Found) : Found := { found with stack := found.stack.map Node.outline }

/-- The call with the outlines of the nodes around its match. -/
def Call.outline (call : Call) : Call := ⟨call.found.outline, call.answer⟩

/-- Whether two records have the same calls but for metadata, beside the same
state. -/
def Call.Alike (first second : σ × List Call) : Prop :=
  first.1 = second.1 ∧ first.2.map outline = second.2.map outline

/-- Whether a replacer goes by the match and its own state: the nodes around the
match do not count. -/
def Replacer.ReadsMatch (replacer : Replacer σ) : Prop :=
  ∀ found stack state, replacer.ask { found with stack } state = replacer.ask found state

namespace Replacer.ReadsMatch

variable {rule : Rule σ}

/-- What takes the place of a text does not depend on the nodes around it. -/
theorem spliceLeaf_eq (h : rule.replacer.ReadsMatch) (text : String) (stack other : List Node)
    (state : σ) :
    rule.spliceLeaf text stack state = rule.spliceLeaf text other state := by
  have hanswer : (rule.leaf text.toList stack).answer = (rule.leaf text.toList other).answer := by
    funext spans current
    have hask : rule.replacer.ask (rule.found text.toList stack spans) current =
        rule.replacer.ask (rule.found text.toList other spans) current :=
      h (rule.found text.toList other spans) stack current
    exact congrArg (Prod.map Replacement.toNodes id) hask
  exact congrArg (fun answer => Splice.Leaf.splice ⟨text.toList, _, _, answer⟩ state) hanswer

theorem keepsStep (h : rule.replacer.ReadsMatch) : rule.KeepsStep Eq := by
  rintro text stack other state _ - rfl
  rw [h.spliceLeaf_eq text stack other]
  exact ⟨rfl, rfl⟩

/-- The calls in the splice of a text, but for the metadata around it, are those
with the outlines around it. -/
theorem callsOn_outline (h : rule.replacer.ReadsMatch) (text : String) (stack : List Node)
    (state : σ) :
    (rule.callsOn text stack state).map Call.outline =
      rule.callsOn text (stack.map Node.outline) state := by
  have hrecord : ∀ (around : List Node) (spans : Match) (recorded : σ × List Call),
      (rule.recording.leaf text.toList around).answer spans recorded =
        let asked := rule.replacer.ask (rule.found text.toList around spans) recorded.1
        (asked.1.toNodes, asked.2,
          recorded.2 ++ [⟨rule.found text.toList around spans, asked.1⟩]) :=
    fun _ _ _ => rfl
  -- an answer in the recorded leaf is the answer itself, with one call added to the record
  have hanswer : ∀ spans recorded,
      (rule.recording.leaf text.toList (stack.map Node.outline)).answer spans
          (Prod.map id (List.map Call.outline) recorded) =
        Prod.map id (Prod.map id (List.map Call.outline))
          ((rule.recording.leaf text.toList stack).answer spans recorded) := by
    rintro spans ⟨current, seen⟩
    have hask : rule.replacer.ask (rule.found text.toList (stack.map Node.outline) spans) current =
        rule.replacer.ask (rule.found text.toList stack spans) current :=
      h (rule.found text.toList stack spans) (stack.map Node.outline) current
    rw [hrecord, hrecord]
    dsimp only [Prod.map, id]
    rw [hask, List.map_append]
    rfl
  have hview := Splice.Leaf.spliceFrom_view _ _ hanswer (text.toList.length + 1) 0 0 (state, [])
  exact (congrArg (fun spliced => spliced.2.2) hview).symm

/-- Records of calls are in step if the calls are the same but for metadata. -/
theorem recording_keepsStep (h : rule.replacer.ReadsMatch) :
    rule.recording.KeepsStep Call.Alike := by
  rintro text stack other ⟨state, seen⟩ ⟨_, others⟩ hstacks ⟨rfl, hseen⟩
  have hcalls : (rule.callsOn text stack state).map Call.outline =
      (rule.callsOn text other state).map Call.outline := by
    rw [h.callsOn_outline, h.callsOn_outline, hstacks]
  rw [rule.spliceLeaf_recording, rule.spliceLeaf_recording, h.spliceLeaf_eq text stack other]
  refine ⟨rfl, rfl, ?_⟩
  rw [List.map_append, List.map_append, hseen, hcalls]

end Replacer.ReadsMatch

/-! ## The whole search -/

/-- Metadata does not influence a search. Take two trees that differ in
positions, data, properties, values of comments and names of document types
only, a test by tag name, and replacers that go by their matches. The searches
of both make the same calls with the same answers, end in the same state after
the same passes, and leave trees that again differ in metadata only. In each
pass they put the same nodes in the same places, so the same nodes of both trees
are left, at the same places, each with the metadata that it had. -/
theorem findAndReplace_ignores_metadata {tree other : Node} (hsame : tree.outline = other.outline)
    {rules : RuleSet σ} {ready : List (Rule σ)} (hready : rules.rules = .ok ready)
    (hreads : ∀ replacer ∈ rules.replacers, replacer.ReadsMatch) {ignore : Ignore}
    (htest : ignore.test.byTag = true) (state : σ) :
    ∃ outcome result calls asked,
      findAndReplace tree rules ignore state = .ok outcome ∧
      findAndReplace other rules ignore state = .ok result ∧
      findAndReplace tree rules.recording ignore (state, []) =
        .ok ⟨outcome.tree, (outcome.state, calls), outcome.passes⟩ ∧
      findAndReplace other rules.recording ignore (state, []) =
        .ok ⟨result.tree, (result.state, asked), result.passes⟩ ∧
      calls.map Call.outline = asked.map Call.outline ∧
      outcome.tree.outline = result.tree.outline ∧ outcome.state = result.state ∧
        outcome.passes = result.passes ∧
      let edits := Rule.editsAll ignore ready tree state
      Rule.editsAll ignore ready other state = edits ∧
        outcome.tree = edits.foldl (fun current edits => current.substitute edits) tree ∧
        result.tree = edits.foldl (fun current edits => current.substitute edits) other ∧
        Substitution.Carries edits tree outcome.tree ∧
          Substitution.Carries edits other result.tree := by
  have hrules : ∀ rule ∈ ready, rule.replacer.ReadsMatch :=
    fun rule hmem => hreads _ (RuleSet.replacer_mem hready hmem)
  have hrecordings : ∀ rule ∈ ready.map Rule.recording, rule.KeepsStep Call.Alike := by
    intro rule hmem
    obtain ⟨plain, hplain, rfl⟩ := List.mem_map.mp hmem
    exact (hrules plain hplain).recording_keepsStep
  have hplains : ∀ rule ∈ ready, rule.KeepsStep Eq := fun rule hmem => (hrules rule hmem).keepsStep
  obtain ⟨hrun, hrecording⟩ := findAndReplace_recording hready tree ignore state
  obtain ⟨hrunOther, hrecordingOther⟩ := findAndReplace_recording hready other ignore state
  have hall := Rule.applyAll_recording ignore ready tree state []
  have hallOther := Rule.applyAll_recording ignore ready other state []
  have hstart : Call.Alike (state, []) (state, []) := ⟨rfl, rfl⟩
  obtain ⟨houtline, ⟨hstate, hcalls⟩, hpasses⟩ :=
    Rule.KeepsStep.applyAll hrecordings htest hsame hstart
  have hedits : Rule.editsAll ignore ready other state = Rule.editsAll ignore ready tree state :=
    (Rule.KeepsStep.editsAll hplains htest hsame rfl).symm
  have htree := Rule.tree_applyAll ignore ready tree state
  have htreeOther := Rule.tree_applyAll ignore ready other state
  have hcarries := Rule.carries_applyAll ignore ready tree state
  have hcarriesOther := Rule.carries_applyAll ignore ready other state
  rw [hall] at htree hcarries
  rw [hallOther, hedits] at htreeOther hcarriesOther
  exact ⟨_, _, _, _, hrun, hrunOther, hrecording, hrecordingOther, hcalls, houtline,
    hstate, hpasses,
    hedits, htree, htreeOther, hcarries, hcarriesOther⟩

/-- Two pages differ in their declarations, in a comment, and in properties and
data. Every other match of a letter is replaced, and each page keeps its
comment, behind a text that is cut in two. -/
theorem findAndReplace_ignores_metadata_pages :
    let page : Node := .root [.doctype (some "html") {}, .ofText "aba", .comment "a" {},
      .element "p" [("id", .string "a")] [.text "a" { data := some (.string "a") }] {}] {}
    let plain : Node :=
      .root [.doctype none {}, .ofText "aba", .comment "b" {}, .element "p" [] [.ofText "a"] {}] {}
    let everyOther : Replacer Nat :=
      .function fun _ n => (if n % 2 = 0 then .reject else .text "x", n + 1)
    let rules : RuleSet Nat := .list [(.literal "a", everyOther)]
    page.outline = plain.outline ∧ (∃ ready, rules.rules = .ok ready) ∧
      (∀ replacer ∈ rules.replacers, replacer.ReadsMatch) ∧
      Ignore.default.test.byTag = true ∧
      ∃ outcome result, findAndReplace page rules .default 0 = .ok outcome ∧
        findAndReplace plain rules .default 0 = .ok result ∧
          outcome.tree.outline = result.tree.outline ∧
        (∃ left, outcome.tree.get? [3] = some left ∧ left.bare = .comment "a" {}) ∧
        ∃ left, result.tree.get? [3] = some left ∧ left.bare = .comment "b" {} := by
  intro page plain everyOther rules
  have hsame : page.outline = plain.outline := by rfl
  have hready : rules.rules = .ok _ := RuleSet.rules_list (by decide)
  have hreads : ∀ replacer ∈ rules.replacers, replacer.ReadsMatch := by
    intro replacer hmem found stack state
    obtain rfl := List.mem_singleton.mp hmem
    rfl
  have htest : Ignore.default.test.byTag = true := rfl
  obtain ⟨outcome, result, -, -, hrun, hrunPlain, -, -, -, houtline, -, -, -, -, -, hpage,
      hplain⟩ :=
    findAndReplace_ignores_metadata hsame hready hreads htest 0
  have hcomment : page.get? [2] = some (.comment "a" {}) := rfl
  have hcommentPlain : plain.get? [2] = some (.comment "b" {}) := rfl
  have hplace : Substitution.follow
      (Rule.editsAll .default [⟨(Find.literal "a").toPattern, everyOther⟩] page 0) [2] =
        some [3] := by
    decide +kernel
  refine ⟨hsame, ⟨_, hready⟩, hreads, htest, outcome, result, hrun, hrunPlain, houtline, ?_, ?_⟩
  · obtain ⟨left, hleft, hbare, -⟩ := hpage.keeps hcomment hplace
    exact ⟨left, hleft, hbare⟩
  · obtain ⟨left, hleft, hbare, -⟩ := hplain.keeps hcommentPlain hplace
    exact ⟨left, hleft, hbare⟩

end Graft
