import Graft.Proofs.Splice.Recording
import Graft.Proofs.Splice.Rewriting
import Graft.Proofs.Tree.Sources

/-!
# Calls of a pass

A pass (`Pass::visit` under `visit_parents`) visits the texts of the tree it is
given, and asks its replacer about the matches in them. What it puts in may
match again, and may shift or remove what has not been visited yet; still every
text is visited that was there at first, once and in document order, and none
that the pass has put in. Every call is made with the stack of the moment.

Visits and calls are taken from the trace of the walk, which holds for every
visit the tree, the path and the state at the time. So a visit can be asked for
its node and a call for its ancestors without any bookkeeping in the pass
itself. `callsIn` is what one visit records and `callsOf` what a whole pass
does; that the second is made of the first is `Rule.calls_apply`.

The statement on visits comes from the walk of editors (`Editor.EditsTexts`),
which knows the places of the texts that were there at first. The statement on
calls comes from the splice: in a visit, every call is told of the text that
stands at the path, and of a part of it (`Call.FitsAt`). Termination belongs to
both, for the walk and for each splice, and is stated for every amount of fuel
beyond what is needed, so that the bound in the definition has no part in the
outcome.

Main statements:
- `Rule.calls_apply`: the calls of a pass are those of its visits, one visit
  after the other;
- `Rule.fitsAt_of_mem_callsIn`: a call is told of the leaf that is visited, and
  of a part of its text;
- `Rule.visits_and_calls`: the visits and the calls of a pass.
-/

namespace Graft

variable {σ : Type}

/-- Whether a call was made about the text at a path of a tree. -/
structure Call.FitsAt (call : Call) (tree : Node) (path : Path) : Prop where
  /-- The stack starts with the root. -/
  first : call.found.stack.head? = some tree
  /-- Every other node of the stack is the child that the path says of the one
  before it. -/
  child : ∀ i above below, call.found.stack[i]? = some above →
    call.found.stack[i + 1]? = some below →
    ∃ index, path[i]? = some index ∧ above.children[index]? = some below
  /-- The last one is the text at the path, and its value is the input. -/
  leaf : ∃ value info, call.found.leaf? = some (.text value info) ∧
    tree.get? path = some (.text value info) ∧ call.found.input = value.toList
  /-- The text has a parent. -/
  parent : ∃ parent, call.found.parent? = some parent ∧ tree.get? path.dropLast = some parent
  /-- The match starts between two characters of the input, or at one of its
  ends. -/
  start : Text.IsBoundary call.found.input call.found.index
  /-- So it stops, behind its value. -/
  stop : Text.IsBoundary call.found.input (call.found.index + Text.byteLength call.found.value)
  /-- The value is what lies between. -/
  value : call.found.value = Text.between call.found.input call.found.index
    (call.found.index + Text.byteLength call.found.value)

namespace Rule

/-- The visits of a pass. A text that is the whole tree is passed by. -/
def visits (rule : Rule σ) (ignore : Ignore) (tree : Node) (state : σ) :
    List (Visit (Progress σ)) :=
  (walk (rule.visitor ignore).recording (walkFuel tree) tree (⟨state, 0⟩, [])).state.2.filter
    fun visit => !visit.path.isEmpty

/-- The calls of the replacer in a visit. -/
def callsIn (rule : Rule σ) (ignore : Ignore) (visit : Visit (Progress σ)) : List Call :=
  (rule.recording.visit ignore ⟨(visit.state.state, []), visit.state.splices⟩ visit.tree
    visit.path).state.state.2

/-- A record of visits, seen as the record of the calls in them. -/
def callsOf (rule : Rule σ) (ignore : Ignore)
    (recorded : Progress σ × List (Visit (Progress σ))) : Progress (σ × List Call) :=
  ⟨(recorded.1.state, recorded.2.flatMap (rule.callsIn ignore)), recorded.1.splices⟩

/-- A visit adds its calls to the record, and does what it does without one. -/
theorem visit_recording (rule : Rule σ) (ignore : Ignore) (progress : Progress σ)
    (before : List Call) (tree : Node) (path : Path) :
    rule.recording.visit ignore ⟨(progress.state, before), progress.splices⟩ tree path =
      let outcome := rule.visit ignore progress tree path
      ⟨outcome.step, outcome.tree, ⟨(outcome.state.state,
        before ++ rule.callsIn ignore ⟨progress, tree, path, outcome⟩),
          outcome.state.splices⟩⟩ := by
  have hfirst := (rule.recording_seenAs.visitor ignore).visit
    ⟨(progress.state, []), progress.splices⟩ tree path
  have hbefore := ((rule.recording_seenAs_append before).visitor ignore).visit
    ⟨(progress.state, []), progress.splices⟩ tree path
  dsimp only [Progress.map] at hfirst hbefore
  rw [List.append_nil] at hbefore
  -- the visit with an empty record gives both the plain visit and the one with `before`
  have hplain : rule.visit ignore progress tree path = _ := hfirst
  rw [hplain]
  exact hbefore

/-- A pass with a record of its visits, seen as a pass with a record of its
calls. -/
theorem seenAs_callsOf (rule : Rule σ) (ignore : Ignore) :
    (rule.visitor ignore).recording.SeenAs (rule.callsOf ignore)
      (rule.recording.visitor ignore) := by
  refine ⟨rfl, fun recorded tree path => ?_⟩
  refine (rule.visit_recording ignore recorded.1 _ tree path).trans ?_
  unfold Visited.map callsOf
  dsimp only [Visitor.recording]
  rw [List.flatMap_append, List.flatMap_singleton]
  rfl

/-- A pass replaces texts and nothing else, and never looks behind what it has
put in. -/
theorem editsTexts_editor (rule : Rule σ) (ignore : Ignore) : (rule.editor ignore).EditsTexts := by
  refine ⟨rfl, fun progress tree path => ?_⟩
  show (rule.decide ignore progress tree path).1 = _ ∨ ∃ nodes, (rule.decide ignore _ _ _).1 = _
  rw [decide]
  split
  next => exact Or.inl rfl
  next =>
    split
    next => exact Or.inl rfl
    next nodes _ _ => exact Or.inr ⟨nodes, rfl⟩

/-- If the tree is no text itself, all visits are those of texts below, in
document order. -/
theorem visits_of_not_isText (rule : Rule σ) (ignore : Ignore) {tree : Node} (state : σ)
    (h : tree.isText = false) :
    rule.visits ignore tree state =
        (walk (rule.visitor ignore).recording (walkFuel tree) tree (⟨state, 0⟩, [])).state.2 ∧
      Visit.sources [] (rule.visits ignore tree state) = Node.textsAt [] tree.descendants := by
  obtain ⟨hsources, hbelow⟩ := (rule.editsTexts_editor ignore).sources_run ⟨state, 0⟩ h
  rw [← Editor.walk_eq_run (rule.editor ignore).recording tree _ (Nat.le_refl _),
    Editor.visitor_recording, visitor_editor] at hsources hbelow
  have hall : rule.visits ignore tree state =
      (walk (rule.visitor ignore).recording (walkFuel tree) tree (⟨state, 0⟩, [])).state.2 := by
    refine List.filter_eq_self.mpr fun visit hmem => ?_
    have hne := hbelow visit hmem
    cases hpath : visit.path with
    | nil => exact absurd hpath hne
    | cons i below => rfl
  exact ⟨hall, hall ▸ hsources⟩

/-- A tree that is itself a text has no visits: the root is not below any node. -/
theorem visits_of_isText (rule : Rule σ) (ignore : Ignore) {tree : Node} (state : σ)
    (h : tree.isText = true) : rule.visits ignore tree state = [] := by
  obtain ⟨value, info, rfl⟩ := Node.exists_of_isText h
  rfl

/-- The texts of the tree that a pass is given are visited, each once and in
document order. -/
theorem sources_visits (rule : Rule σ) (ignore : Ignore) (tree : Node) (state : σ) :
    Visit.sources [] (rule.visits ignore tree state) = Node.textsAt [] tree.descendants := by
  cases h : tree.isText with
  | true =>
    rw [rule.visits_of_isText ignore state h]
    obtain ⟨value, info, rfl⟩ := Node.exists_of_isText h
    rfl
  | false => exact (rule.visits_of_not_isText ignore state h).2

/-- The calls of a pass are those of its visits, one visit after the other. -/
theorem calls_apply (rule : Rule σ) (ignore : Ignore) (tree : Node) (state : σ) :
    (rule.recording.apply ignore tree (state, [])).state.2 =
      (rule.visits ignore tree state).flatMap (rule.callsIn ignore) := by
  have hwalk := (rule.seenAs_callsOf ignore).walk (walkFuel tree) tree (⟨state, 0⟩, [])
  have hcalls := congrArg (fun walked => walked.state.state.2) hwalk
  refine hcalls.trans ?_
  show (walk (rule.visitor ignore).recording (walkFuel tree) tree (⟨state, 0⟩, [])).state.2.flatMap
    (rule.callsIn ignore) = _
  cases h : tree.isText with
  | true =>
    rw [rule.visits_of_isText ignore state h]
    obtain ⟨value, info, rfl⟩ := Node.exists_of_isText h
    rfl
  | false => rw [(rule.visits_of_not_isText ignore state h).1]

/-- The visits of a pass follow one another from its start to its end. -/
theorem trace_visits (rule : Rule σ) (ignore : Ignore) (tree : Node) (state : σ) :
    let walked := walk (rule.visitor ignore) (walkFuel tree) tree ⟨state, 0⟩
    (rule.visitor ignore).Trace tree ⟨state, 0⟩ (rule.visits ignore tree state) walked.tree
      walked.state := by
  intro walked
  cases h : tree.isText with
  | true =>
    rw [rule.visits_of_isText ignore state h]
    obtain ⟨value, info, rfl⟩ := Node.exists_of_isText h
    exact .nil _ _
  | false =>
    rw [(rule.visits_of_not_isText ignore state h).1]
    have htrace := (rule.visitor ignore).trace_walk (walkFuel tree) tree ⟨state, 0⟩
    have hwalked : walked = _ :=
      (rule.visitor ignore).walk_recording (walkFuel tree) tree ⟨state, 0⟩
    rw [hwalked]
    exact htrace

/-- A visit makes no calls, or those of the splice of the text that ends its
stack. -/
theorem callsIn_cases (rule : Rule σ) (ignore : Ignore) (visit : Visit (Progress σ)) :
    rule.callsIn ignore visit = [] ∨ ∃ stack text, visit.path ≠ [] ∧
      visit.tree.stack? visit.path = some stack ∧ visit.node?.bind Node.value? = some text ∧
      rule.callsIn ignore visit = rule.callsOn text stack visit.state.state := by
  cases hlast : visit.path.getLast? with
  | none =>
    -- the text is the whole tree
    unfold callsIn Rule.visit
    rw [hlast]
    exact Or.inl rfl
  | some index =>
    have hscan : rule.callsIn ignore visit =
        (rule.recording.scan ignore visit.tree visit.path (visit.state.state, [])).2.2 := by
      unfold callsIn Rule.visit
      rw [hlast]
      dsimp only
      obtain ⟨spliced, state⟩ :=
        rule.recording.scan ignore visit.tree visit.path (visit.state.state, [])
      cases spliced <;> rfl
    rw [hscan, scan]
    cases hstack : visit.tree.stack? visit.path with
    | none => exact Or.inl rfl
    | some stack =>
      dsimp only
      split
      next => exact Or.inl rfl
      next =>
        split
        next => exact Or.inl rfl
        next text htext =>
          refine Or.inr ⟨stack, text, ?_, rfl, ?_, rfl⟩
          · intro hnil
            rw [hnil] at hlast
            exact absurd hlast (by simp)
          · rw [Node.getLast?_of_stack? hstack] at htext
            exact htext

/-- The calls of a visit go from left to right. -/
theorem index_increasing_callsIn (rule : Rule σ) (ignore : Ignore) (visit : Visit (Progress σ)) :
    (rule.callsIn ignore visit).Pairwise fun a b => a.found.index < b.found.index := by
  rcases rule.callsIn_cases ignore visit with hnil | ⟨stack, text, -, -, -, hcalls⟩
  · rw [hnil]
    exact .nil
  · obtain ⟨after, hscan, -⟩ := rule.exists_scan_callsOn text stack visit.state.state
    have hleaf := rule.recording.findsParts_leaf text.toList stack
    have hstarts := hscan.starts_increasing hleaf
    rw [List.pairwise_map] at hstarts
    rw [hcalls]
    exact hstarts

/-- A call in the splice of a text is told of a part of the text. -/
theorem isPart_of_mem_callsOn (rule : Rule σ) {text : String} {stack : List Node} {state : σ}
    {call : Call} (h : call ∈ rule.callsOn text stack state) :
    call.found = rule.found text.toList stack call.found.spans ∧
      Text.IsPart text.toList call.found.spans.span := by
  obtain ⟨after, hscan, hfound, -⟩ := rule.exists_scan_callsOn text stack state
  have hleaf := rule.recording.findsParts_leaf text.toList stack
  exact ⟨hfound call h, (hscan.isPart hleaf _ (List.mem_map_of_mem h)).1⟩

/-- A call in the visit of a text is told of that text, and of a part of it. -/
theorem fitsAt_of_mem_callsIn (rule : Rule σ) (ignore : Ignore) {visit : Visit (Progress σ)}
    {node : Node} (hnode : visit.node? = some node) (htext : node.isText = true) {call : Call}
    (h : call ∈ rule.callsIn ignore visit) : call.FitsAt visit.tree visit.path := by
  obtain ⟨value, info, rfl⟩ := Node.exists_of_isText htext
  -- either nothing was asked, as the text is left alone, or the stack and the text are those at the
  -- path
  rcases rule.callsIn_cases ignore visit with hnil | ⟨stack, text, hpath, hstack, hvalue, hcalls⟩
  · rw [hnil] at h
    exact absurd h List.not_mem_nil
  · rw [hnode] at hvalue
    obtain rfl : value = text := Option.some.inj hvalue
    rw [hcalls] at h
    obtain ⟨hfound, hpart⟩ := rule.isPart_of_mem_callsOn h
    have hthestack : call.found.stack = stack := congrArg Found.stack hfound
    have hinput : call.found.input = value.toList := congrArg Found.input hfound
    have hstop : call.found.index + Text.byteLength call.found.value =
        call.found.spans.span.stop := by
      rw [Found.value, hinput]
      exact hpart.start_add_byteLength
    exact {
      first := by rw [hthestack]; exact Node.head?_of_stack? hstack
      child := by
        intro i above below habove hbelow
        rw [hthestack] at habove hbelow
        exact Node.exists_index_of_stack? hstack habove hbelow
      leaf := by
        refine ⟨value, info, ?_, hnode, hinput⟩
        rw [Found.leaf?, hthestack, Node.getLast?_of_stack? hstack]
        exact hnode
      parent := by
        rw [Found.parent?, hthestack]
        exact Node.exists_parent_of_stack? hstack hpath
      start := by rw [hinput]; exact hpart.isBoundary_start
      stop := by rw [hstop, hinput]; exact hpart.isBoundary_stop
      value := by rw [hstop]; rfl }

/-- With fuel enough, a pass goes through all of the tree, and more fuel changes
nothing. -/
theorem walk_completes (rule : Rule σ) (ignore : Ignore) (tree : Node) (progress : Progress σ)
    {fuel : Nat} (h : walkFuel tree ≤ fuel) :
    (walk (rule.visitor ignore) fuel tree progress).ending = .completed ∧
      walk (rule.visitor ignore) fuel tree progress =
        walk (rule.visitor ignore) (walkFuel tree) tree progress := by
  obtain ⟨splices, hwalk⟩ := rule.walk_eq_rewrite ignore tree progress h
  have hrun := (rule.editor ignore).walk_eq_run tree progress h
  have hleast := (rule.editor ignore).walk_eq_run tree progress (Nat.le_refl (walkFuel tree))
  rw [visitor_editor] at hrun hleast
  exact ⟨by rw [hwalk], hrun.trans hleast.symm⟩

/-- The visits of a pass are shown texts of the tree that it was given, whatever
was put in before. -/
theorem exists_text_of_mem_visits (rule : Rule σ) (ignore : Ignore) (tree : Node) (state : σ)
    {visit : Visit (Progress σ)} (h : visit ∈ rule.visits ignore tree state) :
    ∃ node, visit.node? = some node ∧ node.isText = true := by
  obtain ⟨place, hmem⟩ := Visit.exists_mem_sources [] h
  rw [sources_visits] at hmem
  obtain ⟨listed, hlisted, heq⟩ := List.mem_map.mp hmem
  obtain ⟨-, hnode⟩ := Prod.mk.inj heq
  exact ⟨listed.2, hnode.symm, (List.mem_filter.mp hlisted).2⟩

/-- The visits and the calls of a pass. It ends, however much fuel it has beyond
what it needs, and so does the splice of every text. Its visits lead from the
tree and state it was given to those that it leaves. They are those of the texts
that have a parent in the tree it was given, each once, in the order of their
paths there, and unchanged; nothing that it puts in is visited. Its calls are
those of its visits, one visit after the other and from left to right, and each
fits the text visited and the tree of the moment. -/
theorem visits_and_calls (rule : Rule σ) (ignore : Ignore) (tree : Node) (state : σ) :
    let walked := walk (rule.visitor ignore) (walkFuel tree) tree ⟨state, 0⟩
    let recorded := rule.recording.apply ignore tree (state, [])
    let visits := rule.visits ignore tree state
    (walked.ending = .completed ∧ ∀ fuel, walkFuel tree ≤ fuel →
      walk (rule.visitor ignore) fuel tree ⟨state, 0⟩ = walked) ∧
    (∀ text stack current fuel, text.toList.length < fuel →
      (rule.leaf text.toList stack).spliceFrom fuel 0 0 current =
        rule.spliceLeaf text stack current) ∧
    (rule.visitor ignore).Trace tree ⟨state, 0⟩ visits walked.tree walked.state ∧
    (∃ paths : List Path, paths.Pairwise (· < ·) ∧
      (∀ path, path ∈ paths ↔
        path ≠ [] ∧ ∃ value info, tree.get? path = some (.text value info)) ∧
      Visit.sources [] visits = paths.map fun path => (some path, tree.get? path)) ∧
    rule.apply ignore tree state = recorded.map Prod.fst ∧
    recorded.state.2 = visits.flatMap (rule.callsIn ignore) ∧
    ∀ visit ∈ visits,
      (∀ place source, visit.before? place = some source → ¬ place <+: visit.path.dropLast →
        visit.outcome.tree.get? place = visit.tree.get? source) ∧
      (rule.callsIn ignore visit).Pairwise (fun a b => a.found.index < b.found.index) ∧
      ∀ call ∈ rule.callsIn ignore visit, call.FitsAt visit.tree visit.path := by
  intro walked recorded visits
  have hcompletes := fun fuel h => rule.walk_completes ignore tree ⟨state, 0⟩ (show _ ≤ fuel from h)
  refine ⟨⟨(hcompletes _ (Nat.le_refl _)).1, fun fuel h => (hcompletes fuel h).2⟩,
    fun text stack current fuel h => rule.spliceFrom_eq_spliceLeaf text stack current h,
    rule.trace_visits ignore tree state, ?_, rule.recording_seenAs.apply ignore tree (state, []),
    rule.calls_apply ignore tree state, fun visit hmem => ?_⟩
  · obtain ⟨paths, hincreasing, hpaths, htexts⟩ := tree.exists_paths_of_texts
    exact ⟨paths, hincreasing, hpaths, (rule.sources_visits ignore tree state).trans htexts⟩
  · obtain ⟨node, hnode, htext⟩ := rule.exists_text_of_mem_visits ignore tree state hmem
    have houtcome := (rule.trace_visits ignore tree state).outcome_of_mem visit hmem
    have hcarried : visit.outcome = Editor.carryOut visit.tree visit.path
        (rule.decide ignore visit.state visit.tree visit.path) := by
      rw [carryOut_decide]
      exact houtcome
    exact ⟨fun place source hsource hnot => Visit.get?_of_before? hcarried hnode hsource hnot,
      rule.index_increasing_callsIn ignore visit,
      fun call hcall => rule.fitsAt_of_mem_callsIn ignore hnode htext hcall⟩

end Rule

end Graft
