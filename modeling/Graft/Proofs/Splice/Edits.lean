import Graft.Proofs.Splice.Hidden
import Graft.Proofs.Tree.Survivors
import Graft.Proofs.Tree.Tour

/-!
# What a pass puts where

Each text below the root of a tree is visited once in a pass, and either stays
or gives way to what its splice has made of it. So a pass is a substitution,
made of what its visits decide, and what is not such a text stays. A text stays
exactly if none of its matches is accepted.

A substitution is keyed by the paths in the tree that the pass was given. This
is not how the pass works, which edits in place and finds every later text at a
path shifted by what was put in before it. The tour of the walk
(`Editor.walk_tour`) provides both sides: the marks of the places as they were
at first, and the tree as the substitution of what was decided at them. `edits`
pairs the two, and from there on a pass is a function on trees,
`Node.substitute`.

With this, keeping track of a node through a pass is a computation on paths.
What the substitution does not name is there afterwards, moved by what was put
in before it, with all that is its own but its children (`bare_get?_apply`).

Main statements:
- `Rule.tree_apply`: the tree that a pass leaves;
- `Rule.decided_eq_none_iff`: which texts stay, by the calls in their visits;
- `Rule.bare_get?_apply`: what is not spliced is there after the pass, with all
  that is its own.
-/

namespace Graft

variable {σ : Type}

namespace Node

/-- No node lies below a text. -/
theorem eq_of_prefix_of_text {tree : Node} {place path : Path} {value : String} {info : Info}
    {found : Node}
    (htext : tree.get? place = some (.text value info)) (hfound : tree.get? path = some found)
    (h : place <+: path) : place = path := by
  obtain ⟨below, rfl⟩ := h
  rw [get?_append, htext] at hfound
  cases below with
  | nil => exact (List.append_nil place).symm
  | cons i below => exact absurd hfound (by simp [get?_cons, children])

end Node

/-- If marks are those of the texts that none of them passes by, they are those
of all texts. -/
theorem Mark.shown_isText {tree : Node} {marks : List Mark} (htree : tree.isText = false)
    (hplaces : marks.map place = shown Node.isText marks tree.listed) :
    shown Node.isText marks tree.listed = tree.textPaths := by
  have hlisted : ∀ one ∈ tree.listed, tree.get? one.1 = some one.2 := by
    intro one hmem
    rcases List.mem_cons.mp hmem with rfl | hmem
    · exact tree.get?_nil
    · exact ((Node.mem_descendants_iff one.1 one.2 tree).mp hmem).2
  have hpass : ∀ one ∈ tree.descendants, passes marks one.1 = false := by
    intro one hmem
    refine passes_eq_false fun mark hmark hbegins => ?_
    -- the mark is at a text, and no node lies below that
    have hplace := List.mem_map_of_mem (f := place) hmark
    rw [hplaces] at hplace
    obtain ⟨⟨_, found⟩, hfound, rfl⟩ := List.mem_map.mp hplace
    obtain ⟨hmem', haccepted⟩ := List.mem_filter.mp hfound
    obtain ⟨value, info, rfl⟩ := Node.exists_of_isText (Bool.and_eq_true_iff.mp haccepted).1
    exact Node.eq_of_prefix_of_text (hlisted _ hmem')
      (hlisted _ (List.mem_cons_of_mem _ hmem)) hbegins
  rw [shown, Node.listed, List.filter_cons, htree, Bool.false_and, if_neg Bool.false_ne_true,
    Node.textPaths]
  refine congrArg (List.map Prod.fst) (List.filter_congr fun one hmem => ?_)
  rw [hpass one hmem, Bool.not_false, Bool.and_true]

/-- Marks are told by their places and their decisions. -/
theorem Mark.eq_of_maps {marks others : List Mark} (hplaces : marks.map place = others.map place)
    (hdecisions : marks.map decision = others.map decision) : marks = others := by
  induction marks generalizing others with
  | nil => exact (List.map_eq_nil_iff.mp hplaces.symm).symm
  | cons mark marks ih =>
    cases others with
    | nil => exact absurd hplaces (List.cons_ne_nil _ _)
    | cons other others =>
      obtain ⟨hplace, hplaces⟩ := List.cons.inj hplaces
      obtain ⟨hdecision, hdecisions⟩ := List.cons.inj hdecisions
      have hsame : mark = other := by
        cases mark
        cases other
        exact congr (congrArg Mark.mk hplace) hdecision
      rw [hsame, ih hplaces hdecisions]

/-- The decisions of visits are those of the marks that they add. -/
theorem Editor.Tour.map_decision {editor : Editor σ} {way : Way} {node : Node}
    {first final : List Mark}
    {visits : List (Visit σ)} (h : editor.Tour way node first visits final) :
    final.map Mark.decision = first.map Mark.decision ++ visits.map editor.decision := by
  induction h with
  | nil => exact (List.append_nil _).symm
  | cons place _ _ _ _ ih =>
    rw [ih, List.map_append, List.append_assoc]
    rfl

namespace Rule

/-- What a visit decides about its text. -/
def decided (rule : Rule σ) (ignore : Ignore) (visit : Visit (Progress σ)) : Decision :=
  (rule.decide ignore visit.state visit.tree visit.path).1

/-- The marks of a pass: each text below the root, with what its visit decides. -/
def marks (rule : Rule σ) (ignore : Ignore) (tree : Node) (state : σ) : List Mark :=
  (tree.textPaths.zip (rule.visits ignore tree state)).map fun given =>
    ⟨given.1, rule.decided ignore given.2⟩

/-- What a pass puts in the place of which nodes of the tree that it is given. -/
def edits (rule : Rule σ) (ignore : Ignore) (tree : Node) (state : σ) : Substitution :=
  Mark.substitution (rule.marks ignore tree state)

section

variable (rule : Rule σ) (ignore : Ignore) (tree : Node) (state : σ)

/-- The texts below the root are visited one after the other. -/
theorem forall₂_visits :
    List.Forall₂ (fun path visit =>
      visit ∈ rule.visits ignore tree state ∧ visit.node? = tree.get? path)
      tree.textPaths (rule.visits ignore tree state) := by
  have hsources := (rule.sources_visits ignore tree state).trans tree.textsAt_descendants
  refine Visit.forall₂_of_sources hsources fun earlier visit later path hsplit _ hnode =>
    ⟨?_, hnode⟩
  exact hsplit ▸ List.mem_append_right _ List.mem_cons_self

/-- There is one mark for each text below the root, in document order. -/
theorem map_place_marks : (rule.marks ignore tree state).map Mark.place = tree.textPaths := by
  rw [marks, List.map_map]
  exact List.map_fst_zip (Nat.le_of_eq (rule.forall₂_visits ignore tree state).length_eq)

/-- The decisions at the marks are those of the visits, one for one. -/
theorem map_decision_marks : (rule.marks ignore tree state).map Mark.decision =
    (rule.visits ignore tree state).map (rule.decided ignore) := by
  have hsnd := List.map_snd_zip
    (Nat.le_of_eq (rule.forall₂_visits ignore tree state).length_eq.symm)
  rw [marks, List.map_map]
  refine Eq.trans ?_ (congrArg (List.map (rule.decided ignore)) hsnd)
  rw [List.map_map]
  rfl

theorem decided_eq (visit : Visit (Progress σ)) :
    rule.decided ignore visit = .descend ∨ ∃ nodes, rule.decided ignore visit = .replace nodes :=
  (rule.editsTexts_editor ignore).decides visit.state visit.tree visit.path

/-- The tree that a pass leaves is the one it was given, with its texts replaced. -/
theorem tree_apply :
    (rule.apply ignore tree state).tree = tree.substitute (rule.edits ignore tree state) := by
  -- a text as the root is never visited, and no substitution replaces a root
  cases htext : tree.isText with
  | true =>
    rw [Node.substitute_of_isText _ htext]
    obtain ⟨value, info, rfl⟩ := Node.exists_of_isText htext
    rfl
  | false =>
    obtain ⟨hvisits, -⟩ := rule.visits_of_not_isText ignore state htext
    obtain ⟨marks, -, -, htour, hcover, htree, -⟩ := (rule.editor ignore).walk_tour tree ⟨state, 0⟩
    rw [visitor_editor] at htour htree
    have hvisits : rule.visits ignore tree state =
      (walk (rule.visitor ignore).recording (2 * tree.size) tree (⟨state, 0⟩, [])).state.2 :=
        hvisits
    rw [← hvisits] at htour
    have hdecisions : marks.map Mark.decision =
        (rule.visits ignore tree state).map (rule.decided ignore) := by
      rw [htour.map_decision]
      refine List.map_congr_left fun visit hmem => ?_
      exact if_neg (visit_of_mem_visits hmem).2.1
    have hgoes : marks.any (·.decision.stops) = false := by
      refine List.any_eq_false.mpr fun mark hmem => ?_
      have hdecision := List.mem_map_of_mem (f := Mark.decision) hmem
      rw [hdecisions] at hdecision
      obtain ⟨visit, -, hdecided⟩ := List.mem_map.mp hdecision
      rw [← hdecided]
      rcases rule.decided_eq ignore visit with h | ⟨nodes, h⟩ <;>
        rw [h] <;> exact Bool.false_ne_true
    have hplaces : marks.map Mark.place = tree.textPaths := by
      rw [hgoes] at hcover
      exact (hcover.all rfl).trans (Mark.shown_isText htext (hcover.all rfl))
    have hmarks : marks = rule.marks ignore tree state :=
      Mark.eq_of_maps (hplaces.trans (rule.map_place_marks ignore tree state).symm)
        (hdecisions.trans (rule.map_decision_marks ignore tree state).symm)
    rw [hmarks] at htree
    exact htree

/-- What becomes of each text below the root is what its visit decides. -/
theorem forall₂_edits :
    List.Forall₂ (fun path visit =>
      visit ∈ rule.visits ignore tree state ∧ visit.node? = tree.get? path ∧
        rule.edits ignore tree state path = (rule.decided ignore visit).nodes?)
      tree.textPaths (rule.visits ignore tree state) := by
  obtain ⟨hlength, hvisits⟩ := List.forall₂_iff_zip.mp (rule.forall₂_visits ignore tree state)
  refine List.forall₂_iff_zip.mpr ⟨hlength, fun {path visit} hmem => ?_⟩
  obtain ⟨hvisit, hnode⟩ := hvisits hmem
  have hnodup : ((rule.marks ignore tree state).map Mark.place).Nodup := by
    rw [map_place_marks]
    exact tree.nodup_textPaths
  have hmark : (⟨path, rule.decided ignore visit⟩ : Mark) ∈ rule.marks ignore tree state :=
    List.mem_map_of_mem hmem
  exact ⟨hvisit, hnode, Mark.substitution_of_mem hnodup hmark⟩

variable {rule ignore tree state}

/-- Nothing gives way but texts below the root. -/
theorem edits_eq_none {path : Path} (h : path ∉ tree.textPaths) :
    rule.edits ignore tree state path = none := by
  refine Mark.substitution_eq_none fun mark hmem heq => h ?_
  rw [← rule.map_place_marks ignore tree state, ← heq]
  exact List.mem_map_of_mem hmem

/-- What does not give way itself does not lie below anything that does. -/
theorem spares_edits {path : Path} {found : Node} (hfound : tree.get? path = some found)
    (hstays : rule.edits ignore tree state path = none) :
    (rule.edits ignore tree state).Spares path := by
  refine Substitution.spares_of_forall fun place _ hprefix => ?_
  by_cases hplace : place ∈ tree.textPaths
  · obtain ⟨-, value, info, htext⟩ := Node.mem_textPaths.mp hplace
    rw [Node.eq_of_prefix_of_text htext hfound hprefix]
    exact hstays
  · exact edits_eq_none hplace

/-- What does not give way is there after the pass, with all that is its own. A
text is there as it was. -/
theorem bare_get?_apply {path : Path} {found : Node} (hfound : tree.get? path = some found)
    (hstays : rule.edits ignore tree state path = none) :
    ∃ left, (rule.apply ignore tree state).tree.get? ((rule.edits ignore tree state).moved path) =
      some left ∧
      left.bare = found.bare ∧ (found.isText = true → left = found) := by
  rw [tree_apply, Node.get?_substitute hfound (spares_edits hfound hstays)]
  exact ⟨_, rfl, Node.bare_substitute _ found, Node.substitute_of_isText _⟩

end

/-! ## Texts that stay -/

/-- What a visit decides is what the splice of its text gives. -/
theorem nodes?_decided (progress : Progress σ) (spliced : Option (List Node) × σ) :
    (progress.decided spliced).1.nodes? = spliced.1 := by
  obtain ⟨_ | nodes, state⟩ := spliced <;> rfl

/-- The splice of a text gives nothing exactly if none of the answers in it
accepts a match. -/
theorem spliceLeaf_eq_none_iff (rule : Rule σ) (text : String) (stack : List Node) (state : σ) :
    (rule.spliceLeaf text stack state).1 = none ↔
      ∀ call ∈ rule.callsOn text stack state, call.answer.toNodes = none := by
  obtain ⟨_, -, -, -, hsplice⟩ := rule.exists_scan_callsOn text stack state
  rw [hsplice, Splice.assemble_eq_none_iff, List.forall_mem_map]
  rfl

/-- A visit leaves its text as it is exactly if none of the calls in it is
answered with nodes. -/
theorem decided_eq_none_iff {rule : Rule σ} {ignore : Ignore} {tree : Node} {state : σ}
    {visit : Visit (Progress σ)} (h : visit ∈ rule.visits ignore tree state) :
    (rule.decided ignore visit).nodes? = none ↔
      ∀ call ∈ rule.callsIn ignore visit, call.answer.toNodes = none := by
  obtain ⟨houtcome, hpath, -, value, info, hnode⟩ := visit_of_mem_visits h
  obtain ⟨level, up, hvisit⟩ := exists_way_of_visit houtcome hnode hpath
  rw [hvisit, callsIn_plug, decided, decide_plug, nodes?_decided]
  dsimp only
  by_cases hignored : Way.isIgnored ignore (level :: up) (.text value info) = true
  · rw [spliceAt, spliceAt, if_pos hignored, if_pos hignored]
    exact ⟨fun _ _ hmem => absurd hmem List.not_mem_nil, fun _ => rfl⟩
  · rw [spliceAt, spliceAt, if_neg hignored, if_neg hignored]
    exact rule.spliceLeaf_eq_none_iff value _ visit.state.state

end Rule

end Graft
