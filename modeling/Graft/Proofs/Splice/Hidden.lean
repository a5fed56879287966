import Graft.Proofs.Rule.Fitting
import Graft.Proofs.Splice.Calls
import Graft.Proofs.Tree.Lineage
import Graft.Proofs.Tree.Outermost

/-!
# Texts that a pass leaves alone

Whether a text is searched is decided when the pass comes to it (`is_ignored`,
which asks `excludes` of every ancestor): all its ancestors are tested as they
stand then, each with its index and its parent. By then the pass has spliced the
texts before it. So the tree at the start settles the matter only for a test
that no splice can sway: one that goes by the element itself, and not by where
it stands or by what it or its parent holds.

`hides` asks the same of any tree at any path, with no pass around it. The first
part shows that what a pass asks on its way down is `hides` of the tree of the
moment, so that the question becomes how this changes while a pass goes on. A
test that looks at the element alone (`LooksAtSelf`) finds the same in both
trees. A test that looks at the place as well (`LooksAtPlace`) does so as long
as no splice has moved an ancestor, that is, up to the first splice among the
siblings of one.

The second part is about one visit: a hidden text is left alone and not asked
about, any other one is searched from its start. The statement for a pass puts
the two together for every text that was there at first, with the tree of the
moment in which it is decided, and adds the two cases in which the tree at the
start would do.

Main statements:
- `Way.isIgnored_eq_hides`: what the pass asks on its way down, asked of the
  tree of the moment;
- `Rule.leavesAlone_of_hides`, `Rule.searches_of_not_hides`: what a visit does
  with its text;
- `Rule.visits_hidden`: for every text of the tree, what is decided about it,
  and when the tree at the start says so.
-/

namespace Graft

variable {σ : Type}

/-- The parent of the node at a path; none at the root. -/
def Node.parent? (tree : Node) (path : Path) : Option Node :=
  if path.isEmpty then none else tree.get? path.dropLast

namespace Ignore

/-- Whether the node at a path is left alone, with the index and the parent that
it has in this tree. -/
def ignoresAt (ignore : Ignore) (tree : Node) (path : Path) : Bool :=
  (tree.get? path).any fun node => ignore.ignores node path.getLast? (tree.parent? path)

/-- Whether an ancestor of the node at a path is left alone in this tree. -/
def hides (ignore : Ignore) (tree : Node) (path : Path) : Bool :=
  (List.range path.length).any fun k => ignore.ignoresAt tree (path.take k)

/-- A text is hidden if one of its ancestors is left alone, the root included
and the text itself not. -/
theorem hides_eq_true {ignore : Ignore} {tree : Node} {path : Path} :
    ignore.hides tree path = true ↔
      ∃ k < path.length, ignore.ignoresAt tree (path.take k) = true := by
  rw [hides, List.any_eq_true]
  exact exists_congr fun k => and_congr_left fun _ => List.mem_range

/-- Paths are hidden together if their ancestors are left alone together. -/
theorem hides_congr (ignore : Ignore) {tree other : Node} {path place : Path}
    (hlength : place.length = path.length)
    (h : ∀ k < path.length,
      ignore.ignoresAt tree (path.take k) = ignore.ignoresAt other (place.take k)) :
    ignore.hides tree path = ignore.hides other place := by
  rw [Bool.eq_iff_iff, hides_eq_true, hides_eq_true, hlength]
  exact exists_congr fun k => and_congr_right fun hk => by rw [h k hk]

/-- One level further down, one more ancestor is asked. -/
theorem hides_concat (ignore : Ignore) (tree : Node) (path : Path) (i : Nat) :
    ignore.hides tree (path ++ [i]) = (ignore.hides tree path || ignore.ignoresAt tree path) := by
  have htake : ∀ k ≤ path.length, (path ++ [i]).take k = path.take k :=
    fun k hk => List.take_append_of_le_length hk
  rw [Bool.eq_iff_iff, Bool.or_eq_true, hides_eq_true, hides_eq_true, List.length_append,
    List.length_singleton]
  constructor
  · rintro ⟨k, hk, h⟩
    rw [htake k (Nat.le_of_lt_succ hk)] at h
    rcases Nat.lt_succ_iff_lt_or_eq.mp hk with hlt | rfl
    · exact Or.inl ⟨k, hlt, h⟩
    · exact Or.inr (by rwa [List.take_length] at h)
  · rintro (⟨k, hk, h⟩ | h)
    · exact ⟨k, Nat.lt_succ_of_lt hk, by rwa [htake k (Nat.le_of_lt hk)]⟩
    · exact ⟨path.length, Nat.lt_succ_self _, by rwa [htake _ (Nat.le_refl _), List.take_length]⟩

end Ignore

/-- What the pass asks on a way is what is asked of the whole tree at the path
of the way. -/
theorem Way.isIgnored_eq_hides (ignore : Ignore) (way : Way) (node : Node) :
    way.isIgnored ignore node = ignore.hides (way.plug node) way.path := by
  induction way generalizing node with
  | nil => rfl
  | cons level up ih =>
    have hself : ignore.ignoresAt (plug up (level.fill node)) (path up) =
        ignore.ignores (level.fill node) (index? up) (parent? up (level.fill node)) := by
      rw [Ignore.ignoresAt, get?_path, Option.any_some]
      cases up with
      | nil => rfl
      | cons above up =>
        have hne : (Way.path (above :: up)).isEmpty = false := by simp [path_cons]
        rw [getLast?_path, Node.parent?, hne, if_neg Bool.false_ne_true, dropLast_path, plug,
          get?_path]
        rfl
    rw [isIgnored, path_cons, Ignore.hides_concat, ih, plug, hself]

namespace ElementTest

/-- Whether a test goes by the element itself, and not by its children, its
index or its parent. -/
def LooksAtSelf (test : ElementTest) : Prop :=
  ∀ a b : Node, a.bare = b.bare → ∀ i j p q, test.check a i p = test.check b j q

/-- Whether a test goes by the element, its index and its parent, and not by the
children of either. -/
def LooksAtPlace (test : ElementTest) : Prop :=
  ∀ a b : Node, a.bare = b.bare → ∀ (i : Option Nat) (p q : Option Node),
    p.map Node.bare = q.map Node.bare →
    test.check a i p = test.check b i q

/-- Tests by tag name go by the element itself. -/
theorem looksAtSelf_of_byTag {test : ElementTest} (h : test.byTag = true) : test.LooksAtSelf := by
  intro a b hbare i j p q
  refine check_eq h ?_ i j p q
  have htag : ∀ node : Node, node.bare.tag? = node.tag? := by
    intro node
    cases node <;> rfl
  rw [← htag a, ← htag b, hbare]

end ElementTest

namespace Ignore

variable {ignore : Ignore} {tree other : Node} {path place : Path}

/-- With a test that goes by the element itself, a path stays hidden as it is
while its ancestors stay themselves. -/
theorem hides_eq_of_looksAtSelf (htest : ignore.test.LooksAtSelf)
    (hlength : place.length = path.length)
    (h : ∀ k, (tree.get? (path.take k)).map Node.bare = (other.get? (place.take k)).map Node.bare) :
    ignore.hides tree path = ignore.hides other place := by
  refine ignore.hides_congr hlength fun k _ => ?_
  have hbare := h k
  rw [ignoresAt, ignoresAt]
  cases hnode : other.get? (place.take k) with
  | none =>
    rw [hnode] at hbare
    rw [Option.map_eq_none_iff.mp hbare]
    rfl
  | some node =>
    rw [hnode] at hbare
    obtain ⟨found, hfound, hsame⟩ := Option.map_eq_some_iff.mp hbare
    rw [hfound]
    exact htest found node hsame _ _ _ _

/-- With a test that goes by the place as well, it does so while the ancestors
stay where they are. -/
theorem hides_eq_of_looksAtPlace (htest : ignore.test.LooksAtPlace)
    (hpath : path.dropLast = place.dropLast) (hlength : place.length = path.length)
    (h : ∀ k, (tree.get? (path.take k)).map Node.bare = (other.get? (place.take k)).map Node.bare) :
    ignore.hides tree path = ignore.hides other place := by
  -- each ancestor is found at the same path, with the same element and under the same parent
  refine ignore.hides_congr hlength fun k hk => ?_
  have htake : ∀ j ≤ k, place.take j = path.take j := by
    intro j hj
    have hcut : ∀ full : Path, full.length = path.length → full.dropLast.take j = full.take j := by
      intro full hfull
      rw [List.dropLast_eq_take, List.take_take, Nat.min_eq_left (by omega)]
    rw [← hcut place hlength, ← hcut path rfl, hpath]
  have hparent : (tree.parent? (path.take k)).map Node.bare =
      (other.parent? (path.take k)).map Node.bare := by
    unfold Node.parent?
    split
    next => rfl
    next =>
      have habove := h (k - 1)
      rw [htake (k - 1) (Nat.sub_le k 1)] at habove
      rw [List.dropLast_take (by omega)]
      exact habove
  have hbare := h k
  rw [htake k (Nat.le_refl k)] at hbare ⊢
  rw [ignoresAt, ignoresAt]
  cases hnode : other.get? (path.take k) with
  | none =>
    rw [hnode] at hbare
    rw [Option.map_eq_none_iff.mp hbare]
    rfl
  | some node =>
    rw [hnode] at hbare
    obtain ⟨found, hfound, hsame⟩ := Option.map_eq_some_iff.mp hbare
    rw [hfound]
    exact htest found node hsame _ _ _ hparent

end Ignore

/-- What is decided about a text, and the progress after it, given what takes
its place. -/
def Progress.decided (progress : Progress σ) : Option (List Node) × σ → Decision × Progress σ
  | (none, state) => (.descend, { progress with state })
  | (some nodes, state) => (.replace nodes, ⟨state, progress.splices + 1⟩)

@[simp] theorem Progress.state_decided (progress : Progress σ) (spliced : Option (List Node) × σ) :
    (progress.decided spliced).2.state = spliced.2 := by
  obtain ⟨_ | _, _⟩ := spliced <;> rfl

/-- Carrying out a decision does not touch the state that was decided with it. -/
theorem Editor.state_carryOut (tree : Node) (path : Path) (decided : Decision × σ) :
    (carryOut tree path decided).state = decided.2 := by
  obtain ⟨decision, state⟩ := decided
  cases decision with
  | replace nodes => rw [carryOut]; cases path.getLast? <;> rfl
  | _ => rfl

namespace Rule

/-- Whether a visit leaves its text as it is, without a question to the replacer. -/
def LeavesAlone (rule : Rule σ) (ignore : Ignore) (visit : Visit (Progress σ)) : Prop :=
  visit.outcome = ⟨some .descend, visit.tree, visit.state⟩ ∧ rule.callsIn ignore visit = []

/-- Whether a visit searches its text: what the splice of the text asks is
asked, and what it gives is put in. -/
def Searches (rule : Rule σ) (ignore : Ignore) (visit : Visit (Progress σ)) : Prop :=
  ∃ stack value, visit.tree.stack? visit.path = some stack ∧
    visit.node?.bind Node.value? = some value ∧
    rule.callsIn ignore visit = rule.callsOn value stack visit.state.state ∧
    visit.outcome = Editor.carryOut visit.tree visit.path
      (visit.state.decided (rule.spliceLeaf value stack visit.state.state))

/-- What is decided about a text at the end of a way. -/
theorem decide_plug (rule : Rule σ) (ignore : Ignore) (progress : Progress σ) (level : Level)
    (up : Way) (value : String) (info : Info) :
    let way := level :: up
    rule.decide ignore progress (Way.plug way (.text value info)) (Way.path way) =
      progress.decided (rule.spliceAt ignore way value info progress.state) := by
  intro way
  rw [decide, Way.getLast?_path]
  dsimp only
  rw [scan_plug]
  rfl

/-- The visit of a text at the end of a way carries out what is decided about it
there. -/
theorem visit_plug (rule : Rule σ) (ignore : Ignore) (progress : Progress σ) (level : Level)
    (up : Way) (value : String) (info : Info) :
    let way := level :: up
    rule.visit ignore progress (Way.plug way (.text value info)) (Way.path way) =
      Editor.carryOut (Way.plug way (.text value info)) (Way.path way)
        (progress.decided (rule.spliceAt ignore way value info progress.state)) := by
  intro way
  rw [← carryOut_decide, decide_plug]

/-- Its calls are those that its splice adds to an empty record. -/
theorem callsIn_plug (rule : Rule σ) (ignore : Ignore) (progress : Progress σ) (level : Level)
    (up : Way) (value : String) (info : Info) (outcome : Visited (Progress σ)) :
    let way := level :: up
    rule.callsIn ignore ⟨progress, Way.plug way (.text value info), Way.path way, outcome⟩ =
      (rule.recording.spliceAt ignore way value info (progress.state, [])).2.2 := by
  intro way
  rw [callsIn, visit_plug, Editor.state_carryOut, Progress.state_decided]

variable {rule : Rule σ} {ignore : Ignore} {visit : Visit (Progress σ)}

/-- The visit of a text that is a child of something stands at the end of a way. -/
theorem exists_way_of_visit {value : String} {info : Info}
    (houtcome : visit.outcome = rule.visit ignore visit.state visit.tree visit.path)
    (hnode : visit.node? = some (.text value info)) (hpath : visit.path ≠ []) :
    ∃ level up, visit = ⟨visit.state, Way.plug (level :: up) (.text value info),
      Way.path (level :: up),
      Editor.carryOut (Way.plug (level :: up) (.text value info)) (Way.path (level :: up))
        (visit.state.decided
          (rule.spliceAt ignore (level :: up) value info visit.state.state))⟩ := by
  obtain ⟨progress, tree, path, outcome⟩ := visit
  obtain rfl : outcome = rule.visit ignore progress tree path := houtcome
  obtain ⟨way, rfl, rfl⟩ := Way.exists_plug hnode
  cases way with
  | nil => exact absurd rfl hpath
  | cons level up =>
    exact ⟨level, up, congrArg _ (rule.visit_plug ignore progress level up value info)⟩

/-- Below an ancestor that is left alone, a visit leaves its text alone. -/
theorem leavesAlone_of_hides {value : String} {info : Info}
    (houtcome : visit.outcome = rule.visit ignore visit.state visit.tree visit.path)
    (hnode : visit.node? = some (.text value info)) (hpath : visit.path ≠ [])
    (h : ignore.hides visit.tree visit.path = true) : rule.LeavesAlone ignore visit := by
  obtain ⟨level, up, hvisit⟩ := exists_way_of_visit houtcome hnode hpath
  rw [hvisit] at h ⊢
  rw [← Way.isIgnored_eq_hides] at h
  refine ⟨?_, ?_⟩
  · rw [spliceAt, if_pos h]
    rfl
  · rw [callsIn_plug, spliceAt, if_pos h]

/-- Where no ancestor is left alone, a visit searches its text. -/
theorem searches_of_not_hides {value : String} {info : Info}
    (houtcome : visit.outcome = rule.visit ignore visit.state visit.tree visit.path)
    (hnode : visit.node? = some (.text value info)) (hpath : visit.path ≠ [])
    (h : ignore.hides visit.tree visit.path = false) : rule.Searches ignore visit := by
  obtain ⟨level, up, hvisit⟩ := exists_way_of_visit houtcome hnode hpath
  rw [hvisit] at h ⊢
  rw [← Way.isIgnored_eq_hides] at h
  have hsearch : ¬ Way.isIgnored ignore (level :: up) (.text value info) = true := by
    rw [h]
    exact Bool.false_ne_true
  refine ⟨_, value, Way.stack?_path _ _, ?_, ?_, ?_⟩
  · rw [Visit.node?, Way.get?_path]
    rfl
  · rw [callsIn_plug, spliceAt, if_neg hsearch]
    rfl
  · rw [spliceAt, if_neg hsearch]

/-- While nothing has been spliced, everything is as it was and where it was. -/
theorem unchanged_of_trace {first last : Node} {before after : Progress σ}
    {visits : List (Visit (Progress σ))}
    (h : (rule.visitor ignore).Trace first before visits last after) :
    before.splices ≤ after.splices ∧
      (after.splices = before.splices → last = first ∧ ∀ path,
        Visit.origin? visits path = some path) := by
  -- along the trace; a visit that splices makes the count of splices grow, so there has been none
  induction h with
  | nil => exact ⟨Nat.le_refl _, fun _ => ⟨rfl, fun _ => rfl⟩⟩
  | @cons tree last progress final rest path hrest ih =>
    obtain ⟨hle, hsame⟩ := ih
    have hvisit : (rule.visitor ignore).visit progress tree path =
      rule.visit ignore progress tree path := rfl
    rw [hvisit] at hle hsame ⊢
    unfold Rule.visit at hle hsame ⊢
    cases hlast : path.getLast? with
    | none =>
      rw [hlast] at hle hsame
      refine ⟨hle, fun heq => ?_⟩
      obtain ⟨htree, horigin⟩ := hsame heq
      refine ⟨htree, fun place => Visit.origin?_cons.mpr ⟨place, horigin place, rfl⟩⟩
    | some index =>
      rw [hlast] at hle hsame
      dsimp only at hle hsame ⊢
      generalize rule.scan ignore tree path progress.state = scanned at hle hsame ⊢
      obtain ⟨spliced, state⟩ := scanned
      cases spliced with
      | none =>
        refine ⟨hle, fun heq => ?_⟩
        obtain ⟨htree, horigin⟩ := hsame heq
        refine ⟨htree, fun place => Visit.origin?_cons.mpr ⟨place, horigin place, rfl⟩⟩
      | some nodes =>
        have hle : progress.splices + 1 ≤ final.splices := hle
        exact ⟨Nat.le_of_succ_le hle, fun heq => absurd heq (by omega)⟩

/-- Every visit of a pass edits a text that is a child of something. -/
theorem visit_of_mem_visits {tree : Node} {state : σ} (h : visit ∈ rule.visits ignore tree state) :
    visit.outcome = rule.visit ignore visit.state visit.tree visit.path ∧ visit.path ≠ [] ∧
      visit.IsEdit ∧
      ∃ value info, visit.node? = some (.text value info) := by
  obtain ⟨node, hnode, htext⟩ := rule.exists_text_of_mem_visits ignore tree state h
  obtain ⟨value, info, rfl⟩ := Node.exists_of_isText htext
  have houtcome : visit.outcome = rule.visit ignore visit.state visit.tree visit.path :=
    (rule.trace_visits ignore tree state).outcome_of_mem visit h
  refine ⟨houtcome, fun hnil => ?_,
    ⟨rule.decide ignore visit.state visit.tree visit.path, _, ?_, hnode⟩, value, info, hnode⟩
  · have hkept := (List.mem_filter.mp h).2
    rw [hnil] at hkept
    exact Bool.false_ne_true hkept
  · rw [carryOut_decide]
    exact houtcome

/-- What a pass leaves alone. It visits the texts of its tree that are children
of something, each once and in document order. A text that an ancestor hides in
the tree of the moment is left alone, and any other one is searched. Whether it
is hidden is settled by the tree at the start, whatever has been spliced since,
if the test goes by the element itself. If the test goes by the place of the
element as well, the tree at the start settles it for as long as the ancestors
have not moved, and any test for as long as nothing has been spliced. -/
theorem visits_hidden (rule : Rule σ) (ignore : Ignore) (tree : Node) (state : σ) :
    let walked := walk (rule.visitor ignore) (walkFuel tree) tree ⟨state, 0⟩
    let visits := rule.visits ignore tree state
    (rule.visitor ignore).Trace tree ⟨state, 0⟩ visits walked.tree walked.state ∧
    ∃ paths : List Path, paths.Pairwise (· < ·) ∧
      (∀ path, path ∈ paths ↔ path ≠ [] ∧ ∃ value info, tree.get? path = some (.text value info)) ∧
      List.Forall₂ (fun path visit =>
        visit.node? = tree.get? path ∧
        (ignore.hides visit.tree visit.path = true → rule.LeavesAlone ignore visit) ∧
        (ignore.hides visit.tree visit.path = false → rule.Searches ignore visit) ∧
        (ignore.test.LooksAtSelf → ignore.hides visit.tree visit.path = ignore.hides tree path) ∧
        (ignore.test.LooksAtPlace → visit.path.dropLast = path.dropLast →
          ignore.hides visit.tree visit.path = ignore.hides tree path) ∧
        (visit.state.splices = 0 → visit.tree = tree ∧ visit.path = path)) paths visits := by
  intro walked visits
  have htrace := rule.trace_visits ignore tree state
  obtain ⟨paths, hincreasing, hpaths, htexts⟩ := tree.exists_paths_of_texts
  refine ⟨htrace, paths, hincreasing, hpaths, ?_⟩
  refine Visit.forall₂_of_sources ((rule.sources_visits ignore tree state).trans htexts) ?_
  intro earlier visit later path hsplit horigin hnode
  have hvisits : rule.visits ignore tree state = earlier ++ visit :: later := hsplit
  have hmem : visit ∈ rule.visits ignore tree state :=
    hvisits ▸ List.mem_append_right _ List.mem_cons_self
  obtain ⟨houtcome, hne, -, value, info, htext⟩ := visit_of_mem_visits hmem
  have hbefore : (rule.visitor ignore).Trace tree ⟨state, 0⟩ earlier visit.tree visit.state := by
    dsimp only at htrace
    rw [hvisits] at htrace
    exact htrace.before
  have hedits : ∀ other ∈ earlier, other.IsEdit := fun other hother =>
    (visit_of_mem_visits (hvisits ▸ List.mem_append_left _ hother)).2.2.1
  -- the ancestors of the moment are those at the start, apart from their children
  have hbare : ∀ k, (visit.tree.get? (visit.path.take k)).map Node.bare =
      (tree.get? (path.take k)).map Node.bare :=
    fun k => Visit.bare_get?_of_origin? hbefore hedits (Visit.origin?_take horigin k)
  have hlength := Visit.length_of_origin? horigin
  refine ⟨hnode, leavesAlone_of_hides houtcome htext hne, searches_of_not_hides houtcome htext hne,
    fun htest => Ignore.hides_eq_of_looksAtSelf htest hlength hbare,
    fun htest hplace => Ignore.hides_eq_of_looksAtPlace htest hplace hlength hbare, fun hnone => ?_⟩
  obtain ⟨-, hsame⟩ := unchanged_of_trace hbefore
  obtain ⟨htree, hback⟩ := hsame hnone
  rw [hback] at horigin
  exact ⟨htree, Option.some.inj horigin⟩

end Rule

/-- A test by index is swayed by a deletion. The paragraph is the second child
of the root at the start of the pass, and so its text is hidden. The text before
it is deleted, and when the pass comes to the text in the paragraph, the
paragraph is the first child; so the replacer is asked about that text too, and
it is deleted. -/
theorem hides_swayed :
    let tree := Node.ofChildren [.ofText "a", .ofTag "p" [.ofText "a"]]
    let ignore : Ignore := ⟨.predicate fun _ index _ => index == some 1⟩
    let rules : RuleSet Unit := .list [(.literal "a", .constant .delete)]
    let rule : Rule Unit := ⟨(Find.literal "a").toPattern, .constant .delete⟩
    let visits := rule.visits ignore tree ()
    rules.rules = .ok [rule] ∧ ignore.hides tree [1, 0] = true ∧
      Visit.sources [] visits = [(some [0], some (.ofText "a")),
        (some [1, 0], some (.ofText "a"))] ∧
      visits.map (fun visit => ignore.hides visit.tree visit.path) = [false, false] ∧
      visits.map (fun visit => (rule.callsIn ignore visit).length) = [1, 1] ∧
      (findAndReplace tree rules ignore ()).map Outcome.tree =
        .ok (.ofChildren [.ofTag "p" []]) := by
  intro tree ignore rules rule visits
  have hready : rules.rules = .ok [rule] := RuleSet.rules_list (by decide)
  have hhidden : ignore.hides tree [1, 0] = true := rfl
  have hseen : visits.map (fun visit => ignore.hides visit.tree visit.path) = [false, false] := by
    decide +kernel
  have hcalls : visits.map (fun visit => (rule.callsIn ignore visit).length) = [1, 1] := by
    decide +kernel
  exact ⟨hready, hhidden, rule.sources_visits ignore tree (), hseen, hcalls, rfl⟩

end Graft
