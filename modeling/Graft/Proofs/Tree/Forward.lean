import Graft.Proofs.Tree.Visits

/-!
# Walks go forward

A visitor may change the tree in any way, remove what it is in the middle of,
and put nodes wherever the walk is still to come. The walk of `visit_parents`
keeps nothing but a place, and moves it by indexes alone; so as long as no visit
sends it back among the siblings, its places only grow in document order,
whatever has become of the tree.

The places of a walk are the paths that it looks at next, whether or not there
is a node. From the place of a visit it goes on to the first child, to the next
sibling, or to the sibling that the visit names, and from a place beyond the
last sibling to the one behind the parent. Each of these is ahead of where the
visit was made (`Path.lt_down`, `Path.lt_ahead`), and this needs no look at the
tree.

The visits are not read off a record here but listed by a recursion of their own
(`Visitor.visitsFrom`) that goes along with the walk, with the same fuel. The
run lemma is an induction on this fuel. It says of the visits from a place on
that they grow in document order and lie ahead of every path that the place is
ahead of; the second half is what the step needs, since the next place lies
ahead of the visit that was made.

Main statements:
- `Path.lt_down`, `Path.lt_ahead`: the places that the walk goes on to are ahead
  of the one it has visited;
- `Visitor.visitsFrom_enter`, `Visitor.visitsFrom_leave`: the visits from a
  place on, step by step;
- `Visitor.visitsFrom_ahead`: they grow in document order, and lie ahead of all
  that the place is ahead of;
- `Visitor.walk_forward`: so do the visits of a whole walk.
-/

namespace Graft

variable {σ : Type}

/-- Whether a visit, where it sends the walk to a sibling, sends it ahead. -/
def Visit.GoesAhead (visit : Visit σ) : Prop :=
  ∀ index next, visit.path.getLast? = some index → visit.outcome.step = some (.resume next) →
    index < next

/-! ## Places -/

/-- What lies below a place is ahead of it. -/
theorem Path.lt_down (place : Path) (i : Nat) : place < place ++ [i] := by
  have h : place ++ [] < place ++ [i] := List.append_left_lt (List.nil_lt_cons i [])
  rwa [List.append_nil] at h

/-- A later sibling is ahead of a place and of what lies below it. -/
theorem Path.lt_ahead (parent : Path) {i k : Nat} (below : Path) (h : i < k) :
    parent ++ i :: below < parent ++ [k] :=
  List.append_left_lt (List.cons_lt_cons_iff.mpr (Or.inl h))

namespace Visitor

/-! ## The visits from a place on -/

/-- The visit that the node at a path gets when the walk comes to it: none if it
is not accepted. -/
def shown (visitor : Visitor σ) (tree : Node) (path : Path) (state : σ) : List (Visit σ) :=
  match tree.get? path with
  | some node =>
    if visitor.accepts node then [⟨state, tree, path, visitor.visit state tree path⟩] else []
  | none => []

/-- The visits of a walk that goes on from child `i` of the node whose path,
read backwards, is `up`. -/
def visitsFrom (visitor : Visitor σ) (fuel : Nat) (tree : Node) (i : Nat) (up : List Nat)
    (state : σ) :
    List (Visit σ) :=
  (walkFrom visitor.recording fuel tree i up (state, [])).state.2

/-- The visits of a walk. -/
def visits (visitor : Visitor σ) (fuel : Nat) (tree : Node) (state : σ) : List (Visit σ) :=
  (walk visitor.recording fuel tree (state, [])).state.2

variable (visitor : Visitor σ)

/-- Meeting a node adds its visit to the record, and does what it does without
one. -/
theorem meet_recording (tree : Node) (path : Path) (state : σ) (seen : List (Visit σ)) :
    visitor.recording.meet tree path (state, seen) =
      let met := visitor.meet tree path state
      ⟨met.step, met.tree, met.state, seen ++ visitor.shown tree path state⟩ := by
  unfold meet shown
  cases tree.get? path with
  | none => simp
  | some node =>
    by_cases h : visitor.accepts node = true
    · simp [recording, h]
    · simp [recording, h]

/-- What has been recorded before changes nothing. -/
theorem recording_seenAs_append (seen : List (Visit σ)) :
    visitor.recording.SeenAs
      (fun recorded => (recorded.1, seen ++ recorded.2)) visitor.recording := by
  refine ⟨rfl, fun recorded tree path => ?_⟩
  show (⟨_, _, _, seen ++ recorded.2 ++ _⟩ : Visited (σ × List (Visit σ))) = _
  rw [List.append_assoc]
  rfl

/-- The visits from a place on are added to those that have been recorded. -/
theorem record_walkFrom (fuel : Nat) (tree : Node) (i : Nat) (up : List Nat) (state : σ)
    (seen : List (Visit σ)) :
    (walkFrom visitor.recording fuel tree i up (state, seen)).state.2 =
      seen ++ visitor.visitsFrom fuel tree i up state := by
  have h := (visitor.recording_seenAs_append seen).walkFrom fuel tree i up (state, [])
  dsimp only at h
  rw [List.append_nil] at h
  rw [h]
  rfl

@[simp] theorem visitsFrom_zero (tree : Node) (i : Nat) (up : List Nat) (state : σ) :
    visitor.visitsFrom 0 tree i up state = [] := rfl

/-- At a child: its visit, and then those from the place that it sends the walk
to. -/
theorem visitsFrom_enter (fuel : Nat) {tree : Node} {i : Nat} {up : List Nat} (state : σ)
    (h : i < tree.childCount up.reverse) :
    visitor.visitsFrom (fuel + 1) tree i up state =
      let met := visitor.meet tree (i :: up).reverse state
      visitor.shown tree (i :: up).reverse state ++
        match met.step with
        | some .descend => visitor.visitsFrom fuel met.tree 0 (i :: up) met.state
        | some .skip => visitor.visitsFrom fuel met.tree (i + 1) up met.state
        | some (.resume k) => visitor.visitsFrom fuel met.tree k up met.state
        | none => [] := by
  rw [visitsFrom, walkFrom_enter _ _ _ h, meet_recording]
  dsimp only
  rw [List.nil_append]
  cases (visitor.meet tree (i :: up).reverse state).step with
  | none => exact (List.append_nil _).symm
  | some step => cases step <;> exact visitor.record_walkFrom _ _ _ _ _ _

/-- Beyond the last child: the visits from behind the parent on. -/
theorem visitsFrom_leave (fuel : Nat) {tree : Node} {i j : Nat} {up : List Nat} (state : σ)
    (h : tree.childCount (j :: up).reverse ≤ i) :
    visitor.visitsFrom (fuel + 1) tree i (j :: up) state =
      visitor.visitsFrom fuel tree (j + 1) up state := by
  rw [visitsFrom, walkFrom_leave _ _ _ h, visitsFrom]

/-- Beyond the last child of the root there are no more visits. -/
theorem visitsFrom_end (fuel : Nat) {tree : Node} {i : Nat} (state : σ)
    (h : tree.childCount [] ≤ i) :
    visitor.visitsFrom (fuel + 1) tree i [] state = [] := by
  rw [visitsFrom, walkFrom_end _ _ _ h]

/-- The visits of a walk: that of the root, and those below it if the walk goes
down. -/
theorem visits_eq (fuel : Nat) (tree : Node) (state : σ) :
    visitor.visits fuel tree state =
      let met := visitor.meet tree [] state
      visitor.shown tree [] state ++
        match met.step with
        | some .descend => visitor.visitsFrom fuel met.tree 0 [] met.state
        | _ => [] := by
  rw [visits, walk, meet_recording]
  dsimp only
  rw [List.nil_append]
  cases (visitor.meet tree [] state).step with
  | none => exact (List.append_nil _).symm
  | some step =>
    cases step with
    | descend => exact visitor.record_walkFrom _ _ _ _ _ _
    | skip => exact (List.append_nil _).symm
    | resume k => exact (List.append_nil _).symm

/-! ## One visit -/

variable {visitor}

/-- What is shown at a place is one visit, of a node that is there and accepted. -/
theorem mem_shown {tree : Node} {path : Path} {state : σ} {visit : Visit σ}
    (h : visit ∈ visitor.shown tree path state) :
    visit = ⟨state, tree, path, visitor.meet tree path state⟩ ∧
      ∃ node, tree.get? path = some node ∧ visitor.accepts node = true := by
  unfold shown at h
  unfold meet
  cases hnode : tree.get? path with
  | none =>
    rw [hnode] at h
    exact absurd h List.not_mem_nil
  | some node =>
    rw [hnode] at h
    dsimp only at h ⊢
    by_cases haccepts : visitor.accepts node = true
    · rw [if_pos haccepts] at h
      rw [if_pos haccepts]
      exact ⟨List.mem_singleton.mp h, node, rfl, haccepts⟩
    · rw [if_neg haccepts] at h
      exact absurd h List.not_mem_nil

/-- A node sends the walk to a sibling only if it is visited. -/
theorem shown_of_resume {tree : Node} {path : Path} {state : σ} {k : Nat}
    (h : (visitor.meet tree path state).step = some (.resume k)) :
    visitor.shown tree path state = [⟨state, tree, path, visitor.meet tree path state⟩] := by
  unfold meet at h
  unfold meet shown
  cases hnode : tree.get? path with
  | none =>
    rw [hnode] at h
    exact nomatch h
  | some node =>
    rw [hnode] at h
    dsimp only at h ⊢
    by_cases haccepts : visitor.accepts node = true
    · rw [if_pos haccepts, if_pos haccepts]
    · rw [if_neg haccepts] at h
      exact nomatch h

/-! ## Forward -/

/-- Whether visits grow in document order, and lie ahead of all that a place is
ahead of. -/
structure Ahead (place : Path) (visits : List (Visit σ)) : Prop where
  grow : visits.Pairwise fun a b => a.path < b.path
  beyond : ∀ visit ∈ visits, ∀ path, path < place → path < visit.path

/-- No visits lie ahead of everything. -/
theorem Ahead.nil (place : Path) : Ahead place ([] : List (Visit σ)) :=
  ⟨.nil, fun _ hmem => absurd hmem List.not_mem_nil⟩

/-- What is ahead of a place is ahead of one before it. -/
theorem Ahead.mono {place next : Path} {visits : List (Visit σ)} (h : Ahead next visits)
    (hlt : place < next) : Ahead place visits :=
  ⟨h.grow, fun visit hmem _ hpath => h.beyond visit hmem _ (List.lt_trans hpath hlt)⟩

/-- The visit of a place, and visits ahead of a later one. -/
theorem Ahead.shown {tree : Node} {place next : Path} {state : σ} {visits : List (Visit σ)}
    (h : Ahead next visits) (hlt : place < next) :
    Ahead place (visitor.shown tree place state ++ visits) := by
  have hplace : ∀ visit ∈ visitor.shown tree place state, visit.path = place := by
    intro visit hmem
    rw [(mem_shown hmem).1]
  have hone : (visitor.shown tree place state).Pairwise fun a b => a.path < b.path := by
    unfold Visitor.shown
    split
    next => split <;> simp
    next => exact .nil
  refine ⟨List.pairwise_append.mpr ⟨hone, h.grow, fun visit hmem later hlater => ?_⟩, ?_⟩
  · rw [hplace visit hmem]
    exact h.beyond later hlater place hlt
  · intro visit hmem path hpath
    rcases List.mem_append.mp hmem with hmem | hmem
    · rwa [hplace visit hmem]
    · exact (h.mono hlt).beyond visit hmem path hpath

/-- The visits from a place on lie ahead, if each of them goes ahead. -/
theorem visitsFrom_ahead (fuel : Nat) {tree : Node} {i : Nat} {up : List Nat} {state : σ}
    (h : ∀ visit ∈ visitor.visitsFrom fuel tree i up state, visit.GoesAhead) :
    Ahead (i :: up).reverse (visitor.visitsFrom fuel tree i up state) := by
  induction fuel generalizing tree i up state with
  | zero => exact .nil _
  | succ fuel ih =>
    rcases Nat.lt_or_ge i (tree.childCount up.reverse) with hlt | hge
    · rw [visitsFrom_enter _ _ _ hlt] at h ⊢
      dsimp only at h ⊢
      cases hstep : (visitor.meet tree (i :: up).reverse state).step with
      | none =>
        exact (Ahead.nil _).shown (Path.lt_down (i :: up).reverse 0)
      | some step =>
        rw [hstep] at h
        have hahead : ∀ {k}, i < k → (i :: up).reverse < (k :: up).reverse := by
          intro k hk
          rw [List.reverse_cons, List.reverse_cons]
          exact Path.lt_ahead up.reverse [] hk
        cases step with
        | descend =>
          have hnext := ih fun visit hmem => h visit (List.mem_append_right _ hmem)
          rw [List.reverse_cons] at hnext
          exact hnext.shown (Path.lt_down _ 0)
        | skip =>
          have hnext := ih fun visit hmem => h visit (List.mem_append_right _ hmem)
          exact hnext.shown (hahead (Nat.lt_succ_self i))
        | resume k =>
          have hnext := ih fun visit hmem => h visit (List.mem_append_right _ hmem)
          -- the one step of the walk that goes where the visitor says
          have hgoes := h _ (List.mem_append_left _
            (shown_of_resume hstep ▸ List.mem_singleton_self _))
          refine hnext.shown (hahead (hgoes i k ?_ hstep))
          rw [List.reverse_cons, List.getLast?_concat]
    · cases up with
      | nil =>
        rw [visitsFrom_end _ _ _ hge]
        exact .nil _
      | cons j up =>
        rw [visitsFrom_leave _ _ _ hge] at h ⊢
        refine (ih h).mono ?_
        rw [List.reverse_cons, List.reverse_cons, List.reverse_cons, List.append_assoc]
        exact Path.lt_ahead up.reverse [i] (Nat.lt_succ_self j)

/-- Every visit is of a node that is there and accepted. -/
theorem accepted_of_mem_visitsFrom (fuel : Nat) {tree : Node} {i : Nat} {up : List Nat} {state : σ}
    {visit : Visit σ} (h : visit ∈ visitor.visitsFrom fuel tree i up state) :
    visit.path ≠ [] ∧ ∃ node, visit.node? = some node ∧ visitor.accepts node = true := by
  induction fuel generalizing tree i up state with
  | zero => exact absurd h List.not_mem_nil
  | succ fuel ih =>
    rcases Nat.lt_or_ge i (tree.childCount up.reverse) with hlt | hge
    · rw [visitsFrom_enter _ _ _ hlt] at h
      rcases List.mem_append.mp h with h | h
      · obtain ⟨rfl, hnode⟩ := mem_shown h
        exact ⟨by simp, hnode⟩
      · split at h
        next => exact ih h
        next => exact ih h
        next => exact ih h
        next => exact absurd h List.not_mem_nil
    · cases up with
      | nil =>
        rw [visitsFrom_end _ _ _ hge] at h
        exact absurd h List.not_mem_nil
      | cons j up =>
        rw [visitsFrom_leave _ _ _ hge] at h
        exact ih h

/-- With one more unit of fuel the visits are the same, and maybe some more. -/
theorem visitsFrom_prefix_succ (fuel : Nat) (tree : Node) (i : Nat) (up : List Nat) (state : σ) :
    visitor.visitsFrom fuel tree i up state <+: visitor.visitsFrom (fuel + 1) tree i up state := by
  induction fuel generalizing tree i up state with
  | zero => exact List.nil_prefix
  | succ fuel ih =>
    rcases Nat.lt_or_ge i (tree.childCount up.reverse) with hlt | hge
    · rw [visitsFrom_enter _ _ _ hlt, visitsFrom_enter _ _ _ hlt]
      refine List.prefix_append_right_inj _ |>.mpr ?_
      split
      next => exact ih _ _ _ _
      next => exact ih _ _ _ _
      next => exact ih _ _ _ _
      next => exact List.prefix_refl _
    · cases up with
      | nil =>
        rw [visitsFrom_end _ _ _ hge]
        exact List.nil_prefix
      | cons j up =>
        rw [visitsFrom_leave _ _ _ hge, visitsFrom_leave _ _ _ hge]
        exact ih _ _ _ _

/-- More fuel lets the walk go further, and changes nothing about the visits so
far. -/
theorem visits_prefix (fuel more : Nat) (tree : Node) (state : σ) :
    visitor.visits fuel tree state <+: visitor.visits (fuel + more) tree state := by
  induction more with
  | zero => exact List.prefix_refl _
  | succ more ih =>
    refine ih.trans ?_
    rw [visits_eq, visits_eq]
    refine List.prefix_append_right_inj _ |>.mpr ?_
    split
    next => exact visitsFrom_prefix_succ _ _ _ _ _
    next => exact List.prefix_refl _

/-- The visits of a walk grow in document order, if each of them goes ahead. -/
theorem visits_grow {fuel : Nat} {tree : Node} {state : σ}
    (h : ∀ visit ∈ visitor.visits fuel tree state, visit.GoesAhead) :
    (visitor.visits fuel tree state).Pairwise fun a b => a.path < b.path := by
  rw [visits_eq] at h ⊢
  dsimp only at h ⊢
  split at h
  next =>
    have hbelow := visitsFrom_ahead fuel fun visit hmem => h visit (List.mem_append_right _ hmem)
    exact (hbelow.shown (Path.lt_down [] 0)).grow
  next => exact ((Ahead.nil _).shown (Path.lt_down [] 0)).grow

/-- Whatever is visited is a node of the tree of the moment, and accepted. -/
theorem accepted_of_mem_visits {fuel : Nat} {tree : Node} {state : σ} {visit : Visit σ}
    (h : visit ∈ visitor.visits fuel tree state) :
    ∃ node, visit.node? = some node ∧ visitor.accepts node = true := by
  rw [visits_eq] at h
  rcases List.mem_append.mp h with h | h
  · obtain ⟨rfl, hnode⟩ := mem_shown h
    exact hnode
  · split at h
    next => exact (accepted_of_mem_visitsFrom fuel h).2
    next => exact absurd h List.not_mem_nil

/-- If the visit of the root resumes anywhere, it is the only one, and the walk
is complete. -/
theorem walk_of_resume_root {fuel : Nat} {tree : Node} {state : σ} {visit : Visit σ}
    (hmem : visit ∈ visitor.visits fuel tree state) (hroot : visit.path = []) {next : Nat}
    (hstep : visit.outcome.step = some (.resume next)) :
    visitor.visits fuel tree state = [visit] ∧
      walk visitor fuel tree state = ⟨.completed, visit.outcome.tree, visit.outcome.state⟩ := by
  have hvisits := visitor.visits_eq fuel tree state
  dsimp only at hvisits
  -- below the root there is no visit with an empty path, so this is the visit of the root
  obtain rfl : visit = ⟨state, tree, [], visitor.meet tree [] state⟩ := by
    rw [hvisits] at hmem
    rcases List.mem_append.mp hmem with hmem | hmem
    · exact (mem_shown hmem).1
    · split at hmem
      next => exact absurd hroot (accepted_of_mem_visitsFrom fuel hmem).1
      next => exact absurd hmem List.not_mem_nil
  dsimp only at hstep
  rw [hstep, shown_of_resume hstep] at hvisits
  refine ⟨hvisits, ?_⟩
  rw [walk, hstep]

/-- A walk goes forward, whatever its visitor does to the tree. The walk is
recorded as it is: each visit has the tree and the state that the one before has
left, and with more fuel there are the same visits first. Each is of a node that
is there in the tree of the moment, and is accepted. If every visit that sends
the walk to a sibling sends it ahead, the paths of the visits grow in document
order, so none is visited twice; and if the visit of the root sends it anywhere,
the walk ends there. -/
theorem walk_forward (visitor : Visitor σ) (fuel : Nat) (tree : Node) (state : σ) :
    let walked := walk visitor fuel tree state
    let visits := visitor.visits fuel tree state
    visitor.Trace tree state visits walked.tree walked.state ∧
      (∀ more, visits <+: visitor.visits (fuel + more) tree state) ∧
      (∀ visit ∈ visits, ∃ node, visit.tree.get? visit.path = some node ∧
        visitor.accepts node = true) ∧
      ((∀ visit ∈ visits, visit.GoesAhead) →
        visits.Pairwise (fun a b => a.path < b.path) ∧ (visits.map Visit.path).Nodup) ∧
      ∀ visit ∈ visits, visit.path = [] → ∀ next, visit.outcome.step = some (.resume next) →
        visits = [visit] ∧ walked = ⟨.completed, visit.outcome.tree, visit.outcome.state⟩ := by
  intro walked visits
  refine ⟨?_, fun more => visits_prefix fuel more tree state, fun _ hmem =>
    accepted_of_mem_visits hmem,
    fun hahead => ?_, fun _ hmem hroot _ hstep => walk_of_resume_root hmem hroot hstep⟩
  · have hwalked : walked = (walk visitor.recording fuel tree (state, [])).map Prod.fst :=
      visitor.walk_recording fuel tree state
    rw [hwalked]
    exact visitor.trace_walk fuel tree state
  · have hgrow := visits_grow hahead
    refine ⟨hgrow, List.pairwise_map.mpr (hgrow.imp fun hlt heq => ?_)⟩
    rw [heq] at hlt
    exact List.lt_irrefl _ hlt

/-! ## A visitor that tears down the tree -/

/-- Visits everything. At a text in the root it removes the first child of the
root, whatever that is, and has the walk go on two places ahead; at anything
deeper it puts other children into the root. -/
def tearing : Visitor Unit where
  accepts _ := true
  visit _ tree path :=
    match path with
    | [] => ⟨some .descend, tree, ()⟩
    | [i] =>
      if (tree.get? [i]).any Node.isText then
        ⟨some (.resume (i + 2)), tree.spliceChildren 0 1 [], ()⟩
      else ⟨some .descend, tree, ()⟩
    | _ => ⟨some .descend, tree.withChildren [.ofText "x", .ofText "y", .ofText "z"], ()⟩

/-- A visit that removes all siblings names no sibling behind the one it has
visited. -/
theorem goesAhead_tearing (tree : Node) (path : Path) :
    Visit.GoesAhead ⟨(), tree, path, tearing.visit () tree path⟩ := by
  intro index next hlast hstep
  match path with
  | [] => exact nomatch hlast
  | [i] =>
    obtain rfl : i = index := Option.some.inj hlast
    unfold tearing at hstep
    dsimp only at hstep
    split at hstep
    next =>
      obtain rfl := Step.resume.inj (Option.some.inj hstep)
      omega
    next => exact nomatch hstep
  | _ :: _ :: _ => exact nomatch hstep

/-- The paragraph that the walk is in is gone after the first text, and the
texts that have taken its place are walked from the next index on. -/
theorem walk_forward_tearing :
    let tree : Node := .ofChildren [.ofTag "p" [.ofText "a", .ofText "b"], .ofText "c"]
    let visits := tearing.visits 20 tree ()
    (∀ visit ∈ visits, visit.GoesAhead) ∧ visits.map Visit.path = [[], [0], [0, 0], [1]] ∧
      visits.Pairwise fun a b => a.path < b.path := by
  intro tree visits
  obtain ⟨htrace, -, -, hgrow, -⟩ := tearing.walk_forward 20 tree ()
  have hahead : ∀ visit ∈ visits, visit.GoesAhead := by
    intro visit hmem
    have houtcome := htrace.outcome_of_mem visit hmem
    obtain ⟨_, current, path, outcome⟩ := visit
    obtain rfl : outcome = tearing.visit () current path := houtcome
    exact goesAhead_tearing current path
  exact ⟨hahead, rfl, (hgrow hahead).1⟩

end Visitor

end Graft
