import Graft.Proofs.Tree.Marks
import Graft.Proofs.Tree.Sources

/-!
# What a walk that edits visits

A walk that edits is told in terms of the tree that it began with. Each visit
leaves a mark: the path that the node had at first, and what was decided about
it. The marks made so far give the tree of the moment, by a substitution in the
first tree, and the path of the next visit. In document order, a node of the
first tree is visited if it is accepted and not below a node that is passed by,
until the walk is ended. These are the rules that the steps of `visit_parents`
stand for: `Continue` goes down, `SkipChildren` and a replacement pass by,
`Break` ends the walk.

There are two halves. A list of marks covers the nodes of a tree (`Mark.Cover`)
if it names, in order, the accepted nodes that are not passed by, all of them
or, if the walk has ended, those up to the mark that ended it. Nothing in this
half is about visits. A tour (`Editor.Tour`) leads from marks to marks, one
visit at a time: each visit is made on the first tree with the marks so far
carried out in it, at the path where these marks have moved the node.

The run lemma goes along the recursion of `Editor.run`, for what lies below a
node and for siblings. In both cases it gives the marks, a tour that made them,
and that they cover what was gone through. The marks made before, to the left
and further up, are carried along, since they give the tree that is edited;
those of a child are moved below its index when the child is done. The root is
met apart, as it has no siblings and so cannot give way: it takes part as an
only child.

Main statements:
- `Mark.Cover.next`, `Mark.Cover.ended_below`: the marks of a child and of the
  siblings behind it, put together;
- `Editor.tours_below`, `Editor.tours_siblings`: the visits below a node, and of
  some siblings;
- `Editor.walk_tour`: the visits of a whole walk, the tree that it leaves, and
  how it ends.
-/

namespace Graft

variable {σ : Type}

namespace Mark

/-- The paths of the nodes listed that are accepted and not passed by. -/
def shown (accepts : Node → Bool) (marks : List Mark) (listed : List (Path × Node)) : List Path :=
  (listed.filter fun one => accepts one.2 && !passes marks one.1).map Prod.fst

/-- Whether marks are those of the nodes listed that are to be shown, in order:
of all of them, or of those up to a decision to stop. -/
structure Cover (accepts : Node → Bool) (marks : List Mark) (listed : List (Path × Node))
    (finished : Bool) : Prop where
  inOrder : marks.map place <+: shown accepts marks listed
  all : finished = true → marks.map place = shown accepts marks listed
  finished_eq : finished = !marks.any (·.decision.stops)
  stops_last : ∀ mark ∈ marks.dropLast, mark.decision.stops = false

/-- A path is passed by for any of the marks. -/
theorem passes_append (first later : List Mark) (path : Path) :
    passes (first ++ later) path = (passes first path || passes later path) :=
  List.any_append

/-- Marks moved below an index pass by there what they passed by in the child. -/
theorem passes_under_self (index : Nat) (marks : List Mark) (path : Path) :
    passes (marks.map (under index)) (index :: path) = passes marks path := by
  rw [passes, passes, List.any_map]
  congr 1
  funext mark
  simp [under, bne]

/-- A mark passes by what lies below its place, and never the place. -/
theorem passes_eq_false {marks : List Mark} {path : Path}
    (h : ∀ mark ∈ marks, mark.place <+: path → mark.place = path) : passes marks path = false := by
  refine List.any_eq_false.mpr fun mark hmem => ?_
  by_cases hbegins : mark.place <+: path
  · simp [h mark hmem hbegins]
  · simp [hbegins]

/-- Marks below other children pass nothing by here. -/
theorem passes_of_ne {marks : List Mark} {i : Nat} {path : Path}
    (h : ∀ mark ∈ marks, ∃ j below, mark.place = j :: below ∧ j ≠ i) :
    passes marks (i :: path) = false := by
  refine passes_eq_false fun mark hmem hbegins => ?_
  obtain ⟨j, below, hplace, hne⟩ := h mark hmem
  rw [hplace] at hbegins
  exact absurd (List.cons_prefix_cons.mp hbegins).1 hne

/-- Below a child, the marks of the child itself pass by everything or nothing. -/
theorem passes_own {own : List Mark} {index : Nat} (hown : ∀ mark ∈ own, mark.place = [index])
    {path : Path} (h : path ≠ []) :
    passes own (index :: path) = own.any (·.decision.passesBy) := by
  have hsame : ∀ mark ∈ own, (mark.decision.passesBy && mark.place.isPrefixOf (index :: path) &&
      mark.place != index :: path) = mark.decision.passesBy := by
    intro mark hmem
    rw [hown mark hmem]
    obtain ⟨i, below, rfl⟩ := List.exists_cons_of_ne_nil h
    simp [List.isPrefixOf]
  induction own with
  | nil => rfl
  | cons mark rest ih =>
    have hrest := ih (fun other hmem => hown other (List.mem_cons_of_mem _ hmem))
      fun other hmem => hsame other (List.mem_cons_of_mem _ hmem)
    rw [passes] at hrest
    rw [passes, List.any_cons, List.any_cons, hrest, hsame mark List.mem_cons_self]

/-- What is shown of a list of nodes is told node by node. -/
theorem shown_append (accepts : Node → Bool) (marks : List Mark)
    (first later : List (Path × Node)) :
    shown accepts marks (first ++ later) =
      shown accepts marks first ++ shown accepts marks later := by
  rw [shown, List.filter_append, List.map_append]
  rfl

/-- Only what marks pass by matters to what is shown. -/
theorem shown_congr {accepts : Node → Bool} {first second : List Mark}
    {listed : List (Path × Node)}
    (h : ∀ one ∈ listed, passes first one.1 = passes second one.1) :
    shown accepts first listed = shown accepts second listed := by
  rw [shown, shown]
  congr 1
  refine List.filter_congr fun one hmem => ?_
  rw [h one hmem]

/-- Nothing is shown that is not listed. -/
theorem mem_of_mem_shown {accepts : Node → Bool} {marks : List Mark}
    {listed : List (Path × Node)} {path : Path} (h : path ∈ shown accepts marks listed) :
    ∃ node, (path, node) ∈ listed := by
  obtain ⟨⟨_, node⟩, hmem, rfl⟩ := List.mem_map.mp h
  exact ⟨node, (List.mem_filter.mp hmem).1⟩

/-- Marks that cover a list of nodes stand at paths of these nodes. -/
theorem Cover.place_mem {accepts : Node → Bool} {marks : List Mark} {listed : List (Path × Node)}
    {finished : Bool} (h : Cover accepts marks listed finished) {mark : Mark}
    (hmem : mark ∈ marks) :
    ∃ node, (mark.place, node) ∈ listed :=
  mem_of_mem_shown (h.inOrder.subset (List.mem_map_of_mem hmem))

/-- What covers the nodes below a node leaves no mark at the node. -/
theorem Cover.place_ne_nil {accepts : Node → Bool} {marks : List Mark} {node : Node}
    {finished : Bool} (h : Cover accepts marks node.descendants finished) :
    ∀ mark ∈ marks, mark.place ≠ [] := by
  intro mark hmem
  obtain ⟨found, hfound⟩ := h.place_mem hmem
  exact ((Node.mem_descendants_iff _ _ _).mp hfound).1

/-- What covers siblings from an index on leaves no mark before this index. -/
theorem Cover.place_behind {accepts : Node → Bool} {marks : List Mark} {index : Nat}
    {siblings : List Node} {finished : Bool}
    (h : Cover accepts marks (Node.descendantsFrom index siblings) finished) :
    ∀ mark ∈ marks, ∃ i below, mark.place = i :: below ∧ index ≤ i := by
  intro mark hmem
  obtain ⟨found, hfound⟩ := h.place_mem hmem
  obtain ⟨i, child, below, hplace, -, -⟩ := (Node.mem_descendantsFrom_iff _ _ _ _).mp hfound
  exact ⟨index + i, below, hplace, Nat.le_add_right index i⟩

section

variable {accepts : Node → Bool} {own inner more : List Mark} {index : Nat} {child : Node}
  {rest : List Node}

/-- No mark passes by a child itself. -/
theorem shown_here (accepts : Node → Bool) (child : Node) (inner : List Mark)
    (hown : ∀ mark ∈ own, mark.place = [index])
    (hmore : ∀ mark ∈ more, ∃ i below, mark.place = i :: below ∧ index + 1 ≤ i) :
    shown accepts (own ++ inner.map (under index) ++ more) [([index], child)] =
      if accepts child then [[index]] else [] := by
  -- a node is passed by only by marks above it, and above the child there are none
  have hne : ∀ mark ∈ own ++ inner.map (under index) ++ more, mark.place ≠ [] := by
    intro mark hmem
    rcases List.mem_append.mp hmem with hmem | hmem
    · rcases List.mem_append.mp hmem with hmem | hmem
      · rw [hown mark hmem]
        exact List.cons_ne_nil index []
      · obtain ⟨below, -, rfl⟩ := List.mem_map.mp hmem
        exact List.cons_ne_nil index below.place
    · obtain ⟨i, below, hplace, -⟩ := hmore mark hmem
      rw [hplace]
      exact List.cons_ne_nil i below
  have hpass : passes (own ++ inner.map (under index) ++ more) [index] = false := by
    refine passes_eq_false fun mark hmem hbegins => ?_
    obtain ⟨i, below, hplace⟩ := List.exists_cons_of_ne_nil (hne mark hmem)
    rw [hplace] at hbegins ⊢
    obtain ⟨rfl, hnil⟩ := List.cons_prefix_cons.mp hbegins
    rw [List.prefix_nil.mp hnil]
  rw [shown, List.filter_cons, hpass]
  cases accepts child <;> rfl

/-- Below a child, nothing is shown if it is passed by, and else what its own
marks show of it. -/
theorem shown_below (accepts : Node → Bool) (child : Node) (inner : List Mark)
    (hown : ∀ mark ∈ own, mark.place = [index])
    (hmore : ∀ mark ∈ more, ∃ i below, mark.place = i :: below ∧ index + 1 ≤ i) :
    shown accepts (own ++ inner.map (under index) ++ more)
        (child.descendants.map fun one => (index :: one.1, one.2)) =
      (if own.any (·.decision.passesBy) then [] else shown accepts inner child.descendants).map
        (index :: ·) := by
  have hpass : ∀ one ∈ child.descendants,
      passes (own ++ inner.map (under index) ++ more) (index :: one.1) =
        (own.any (·.decision.passesBy) || passes inner one.1) := by
    intro one hmem
    have hne := ((Node.mem_descendants_iff one.1 one.2 child).mp hmem).1
    have hlater : passes more (index :: one.1) = false := by
      refine passes_of_ne fun mark hmark => ?_
      obtain ⟨i, below, hplace, hle⟩ := hmore mark hmark
      exact ⟨i, below, hplace, by omega⟩
    rw [passes_append, passes_append, passes_own hown hne, passes_under_self, hlater, Bool.or_false]
  rw [shown, List.filter_map, List.map_map]
  -- Either the child is passed by and none of its nodes are shown, or its own marks make no
  -- difference below it.
  cases hany : own.any (·.decision.passesBy) with
  | true =>
    have hnone : child.descendants.filter ((fun one => accepts one.2 &&
        !passes (own ++ inner.map (under index) ++ more) one.1) ∘
          fun one => (index :: one.1, one.2)) = [] := by
      refine List.filter_eq_nil_iff.mpr fun one hmem => ?_
      rw [Function.comp_apply, hpass one hmem, hany]
      simp
    rw [hnone]
    rfl
  | false =>
    rw [if_neg Bool.false_ne_true, shown, List.map_map]
    refine congrArg (List.map _) (List.filter_congr fun one hmem => ?_)
    rw [Function.comp_apply, hpass one hmem, hany, Bool.false_or]

/-- The marks at and below a child do not pass by its next siblings. -/
theorem shown_beyond (accepts : Node → Bool) (inner more : List Mark) (rest : List Node)
    (hown : ∀ mark ∈ own, mark.place = [index]) :
    shown accepts (own ++ inner.map (under index) ++ more) (Node.descendantsFrom (index + 1) rest) =
      shown accepts more (Node.descendantsFrom (index + 1) rest) := by
  refine shown_congr fun one hmem => ?_
  obtain ⟨i, _, below, hplace, -, -⟩ :=
    (Node.mem_descendantsFrom_iff one.1 one.2 (index + 1) rest).mp hmem
  have hfirst : passes (own ++ inner.map (under index)) one.1 = false := by
    rw [hplace]
    refine passes_of_ne fun mark hmark => ?_
    rcases List.mem_append.mp hmark with hmark | hmark
    · exact ⟨index, [], hown mark hmark, by omega⟩
    · obtain ⟨other, -, rfl⟩ := List.mem_map.mp hmark
      exact ⟨index, other.place, rfl, by omega⟩
  rw [passes_append, hfirst, Bool.false_or]

variable (accepts child rest inner more) in
/-- What is shown of a child and its next siblings: the child, what is shown
below it unless that is passed by, and what is shown of the siblings. -/
theorem shown_child (hown : ∀ mark ∈ own, mark.place = [index])
    (hmore : ∀ mark ∈ more, ∃ i below, mark.place = i :: below ∧ index + 1 ≤ i) :
    shown accepts (own ++ inner.map (under index) ++ more)
        (Node.descendantsFrom index (child :: rest)) =
      (if accepts child then [[index]] else []) ++
        ((if own.any (·.decision.passesBy) then [] else shown accepts inner child.descendants).map
          (index :: ·) ++
        shown accepts more (Node.descendantsFrom (index + 1) rest)) := by
  rw [Node.descendantsFrom, List.cons_append, ← List.singleton_append, shown_append, shown_append,
    shown_here accepts child inner hown hmore, shown_below accepts child inner hown hmore,
    shown_beyond accepts inner more rest hown]

/-- Marks moved below an index stand at the places moved there. -/
theorem map_place_under (index : Nat) (marks : List Mark) :
    (marks.map (under index)).map place = (marks.map place).map (index :: ·) := by
  rw [List.map_map, List.map_map]
  rfl

/-- They end the walk there if they do. -/
theorem any_stops_under (index : Nat) (marks : List Mark) :
    (marks.map (under index)).any (·.decision.stops) = marks.any (·.decision.stops) := by
  rw [List.any_map]
  rfl

/-- A child that the walk gets beyond: its own mark if it is accepted, the marks
below it unless they are passed by, and the marks of its next siblings. -/
theorem Cover.next (hown : ∀ mark ∈ own, mark.place = [index])
    (haccepts : own.map place = if accepts child then [[index]] else [])
    (hgoes : own.any (·.decision.stops) = false)
    (hinner : if own.any (·.decision.passesBy) then inner = []
      else Cover accepts inner child.descendants true) {finished : Bool}
    (hmore : Cover accepts more (Node.descendantsFrom (index + 1) rest) finished) :
    Cover accepts (own ++ inner.map (under index) ++ more)
      (Node.descendantsFrom index (child :: rest)) finished := by
  have hshown := shown_child accepts inner more child rest hown hmore.place_behind
  have hplaces : inner.map place =
      if own.any (·.decision.passesBy) then [] else shown accepts inner child.descendants := by
    split at hinner
    next hpasses => rw [hinner, if_pos hpasses]; rfl
    next hpasses => rw [hinner.all rfl, if_neg hpasses]
  have hinnerGoes : inner.any (·.decision.stops) = false := by
    split at hinner
    next => rw [hinner]; rfl
    next => simpa using hinner.finished_eq.symm
  rw [← hplaces, ← haccepts] at hshown
  have hmap : (own ++ inner.map (under index) ++ more).map place =
      own.map place ++ ((inner.map place).map (index :: ·) ++ more.map place) := by
    rw [List.map_append, List.map_append, map_place_under, List.append_assoc]
  refine ⟨?_, fun hfin => ?_, ?_, ?_⟩
  · rw [hmap, hshown]
    exact List.prefix_append_right_inj _ |>.mpr
      (List.prefix_append_right_inj _ |>.mpr hmore.inOrder)
  · rw [hmap, hshown, hmore.all hfin]
  · rw [List.any_append, List.any_append, any_stops_under, hgoes, hinnerGoes, Bool.false_or,
      Bool.false_or]
    exact hmore.finished_eq
  · intro mark hmem
    -- the walk has gone beyond the child, so what stops it can only be among the later marks
    have hearly : (own ++ inner.map (under index)).any (·.decision.stops) = false := by
      rw [List.any_append, any_stops_under, hgoes, hinnerGoes, Bool.false_or]
    rw [List.any_eq_false] at hearly
    by_cases hnil : more = []
    · subst hnil
      rw [List.append_nil] at hmem
      exact Bool.not_eq_true _ |>.mp (hearly mark (List.dropLast_subset _ hmem))
    · rw [List.dropLast_append_of_ne_nil hnil] at hmem
      rcases List.mem_append.mp hmem with hmem | hmem
      · exact Bool.not_eq_true _ |>.mp (hearly mark hmem)
      · exact hmore.stops_last mark hmem

/-- A child that the walk ends below. -/
theorem Cover.ended_below (hown : ∀ mark ∈ own, mark.place = [index])
    (haccepts : own.map place = if accepts child then [[index]] else [])
    (hgoes : own.any (·.decision.stops) = false)
    (henters : own.any (·.decision.passesBy) = false)
    (hinner : Cover accepts inner child.descendants false) :
    Cover accepts (own ++ inner.map (under index)) (Node.descendantsFrom index (child :: rest))
      false := by
  have hshown := shown_child accepts inner [] child rest hown (by simp)
  rw [List.append_nil, henters, if_neg Bool.false_ne_true, ← haccepts] at hshown
  have hstops : inner.any (·.decision.stops) = true := by simpa using hinner.finished_eq.symm
  refine ⟨?_, fun hfin => absurd hfin Bool.false_ne_true, ?_, ?_⟩
  · rw [hshown, List.map_append, map_place_under]
    refine List.prefix_append_right_inj _ |>.mpr ?_
    exact (hinner.inOrder.map _).trans (List.prefix_append _ _)
  · rw [List.any_append, any_stops_under, hstops, Bool.or_true]
    rfl
  · intro mark hmem
    have hne : inner.map (under index) ≠ [] := by
      rintro hnil
      rw [List.map_eq_nil_iff.mp hnil] at hstops
      exact Bool.false_ne_true hstops
    rw [List.dropLast_append_of_ne_nil hne] at hmem
    rcases List.mem_append.mp hmem with hmem | hmem
    · exact Bool.not_eq_true _ |>.mp (List.any_eq_false.mp hgoes mark hmem)
    · rw [← List.map_dropLast] at hmem
      obtain ⟨below, hbelow, rfl⟩ := List.mem_map.mp hmem
      exact hinner.stops_last below hbelow

/-- A child that the walk ends at. -/
theorem Cover.ended_at (haccepts : accepts child = true) {mark : Mark}
    (hplace : mark.place = [index]) (hstops : mark.decision.stops = true) :
    Cover accepts [mark] (Node.descendantsFrom index (child :: rest)) false := by
  have hown : ∀ other ∈ [mark], other.place = [index] :=
    fun other hmem => List.mem_singleton.mp hmem ▸ hplace
  have hshown := shown_child accepts [] [] child rest hown (by simp)
  rw [if_pos haccepts] at hshown
  refine ⟨?_, fun hfin => absurd hfin Bool.false_ne_true, ?_, ?_⟩
  · have hsame : shown accepts [mark] (Node.descendantsFrom index (child :: rest)) = _ := hshown
    rw [hsame, List.map_singleton, hplace]
    exact List.prefix_append _ _
  · simp [hstops]
  · intro other hmem
    exact absurd hmem List.not_mem_nil

/-- The mark of a child is before its next siblings. -/
theorem AreBefore.beyond {left : List Node} {base : List Mark} (hbase : AreBefore left.length base)
    (child : Node) (decision : Decision) :
    AreBefore (left ++ [child]).length (base ++ [⟨[left.length], decision⟩]) := by
  have hown : ∀ mark ∈ [(⟨[left.length], decision⟩ : Mark)], mark.place = [left.length] :=
    fun mark hmem => List.mem_singleton.mp hmem ▸ rfl
  have hnext := hbase.next hown []
  rw [List.map_nil, List.append_nil] at hnext
  rwa [List.length_append, List.length_singleton]

end

end Mark

/-! ## Tours -/

namespace Editor

/-- The visit of the node at a path. -/
def visitAt (editor : Editor σ) (state : σ) (tree : Node) (path : Path) : Visit σ :=
  ⟨state, tree, path, carryOut tree path (editor.decide state tree path)⟩

/-- The decision that a visit carries out. At the root no nodes are put in. -/
def decision (editor : Editor σ) (visit : Visit σ) : Decision :=
  let decided := (editor.decide visit.state visit.tree visit.path).1
  if visit.path = [] then decided.atRoot else decided

/-- Whether visits, made one after the other with some marks there before, are
of nodes below the end of a way and lead to more marks. Each is shown the tree
that the marks before it have led to, and in it a node that was in place when
the way was entered, as it was then. -/
inductive Tour (editor : Editor σ) (way : Way) (node : Node) :
    List Mark → List (Visit σ) → List Mark → Prop
  | nil (marks : List Mark) : Tour editor way node marks [] marks
  | cons {marks final : List Mark} {visit : Visit σ} {visits : List (Visit σ)} (place : Path)
      (tree : visit.tree = way.plug (node.substitute (Mark.substitution marks)))
      (path : visit.path = way.path ++ (Mark.substitution marks).moved place)
      (shown : visit.node? = node.get? place)
      (rest : Tour editor way node (marks ++ [⟨place, editor.decision visit⟩]) visits final) :
      Tour editor way node marks (visit :: visits) final

variable {editor : Editor σ} {way : Way} {node : Node}

/-- One tour after the other is a tour. -/
theorem Tour.trans {first second third : List Mark} {visits later : List (Visit σ)}
    (h : editor.Tour way node first visits second)
    (hlater : editor.Tour way node second later third) :
    editor.Tour way node first (visits ++ later) third := by
  induction h with
  | nil => exact hlater
  | cons place tree path shown _ ih => exact .cons place tree path shown (ih hlater)

/-- A tour takes no mark back. -/
theorem Tour.isPrefix {first final : List Mark} {visits : List (Visit σ)}
    (h : editor.Tour way node first visits final) : first <+: final := by
  induction h with
  | nil => exact List.prefix_refl _
  | cons place _ _ _ _ ih => exact (List.prefix_append _ _).trans ih

/-- Children before an entered one, as they stand, reach up to where the entered
one stands. -/
theorem length_done {done left : List Node} {base : List Mark}
    (hdone : done = Node.substituteFrom (Mark.substitution base) 0 left) :
    done.length = (Mark.substitution base).shift left.length := by
  have hlength := Node.length_substituteFrom (Mark.substitution base) 0 left
  rw [← hdone, Nat.zero_add] at hlength
  rw [← hlength]
  exact (Nat.zero_add _).symm

section

variable {shell : Shell} {done left rest : List Node} {child : Node} {base own : List Mark}

/-- A tour below a child is one below its parent, from the marks on that are
there when the child is entered. -/
theorem Tour.under (hbase : Mark.AreBefore left.length base)
    (hdone : done = Node.substituteFrom (Mark.substitution base) 0 left)
    (hown : ∀ mark ∈ own, mark.place = [left.length])
    (hstays : Mark.substitution own [left.length] = none) {first final : List Mark}
    {visits : List (Visit σ)}
    (h : editor.Tour (⟨shell, done, rest⟩ :: way) child first visits final)
    (hbelow : ∀ mark ∈ final, mark.place ≠ []) :
    editor.Tour way (shell.node (left ++ child :: rest))
      (base ++ own ++ first.map (Mark.under left.length)) visits
      (base ++ own ++ final.map (Mark.under left.length)) := by
  induction h with
  | nil => exact .nil _
  | @cons marks final visit visits place htree hpath hshown hrest ih =>
    have hmarks : ∀ mark ∈ marks, mark.place ≠ [] := fun mark hmem =>
      hbelow mark (hrest.isPrefix.subset (List.mem_append_left _ hmem))
    have hnext := ih hbelow
    rw [List.map_append, ← List.append_assoc] at hnext
    refine .cons (left.length :: place) ?_ ?_ ?_ hnext
    · rw [htree, Node.substitute_shell, Mark.substituteFrom_marks child rest hbase hown hmarks,
        hstays, ← hdone]
      rfl
    · rw [hpath, Way.path_cons, Mark.moved_marks place hbase hown, ← length_done hdone,
        List.append_assoc]
      rfl
    · rw [hshown, Node.get?_cons, Shell.children_node, List.getElem?_append_right (Nat.le_refl _),
        Nat.sub_self]
      rfl

/-- A child is met: it is visited if it is accepted, and walked into if it is
not. -/
theorem exists_meet_recording (editor : Editor σ) (way : Way) (shell : Shell) (child : Node)
    (rest : List Node) (state : σ) (visits : List (Visit σ))
    (hbase : Mark.AreBefore left.length base)
    (hdone : done = Node.substituteFrom (Mark.substitution base) 0 left) :
    ∃ decision next seen own,
      editor.recording.meet (⟨shell, done, rest⟩ :: way) child (state, visits) =
        (decision, next, visits ++ seen) ∧
      editor.Tour way (shell.node (left ++ child :: rest)) base seen (base ++ own) ∧
      (editor.accepts child = true ∧ own = [⟨[left.length], decision⟩] ∨
        editor.accepts child = false ∧ own = [] ∧ decision = .descend) := by
  have hpath : Way.path (⟨shell, done, rest⟩ :: way) = way.path ++ [done.length] :=
    Way.path_cons ⟨shell, done, rest⟩ way
  cases haccepts : editor.accepts child with
  | false =>
    refine ⟨.descend, state, [], [], ?_, ?_, Or.inr ⟨rfl, rfl, rfl⟩⟩
    · rw [List.append_nil]
      exact if_neg (haccepts ▸ Bool.false_ne_true)
    · rw [List.append_nil]
      exact .nil _
  | true =>
    -- The visit is made at the path where the marks to the left have moved the child.
    generalize hvisit : editor.visitAt state (Way.plug (⟨shell, done, rest⟩ :: way) child)
      (Way.path (⟨shell, done, rest⟩ :: way)) = visit
    have htree : visit.tree = Way.plug (⟨shell, done, rest⟩ :: way) child := by rw [← hvisit]; rfl
    have hwhere : visit.path = way.path ++ [done.length] := by rw [← hvisit, ← hpath]; rfl
    generalize hdecided : editor.decide state (Way.plug (⟨shell, done, rest⟩ :: way) child)
      (Way.path (⟨shell, done, rest⟩ :: way)) = decided
    have hdecision : editor.decision visit = decided.1 := by
      have hdecide : editor.decide visit.state visit.tree visit.path = decided := by
        rw [← hvisit, ← hdecided]
        rfl
      rw [decision, hdecide, hwhere]
      exact if_neg (by simp)
    refine ⟨decided.1, decided.2, [visit], [⟨[left.length], decided.1⟩], ?_, ?_, Or.inl ⟨rfl, rfl⟩⟩
    · rw [← hvisit, ← hdecided]
      exact if_pos haccepts
    · refine .cons [left.length] ?_ ?_ ?_ (hdecision ▸ .nil _)
      · rw [htree, Node.substitute_shell, hbase.substituteFrom_eq, ← hdone]
        rfl
      · rw [hwhere, length_done hdone]
        rfl
      · rw [Visit.node?, htree, hwhere, ← hpath, Way.get?_path, Node.get?_cons,
          Shell.children_node, List.getElem?_append_right (Nat.le_refl _), Nat.sub_self]
        exact (Node.get?_nil child).symm

end

/-- Whether what an editor with a record made of a node is told by a tour below
the node. -/
def ToursBelow (editor : Editor σ) (way : Way) (node : Node) (visits : List (Visit σ))
    (edited : Edited Node (σ × List (Visit σ))) : Prop :=
  ∃ later marks, edited.state.2 = visits ++ later ∧ editor.Tour way node [] later marks ∧
    edited.content = node.substitute (Mark.substitution marks) ∧
    Mark.Cover editor.accepts marks node.descendants edited.finished

/-- Whether what an editor with a record made of the last children of a node is
told by a tour, where the children before them and the marks in these are given.
-/
def ToursSiblings (editor : Editor σ) (way : Way) (shell : Shell) (left : List Node)
    (base : List Mark) (rest : List Node) (visits : List (Visit σ))
    (edited : Edited (List Node) (σ × List (Visit σ))) : Prop :=
  ∃ later marks, edited.state.2 = visits ++ later ∧
    editor.Tour way (shell.node (left ++ rest)) base later (base ++ marks) ∧
    Node.substituteFrom (Mark.substitution base) 0 left ++ edited.content =
      Node.substituteFrom (Mark.substitution (base ++ marks)) 0 (left ++ rest) ∧
    Mark.Cover editor.accepts marks (Node.descendantsFrom left.length rest) edited.finished

/-- Beyond a child, by its own mark and those below it, and by what is there in
its place. -/
theorem ToursSiblings.behind {shell : Shell} {left rest place : List Node} {child : Node}
    {base own inner : List Mark} {visits seen : List (Visit σ)}
    {outer : Edited (List Node) (σ × List (Visit σ))}
    (h : editor.ToursSiblings way shell (left ++ [child])
      (base ++ own ++ inner.map (Mark.under left.length)) rest (visits ++ seen) outer)
    (hown : ∀ mark ∈ own, mark.place = [left.length])
    (haccepts : own.map Mark.place = if editor.accepts child then [[left.length]] else [])
    (hgoes : own.any (·.decision.stops) = false)
    (hinner : if own.any (·.decision.passesBy) then inner = []
      else Mark.Cover editor.accepts inner child.descendants true)
    (htour : editor.Tour way (shell.node (left ++ child :: rest)) base seen
      (base ++ own ++ inner.map (Mark.under left.length)))
    (hplace : Node.substituteFrom (Mark.substitution base) 0 left ++ place =
      Node.substituteFrom
        (Mark.substitution (base ++ own ++ inner.map (Mark.under left.length))) 0
        (left ++ [child])) :
    editor.ToursSiblings way shell left base (child :: rest) visits
      ⟨place ++ outer.content, outer.state, outer.finished⟩ := by
  obtain ⟨later, marks, hstate, hlater, hcontent, hcover⟩ := h
  rw [List.append_assoc left, List.singleton_append] at hlater hcontent
  rw [List.length_append, List.length_singleton] at hcover
  have hmarks : base ++ own ++ inner.map (Mark.under left.length) ++ marks =
      base ++ (own ++ inner.map (Mark.under left.length) ++ marks) := by
    simp only [List.append_assoc]
  refine ⟨seen ++ later, own ++ inner.map (Mark.under left.length) ++ marks, ?_, ?_, ?_, ?_⟩
  · rw [hstate, List.append_assoc]
  · rw [← hmarks]
    exact htour.trans hlater
  · rw [← hmarks, ← hcontent, ← hplace, List.append_assoc]
  · exact Mark.Cover.next hown haccepts hgoes hinner hcover

/-- What takes the place of a child by its own mark, where there is none below
it. -/
theorem substituteFrom_mark {left : List Node} {base : List Mark}
    (hbase : Mark.AreBefore left.length base) (child : Node) (rest : List Node)
    (decision : Decision) :
    Node.substituteFrom (Mark.substitution (base ++ [⟨[left.length], decision⟩])) 0
        (left ++ child :: rest) =
      Node.substituteFrom (Mark.substitution base) 0 left ++
        (decision.nodes?.getD [child] ++ rest) := by
  have hown : ∀ mark ∈ [(⟨[left.length], decision⟩ : Mark)], mark.place = [left.length] :=
    fun mark hmem => List.mem_singleton.mp hmem ▸ rfl
  have hplace := Mark.substituteFrom_marks child rest hbase hown
    fun mark hmem => absurd hmem List.not_mem_nil
  have hkept : child.substitute (Mark.substitution []) = child :=
    Node.substitute_of_none (fun _ _ => rfl) child
  rwa [hkept, List.map_nil, List.append_nil, Mark.substitution_single] at hplace

/-- Beyond a child that has been visited and passed by. -/
theorem ToursSiblings.passed {shell : Shell} {left rest : List Node} {child : Node}
    {base : List Mark} {decision : Decision} {visits seen : List (Visit σ)}
    {outer : Edited (List Node) (σ × List (Visit σ))}
    (h : editor.ToursSiblings way shell (left ++ [child]) (base ++ [⟨[left.length], decision⟩]) rest
      (visits ++ seen) outer)
    (hbase : Mark.AreBefore left.length base) (haccepts : editor.accepts child = true)
    (hgoes : decision.stops = false) (hpasses : decision.passesBy = true)
    (htour : editor.Tour way (shell.node (left ++ child :: rest)) base seen
      (base ++ [⟨[left.length], decision⟩])) :
    editor.ToursSiblings way shell left base (child :: rest) visits
      ⟨decision.nodes?.getD [child] ++ outer.content, outer.state, outer.finished⟩ := by
  have hmarks : base ++ [⟨[left.length], decision⟩] ++
      ([] : List Mark).map (Mark.under left.length) = base ++ [⟨[left.length], decision⟩] := by
    rw [List.map_nil, List.append_nil]
  rw [← hmarks] at h htour
  refine h.behind (fun mark hmem => List.mem_singleton.mp hmem ▸ rfl) ?_ ?_ ?_ htour ?_
  · rw [if_pos haccepts]
    rfl
  · rw [List.any_cons, hgoes]
    rfl
  · rw [List.any_cons, hpasses, Bool.true_or, if_pos rfl]
  · rw [hmarks, substituteFrom_mark hbase, List.append_nil]

/-- Beyond a child that has been entered, or up to where the walk has ended
below it. -/
theorem ToursBelow.entered {shell : Shell} {left rest done : List Node} {child : Node}
    {base own : List Mark} {visits seen : List (Visit σ)}
    {edited : Edited Node (σ × List (Visit σ))}
    (h : editor.ToursBelow (⟨shell, done, rest⟩ :: way) child (visits ++ seen) edited)
    (hbase : Mark.AreBefore left.length base)
    (hdone : done = Node.substituteFrom (Mark.substitution base) 0 left)
    (htour : editor.Tour way (shell.node (left ++ child :: rest)) base seen (base ++ own))
    (hown : ∀ mark ∈ own, mark.place = [left.length] ∧ mark.decision = .descend)
    (haccepts : own.map Mark.place = if editor.accepts child then [[left.length]] else [])
    (hsiblings : ∀ base, Mark.AreBefore (left ++ [child]).length base → ∀ done,
      done = Node.substituteFrom (Mark.substitution base) 0 (left ++ [child]) → ∀ state visits,
        editor.ToursSiblings way shell (left ++ [child]) base rest visits
          (editor.recording.siblings way shell done rest (state, visits))) :
    editor.ToursSiblings way shell left base (child :: rest) visits
      (if edited.finished then
        let outer := editor.recording.siblings way shell (done ++ [edited.content]) rest
          edited.state
        ⟨edited.content :: outer.content, outer.state, outer.finished⟩
      else ⟨edited.content :: rest, edited.state, false⟩) := by
  have hplaces : ∀ mark ∈ own, mark.place = [left.length] := fun mark hmem => (hown mark hmem).1
  -- a decision to descend keeps the child, ends nothing and passes nothing by
  have hstays : Mark.substitution own [left.length] = none := by
    refine List.findSome?_eq_none_iff.mpr fun mark hmem => ?_
    rw [(hown mark hmem).1, (hown mark hmem).2]
    exact if_pos rfl
  have hgoes : own.any (·.decision.stops) = false := by
    refine List.any_eq_false.mpr fun mark hmem => ?_
    rw [(hown mark hmem).2]
    exact Bool.false_ne_true
  have henters : own.any (·.decision.passesBy) = false := by
    refine List.any_eq_false.mpr fun mark hmem => ?_
    rw [(hown mark hmem).2]
    exact Bool.false_ne_true
  obtain ⟨first, inner, hstate, hinner, hcontent, hcover⟩ := h
  have hbelow := hinner.under hbase hdone hplaces hstays hcover.place_ne_nil
  rw [List.map_nil, List.append_nil] at hbelow
  have hwhole := htour.trans hbelow
  have hplace := fun rest => Mark.substituteFrom_marks child rest hbase hplaces hcover.place_ne_nil
  rw [hstays] at hplace
  obtain ⟨content, ⟨last, recorded⟩, finished⟩ := edited
  obtain rfl : recorded = visits ++ seen ++ first := hstate
  obtain rfl : content = child.substitute (Mark.substitution inner) := hcontent
  cases finished with
  | false =>
    refine ⟨seen ++ first, own ++ inner.map (Mark.under left.length), ?_, ?_, ?_, ?_⟩
    · exact List.append_assoc visits seen first
    · rw [← List.append_assoc]
      exact hwhole
    · rw [← List.append_assoc]
      exact (hplace rest).symm
    · exact Mark.Cover.ended_below hplaces haccepts hgoes henters hcover
  | true =>
    have hlength : (left ++ [child]).length = left.length + 1 := by simp
    have hrest := hsiblings (base ++ own ++ inner.map (Mark.under left.length))
      (hlength ▸ hbase.next hplaces inner)
      (done ++ [child.substitute (Mark.substitution inner)])
      (by rw [hplace [], ← hdone]; rfl) last (visits ++ (seen ++ first))
    rw [if_pos rfl, List.append_assoc visits]
    exact hrest.behind hplaces haccepts hgoes (by rw [henters]; exact hcover) hwhole
      (hplace []).symm

/-- A node without children is kept, and nothing is visited below it. -/
theorem toursBelow_of_leaf {state : σ} {visits : List (Visit σ)}
    {edited : Edited Node (σ × List (Visit σ))} (hedited : edited = ⟨node, (state, visits), true⟩)
    (hleaf : node.descendants = [])
    (hsubstitute : node.substitute (Mark.substitution []) = node) :
    editor.ToursBelow way node visits edited := by
  subst hedited
  refine ⟨[], [], (List.append_nil visits).symm, .nil _, hsubstitute.symm, ?_⟩
  rw [hleaf]
  exact ⟨List.prefix_refl _, fun _ => rfl, rfl, fun _ hmem => absurd hmem List.not_mem_nil⟩

mutual

/-- Below a node, the walk of an editor with a record is a tour. -/
theorem tours_below (editor : Editor σ) (way : Way) : ∀ (node : Node) (state : σ)
    (visits : List (Visit σ)),
      editor.ToursBelow way node visits (editor.recording.below way node (state, visits))
  | .root children info, state, visits => by
    obtain ⟨later, marks, hstate, htour, hcontent, hcover⟩ := editor.tours_siblings way (.root info)
      [] [] (fun _ hmem => absurd hmem List.not_mem_nil) [] rfl children state visits
    rw [below]
    exact ⟨later, marks, hstate, htour, congrArg (Node.root · info) hcontent, hcover⟩
  | .element tag properties children info, state, visits => by
    obtain ⟨later, marks, hstate, htour, hcontent, hcover⟩ :=
      editor.tours_siblings way (.element tag properties info) [] []
        (fun _ hmem => absurd hmem List.not_mem_nil) [] rfl children state visits
    rw [below]
    exact ⟨later, marks, hstate, htour,
      congrArg (Node.element tag properties · info) hcontent, hcover⟩
  | .text value info, state, visits => by
    rw [below]
    exact toursBelow_of_leaf rfl rfl (Node.substitute_of_none (fun _ _ => rfl) _)
  | .comment value info, state, visits => by
    rw [below]
    exact toursBelow_of_leaf rfl rfl (Node.substitute_of_none (fun _ _ => rfl) _)
  | .doctype name info, state, visits => by
    rw [below]
    exact toursBelow_of_leaf rfl rfl (Node.substitute_of_none (fun _ _ => rfl) _)

/-- Among the last children of a node, the walk of an editor with a record is a
tour. -/
theorem tours_siblings (editor : Editor σ) (way : Way) (shell : Shell) (left : List Node)
    (base : List Mark) (hbase : Mark.AreBefore left.length base) (done : List Node)
    (hdone : done = Node.substituteFrom (Mark.substitution base) 0 left) :
    ∀ (rest : List Node) (state : σ) (visits : List (Visit σ)),
      editor.ToursSiblings way shell left base rest visits
        (editor.recording.siblings way shell done rest (state, visits))
  | [], state, visits => by
    refine ⟨[], [], (List.append_nil visits).symm, ?_, ?_, ?_⟩
    · rw [List.append_nil, List.append_nil]
      exact .nil _
    · rw [List.append_nil, List.append_nil]
      exact List.append_nil _
    · exact ⟨List.prefix_refl _, fun _ => rfl, rfl, fun _ hmem => absurd hmem List.not_mem_nil⟩
  | child :: rest, state, visits => by
    obtain ⟨decision, next, seen, own, hmeet, htour, hown⟩ :=
      exists_meet_recording editor way shell child rest state visits hbase hdone
    have hmarked : decision ≠ .descend →
        editor.accepts child = true ∧ own = [⟨[left.length], decision⟩] := by
      intro hne
      rcases hown with hown | ⟨-, -, hdescend⟩
      · exact hown
      · exact absurd hdescend hne
    rw [siblings, hmeet]
    cases decision with
    | descend =>
      -- with or without a visit of the child, the walk goes down
      refine (editor.tours_below (⟨shell, done, rest⟩ :: way) child next (visits ++ seen)).entered
        hbase hdone htour ?_ ?_ fun base hbase done hdone state visits =>
          editor.tours_siblings way shell (left ++ [child]) base hbase done hdone rest state visits
      · rcases hown with ⟨-, rfl⟩ | ⟨-, rfl, -⟩ <;> simp
      · rcases hown with ⟨haccepts, rfl⟩ | ⟨hrefuses, rfl, -⟩ <;> simp [*]
    | skip =>
      obtain ⟨hyes, rfl⟩ := hmarked nofun
      have hplace := substituteFrom_mark hbase child [] .skip
      have hrest := editor.tours_siblings way shell (left ++ [child]) (base ++ [_])
        (hbase.beyond child .skip) (done ++ [child]) (by rw [hplace, ← hdone]; rfl) rest
          next (visits ++ seen)
      exact hrest.passed hbase hyes rfl rfl htour
    | stop =>
      obtain ⟨hyes, rfl⟩ := hmarked nofun
      refine ⟨seen, [⟨[left.length], .stop⟩], rfl, htour, ?_, Mark.Cover.ended_at hyes rfl rfl⟩
      exact (substituteFrom_mark hbase child rest .stop).symm
    | replace nodes =>
      obtain ⟨hyes, rfl⟩ := hmarked nofun
      have hplace := substituteFrom_mark hbase child [] (.replace nodes)
      rw [List.append_nil] at hplace
      have hrest := editor.tours_siblings way shell (left ++ [child]) (base ++ [_])
        (hbase.beyond child (.replace nodes)) (done ++ nodes) (by rw [hplace, ← hdone]; rfl)
          rest next
        (visits ++ seen)
      exact hrest.passed hbase hyes rfl rfl htour

end

/-- Marks that put nothing in leave a tour as it is. -/
theorem Tour.after {own : List Mark} (hown : Mark.substitution own = fun _ => none)
    {first final : List Mark} {visits : List (Visit σ)}
    (h : editor.Tour way node first visits final) :
    editor.Tour way node (own ++ first) visits (own ++ final) := by
  have hsame : ∀ marks, Mark.substitution (own ++ marks) = Mark.substitution marks := by
    intro marks
    funext path
    rw [Mark.substitution_append, hown, Option.none_or]
  induction h with
  | nil => exact .nil _
  | cons place tree path shown _ ih =>
    rw [← List.append_assoc] at ih
    exact .cons place (by rw [hsame]; exact tree) (by rw [hsame]; exact path) shown ih

end Editor

/-- All nodes of a tree in document order, the root first, each with its path. -/
def Node.listed (tree : Node) : List (Path × Node) := ([], tree) :: tree.descendants

/-- What covers a tree as an only child covers the tree. -/
theorem Mark.Cover.of_child {accepts : Node → Bool} {marks : List Mark} {tree : Node}
    {finished : Bool}
    (h : Cover accepts (marks.map (under 0)) (Node.descendantsFrom 0 [tree]) finished) :
    Cover accepts marks tree.listed finished := by
  have hlisted : Node.descendantsFrom 0 [tree] =
      tree.listed.map fun one => (0 :: one.1, one.2) := by
    rw [Node.descendantsFrom, Node.descendantsFrom, List.append_nil]
    rfl
  have hshown : shown accepts (marks.map (under 0)) (Node.descendantsFrom 0 [tree]) =
      (shown accepts marks tree.listed).map (0 :: ·) := by
    rw [hlisted, shown, shown, List.filter_map, List.map_map, List.map_map]
    refine congrArg (List.map _) (List.filter_congr fun one _ => ?_)
    rw [Function.comp_apply, passes_under_self]
  -- Everything that is listed or marked begins with index 0, which is taken off again.
  have hback : ∀ paths : List Path, (paths.map (0 :: ·)).map List.tail = paths := by
    intro paths
    rw [List.map_map]
    exact List.map_id _
  obtain ⟨hinOrder, hall, hfinished, hstops⟩ := h
  rw [hshown, map_place_under] at hinOrder hall
  refine ⟨?_, fun hfin => ?_, ?_, fun mark hmem => ?_⟩
  · have hmap := hinOrder.map List.tail
    rw [hback, hback] at hmap
    exact hmap
  · have hmap := congrArg (List.map List.tail) (hall hfin)
    rw [hback, hback] at hmap
    exact hmap
  · rw [hfinished, any_stops_under]
  · rw [← List.map_dropLast] at hstops
    exact hstops (mark.under 0) (List.mem_map_of_mem hmem)

namespace Editor

/-- The root is met: it is visited if it is accepted, and walked into if it is
not. Nothing takes its place. -/
theorem exists_meet_root (editor : Editor σ) (tree : Node) (state : σ) :
    ∃ decision next seen own,
      editor.recording.meet [] tree (state, []) = (decision, next, seen) ∧
      editor.Tour [] tree [] seen own ∧ Mark.substitution own = (fun _ => none) ∧
      (editor.accepts tree = true ∧
          own = [⟨[], decision.atRoot⟩] ∨
        editor.accepts tree = false ∧ own = [] ∧ decision = .descend) := by
  cases haccepts : editor.accepts tree with
  | false =>
    refine ⟨.descend, state, [], [], ?_, .nil _, rfl, Or.inr ⟨rfl, rfl, rfl⟩⟩
    exact if_neg (haccepts ▸ Bool.false_ne_true)
  | true =>
    generalize hvisit : editor.visitAt state tree [] = visit
    generalize hdecided : editor.decide state tree [] = decided
    refine ⟨decided.1, decided.2, [visit], _, ?_, ?_, ?_, Or.inl ⟨rfl, rfl⟩⟩
    · rw [← hvisit, ← hdecided]
      exact if_pos haccepts
    · have hdecision : editor.decision visit = decided.1.atRoot := by
        rw [← hvisit, ← hdecided]
        rfl
      refine .cons [] ?_ ?_ ?_ (hdecision ▸ .nil _)
      · rw [← hvisit]
        exact (Node.substitute_of_none (fun _ _ => rfl) tree).symm
      · rw [← hvisit]
        rfl
      · rw [← hvisit]
        rfl
    · funext path
      rw [Mark.substitution]
      cases decided.1 <;> simp [Decision.nodes?, Decision.atRoot]

/-- Whether what a walk with a record made of a whole tree is told by a tour. -/
def ToursWhole (editor : Editor σ) (tree : Node) (recorded : Walked (σ × List (Visit σ))) : Prop :=
  ∃ marks : List Mark, editor.Tour [] tree [] recorded.state.2 marks ∧
    Mark.Cover editor.accepts marks tree.listed (!marks.any (·.decision.stops)) ∧
    recorded.tree = tree.substitute (Mark.substitution marks) ∧
    recorded.ending = if marks.any (·.decision.stops) then .stopped else .completed

/-- Nothing stands beside the root. -/
theorem cover_beside_root (accepts : Node → Bool) :
    Mark.Cover accepts [] (Node.descendantsFrom 1 []) true :=
  ⟨List.prefix_refl _, fun _ => rfl, rfl, fun _ hmem => absurd hmem List.not_mem_nil⟩

/-- Below the root, when the walk goes down from it. -/
theorem ToursBelow.whole {editor : Editor σ} {tree : Node} {seen : List (Visit σ)} {own : List Mark}
    {edited : Edited Node (σ × List (Visit σ))} (h : editor.ToursBelow [] tree seen edited)
    (hroot : editor.Tour [] tree [] seen own) (hnone : Mark.substitution own = fun _ => none)
    (hplaces : ∀ mark ∈ own.map (Mark.under 0), mark.place = [0])
    (haccepts : (own.map (Mark.under 0)).map Mark.place =
      if editor.accepts tree then [[0]] else [])
    (hgoes : own.any (·.decision.stops) = false)
    (henters : own.any (·.decision.passesBy) = false) :
    editor.ToursWhole tree
      ⟨if edited.finished then .completed else .stopped, edited.content, edited.state⟩ := by
  obtain ⟨first, inner, hstate, hinner, hcontent, hcover⟩ := h
  rw [← Mark.any_stops_under 0] at hgoes
  have hpasses : (own.map (Mark.under 0)).any (·.decision.passesBy) = false := by
    rw [List.any_map]
    exact henters
  have hwhole := hinner.after hnone
  rw [List.append_nil] at hwhole
  have hafter : Mark.substitution (own ++ inner) = Mark.substitution inner := by
    funext path
    rw [Mark.substitution_append, hnone, Option.none_or]
  have hlisted : Mark.Cover editor.accepts (own ++ inner) tree.listed edited.finished := by
    refine Mark.Cover.of_child ?_
    rw [List.map_append]
    cases hfinished : edited.finished with
    | false =>
      rw [hfinished] at hcover
      exact Mark.Cover.ended_below hplaces haccepts hgoes hpasses hcover
    | true =>
      rw [hfinished] at hcover
      have hnext := Mark.Cover.next hplaces haccepts hgoes (by rw [hpasses]; exact hcover)
        (cover_beside_root editor.accepts)
      rw [List.append_nil] at hnext
      exact hnext
  refine ⟨own ++ inner, ?_, hlisted.finished_eq ▸ hlisted, ?_, ?_⟩
  · dsimp only
    rw [hstate]
    exact hroot.trans hwhole
  · dsimp only
    rw [hcontent, hafter]
  · dsimp only
    rw [hlisted.finished_eq]
    cases (own ++ inner).any (·.decision.stops) <;> rfl

/-- What a walk with a record makes of a whole tree is told by a tour. -/
theorem tours_run (editor : Editor σ) (tree : Node) (state : σ) :
    editor.ToursWhole tree (editor.recording.run tree (state, [])) := by
  obtain ⟨decision, next, seen, own, hmeet, htour, hnone, hown⟩ :=
    editor.exists_meet_root tree state
  have hplaces : ∀ mark ∈ own.map (Mark.under 0), mark.place = [0] := by
    rcases hown with ⟨-, rfl⟩ | ⟨-, rfl, -⟩ <;> simp [Mark.under]
  have haccepts : (own.map (Mark.under 0)).map Mark.place =
      if editor.accepts tree then [[0]] else [] := by
    rcases hown with ⟨haccepts, rfl⟩ | ⟨hrefuses, rfl, -⟩ <;> simp [Mark.under, *]
  have hmarked : decision ≠ .descend → editor.accepts tree = true ∧
      own = [⟨[], decision.atRoot⟩] := by
    intro hne
    rcases hown with hown | ⟨-, -, hdescend⟩
    · exact hown
    · exact absurd hdescend hne
  have hkept : tree.substitute (Mark.substitution own) = tree :=
    Node.substitute_of_none (fun path _ => congrFun hnone path) tree
  rw [run, hmeet]
  -- Going down and replacing both enter the root, since it has no siblings to make room among.
  cases decision with
  | descend =>
    refine (editor.tours_below [] tree next seen).whole htour hnone hplaces haccepts ?_ ?_
    · rcases hown with ⟨-, rfl⟩ | ⟨-, rfl, -⟩ <;> rfl
    · rcases hown with ⟨-, rfl⟩ | ⟨-, rfl, -⟩ <;> rfl
  | replace nodes =>
    refine (editor.tours_below [] tree next seen).whole htour hnone hplaces haccepts ?_ ?_
    · rcases hown with ⟨-, rfl⟩ | ⟨-, rfl, -⟩ <;> rfl
    · rcases hown with ⟨-, rfl⟩ | ⟨-, rfl, -⟩ <;> rfl
  | skip =>
    obtain ⟨hyes, rfl⟩ := hmarked nofun
    have hpassed : ([] : List Mark) = [] := rfl
    have hnext := Mark.Cover.next hplaces haccepts rfl hpassed (cover_beside_root editor.accepts)
    exact ⟨_, htour, Mark.Cover.of_child hnext, hkept.symm, rfl⟩
  | stop =>
    obtain ⟨hyes, rfl⟩ := hmarked nofun
    have hended : Mark.Cover editor.accepts [⟨[0], .stop⟩] (Node.descendantsFrom 0 [tree]) false :=
      Mark.Cover.ended_at hyes rfl rfl
    exact ⟨_, htour, Mark.Cover.of_child hended, hkept.symm, rfl⟩

/-- The walk of an editor. It ends, however much fuel it has beyond what the
tree needs, and each visit goes on from where the one before has left off. The
visits make a tour: each is of a node of the tree as it was, found in place and
as it was, in the tree that the decisions before it have led to. They are of the
nodes that are accepted and not below one that was skipped or replaced, in
document order, all of them or those up to the first decision to stop. The tree
that is left is the one that was there with the nodes replaced, and the walk is
stopped exactly if a decision was to stop. -/
theorem walk_tour (editor : Editor σ) (tree : Node) (state : σ) :
    let walked := walk editor.visitor (2 * tree.size) tree state
    let visits := (walk editor.visitor.recording (2 * tree.size) tree (state, [])).state.2
    ∃ marks : List Mark,
      (∀ fuel, 2 * tree.size ≤ fuel → walk editor.visitor fuel tree state = walked) ∧
      editor.visitor.Trace tree state visits walked.tree walked.state ∧
      editor.Tour [] tree [] visits marks ∧
      Mark.Cover editor.accepts marks tree.listed (!marks.any (·.decision.stops)) ∧
      walked.tree = tree.substitute (Mark.substitution marks) ∧
      walked.ending = if marks.any (·.decision.stops) then .stopped else .completed := by
  intro walked visits
  have hrecorded : walk editor.visitor.recording (2 * tree.size) tree (state, []) =
      editor.recording.run tree (state, []) := by
    rw [← visitor_recording]
    exact editor.recording.walk_eq_run tree (state, []) (Nat.le_refl _)
  have hwalked : walked = (editor.recording.run tree (state, [])).map Prod.fst := by
    rw [← hrecorded]
    exact editor.visitor.walk_recording (2 * tree.size) tree state
  obtain ⟨marks, htour, hcover, htree, hending⟩ := editor.tours_run tree state
  have hvisits : visits = (editor.recording.run tree (state, [])).state.2 := by rw [← hrecorded]
  have htrace := editor.visitor.trace_walk (2 * tree.size) tree state
  rw [hrecorded, ← hvisits] at htrace
  refine ⟨marks, fun fuel hfuel => ?_, ?_, ?_, hcover, ?_, ?_⟩
  · exact (editor.walk_eq_run tree state hfuel).trans
      (editor.walk_eq_run tree state (Nat.le_refl _)).symm
  · rw [hwalked]
    exact htrace
  · rw [hvisits]
    exact htour
  · rw [hwalked]
    exact htree
  · rw [hwalked]
    exact hending

end Editor

end Graft
