import Graft.Proofs.Tree.Editing
import Graft.Proofs.Tree.Order
import Graft.Proofs.Tree.Visits

/-!
# Where visited nodes come from

The path of a visit is one of the tree of the moment. Going back through the
visits before it, past every replacement, it is followed to the tree that the
walk began with, or else to the replacement that put the node in. So what a walk
visits can be told in terms of the tree as it was: which of its texts, in which
order, and how often.

Going back past one replacement is `Path.beforeSplice`: indexes to the left of
what was put in stay, those to the right move, and those within have no earlier
place. Going back past all visits is `Visit.origin?`, and `Visit.sources` does
it for every visit of a walk, each past those before it.

The run lemma is an induction along the recursion of `Editor.run`, for a node
(`Editor.EditsTexts.shows_below`) and for a list of siblings
(`Editor.EditsTexts.shows_siblings`). Its invariant (`Visit.Follows`) is that
everything still ahead lies where it lay at first but for one shift of its
index, and so is followed back to where it was. It is kept by a visit
(`Visit.Follows.next`), because a replacement among the siblings moves all that
is ahead by the same number of places.

Main statements:
- `Node.get?_spliceChildren`: what lies at a path after a replacement lay before
  it where it is traced back;
- `Node.mem_textPaths`, `Node.textsAt_descendants`: the texts of a tree by their
  paths;
- `Visit.Follows.next`, `Visit.Follows.visited`: behind what has been gone
  through, siblings are still those of the tree as it was;
- `Editor.EditsTexts.shows_below`, `Editor.EditsTexts.shows_siblings`: an editor
  that replaces texts is shown the texts that were there at first, each once, in
  document order, and nothing that it has put in.
-/

namespace Graft

variable {σ : Type}

/-- Where in a tree a node was, before one child of the node at `parent` gave
way to the children from `index` up to `next`. Those that took its place were
nowhere. -/
def Path.beforeSplice (index next : Nat) : Path → Path → Option Path
  | _, [] => some []
  | [], i :: below =>
    if i < index then some (i :: below)
    else if i < next then none
    else some ((i - next + (index + 1)) :: below)
  | j :: parent, i :: path =>
    if i = j then (beforeSplice index next parent path).map (i :: ·) else some (i :: path)

namespace Visit

/-- Where the node at a path was before the visit. A visit that has the walk
resume at an index has put the children before that index where the visited node
was; any other one leaves all nodes in place. -/
def before? (visit : Visit σ) (path : Path) : Option Path :=
  match visit.outcome.step, visit.path.getLast? with
  | some (.resume next), some index => Path.beforeSplice index next visit.path.dropLast path
  | _, _ => some path

/-- Where the node at a path was before all of these visits, if it was there. -/
def origin? (visits : List (Visit σ)) (path : Path) : Option Path :=
  visits.foldr (fun visit place => place.bind visit.before?) (some path)

/-- The nodes visited, in order, each with where it was before these visits and
earlier ones. -/
def sources (earlier : List (Visit σ)) : List (Visit σ) → List (Option Path × Option Node)
  | [] => []
  | visit :: rest => (origin? earlier visit.path, visit.node?) :: sources (earlier ++ [visit]) rest

end Visit

/-- A replacement behind the way to a path leaves the path as it is. -/
theorem Path.beforeSplice_of_ne {index next : Nat} (parent : Path) {i j : Nat} (more below : Path)
    (h : i ≠ j) :
    Path.beforeSplice index next (parent ++ j :: more) (parent ++ i :: below) =
      some (parent ++ i :: below) := by
  induction parent with
  | nil => exact if_neg h
  | cons k parent ih =>
    rw [List.cons_append, List.cons_append, beforeSplice, if_pos rfl, ih]
    rfl

/-- A path behind the nodes put in. -/
theorem Path.beforeSplice_behind (index count : Nat) (parent : Path) (k : Nat) (below : Path) :
    Path.beforeSplice index (index + count) parent (parent ++ (index + count + k) :: below) =
      some (parent ++ (index + (1 + k)) :: below) := by
  induction parent with
  | nil =>
    rw [List.nil_append, List.nil_append, beforeSplice, if_neg (by omega), if_neg (by omega)]
    rw [show index + count + k - (index + count) + (index + 1) = index + (1 + k) by omega]
  | cons j parent ih =>
    rw [List.cons_append, beforeSplice, if_pos rfl, ih]
    rfl

/-- Only roots and elements have children, so whatever has one can be spliced. -/
theorem Node.isParent_of_lt {node : Node} {i : Nat} (h : i < node.children.length) :
    node.isParent = true := by
  cases node with
  | root => rfl
  | element => rfl
  | _ => exact absurd h (Nat.not_lt_zero i)

/-- What lies at a path after a replacement lay at the path before it, unless
the path leads to an ancestor of what was replaced. -/
theorem Node.get?_spliceChildren {index : Nat} {nodes : List Node} (parent : Path) :
    ∀ {path source : Path} {node : Node}, index < node.childCount parent → ¬ path <+: parent →
      Path.beforeSplice index (index + nodes.length) parent path = some source →
      (node.modifyAt (·.spliceChildren index 1 nodes) parent).get? path = node.get? source := by
  induction parent with
  | nil =>
    intro path source node hindex hnot hsource
    have hindex : index < node.children.length := hindex
    have hparent := isParent_of_lt hindex
    cases path with
    | nil => exact absurd (List.prefix_refl []) hnot
    | cons i below =>
      have hlength : (node.children.take index ++ nodes).length = index + nodes.length := by
        rw [List.length_append, List.length_take, Nat.min_eq_left (Nat.le_of_lt hindex)]
      rw [modifyAt, spliceChildren, get?_cons, children_withChildren _ hparent]
      rw [Path.beforeSplice] at hsource
      split at hsource
      next hlt =>
        obtain rfl := Option.some.inj hsource
        rw [get?_cons, List.append_assoc, List.getElem?_append_left, List.getElem?_take_of_lt hlt]
        rw [List.length_take]
        omega
      next hge =>
        split at hsource
        next => exact absurd hsource (by simp)
        next hbehind =>
          -- behind the nodes put in, by as many places as they outnumber the one that left
          obtain rfl := Option.some.inj hsource
          rw [get?_cons, List.getElem?_append_right (by omega), hlength, List.getElem?_drop,
            Nat.add_comm]
  | cons j parent ih =>
    intro path source node hindex hnot hsource
    rw [childCount, get?_cons] at hindex
    cases path with
    | nil => exact absurd List.nil_prefix hnot
    | cons i below =>
      cases hchild : node.children[j]? with
      | none => simp [hchild] at hindex
      | some child =>
        rw [hchild] at hindex
        obtain ⟨hj, -⟩ := List.getElem?_eq_some_iff.mp hchild
        rw [modifyAt, get?_cons, children_withChildren _ (isParent_of_lt hj)]
        rw [Path.beforeSplice] at hsource
        split at hsource
        next hij =>
          subst hij
          obtain ⟨rest, hrest, rfl⟩ := Option.map_eq_some_iff.mp hsource
          rw [List.getElem?_modify_eq, hchild, get?_cons, hchild]
          refine ih hindex ?_ hrest
          exact fun hprefix => hnot (List.cons_prefix_cons.mpr ⟨rfl, hprefix⟩)
        next hij =>
          obtain rfl := Option.some.inj hsource
          rw [List.getElem?_modify_ne _ _ (Ne.symm hij), get?_cons]

namespace Visit

/-- Back past the later visits, then past the earlier ones. -/
theorem origin?_append (earlier later : List (Visit σ)) (path : Path) :
    origin? (earlier ++ later) path = (origin? later path).bind (origin? earlier) := by
  have hback : ∀ place : Option Path,
      earlier.foldr (fun visit place => place.bind visit.before?) place =
        place.bind (origin? earlier) := by
    intro place
    cases place with
    | some path => rfl
    | none =>
      induction earlier with
      | nil => rfl
      | cons visit rest ih =>
        rw [List.foldr_cons, ih]
        rfl
  rw [origin?, List.foldr_append, hback]
  rfl

/-- Visits that leave a path as it is lead back from it to where the ones before
them do. -/
theorem origin?_append_of_unmoved (earlier : List (Visit σ)) {later : List (Visit σ)} {path : Path}
    (h : ∀ visit ∈ later, visit.before? path = some path) :
    origin? (earlier ++ later) path = origin? earlier path := by
  have hlater : origin? later path = some path := by
    induction later with
    | nil => rfl
    | cons visit rest ih =>
      have hrest := ih fun other hmem => h other (List.mem_cons_of_mem _ hmem)
      show (origin? rest path).bind visit.before? = some path
      rw [hrest]
      exact h visit List.mem_cons_self
  rw [origin?_append, hlater]
  rfl

/-- The visits of the second part are followed back past those of the first part
too. -/
theorem sources_append (earlier first later : List (Visit σ)) :
    sources earlier (first ++ later) =
      sources earlier first ++ sources (earlier ++ first) later := by
  induction first generalizing earlier with
  | nil => rw [List.append_nil]; rfl
  | cons visit rest ih =>
    rw [List.cons_append, sources, ih, sources, List.append_assoc]
    rfl

/-- Every visit has its entry among the sources, with the node that was visited. -/
theorem exists_mem_sources (earlier : List (Visit σ)) {visits : List (Visit σ)} {visit : Visit σ}
    (h : visit ∈ visits) : ∃ place, (place, visit.node?) ∈ sources earlier visits := by
  induction visits generalizing earlier with
  | nil => exact absurd h List.not_mem_nil
  | cons first rest ih =>
    rcases List.mem_cons.mp h with rfl | h
    · exact ⟨_, List.mem_cons_self⟩
    · obtain ⟨place, hmem⟩ := ih (earlier ++ [first]) h
      exact ⟨place, List.mem_cons_of_mem _ hmem⟩

/-- Whether a visit was made below the node at a path. -/
def IsBelow (visit : Visit σ) (here : Path) : Prop := ∃ i below, visit.path = here ++ i :: below

/-- A visit below a child leaves the paths of other children as they are. -/
theorem IsBelow.before?_eq {visit : Visit σ} {here : Path} {i j : Nat}
    (h : visit.IsBelow (here ++ [j])) (hne : i ≠ j) (below : Path) :
    visit.before? (here ++ i :: below) = some (here ++ i :: below) := by
  obtain ⟨k, more, hpath⟩ := h
  have hparent : visit.path.dropLast = here ++ j :: (k :: more).dropLast := by
    rw [hpath, List.append_assoc, List.dropLast_append_of_ne_nil (by simp)]
    rfl
  rw [before?, hparent]
  split
  next => exact Path.beforeSplice_of_ne here _ below hne
  next => rfl

/-- Whether the children from index `i` on of the node at `here`, and what lies
below them, are those from index `j` on of the node that was at `there` before
these visits. -/
def Follows (visits : List (Visit σ)) (here : Path) (i : Nat) (there : Path) (j : Nat) : Prop :=
  ∀ k below, origin? visits (here ++ (i + k) :: below) = some (there ++ (j + k) :: below)

/-- What lies below the first of them is what lay below the first of those. -/
theorem Follows.below {visits : List (Visit σ)} {here there : Path} {i j : Nat}
    (h : Follows visits here i there j) : Follows visits (here ++ [i]) 0 (there ++ [j]) 0 := by
  intro k below
  have hfirst := h 0 ((0 + k) :: below)
  rw [List.append_assoc, List.append_assoc]
  exact hfirst

/-- Behind the first of them, while visits below it leave its siblings in place. -/
theorem Follows.next {visits later : List (Visit σ)} {here there : Path} {i j : Nat}
    (h : Follows visits here i there j) (hlater : ∀ visit ∈ later, visit.IsBelow (here ++ [i])) :
    Follows (visits ++ later) here (i + 1) there (j + 1) := by
  intro k below
  rw [origin?_append_of_unmoved]
  · rw [Nat.add_assoc, Nat.add_assoc]
    exact h (1 + k) below
  · intro visit hmem
    exact (hlater visit hmem).before?_eq (by omega) below

/-- Behind the first of them, when it has been visited and has led to `count`
nodes or been kept. -/
theorem Follows.visited {visits : List (Visit σ)} {here there : Path} {i j count : Nat}
    (h : Follows visits here i there j) {visit : Visit σ} (hpath : visit.path = here ++ [i])
    (hstep : visit.outcome.step = some .descend ∧ count = 1 ∨
      visit.outcome.step = some (.resume (i + count))) :
    Follows (visits ++ [visit]) here (i + count) there (j + 1) := by
  intro k below
  have hback : visit.before? (here ++ (i + count + k) :: below) =
      some (here ++ (i + (1 + k)) :: below) := by
    rcases hstep with ⟨hstep, rfl⟩ | hstep
    · rw [before?, hstep, Nat.add_assoc]
    · rw [before?, hstep, hpath, List.getLast?_concat, List.dropLast_concat]
      exact Path.beforeSplice_behind i count here k below
  have hone : origin? [visit] (here ++ (i + count + k) :: below) =
      some (here ++ (i + (1 + k)) :: below) := hback
  rw [origin?_append, hone, Nat.add_assoc j]
  exact h (1 + k) below

end Visit

/-- The editor with a record of its visits. -/
def Editor.recording (editor : Editor σ) : Editor (σ × List (Visit σ)) where
  accepts := editor.accepts
  decide recorded tree path :=
    let decided := editor.decide recorded.1 tree path
    (decided.1, decided.2, recorded.2 ++ [⟨recorded.1, tree, path, carryOut tree path decided⟩])

/-- Whoever lay somewhere before an editor's visit lies where it is traced back
from, unless it is an ancestor of the node that was visited. -/
theorem Visit.get?_of_before? {visit : Visit σ} {decided : Decision × σ}
    (hvisit : visit.outcome = Editor.carryOut visit.tree visit.path decided) {node : Node}
    (hnode : visit.node? = some node) {place source : Path} (h : visit.before? place = some source)
    (hnot : ¬ place <+: visit.path.dropLast) :
    visit.outcome.tree.get? place = visit.tree.get? source := by
  obtain ⟨decision, state⟩ := decided
  rw [before?] at h
  -- Only a replacement moves anything, and only where the visited node has a parent.
  cases decision with
  | replace nodes =>
    rw [Editor.carryOut] at hvisit
    cases hlast : visit.path.getLast? with
    | none =>
      rw [hlast] at hvisit
      rw [hvisit] at h ⊢
      obtain rfl := Option.some.inj h
      rfl
    | some index =>
      rw [hlast] at hvisit h
      rw [hvisit] at h ⊢
      have hpath : visit.path.dropLast ++ [index] = visit.path := by
        obtain ⟨parent, hparent⟩ := List.getLast?_eq_some_iff.mp hlast
        rw [hparent, List.dropLast_concat]
      refine Node.get?_spliceChildren visit.path.dropLast ?_ hnot h
      rw [node?, ← hpath, Node.get?_append] at hnode
      obtain ⟨parent, hparent, hchild⟩ := Option.bind_eq_some_iff.mp hnode
      rw [Node.get?_cons] at hchild
      obtain ⟨child, hindex, -⟩ := Option.bind_eq_some_iff.mp hchild
      rw [Node.childCount, hparent]
      exact (List.getElem?_eq_some_iff.mp hindex).1
  | _ =>
    rw [hvisit] at h ⊢
    obtain rfl := Option.some.inj h
    rfl

/-- Whether an editor is shown texts only, and keeps or replaces each of them. -/
structure Editor.EditsTexts (editor : Editor σ) : Prop where
  accepts : editor.accepts = Node.isText
  decides : ∀ state tree path, (editor.decide state tree path).1 = .descend ∨
    ∃ nodes, (editor.decide state tree path).1 = .replace nodes

namespace Editor

/-- Recording the decisions of an editor records the visits of its visitor. -/
theorem visitor_recording (editor : Editor σ) :
    editor.recording.visitor = editor.visitor.recording := by
  have hvisit : editor.recording.visitor.visit = editor.visitor.recording.visit := by
    funext recorded tree path
    show carryOut tree path (editor.recording.decide recorded tree path) = _
    unfold recording Visitor.recording visitor
    dsimp only
    obtain ⟨decision, state⟩ := editor.decide recorded.1 tree path
    cases decision with
    | descend => rfl
    | skip => rfl
    | stop => rfl
    | replace nodes =>
      rw [carryOut, carryOut]
      cases path.getLast? <;> rfl
  show (⟨editor.accepts, editor.recording.visitor.visit⟩ : Visitor _) = _
  rw [hvisit]
  rfl

end Editor

/-- The texts among nodes with paths, each path behind another one. -/
def Node.textsAt (there : Path) (nodes : List (Path × Node)) : List (Option Path × Option Node) :=
  (nodes.filter (·.2.isText)).map fun listed => (some (there ++ listed.1), some listed.2)

/-- A text is listed itself, and nothing below it. -/
theorem Node.textsAt_of_isText (there : Path) (j : Nat) {child : Node} (rest : List Node)
    (h : child.isText = true) :
    textsAt there (descendantsFrom j (child :: rest)) =
      (some (there ++ [j]), some child) :: textsAt there (descendantsFrom (j + 1) rest) := by
  obtain ⟨value, info, rfl⟩ := Node.exists_of_isText h
  rfl

/-- Of a child that is no text, the texts below it are listed, before those of
its siblings. -/
theorem Node.textsAt_of_not_isText (there : Path) (j : Nat) {child : Node} (rest : List Node)
    (h : child.isText = false) :
    textsAt there (descendantsFrom j (child :: rest)) =
      textsAt (there ++ [j]) child.descendants ++ textsAt there (descendantsFrom (j + 1) rest) := by
  have hchild : ¬ ([j], child).2.isText = true := by rw [h]; exact Bool.false_ne_true
  rw [textsAt, descendantsFrom, List.cons_append, List.filter_cons, if_neg hchild,
    List.filter_append, List.map_append, List.filter_map, List.map_map]
  refine congrArg (· ++ _) (List.map_congr_left fun listed _ => ?_)
  show (some (there ++ j :: listed.1), some listed.2) = (some (there ++ [j] ++ listed.1), _)
  rw [List.append_assoc, List.singleton_append]

namespace Node

/-- The paths of the texts below the root of a tree, in document order. -/
def textPaths (tree : Node) : List Path := (tree.descendants.filter (·.2.isText)).map Prod.fst

/-- The paths of texts are those that lead to one; a text that is the whole tree
does not count, since it has no parent to be spliced into. -/
theorem mem_textPaths {tree : Node} {path : Path} :
    path ∈ tree.textPaths ↔ path ≠ [] ∧ ∃ value info, tree.get? path = some (.text value info) := by
  constructor
  · intro h
    obtain ⟨⟨_, found⟩, hlisted, rfl⟩ := List.mem_map.mp h
    obtain ⟨hdescendant, htext⟩ := List.mem_filter.mp hlisted
    obtain ⟨hne, hfound⟩ := (mem_descendants_iff _ found tree).mp hdescendant
    obtain ⟨value, info, rfl⟩ := exists_of_isText htext
    exact ⟨hne, value, info, hfound⟩
  · rintro ⟨hne, value, info, hfound⟩
    have hdescendant := (mem_descendants_iff path _ tree).mpr ⟨hne, hfound⟩
    exact List.mem_map_of_mem (List.mem_filter.mpr ⟨hdescendant, rfl⟩)

/-- They are listed in document order. -/
theorem pairwise_textPaths (tree : Node) : tree.textPaths.Pairwise (· < ·) := by
  rw [textPaths, List.pairwise_map]
  exact tree.pairwise_descendants.filter _

/-- So none of them is listed twice. -/
theorem nodup_textPaths (tree : Node) : tree.textPaths.Nodup :=
  tree.pairwise_textPaths.imp fun hlt heq => absurd (heq ▸ hlt) (List.lt_irrefl _)

/-- The texts of a tree are those at these paths. -/
theorem textsAt_descendants (tree : Node) :
    textsAt [] tree.descendants = tree.textPaths.map fun path => (some path, tree.get? path) := by
  rw [textPaths, textsAt, List.map_map]
  refine List.map_congr_left fun listed hlisted => ?_
  obtain ⟨hdescendant, -⟩ := List.mem_filter.mp hlisted
  obtain ⟨-, hfound⟩ := (mem_descendants_iff listed.1 listed.2 tree).mp hdescendant
  show (some ([] ++ listed.1), some listed.2) = (some listed.1, tree.get? listed.1)
  rw [hfound, List.nil_append]

/-- The texts below a node are those at some paths, which grow along the list. -/
theorem exists_paths_of_texts (node : Node) :
    ∃ paths : List Path, paths.Pairwise (· < ·) ∧
      (∀ path, path ∈ paths ↔
        path ≠ [] ∧ ∃ value info, node.get? path = some (.text value info)) ∧
      textsAt [] node.descendants = paths.map fun path => (some path, node.get? path) :=
  ⟨node.textPaths, node.pairwise_textPaths, fun _ => mem_textPaths, node.textsAt_descendants⟩

end Node

/-- Whether an editor that keeps a record went through all that it was given
below `here`, and added to the record the visits of these nodes. -/
def Edited.Shows {α : Type} (edited : Edited α (σ × List (Visit σ))) (visits : List (Visit σ))
    (here : Path) (shown : List (Option Path × Option Node)) : Prop :=
  edited.finished = true ∧
    ∃ later, edited.state.2 = visits ++ later ∧ Visit.sources visits later = shown ∧
      ∀ visit ∈ later, visit.IsBelow here

/-- Visits that are made first are shown first. -/
theorem Edited.Shows.behind {α β : Type} {edited : Edited α (σ × List (Visit σ))}
    {visits first : List (Visit σ)} {here : Path} {before shown : List (Option Path × Option Node)}
    (h : edited.Shows (visits ++ first) here shown) (content : β)
    (hsources : Visit.sources visits first = before)
    (hfirst : ∀ visit ∈ first, visit.IsBelow here) :
    Edited.Shows ⟨content, edited.state, edited.finished⟩ visits here (before ++ shown) := by
  obtain ⟨hfin, later, hstate, hshown, hlater⟩ := h
  refine ⟨hfin, first ++ later, ?_, ?_, ?_⟩
  · rw [hstate, List.append_assoc]
  · rw [Visit.sources_append, hsources, hshown]
  · intro visit hmem
    rcases List.mem_append.mp hmem with hmem | hmem
    · exact hfirst visit hmem
    · exact hlater visit hmem

namespace Editor

variable {editor : Editor σ}

/-- A text is shown to an editor of texts, and the visit is recorded. -/
theorem EditsTexts.meet_recording (hedits : editor.EditsTexts) (way : Way) {node : Node}
    (hnode : node.isText = true) (state : σ) (visits : List (Visit σ)) :
    editor.recording.meet way node (state, visits) =
      let decided := editor.decide state (way.plug node) way.path
      (decided.1, decided.2, visits ++
        [⟨state, way.plug node, way.path, carryOut (way.plug node) way.path decided⟩]) := by
  refine if_pos ?_
  show editor.accepts node = true
  rw [hedits.accepts]
  exact hnode

/-- A node that is no text is neither shown nor recorded, only walked into. -/
theorem EditsTexts.meet_recording_of_not_isText (hedits : editor.EditsTexts) (way : Way)
    {node : Node} (hnode : node.isText = false) (recorded : σ × List (Visit σ)) :
    editor.recording.meet way node recorded = (.descend, recorded) := by
  refine if_neg ?_
  show ¬ editor.accepts node = true
  rw [hedits.accepts, hnode]
  exact Bool.false_ne_true

/-- A text is visited, and then those behind it, which are those that were
behind it at first. -/
theorem EditsTexts.shows_text (hedits : editor.EditsTexts) (way : Way) (shell : Shell)
    (done : List Node) {text : Node} (htext : text.isText = true) {rest : List Node} (state : σ)
    {visits : List (Visit σ)} {there : Path} {j : Nat}
    (h : Visit.Follows visits way.path done.length there j)
    {shown : List (Option Path × Option Node)}
    (hrest : ∀ (done : List Node) (state : σ) (visits : List (Visit σ)),
      Visit.Follows visits way.path done.length there (j + 1) →
        (editor.recording.siblings way shell done rest (state, visits)).Shows visits way.path
          shown) :
    (editor.recording.siblings way shell done (text :: rest) (state, visits)).Shows visits way.path
      ((some (there ++ [j]), some text) :: shown) := by
  have hpath : Way.path (⟨shell, done, rest⟩ :: way) = way.path ++ [done.length] :=
    Way.path_cons ⟨shell, done, rest⟩ way
  have hdecides := hedits.decides state (Way.plug (⟨shell, done, rest⟩ :: way) text)
    (Way.path (⟨shell, done, rest⟩ :: way))
  rw [siblings, hedits.meet_recording _ htext]
  dsimp only
  generalize editor.decide state _ _ = decided at hdecides ⊢
  obtain ⟨decision, next⟩ := decided
  dsimp only at hdecides
  -- the visit that is recorded: of this text, at its place among its siblings as they are now
  generalize hvisit : Visit.mk state (Way.plug (⟨shell, done, rest⟩ :: way) text)
    (Way.path (⟨shell, done, rest⟩ :: way)) (carryOut _ _ (decision, next)) = visit
  have hwhere : visit.path = way.path ++ [done.length] := by rw [← hvisit, ← hpath]
  have hsources : Visit.sources visits [visit] = [(some (there ++ [j]), some text)] := by
    have hnode : visit.node? = some text := by
      rw [← hvisit]
      exact Way.get?_path (⟨shell, done, rest⟩ :: way) text
    have hplace : Visit.origin? visits visit.path = some (there ++ [j]) := by
      rw [hwhere]
      exact h 0 []
    rw [Visit.sources, hnode, hplace]
    rfl
  have hbelow : ∀ other ∈ [visit], other.IsBelow way.path := by
    intro other hmem
    obtain rfl := List.mem_singleton.mp hmem
    exact ⟨done.length, [], hwhere⟩
  -- kept or replaced, what follows the text is what followed it at first
  rcases hdecides with rfl | ⟨nodes, rfl⟩
  · have hstep : visit.outcome.step = some .descend := by rw [← hvisit]; rfl
    have hnext := h.visited hwhere (Or.inl ⟨hstep, rfl⟩)
    obtain ⟨value, info, rfl⟩ := Node.exists_of_isText htext
    refine (hrest (done ++ [.text value info]) next _ ?_).behind _ hsources hbelow
    rw [List.length_append]
    exact hnext
  · have hstep : visit.outcome.step = some (.resume (done.length + nodes.length)) := by
      rw [← hvisit]
      show (carryOut _ _ _).step = _
      rw [carryOut, Way.getLast?_path]
      rfl
    have hnext := h.visited hwhere (Or.inr hstep)
    refine (hrest (done ++ nodes) next _ ?_).behind _ hsources hbelow
    rw [List.length_append]
    exact hnext

mutual

/-- Below a node that holds what it held at first, the editor is shown the texts
that were there. -/
theorem EditsTexts.shows_below (hedits : editor.EditsTexts) (way : Way) (there : Path) :
    ∀ (node : Node) (state : σ) (visits : List (Visit σ)),
      Visit.Follows visits way.path 0 there 0 →
        (editor.recording.below way node (state, visits)).Shows visits way.path
          (Node.textsAt there node.descendants)
  | .root children info, state, visits, h => by
    rw [below]
    exact hedits.shows_siblings way (.root info) [] there 0 children state visits h
  | .element tag properties children info, state, visits, h => by
    rw [below]
    exact hedits.shows_siblings way (.element tag properties info) [] there 0 children
      state visits h
  | .text value info, state, visits, _ => ⟨rfl, [], (List.append_nil _).symm, rfl, by simp⟩
  | .comment value info, state, visits, _ => ⟨rfl, [], (List.append_nil _).symm, rfl, by simp⟩
  | .doctype name info, state, visits, _ => ⟨rfl, [], (List.append_nil _).symm, rfl, by simp⟩

/-- Among siblings that are those of the tree as it was, the editor is shown the
texts that were there. -/
theorem EditsTexts.shows_siblings (hedits : editor.EditsTexts) (way : Way) (shell : Shell)
    (done : List Node) (there : Path) (j : Nat) :
    ∀ (rest : List Node) (state : σ) (visits : List (Visit σ)),
      Visit.Follows visits way.path done.length there j →
        (editor.recording.siblings way shell done rest (state, visits)).Shows visits way.path
          (Node.textsAt there (Node.descendantsFrom j rest))
  | [], state, visits, _ => ⟨rfl, [], (List.append_nil _).symm, rfl, by simp⟩
  | child :: rest, state, visits, h => by
    cases hchild : child.isText with
    | true =>
      rw [Node.textsAt_of_isText there j rest hchild]
      exact hedits.shows_text way shell done hchild state h
        (fun done state visits =>
          hedits.shows_siblings way shell done there (j + 1) rest state visits)
    | false =>
      have hpath : Way.path (⟨shell, done, rest⟩ :: way) = way.path ++ [done.length] :=
        Way.path_cons ⟨shell, done, rest⟩ way
      obtain ⟨hfin, first, hstate, hsources, hfirst⟩ := hedits.shows_below
        (⟨shell, done, rest⟩ :: way) (there ++ [j]) child state visits (hpath ▸ h.below)
      rw [siblings, hedits.meet_recording_of_not_isText _ hchild,
        Node.textsAt_of_not_isText there j rest hchild]
      dsimp only
      rw [if_pos hfin]
      generalize editor.recording.below (⟨shell, done, rest⟩ :: way) child (state, visits) = inner
        at hstate
      obtain ⟨content, ⟨next, recorded⟩, _⟩ := inner
      obtain rfl : recorded = visits ++ first := hstate
      rw [hpath] at hfirst
      -- visits below the child have not moved its siblings
      have hnext := h.next hfirst
      have hrest := hedits.shows_siblings way shell (done ++ [content]) there (j + 1) rest next
        (visits ++ first) (by rw [List.length_append]; exact hnext)
      refine hrest.behind _ hsources fun visit hmem => ?_
      obtain ⟨i, below, hbelow⟩ := hfirst visit hmem
      exact ⟨done.length, i :: below, by rw [hbelow, List.append_assoc]; rfl⟩

end

/-- Of a tree that is no text itself, the editor is shown the texts below, and
nothing else. -/
theorem EditsTexts.sources_run (hedits : editor.EditsTexts) {tree : Node} (state : σ)
    (htree : tree.isText = false) :
    let visits := (editor.recording.run tree (state, [])).state.2
    Visit.sources [] visits = Node.textsAt [] tree.descendants ∧
      ∀ visit ∈ visits, visit.path ≠ [] := by
  have hstart : Visit.Follows ([] : List (Visit σ)) [] 0 [] 0 := fun _ _ => rfl
  obtain ⟨-, visits, hstate, hsources, hbelow⟩ := hedits.shows_below [] [] tree state [] hstart
  rw [run, hedits.meet_recording_of_not_isText _ htree]
  dsimp only
  rw [hstate, List.nil_append]
  refine ⟨hsources, fun visit hmem => ?_⟩
  obtain ⟨i, below, hpath⟩ := hbelow visit hmem
  rw [hpath]
  exact List.cons_ne_nil i below

end Editor

end Graft
