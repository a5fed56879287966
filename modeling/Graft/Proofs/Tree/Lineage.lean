import Graft.Proofs.Tree.Sources
import Mathlib.Data.List.Forall2
import Mathlib.Data.List.Induction

/-!
# Ancestors of visited nodes

Between the start of a walk and a visit, the ancestors of the visited node may
have got other children, and may have moved among their siblings. They are the
same ancestors all the same: each is traced back to the ancestor that it was at
first, and apart from its children it is what it was. So an ignore test that
looks at tag name, properties, position and data alone (`is_ignored` asks it of
every ancestor on the stack) has the same answer at the visit as at the start.

An edit takes children out and puts others in; it changes no node in any other
way. For one edit that is `Node.bare_get?_modifyAt`, by induction on its path,
and for all visits before one it is an induction on these visits.

Main statements:
- `Way.exists_plug`: every node of a tree is at the end of a way;
- `Visit.origin?_take`: the ancestors of a node that is traced back are traced
  back to the ancestors there;
- `Visit.bare_get?_of_origin?`: apart from its children, a node is what it was
  where it is traced back to.
-/

namespace Graft

variable {σ : Type}

namespace Node

/-- The node apart from its children. -/
def bare (node : Node) : Node := node.withChildren []

/-- Other children make no difference to what a node is apart from them. -/
@[simp] theorem bare_withChildren (node : Node) (children : List Node) :
    (node.withChildren children).bare = node.bare := by
  cases node <;> rfl

/-- A root or element is a shell with children in it. -/
theorem exists_shell {node : Node} (h : node.isParent = true) :
    ∃ shell : Shell, shell.node node.children = node := by
  cases node with
  | root children info => exact ⟨.root info, rfl⟩
  | element tag properties children info => exact ⟨.element tag properties info, rfl⟩
  | _ => exact absurd h Bool.false_ne_true

/-- A change below the ancestors of a node leaves them as they are, apart from
their children. -/
theorem bare_get?_modifyAt {f : Node → Node} (hf : ∀ node, (f node).bare = node.bare)
    {place path : Path} (h : place <+: path) (node : Node) :
    ((node.modifyAt f path).get? place).map bare = (node.get? place).map bare := by
  -- The change lies below the node, at it, or further down the same child.
  induction path generalizing node place with
  | nil =>
    obtain rfl := List.prefix_nil.mp h
    rw [modifyAt, get?_nil, get?_nil, Option.map_some, hf, Option.map_some]
  | cons i path ih =>
    cases place with
    | nil =>
      rw [modifyAt, get?_nil, get?_nil, Option.map_some, bare_withChildren, Option.map_some]
    | cons j place =>
      obtain ⟨rfl, hbelow⟩ := List.cons_prefix_cons.mp h
      rw [modifyAt, get?_cons, get?_cons]
      cases hchild : node.children[j]? with
      | none =>
        have hnone : (node.children.modify j (modifyAt f path))[j]? = none := by
          rw [List.getElem?_modify_eq, hchild]
          rfl
        cases node with
        | root => rw [withChildren, children, hnone]
        | element => rw [withChildren, children, hnone]
        | _ => rfl
      | some child =>
        obtain ⟨hlt, -⟩ := List.getElem?_eq_some_iff.mp hchild
        rw [children_withChildren _ (isParent_of_lt hlt), List.getElem?_modify_eq, hchild]
        exact ih hbelow child

end Node

/-- Every node of a tree is at the end of a way. -/
theorem Way.exists_plug {tree node : Node} {path : Path} (h : tree.get? path = some node) :
    ∃ way : Way, way.path = path ∧ way.plug node = tree := by
  induction path using List.reverseRecOn generalizing node with
  | nil => exact ⟨[], rfl, (Option.some.inj h).symm⟩
  | append_singleton path i ih =>
    rw [Node.get?_append] at h
    obtain ⟨parent, hparent, hchild⟩ := Option.bind_eq_some_iff.mp h
    rw [Node.get?_cons] at hchild
    obtain ⟨child, hindex, hnil⟩ := Option.bind_eq_some_iff.mp hchild
    obtain rfl := Option.some.inj hnil
    obtain ⟨hi, rfl⟩ := List.getElem?_eq_some_iff.mp hindex
    obtain ⟨up, rfl, rfl⟩ := ih hparent
    obtain ⟨shell, hshell⟩ := Node.exists_shell (Node.isParent_of_lt hi)
    -- one level more, with the siblings on both sides of the child
    refine ⟨⟨shell, parent.children.take i, parent.children.drop (i + 1)⟩ :: up, ?_, ?_⟩
    · rw [Way.path_cons, Level.index, List.length_take, Nat.min_eq_left (Nat.le_of_lt hi)]
    · rw [Way.plug, Level.fill, ← List.drop_eq_getElem_cons hi, List.take_append_drop, hshell]

namespace Path

/-- Tracing back changes indexes and not the number of them: a node stays as
deep as it was. -/
theorem length_of_beforeSplice {index next : Nat} {parent path source : Path}
    (h : beforeSplice index next parent path = some source) : source.length = path.length := by
  fun_induction beforeSplice index next parent path generalizing source
  next => obtain rfl := Option.some.inj h; rfl
  next => obtain rfl := Option.some.inj h; rfl
  next => cases h
  next => obtain rfl := Option.some.inj h; rfl
  next ih =>
    obtain ⟨rest, hrest, rfl⟩ := Option.map_eq_some_iff.mp h
    rw [List.length_cons, ih hrest, List.length_cons]
  next => obtain rfl := Option.some.inj h; rfl

/-- If a node was somewhere before a replacement, its ancestors were the
ancestors there. -/
theorem beforeSplice_take {index next : Nat} {parent path source : Path}
    (h : beforeSplice index next parent path = some source) (k : Nat) :
    beforeSplice index next parent (path.take k) = some (source.take k) := by
  cases k with
  | zero => rw [List.take_zero, List.take_zero, beforeSplice]
  | succ k =>
    fun_induction beforeSplice index next parent path generalizing source k
    next => obtain rfl := Option.some.inj h; rw [List.take_nil, beforeSplice]
    next hlt => obtain rfl := Option.some.inj h; rw [List.take_succ_cons, beforeSplice, if_pos hlt]
    next => cases h
    next hge hbehind =>
      obtain rfl := Option.some.inj h
      rw [List.take_succ_cons, beforeSplice, if_neg hge, if_neg hbehind, List.take_succ_cons]
    next ih =>
      -- below the parent's ancestor, where the path may end
      obtain ⟨rest, hrest, rfl⟩ := Option.map_eq_some_iff.mp h
      rw [List.take_succ_cons, beforeSplice, if_pos rfl]
      cases k with
      | zero => rw [List.take_zero, beforeSplice]; rfl
      | succ k => rw [ih hrest k]; rfl
    next hne => obtain rfl := Option.some.inj h; rw [List.take_succ_cons, beforeSplice, if_neg hne]

/-- A replacement leaves the ancestors of what it replaces where they are. -/
theorem beforeSplice_of_prefix {index next : Nat} {parent path : Path} (h : path <+: parent) :
    beforeSplice index next parent path = some path := by
  induction parent generalizing path with
  | nil => obtain rfl := List.prefix_nil.mp h; rfl
  | cons j parent ih =>
    cases path with
    | nil => rfl
    | cons i path =>
      obtain ⟨rfl, hbelow⟩ := List.cons_prefix_cons.mp h
      rw [beforeSplice, if_pos rfl, ih hbelow]
      rfl

end Path

namespace Visit

/-- A visit traces all paths back to themselves, or all of them past one
replacement. -/
theorem before?_cases (visit : Visit σ) :
    (∀ path, visit.before? path = some path) ∨
      ∃ index next, ∀ path,
        visit.before? path = Path.beforeSplice index next visit.path.dropLast path := by
  by_cases h : ∃ next index, visit.outcome.step = some (.resume next) ∧
    visit.path.getLast? = some index
  · obtain ⟨next, index, hstep, hlast⟩ := h
    exact Or.inr ⟨index, next, fun path => by rw [before?, hstep, hlast]⟩
  · refine Or.inl fun path => ?_
    rw [before?]
    split
    next next index hstep hlast => exact absurd ⟨next, index, hstep, hlast⟩ h
    next => rfl

/-- Nor does tracing back past a visit. -/
theorem length_of_before? {visit : Visit σ} {path source : Path}
    (h : visit.before? path = some source) :
    source.length = path.length := by
  rcases visit.before?_cases with hsame | ⟨index, next, hsplice⟩
  · rw [hsame] at h
    obtain rfl := Option.some.inj h
    rfl
  · rw [hsplice] at h
    exact Path.length_of_beforeSplice h

/-- If a node is traced back past a visit, so are its ancestors. -/
theorem before?_take {visit : Visit σ} {path source : Path} (h : visit.before? path = some source)
    (k : Nat) :
    visit.before? (path.take k) = some (source.take k) := by
  rcases visit.before?_cases with hsame | ⟨index, next, hsplice⟩
  · rw [hsame] at h
    obtain rfl := Option.some.inj h
    rw [hsame]
  · rw [hsplice] at h
    rw [hsplice]
    exact Path.beforeSplice_take h k

/-- The visit made last is gone past first. -/
theorem origin?_cons {visit : Visit σ} {rest : List (Visit σ)} {path source : Path} :
    origin? (visit :: rest) path = some source ↔
      ∃ place, origin? rest path = some place ∧ visit.before? place = some source :=
  Option.bind_eq_some_iff

/-- All the way back, a node lay as deep as it does. -/
theorem length_of_origin? {visits : List (Visit σ)} {path source : Path}
    (h : origin? visits path = some source) : source.length = path.length := by
  induction visits generalizing source with
  | nil => obtain rfl := Option.some.inj h; rfl
  | cons visit rest ih =>
    obtain ⟨place, hrest, hvisit⟩ := origin?_cons.mp h
    rw [length_of_before? hvisit, ih hrest]

/-- The ancestors of a node that is traced back are traced back to the ancestors
there. -/
theorem origin?_take {visits : List (Visit σ)} {path source : Path}
    (h : origin? visits path = some source)
    (k : Nat) : origin? visits (path.take k) = some (source.take k) := by
  induction visits generalizing source with
  | nil => obtain rfl := Option.some.inj h; rfl
  | cons visit rest ih =>
    obtain ⟨place, hrest, hvisit⟩ := origin?_cons.mp h
    exact origin?_cons.mpr ⟨place.take k, ih hrest, before?_take hvisit k⟩

/-- Whether a visit is that of an editor, of a node that is there. -/
def IsEdit (visit : Visit σ) : Prop :=
  ∃ decided node, visit.outcome = Editor.carryOut visit.tree visit.path decided ∧
    visit.node? = some node

/-- Apart from its children, a node is after an editor's visit what it was
before. -/
theorem IsEdit.bare_get? {visit : Visit σ} (h : visit.IsEdit) {place source : Path}
    (hplace : visit.before? place = some source) :
    (visit.outcome.tree.get? place).map Node.bare = (visit.tree.get? source).map Node.bare := by
  obtain ⟨⟨decision, state⟩, node, houtcome, hnode⟩ := h
  by_cases habove : place <+: visit.path.dropLast
  · -- an ancestor of what was visited: it has stayed where it was, maybe with other children
    have hsource : source = place := by
      rcases visit.before?_cases with hsame | ⟨index, next, hsplice⟩
      · rw [hsame] at hplace
        exact (Option.some.inj hplace).symm
      · rw [hsplice, Path.beforeSplice_of_prefix habove] at hplace
        exact (Option.some.inj hplace).symm
    rw [hsource, houtcome]
    cases decision with
    | replace nodes =>
      rw [Editor.carryOut]
      cases visit.path.getLast? with
      | none => rfl
      | some index => exact Node.bare_get?_modifyAt (fun _ => Node.bare_withChildren _ _) habove _
    | _ => rfl
  · rw [Visit.get?_of_before? houtcome hnode hplace habove]

/-- Apart from its children, a node is what it was where it is traced back to. -/
theorem bare_get?_of_origin? {visitor : Visitor σ} {first last : Node} {state final : σ}
    {visits : List (Visit σ)} (htrace : visitor.Trace first state visits last final)
    (hedits : ∀ visit ∈ visits, visit.IsEdit) {path source : Path}
    (h : origin? visits path = some source) :
    (last.get? path).map Node.bare = (first.get? source).map Node.bare := by
  induction htrace generalizing source with
  | nil => obtain rfl := Option.some.inj h; rfl
  | cons place _ ih =>
    obtain ⟨between, hrest, hvisit⟩ := origin?_cons.mp h
    rw [ih (fun visit hmem => hedits visit (List.mem_cons_of_mem _ hmem)) hrest]
    exact (hedits _ List.mem_cons_self).bare_get? hvisit

/-- Visits one after another, with a relation that each has to the place it is
traced back to. -/
theorem forall₂_of_sources {holds : Path → Visit σ → Prop} {node : Path → Option Node}
    {paths : List Path}
    {visits : List (Visit σ)} (h : sources [] visits = paths.map fun path => (some path, node path))
    (hholds : ∀ earlier visit later path, visits = earlier ++ visit :: later →
      origin? earlier visit.path = some path → visit.node? = node path → holds path visit) :
    List.Forall₂ holds paths visits := by
  suffices hfrom : ∀ (later earlier : List (Visit σ)) (paths : List Path),
    visits = earlier ++ later →
      sources earlier later = paths.map (fun path => (some path, node path)) →
        List.Forall₂ holds paths later from hfrom visits [] paths rfl h
  intro later
  induction later with
  | nil =>
    intro earlier paths _ hsources
    obtain rfl := List.map_eq_nil_iff.mp hsources.symm
    exact .nil
  | cons visit rest ih =>
    intro earlier paths hvisits hsources
    rw [sources] at hsources
    obtain ⟨path, others, rfl, hfirst, hrest⟩ := List.map_eq_cons_iff.mp hsources.symm
    obtain ⟨horigin, hnode⟩ := Prod.mk.inj hfirst
    refine .cons (hholds earlier visit rest path hvisits horigin.symm hnode.symm) ?_
    exact ih (earlier ++ [visit]) others (by rw [hvisits, List.append_assoc]; rfl) hrest.symm

end Visit

/-- The visits before one of them lead from the start to it. -/
theorem Visitor.Trace.before {visitor : Visitor σ} {first last : Node} {state final : σ}
    {visit : Visit σ} {earlier later : List (Visit σ)}
    (h : visitor.Trace first state (earlier ++ visit :: later) last final) :
    visitor.Trace first state earlier visit.tree visit.state := by
  induction earlier generalizing first state with
  | nil =>
    cases h with
    | cons path _ => exact .nil first state
  | cons visit earlier ih =>
    cases h with
    | cons path h => exact .cons path (ih h)

end Graft
