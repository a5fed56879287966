import Graft.Proofs.Tree.Lineage
import Mathlib.Data.List.Infix

/-!
# Reading and changing at a path

Reading a node, reading the nodes on the way to it and changing it (`get`,
`stack`, `get_mut`) are three recursions over a path, and go the same way. What
is put at a path is found there and below it. Beside the path everything is as
it was, and on the way to it each node has got another child in one place.

Any other path stands to the changed one in one of three ways: it continues it,
it is a part of it, or the two part somewhere. Each way has its lemma, and the
last one is an induction on both paths up to where they part.

Main statements:
- `Node.stack?_eq_inits`: the nodes on the way to a path are those that its
  prefixes lead to;
- `Node.modifyAt_eq_setAt`, `Node.modifyAt_of_none`: a change is made to the
  node that is read, and to nothing else;
- `Node.path_addresses`: what is read at any path after a change at another one.
-/

namespace Graft

namespace Node

/-! ## Reading -/

/-- The nodes on the way to a path are those that its prefixes lead to, the
shortest one first. -/
theorem stack?_eq_inits {tree : Node} {path : Path} {stack : List Node}
    (h : tree.stack? path = some stack) :
    stack.map some = path.inits.map tree.get? := by
  induction path generalizing tree stack with
  | nil =>
    obtain rfl := Option.some.inj h
    rfl
  | cons index path ih =>
    rw [stack?] at h
    cases hchild : tree.children[index]? with
    | none => simp [hchild] at h
    | some child =>
      rw [hchild] at h
      obtain ⟨below, hbelow, rfl⟩ := Option.map_eq_some_iff.mp h
      -- the prefixes but the empty one lead below the child
      have hget : tree.get? ∘ (index :: ·) = child.get? := by
        funext place
        show tree.get? (index :: place) = child.get? place
        rw [get?_cons, hchild, Option.bind_some]
      rw [List.map_cons, ih hbelow, List.inits, List.map_cons, List.map_map, hget, get?_nil]

/-! ## Changing -/

/-- Where a path leads nowhere, nothing is changed. -/
theorem modifyAt_of_none {tree : Node} {path : Path} (f : Node → Node) (h : tree.get? path = none) :
    tree.modifyAt f path = tree := by
  induction path generalizing tree with
  | nil => simp at h
  | cons index path ih =>
    rw [get?_cons] at h
    have hsame : tree.children.modify index (modifyAt f path) = tree.children := by
      refine List.ext_getElem? fun i => ?_
      by_cases hi : index = i
      · subst hi
        rw [List.getElem?_modify_eq]
        cases hchild : tree.children[index]? with
        | none => rfl
        | some child =>
          rw [hchild, Option.bind_some] at h
          rw [Option.map_eq_map, Option.map_some, ih h]
      · rw [List.getElem?_modify_ne _ _ hi]
    rw [modifyAt, hsame, withChildren_children]

/-- A change is made to the node that is read at the path. -/
theorem modifyAt_eq_setAt {tree found : Node} {path : Path} (f : Node → Node)
    (h : tree.get? path = some found) :
    tree.modifyAt f path = tree.setAt path (f found) := by
  obtain ⟨way, rfl, rfl⟩ := Way.exists_plug h
  have hchanged := fun g : Node → Node => way.modifyAt_plug g found []
  simp only [List.append_nil] at hchanged
  rw [setAt, hchanged, hchanged]
  rfl

/-- What is put at a path is read there, and below it its own nodes are. -/
theorem get?_setAt_append {tree found : Node} {path : Path} (other : Node)
    (h : tree.get? path = some found)
    (below : Path) : (tree.setAt path other).get? (path ++ below) = other.get? below := by
  obtain ⟨way, rfl, rfl⟩ := Way.exists_plug h
  have hchanged := way.modifyAt_plug (fun _ => other) found []
  rw [List.append_nil] at hchanged
  rw [setAt, hchanged]
  exact way.get?_plug other below

/-- What is not on the way to a path, nor below it, is as it was. -/
theorem get?_setAt_beside {tree : Node} {path place : Path} (other : Node)
    (hbelow : ¬path <+: place)
    (habove : ¬place <+: path) : (tree.setAt path other).get? place = tree.get? place := by
  induction path generalizing tree place with
  | nil => exact absurd List.nil_prefix hbelow
  | cons index path ih =>
    cases place with
    | nil => exact absurd List.nil_prefix habove
    | cons i place =>
      cases hparent : tree.isParent with
      | false =>
        cases tree with
        | root => cases hparent
        | element => cases hparent
        | _ => rfl
      | true =>
        rw [setAt, modifyAt, get?_cons, get?_cons, children_withChildren _ hparent]
        by_cases hi : index = i
        · -- the two paths part only below the same child
          subst hi
          rw [List.getElem?_modify_eq]
          have hinner : ∀ child : Node, (child.setAt path other).get? place = child.get? place := by
            intro child
            refine ih ?_ ?_
            · exact fun hprefix => hbelow (List.cons_prefix_cons.mpr ⟨rfl, hprefix⟩)
            · exact fun hprefix => habove (List.cons_prefix_cons.mpr ⟨rfl, hprefix⟩)
          cases tree.children[index]? with
          | none => rfl
          | some child => exact hinner child
        · rw [List.getElem?_modify_ne _ _ hi]

/-- Whether two nodes differ in nothing but the child at one index. -/
structure DiffersAt (before after : Node) (index : Nat) : Prop where
  kind : after.kind = before.kind
  tag : after.tag? = before.tag?
  properties : after.element?.map Element.properties = before.element?.map Element.properties
  position : after.info.position = before.info.position
  data : after.info.data = before.info.data
  count : after.children.length = before.children.length
  others : ∀ i, i ≠ index → after.children[i]? = before.children[i]?

/-- Another child in one place is all that differs. -/
theorem differsAt_withChildren (node : Node) (index : Nat) (f : Node → Node) :
    node.DiffersAt (node.withChildren (node.children.modify index f)) index := by
  have hchildren : (node.withChildren (node.children.modify index f)).children =
      node.children.modify index f := by
    cases node with
    | root => rfl
    | element => rfl
    | _ => exact (List.modify_nil f index).symm
  exact {
    kind := by cases node <;> rfl
    tag := by cases node <;> rfl
    properties := by cases node <;> rfl
    position := by cases node <;> rfl
    data := by cases node <;> rfl
    count := by rw [hchildren, List.length_modify]
    others := fun i hi => by rw [hchildren, List.getElem?_modify_ne _ _ hi.symm] }

/-- A node on the way to a path has got another child where the way goes on. -/
theorem get?_setAt_above {tree found : Node} {above below : Path} {index : Nat} (other : Node)
    (h : tree.get? (above ++ index :: below) = some found) :
    ∃ before after, tree.get? above = some before ∧
      (tree.setAt (above ++ index :: below) other).get? above = some after ∧
        before.DiffersAt after index := by
  rw [get?_append] at h
  obtain ⟨node, hnode, -⟩ := Option.bind_eq_some_iff.mp h
  obtain ⟨way, rfl, rfl⟩ := Way.exists_plug hnode
  refine ⟨node, _, hnode, ?_, node.differsAt_withChildren index (modifyAt (fun _ => other) below)⟩
  rw [setAt, way.modifyAt_plug, modifyAt]
  exact way.get?_path _

/-- How nodes are addressed by paths. The nodes on the way to a path can be read
exactly if the node there can, and are those that the prefixes of the path lead
to, the shortest one first. A change at a path is made to the node that is read
there, and where there is none, nothing changes. After a node has been put at a
path, it is read there, and below the path its own nodes are read. What lies
neither on the way to the path nor below it is read as before. And a node on the
way to it differs from before only in the child with which the way goes on. -/
theorem path_addresses (tree : Node) (path : Path) :
    ((tree.stack? path).isSome = true ↔ (tree.get? path).isSome = true) ∧
    (∀ stack, tree.stack? path = some stack → stack.map some = path.inits.map tree.get?) ∧
    (∀ f : Node → Node, tree.get? path = none → tree.modifyAt f path = tree) ∧
    ∀ found, tree.get? path = some found →
      (∀ f : Node → Node, tree.modifyAt f path = tree.setAt path (f found)) ∧
      ∀ other, let changed := tree.setAt path other
        changed.get? path = some other ∧
        (∀ below, changed.get? (path ++ below) = other.get? below) ∧
        (∀ place, ¬path <+: place → ¬place <+: path → changed.get? place = tree.get? place) ∧
        ∀ above index below, path = above ++ index :: below →
          ∃ before after, tree.get? above = some before ∧ changed.get? above = some after ∧
            before.DiffersAt after index := by
  refine ⟨by rw [stack?_isSome], fun stack => stack?_eq_inits, fun f => modifyAt_of_none f, ?_⟩
  intro found hfound
  refine ⟨fun f => modifyAt_eq_setAt f hfound, fun other =>
    ⟨?_, get?_setAt_append other hfound, ?_, ?_⟩⟩
  · have hhere := get?_setAt_append other hfound []
    rwa [List.append_nil, get?_nil] at hhere
  · exact fun place => get?_setAt_beside other
  · intro above index below hpath
    subst hpath
    exact get?_setAt_above other hfound

end Node

end Graft
