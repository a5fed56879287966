import Graft.Proofs.Tree.Order
import Graft.Proofs.Tree.Outermost

/-!
# What is left of a tree without metadata

The outline of a tree has the kinds of its nodes, the tag names of its elements
and the values of its texts, and nothing else: no positions, no data, no
properties, no values of comments and no names of document types. Two trees have
one outline if they differ in such metadata only. Whatever goes by paths,
children and texts can be told from the outline.

A search with a test by tag name is of this kind: it goes by `get`, by the
number of children, and by the tag names on the stack of a text. So each of
these is shown to be the same in the outline, and every edit of a tree to be the
edit of its outline with the outlines of the nodes that are put in.

Main statements:
- `Node.get?_outline`, `Node.stack?_outline`: a path leads to the same place in
  the outline;
- `Node.outline_spliceChildren`, `Node.outline_modifyAt`: an edit of a tree is
  an edit of its outline;
- `Ignore.excludes_outline`: a test by tag name leaves the same texts alone.
-/

namespace Graft

namespace Node

mutual

/-- The tree without its metadata. -/
def outline : Node → Node
  | .root children _ => .root (outlines children) {}
  | .element tag _ children _ => .element tag [] (outlines children) {}
  | .text value _ => .text value {}
  | .comment _ _ => .comment "" {}
  | .doctype _ _ => .doctype none {}

/-- Siblings without their metadata. -/
def outlines : List Node → List Node
  | [] => []
  | child :: rest => child.outline :: outlines rest

end

theorem outlines_eq_map (nodes : List Node) : outlines nodes = nodes.map outline := by
  induction nodes with
  | nil => rfl
  | cons child rest ih => rw [outlines, ih, List.map_cons]

@[simp] theorem children_outline (node : Node) :
    node.outline.children = node.children.map outline := by
  cases node <;> simp only [outline, Node.children, outlines_eq_map, List.map_nil]

@[simp] theorem isText_outline (node : Node) : node.outline.isText = node.isText := by
  cases node <;> rw [outline] <;> rfl

@[simp] theorem tag?_outline (node : Node) : node.outline.tag? = node.tag? := by
  cases node <;> rw [outline] <;> rfl

/-- A text is told from the outline, with its value. -/
theorem outline_eq_text {node : Node} {value : String} {info : Info}
    (h : node.outline = (Node.text value info).outline) : ∃ other, node = .text value other := by
  cases node with
  | text found other =>
    rw [outline, outline] at h
    obtain ⟨rfl, -⟩ := Node.text.inj h
    exact ⟨other, rfl⟩
  | _ => exact absurd h (by simp [outline])

mutual

/-- The outline has as many nodes, so a walk over it has as much fuel. -/
theorem size_outline : ∀ node : Node, node.outline.size = node.size
  | .root children info => by rw [outline, size, size, sizes_outlines children]
  | .element tag properties children info => by rw [outline, size, size, sizes_outlines children]
  | .text value info => by rw [outline, size, size]
  | .comment value info => by rw [outline, size, size]
  | .doctype name info => by rw [outline, size, size]

theorem sizes_outlines : ∀ nodes : List Node, sizes (outlines nodes) = sizes nodes
  | [] => rfl
  | child :: rest => by rw [outlines, sizes, sizes, size_outline child, sizes_outlines rest]

end

mutual

/-- The outlines of the nodes below a node are those below its outline. -/
theorem descendants_outline : ∀ node : Node,
    node.outline.descendants = node.descendants.map fun one => (one.1, one.2.outline)
  | .root children info =>
      by rw [outline, descendants, descendants, descendantsFrom_outlines 0 children]
  | .element tag properties children info => by
    rw [outline, descendants, descendants, descendantsFrom_outlines 0 children]
  | .text value info => by rw [outline, descendants, descendants, List.map_nil]
  | .comment value info => by rw [outline, descendants, descendants, List.map_nil]
  | .doctype name info => by rw [outline, descendants, descendants, List.map_nil]

/-- The nodes below siblings are listed at the same paths. -/
theorem descendantsFrom_outlines (index : Nat) : ∀ nodes : List Node,
    descendantsFrom index (outlines nodes) = (descendantsFrom index nodes).map fun one =>
      (one.1, one.2.outline)
  | [] => rfl
  | child :: rest => by
    rw [outlines, descendantsFrom, descendantsFrom, List.map_append, List.map_cons, List.map_map,
      descendants_outline child, List.map_map, descendantsFrom_outlines (index + 1) rest]
    rfl

end

/-! ## Paths -/

/-- A path leads to the same place in the outline. -/
theorem get?_outline (node : Node) (path : Path) :
    node.outline.get? path = (node.get? path).map outline := by
  induction path generalizing node with
  | nil => rw [get?_nil, get?_nil, Option.map_some]
  | cons index path ih =>
    rw [get?_cons, get?_cons, children_outline, List.getElem?_map]
    cases node.children[index]? with
    | none => rfl
    | some child => exact ih child

/-- The nodes on the way to a path are those on the way in the outline. -/
theorem stack?_outline (node : Node) (path : Path) :
    node.outline.stack? path = (node.stack? path).map (List.map outline) := by
  induction path generalizing node with
  | nil => rw [stack?, stack?, Option.map_some, List.map_singleton]
  | cons index path ih =>
    rw [stack?, stack?, children_outline, List.getElem?_map]
    cases node.children[index]? with
    | none => rfl
    | some child =>
      dsimp only [Option.map_some]
      rw [ih, Option.map_map, Option.map_map]
      rfl

/-- There are as many children at every path. -/
theorem childCount_outline (node : Node) (path : Path) :
    node.outline.childCount path = node.childCount path := by
  rw [childCount, childCount, get?_outline]
  cases node.get? path with
  | none => rfl
  | some found =>
    show found.outline.children.length = found.children.length
    rw [children_outline, List.length_map]

/-! ## Edits -/

/-- Other children are outlined one by one. -/
theorem outline_withChildren (node : Node) (children : List Node) :
    (node.withChildren children).outline = node.outline.withChildren (children.map outline) := by
  cases node <;> simp only [withChildren, outline, outlines_eq_map]

/-- A change at a path of a tree that is a change of the outline there changes
the outline at the path. -/
theorem outline_modifyAt {f g : Node → Node} (h : ∀ node, (f node).outline = g node.outline)
    (path : Path)
    (node : Node) : (node.modifyAt f path).outline = node.outline.modifyAt g path := by
  induction path generalizing node with
  | nil => exact h node
  | cons index path ih =>
    have hchildren : (node.children.modify index (modifyAt f path)).map outline =
        (node.children.map outline).modify index (modifyAt g path) := by
      refine List.ext_getElem? fun i => ?_
      rw [List.getElem?_map, List.getElem?_modify, List.getElem?_modify, List.getElem?_map]
      cases node.children[i]? with
      | none => rfl
      | some child =>
        by_cases hi : index = i
        · simpa [hi] using ih child
        · simp [hi]
    rw [modifyAt, modifyAt, outline_withChildren, children_outline, hchildren]

/-- What is put among the children is outlined, and the cut is made at the same
place. -/
theorem outline_spliceChildren (node : Node) (start count : Nat) (nodes : List Node) :
    (node.spliceChildren start count nodes).outline =
      node.outline.spliceChildren start count (nodes.map outline) := by
  rw [spliceChildren, spliceChildren, outline_withChildren, children_outline, List.map_append,
    List.map_append, List.map_take, List.map_drop]

end Node

/-! ## Tests by tag name -/

variable {ignore : Ignore}

/-- Such a test sees neither the index nor the parent, so they may be any. -/
theorem Ignore.excludesFrom_outline (htest : ignore.test.byTag = true) (stack : List Node) :
    ∀ (path : Path) (i j : Option Nat) (p q : Option Node),
      ignore.excludesFrom i p (stack.map Node.outline) path =
        ignore.excludesFrom j q stack path := by
  induction stack with
  | nil => intro path i j p q; rfl
  | cons node rest ih =>
    intro path i j p q
    cases rest with
    | nil => rfl
    | cons next rest =>
      have hnode : ignore.ignores node.outline i p = ignore.ignores node j q :=
        ElementTest.check_eq htest node.tag?_outline i j p q
      rw [List.map_cons, List.map_cons, excludesFrom, excludesFrom, hnode]
      exact congrArg _ (ih path.tail _ _ _ _)

/-- A test by tag name leaves the same texts alone. -/
theorem Ignore.excludes_outline (htest : ignore.test.byTag = true) (stack : List Node)
    (path : Path) :
    ignore.excludes (stack.map Node.outline) path = ignore.excludes stack path :=
  excludesFrom_outline htest stack path none none none none

end Graft
