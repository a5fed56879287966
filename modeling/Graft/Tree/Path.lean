import Graft.Tree.Node

/-!
# Paths

A node of a tree is addressed by the child indexes that lead to it; the empty
path is the tree itself.

The functions are those that a visitor has at its disposal: `get` looks a node
up, `get_mut` gives access to it, and `stack` lists the nodes on the way, the
tree first and the node last. Access for writing becomes `Node.modifyAt`, which
takes what is to be done with the node as a function and gives back the tree;
where the path leads nowhere the tree stays as it is. Nothing is cached and
nothing is shared, so a path means whatever it means in the tree at hand, and a
path that has been taken before an edit may lead to another node after it.

Main statements:
- `Node.get?_append`: a path in two parts is followed in two steps;
- `Node.stack?_isSome`: a path has a stack exactly when it leads to a node;
- `Node.getElem?_of_stack?`: the nodes of a stack are those that the prefixes of
  its path lead to.
-/

namespace Graft

/-- Child indexes from a tree down to one of its nodes. -/
abbrev Path := List Nat

namespace Node

/-- The node at a path. -/
def get? : Node → Path → Option Node
  | node, [] => some node
  | node, i :: path =>
    match node.children[i]? with
    | some child => child.get? path
    | none => none

/-- All nodes from the tree down to the one at a path, both included. -/
def stack? : Node → Path → Option (List Node)
  | node, [] => some [node]
  | node, i :: path =>
    match node.children[i]? with
    | some child => (child.stack? path).map (node :: ·)
    | none => none

/-- The number of children of the node at a path; none where there is no node. -/
def childCount (node : Node) (path : Path) : Nat :=
  match node.get? path with
  | some found => found.children.length
  | none => 0

/-- Changes the node at a path. A path that leads nowhere changes nothing. -/
def modifyAt (f : Node → Node) : Path → Node → Node
  | [], node => f node
  | i :: path, node => node.withChildren (node.children.modify i (modifyAt f path))

/-- Puts another node at a path. -/
def setAt (node : Node) (path : Path) (other : Node) : Node :=
  node.modifyAt (fun _ => other) path

/-- Replaces `count` children from `start` on by these nodes. Both numbers are
cut to what is there. -/
def spliceChildren (node : Node) (start count : Nat) (nodes : List Node) : Node :=
  node.withChildren
    (node.children.take start ++ nodes ++ node.children.drop (start + count))

@[simp] theorem get?_nil (node : Node) : node.get? [] = some node := by
  simp [get?]

theorem get?_cons (node : Node) (i : Nat) (path : Path) :
    node.get? (i :: path) = node.children[i]?.bind (·.get? path) := by
  rw [get?]
  cases node.children[i]? <;> rfl

/-- A path in two parts is followed in two steps. -/
theorem get?_append (node : Node) (p q : Path) :
    node.get? (p ++ q) = (node.get? p).bind (·.get? q) := by
  induction p generalizing node with
  | nil => simp
  | cons i p ih =>
    rw [List.cons_append, get?_cons, get?_cons]
    cases node.children[i]? with
    | none => rfl
    | some child => exact ih child

/-- A path has a stack exactly when it leads to a node. -/
theorem stack?_isSome (node : Node) (path : Path) :
    (node.stack? path).isSome = (node.get? path).isSome := by
  induction path generalizing node with
  | nil => simp [stack?]
  | cons i path ih =>
    rw [stack?, get?_cons]
    cases node.children[i]? with
    | none => rfl
    | some child => simpa using ih child

/-- A stack has one node for every prefix of its path. -/
theorem length_of_stack? {node : Node} {path : Path} {stack : List Node}
    (h : node.stack? path = some stack) : stack.length = path.length + 1 := by
  induction path generalizing node stack with
  | nil =>
    obtain rfl := Option.some.inj h
    rfl
  | cons i path ih =>
    rw [stack?] at h
    cases hchild : node.children[i]? with
    | none => simp [hchild] at h
    | some child =>
      rw [hchild] at h
      obtain ⟨below, hbelow, rfl⟩ := Option.map_eq_some_iff.mp h
      rw [List.length_cons, ih hbelow, List.length_cons]

/-- The nodes of a stack are those that the prefixes of its path lead to. -/
theorem getElem?_of_stack? {node : Node} {path : Path} {stack : List Node}
    (h : node.stack? path = some stack) {i : Nat} (hi : i ≤ path.length) :
    stack[i]? = node.get? (path.take i) := by
  induction path generalizing node stack i with
  | nil =>
    obtain rfl := Option.some.inj h
    obtain rfl := Nat.le_zero.mp hi
    simp
  | cons j path ih =>
    rw [stack?] at h
    cases hchild : node.children[j]? with
    | none => simp [hchild] at h
    | some child =>
      rw [hchild] at h
      obtain ⟨below, hbelow, rfl⟩ := Option.map_eq_some_iff.mp h
      cases i with
      | zero => simp
      | succ i =>
        rw [List.getElem?_cons_succ, List.take_succ_cons, get?_cons, hchild]
        exact ih hbelow (Nat.le_of_succ_le_succ hi)

theorem head?_of_stack? {node : Node} {path : Path} {stack : List Node}
    (h : node.stack? path = some stack) : stack.head? = some node := by
  rw [List.head?_eq_getElem?, getElem?_of_stack? h (Nat.zero_le _), List.take_zero, get?_nil]

theorem getLast?_of_stack? {node : Node} {path : Path} {stack : List Node}
    (h : node.stack? path = some stack) : stack.getLast? = node.get? path := by
  rw [List.getLast?_eq_getElem?, length_of_stack? h, Nat.add_sub_cancel,
    getElem?_of_stack? h (Nat.le_refl _), List.take_length]

/-- Before the last node of a stack stands the one that the path without its
last index leads to. -/
theorem exists_parent_of_stack? {node : Node} {path : Path} {stack : List Node}
    (h : node.stack? path = some stack) (hpath : path ≠ []) :
    ∃ parent, stack.dropLast.getLast? = some parent ∧ node.get? path.dropLast = some parent := by
  have hlength := length_of_stack? h
  have hpos := List.length_pos_iff.mpr hpath
  have hlast : stack.dropLast.getLast? = stack[path.length - 1]? := by
    rw [List.getLast?_dropLast, if_neg (by omega), hlength, Nat.add_sub_add_right]
  have hparent := getElem?_of_stack? h (Nat.sub_le path.length 1)
  rw [← List.dropLast_eq_take] at hparent
  refine ⟨stack[path.length - 1], ?_, ?_⟩
  · rw [hlast, List.getElem?_eq_getElem]
  · rw [← hparent, List.getElem?_eq_getElem]

/-- Each node of a stack but the first is the child that the path says of the
one before it. -/
theorem exists_index_of_stack? {node above below : Node} {path : Path} {stack : List Node}
    (h : node.stack? path = some stack) {i : Nat} (habove : stack[i]? = some above)
    (hbelow : stack[i + 1]? = some below) :
    ∃ index, path[i]? = some index ∧ above.children[index]? = some below := by
  have hlength := length_of_stack? h
  obtain ⟨hi, -⟩ := List.getElem?_eq_some_iff.mp hbelow
  have hlt : i < path.length := by omega
  rw [getElem?_of_stack? h (Nat.le_of_lt hlt)] at habove
  rw [getElem?_of_stack? h hlt, List.take_succ_eq_append_getElem hlt, get?_append, habove,
    Option.bind_some, get?_cons] at hbelow
  refine ⟨path[i], List.getElem?_eq_getElem hlt, ?_⟩
  obtain ⟨child, hchild, hnil⟩ := Option.bind_eq_some_iff.mp hbelow
  rw [get?_nil] at hnil
  rw [hchild, hnil]

end Node

end Graft
