import Graft.Tree.ElementTest

/-!
# The way down to a node

Whoever works inside a tree stands at a node whose ancestors may already have
been changed to the left of it, and are still untouched to the right of it. A
`Way` keeps just that: for every ancestor, from the parent up to the root, what
it is apart from its children (its `Shell`), and the children on both sides of
the one that was entered. Nothing in a way can be out of step, since paths,
stacks and the whole tree are computed from it.

The program walks with a path and asks the tree again at every step: `get` and
`get_mut` go down to the node, `stack` collects the nodes that are passed, and
`is_ignored` is asked about each of them. The lemmas here turn each of these
questions, put at the path of a way, into what the way has in hand already. From
then on a proof about a walk is an induction over the way and the children ahead
of it, and paths are mentioned only at its two ends.

Structure: a level is one ancestor with its other children (`Level.fill` puts
the missing child in), a way is a list of levels, and `plug` fills one level
after the other. Every lemma about a way is therefore the lemma about one level,
followed by an induction on the list.

Main statements:
- `Way.get?_plug`, `Way.stack?_plug`: what the path of a way leads to, and the
  nodes passed on it;
- `Way.modifyAt_plug`: a change at the path of a way is a change of the node put
  in;
- `Way.spliceChildren_plug`: so a splice among the siblings is one of the lowest
  level;
- `Way.excludes_eq`: the ignore test of a path is the test of the ancestors on
  the way.
-/

namespace Graft

/-- A node that can hold children, without them. -/
inductive Shell where
  | root (info : Info)
  | element (tag : String) (properties : Members) (info : Info)

namespace Shell

/-- The node with these children. -/
def node (shell : Shell) (children : List Node) : Node :=
  match shell with
  | .root info => .root children info
  | .element tag properties info => .element tag properties children info

/-- What is put into a shell are its children. -/
@[simp] theorem children_node (shell : Shell) (children : List Node) :
    (shell.node children).children = children := by
  cases shell <;> rfl

@[simp] theorem withChildren_node (shell : Shell) (before after : List Node) :
    (shell.node before).withChildren after = shell.node after := by
  cases shell <;> rfl

end Shell

/-- One ancestor of a node, apart from its children, and the children on both
sides of the one that was entered. -/
structure Level where
  shell : Shell
  left : List Node
  right : List Node

namespace Level

/-- The ancestor with a child where one was entered. -/
def fill (level : Level) (child : Node) : Node :=
  level.shell.node (level.left ++ child :: level.right)

/-- The index of that child. -/
def index (level : Level) : Nat := level.left.length

/-- The child that was entered stands between those to the left and those to the
right. -/
theorem children_fill (level : Level) (child : Node) :
    (level.fill child).children = level.left ++ child :: level.right :=
  level.shell.children_node _

/-- It stands at the index of the level, which is the number of children to the
left. -/
theorem getElem?_children_fill (level : Level) (child : Node) :
    (level.fill child).children[level.index]? = some child := by
  rw [children_fill, index, List.getElem?_append_right (Nat.le_refl _), Nat.sub_self,
    List.getElem?_cons_zero]

/-- A change of the child at this index leaves the others as they are. -/
theorem modify_fill (level : Level) (f : Node → Node) (child : Node) :
    (level.fill child).withChildren ((level.fill child).children.modify level.index f) =
      level.fill (f child) := by
  rw [children_fill, fill, Shell.withChildren_node, List.modify_eq_take_drop, fill, index,
    List.take_left, List.drop_left]
  rfl

/-- A splice of the child puts nodes between what stands on both sides of it. -/
theorem spliceChildren_fill (level : Level) (child : Node) (nodes : List Node) :
    (level.fill child).spliceChildren level.index 1 nodes =
      level.shell.node (level.left ++ nodes ++ level.right) := by
  rw [Node.spliceChildren, children_fill, fill, Shell.withChildren_node, index,
    List.take_left, List.drop_append, List.drop_of_length_le (Nat.le_add_right _ _),
    Nat.add_sub_cancel_left, List.nil_append]
  rfl

end Level

/-- The levels above a node, from its parent up to the root. -/
abbrev Way := List Level

namespace Way

/-- The tree with a node at the end of the way. -/
def plug : Way → Node → Node
  | [], node => node
  | level :: up, node => plug up (level.fill node)

/-- The indexes of the way, from its end up. -/
def indexes (way : Way) : List Nat := way.map Level.index

/-- The path of the way. -/
def path (way : Way) : Path := way.indexes.reverse

/-- The ancestors of the node at the end of the way, from the root down. -/
def ancestors : Way → Node → List Node
  | [], _ => []
  | level :: up, node => ancestors up (level.fill node) ++ [level.fill node]

/-- The nodes from the root down to the one at the end of the way. -/
def stack (way : Way) (node : Node) : List Node := way.ancestors node ++ [node]

/-- The index of the node at the end of the way; none at the root. -/
def index? (way : Way) : Option Nat := way.head?.map Level.index

/-- The parent of the node at the end of the way; none at the root. -/
def parent? (way : Way) (node : Node) : Option Node := way.head?.map (·.fill node)

/-- Whether an ancestor of the node at the end of the way is left alone, given
the index and the parent that the ancestor has now. -/
def isIgnored (ignore : Ignore) : Way → Node → Bool
  | [], _ => false
  | level :: up, node =>
    let parent := level.fill node
    isIgnored ignore up parent || ignore.ignores parent (index? up) (parent? up parent)

@[simp] theorem path_nil : path [] = [] := rfl

/-- A path is read from the root down, and a way from the node up: the lowest
level gives the last index. -/
theorem path_cons (level : Level) (up : Way) : path (level :: up) = path up ++ [level.index] := by
  rw [path, indexes, List.map_cons, List.reverse_cons, path, indexes]

/-- The last index of a path is that of the lowest level, by which a visitor
knows its place. -/
theorem getLast?_path (level : Level) (up : Way) :
    (path (level :: up)).getLast? = some level.index := by
  rw [path_cons, List.getLast?_concat]

/-- Without it, the path leads to the parent. -/
theorem dropLast_path (level : Level) (up : Way) : (path (level :: up)).dropLast = path up := by
  rw [path_cons, List.dropLast_concat]

/-- What lies at the end of a longer path lies there from the node put in. -/
theorem get?_plug (way : Way) (node : Node) (below : Path) :
    (way.plug node).get? (way.path ++ below) = node.get? below := by
  induction way generalizing node below with
  | nil => rfl
  | cons level up ih =>
    rw [plug, path_cons, List.append_assoc, ih, List.singleton_append, Node.get?_cons,
      Level.getElem?_children_fill]
    rfl

/-- The path of a way leads to the node that is put in. -/
theorem get?_path (way : Way) (node : Node) : (way.plug node).get? way.path = some node := by
  have h := way.get?_plug node []
  rw [List.append_nil, Node.get?_nil] at h
  exact h

/-- The stack of a longer path runs over the ancestors and goes on from the node
put in. -/
theorem stack?_plug (way : Way) (node : Node) (below : Path) :
    (way.plug node).stack? (way.path ++ below) =
      (node.stack? below).map (way.ancestors node ++ ·) := by
  induction way generalizing node below with
  | nil =>
    rw [path_nil, List.nil_append, plug]
    exact Option.map_id'.symm
  | cons level up ih =>
    rw [plug, path_cons, List.append_assoc, ih, List.singleton_append, Node.stack?,
      Level.getElem?_children_fill, Option.map_map, ancestors]
    congr 1
    funext rest
    rw [Function.comp_apply, List.append_assoc, List.singleton_append]

/-- The stack at the path of a way has the ancestors from the root down, and
then the node. -/
theorem stack?_path (way : Way) (node : Node) :
    (way.plug node).stack? way.path = some (way.stack node) := by
  have h := way.stack?_plug node []
  rw [List.append_nil, Node.stack?] at h
  exact h

/-- The walk asks the tree for the number of children at a path, which is that
of the node put in. -/
theorem childCount_plug (way : Way) (node : Node) :
    (way.plug node).childCount way.path = node.children.length := by
  rw [Node.childCount, get?_path]

/-- A change at a longer path is a change of the node put in. -/
theorem modifyAt_plug (way : Way) (f : Node → Node) (node : Node) (below : Path) :
    Node.modifyAt f (way.path ++ below) (way.plug node) =
      way.plug (Node.modifyAt f below node) := by
  induction way generalizing node below with
  | nil => rfl
  | cons level up ih =>
    rw [plug, path_cons, List.append_assoc, ih, List.singleton_append, Node.modifyAt,
      Level.modify_fill]
    rfl

/-- Putting nodes in the place of a child concerns its parent alone, however
deep that lies. -/
theorem spliceChildren_plug (level : Level) (up : Way) (child : Node) (nodes : List Node) :
    Node.modifyAt (·.spliceChildren level.index 1 nodes) up.path (up.plug (level.fill child)) =
      up.plug (level.shell.node (level.left ++ nodes ++ level.right)) := by
  have h := up.modifyAt_plug (·.spliceChildren level.index 1 nodes) (level.fill child) []
  rw [List.append_nil, Node.modifyAt, Level.spliceChildren_fill] at h
  exact h

/-- The ignore test of a longer stack asks the ancestors on the way, and then
the rest. -/
theorem excludesFrom_ancestors (ignore : Ignore) (way : Way) (node : Node) (rest : List Node)
    (below : Path) :
    ignore.excludesFrom none none (way.ancestors node ++ node :: rest) (way.path ++ below) =
      (way.isIgnored ignore node ||
        ignore.excludesFrom way.index? (way.parent? node) (node :: rest) below) := by
  induction way generalizing node rest below with
  | nil => rfl
  | cons level up ih =>
    rw [ancestors, path_cons, List.append_assoc, List.append_assoc, List.singleton_append,
      List.singleton_append, ih, Ignore.excludesFrom, isIgnored, Bool.or_assoc]
    rfl

/-- The ignore test of the path of a way is the test of the ancestors on it. -/
theorem excludes_eq (ignore : Ignore) (way : Way) (node : Node) :
    ignore.excludes (way.stack node) way.path = way.isIgnored ignore node := by
  have h := excludesFrom_ancestors ignore way node [] []
  have hlast : ignore.excludesFrom way.index? (way.parent? node) [node] [] = false := rfl
  rw [List.append_nil, hlast, Bool.or_false] at h
  exact h

end Way

end Graft
