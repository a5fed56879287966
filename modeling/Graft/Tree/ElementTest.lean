import Graft.Text.Quoted
import Graft.Tree.Path

/-!
# Tests of elements

A test picks elements by tag name or by a predicate on the element, its index in
its parent and that parent; no other node ever passes. An ignore setting is such
a test, asked of every ancestor of a text.

`Ignore.excludes` is the question that a pass asks of the stack of a leaf
(`is_ignored`, with `excludes` for one level): each proper ancestor is tested
with its index, which is read off the path, and its parent, which is the node
before it in the stack. The root has neither. Tests by tag name look at neither,
so for them the answer depends on the tag names above the leaf alone.

Main statements:
- `ElementTest.check_eq_false`: only elements pass;
- `Ignore.excludes_eq_any`: a text is excluded exactly when one of its proper
  ancestors passes.
-/

namespace Graft

/-- A test of elements. -/
inductive ElementTest where
  /-- Every element passes. -/
  | any
  /-- The elements with this tag name pass. -/
  | tag (name : String)
  /-- The elements with one of these tag names pass. -/
  | tags (names : List String)
  /-- The elements pass that the predicate accepts, given their index in their
  parent and it. -/
  | predicate (accepts : Element → Option Nat → Option Node → Bool)

namespace ElementTest

/-- Whether a node, at this index of this parent, is an element that passes. -/
def check (test : ElementTest) (node : Node) (index : Option Nat) (parent : Option Node) : Bool :=
  match node.element? with
  | none => false
  | some element =>
    match test with
    | .any => true
    | .tag name => element.tag = name
    | .tags names => names.contains element.tag
    | .predicate accepts => accepts element index parent

theorem check_eq_false (test : ElementTest) {node : Node} (index : Option Nat)
    (parent : Option Node) (h : node.element? = none) : test.check node index parent = false := by
  simp [check, h]

/-- The test as messages show it. -/
def describe : ElementTest → String
  | .any => "Any"
  | .tag name => "Tag(" ++ Text.quoted name ++ ")"
  | .tags names => "Tags([" ++ ", ".intercalate (names.map Text.quoted) ++ "])"
  | .predicate _ => "Predicate(..)"

end ElementTest

/-- Which subtrees are left alone: those below an element that passes the test. -/
structure Ignore where
  /-- The test. -/
  test : ElementTest

namespace Ignore

/-- The elements whose text is not searched unless the rules say otherwise. -/
def defaultTags : List String := ["title", "script", "style", "svg", "math"]

/-- Leaves the default elements alone. -/
def default : Ignore := ⟨.tags defaultTags⟩

instance : Inhabited Ignore := ⟨default⟩

/-- Leaves nothing alone. -/
def nothing : Ignore := ⟨.tags []⟩

/-- Leaves the default elements alone, and those with these tag names. -/
def defaultWith (extra : List String) : Ignore := ⟨.tags (defaultTags ++ extra)⟩

/-- Whether a node, at this index of this parent, is left alone with all below
it. -/
def ignores (ignore : Ignore) (node : Node) (index : Option Nat) (parent : Option Node) : Bool :=
  ignore.test.check node index parent

/-- The setting as messages show it. -/
def describe (ignore : Ignore) : String := "Ignore \x7b test: " ++ ignore.test.describe ++ " \x7d"

/-- Whether one of the nodes of a stack, other than the last, is left alone.
`index` and `parent` are those of the first node, and `path` leads from the
first node to the last. -/
def excludesFrom (ignore : Ignore) (index : Option Nat) (parent : Option Node) :
    List Node → Path → Bool
  | node :: next :: rest, path =>
    ignore.ignores node index parent ||
      ignore.excludesFrom path.head? (some node) (next :: rest) path.tail
  | _, _ => false

/-- Whether the last node of a stack lies below an element that is left alone.
The stack runs from the root down, and `path` leads from the root to the last
node. -/
def excludes (ignore : Ignore) (stack : List Node) (path : Path) : Bool :=
  ignore.excludesFrom none none stack path

/-- The nodes of a stack other than the last, each with its index in its parent
and that parent. -/
def ancestorsFrom (index : Option Nat) (parent : Option Node) :
    List Node → Path → List (Node × Option Nat × Option Node)
  | node :: next :: rest, path =>
    (node, index, parent) :: ancestorsFrom path.head? (some node) (next :: rest) path.tail
  | _, _ => []

/-- A text is excluded exactly when one of its proper ancestors passes the test. -/
theorem excludes_eq_any (ignore : Ignore) (stack : List Node) (path : Path) :
    ignore.excludes stack path =
      (ancestorsFrom none none stack path).any fun a => ignore.ignores a.1 a.2.1 a.2.2 := by
  suffices h : ∀ index parent, ignore.excludesFrom index parent stack path =
      (ancestorsFrom index parent stack path).any fun a => ignore.ignores a.1 a.2.1 a.2.2 from
    h none none
  induction stack generalizing path with
  | nil => intro index parent; simp [excludesFrom, ancestorsFrom]
  | cons node rest ih =>
    intro index parent
    cases rest with
    | nil => simp [excludesFrom, ancestorsFrom]
    | cons next rest => simp [excludesFrom, ancestorsFrom, ih]

end Ignore

end Graft
