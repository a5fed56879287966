import Graft.Proofs.Tree.Way

/-!
# Elements that pass a test by tag name

A test by tag name (`Any`, `Tag` and `Tags`) does not see where an element
stands or what it holds. So an ancestor that passes it keeps doing so whatever
becomes of its children, and the elements of a tree that pass it, the outermost
ones with all that they hold, can be listed once and for all.

On the way to a text it is enough to ask the shells of the levels
(`Way.shielded`): what stands in them does not matter, so the answer is the same
before, during and after a pass.

Main statements:
- `ElementTest.check_eq`: nodes with one tag name pass or fail such a test
  together;
- `Node.outermost_eq_nil`: no element is listed if none passes;
- `Way.isIgnored_eq_shielded`: with such a test, an ancestor is left alone by
  its tag name.
-/

namespace Graft

namespace ElementTest

/-- Whether a test goes by the tag name alone. -/
def byTag : ElementTest → Bool
  | .any | .tag _ | .tags _ => true
  | .predicate _ => false

/-- Nodes with one tag name pass or fail a test by tag name together, wherever
they stand. -/
theorem check_eq {test : ElementTest} (htest : test.byTag = true) {a b : Node}
    (htag : a.tag? = b.tag?) (i j : Option Nat) (p q : Option Node) :
    test.check a i p = test.check b j q := by
  have hname : ∀ node : Node, node.tag? = node.element?.map Element.tag := by
    intro node
    cases node <;> rfl
  rw [hname, hname] at htag
  unfold check
  cases ha : a.element? with
  | none =>
    rw [ha] at htag
    rw [Option.map_eq_none_iff.mp htag.symm]
  | some first =>
    rw [ha] at htag
    obtain ⟨second, hb, hsame⟩ := Option.map_eq_some_iff.mp htag.symm
    rw [hb]
    cases test with
    | any => rfl
    | tag name => simp only [hsame]
    | tags names => simp only [hsame]
    | predicate accepts => exact absurd htest Bool.false_ne_true

end ElementTest

namespace Node

mutual

/-- The outermost elements of a tree that pass a test by tag name, in document
order. -/
def outermost (test : ElementTest) : Node → List Node
  | .root children _ => outermostAmong test children
  | .element tag properties children info =>
    if test.check (.element tag properties children info) none none then
      [.element tag properties children info]
    else outermostAmong test children
  | .text .. | .comment .. | .doctype .. => []

/-- The outermost elements of several trees that pass a test by tag name, in
document order. -/
def outermostAmong (test : ElementTest) : List Node → List Node
  | [] => []
  | node :: rest => node.outermost test ++ outermostAmong test rest

end

/-- The outermost elements of siblings are listed sibling by sibling. -/
theorem outermostAmong_append (test : ElementTest) (a b : List Node) :
    outermostAmong test (a ++ b) = outermostAmong test a ++ outermostAmong test b := by
  induction a with
  | nil => rfl
  | cons node rest ih =>
    rw [List.cons_append, outermostAmong, ih, outermostAmong, List.append_assoc]

/-- Whether no element of a tree passes a test, wherever it stands in it. -/
def IsFreeOf (test : ElementTest) (node : Node) : Prop :=
  ∀ path found, node.get? path = some found → ∀ index parent, test.check found index parent = false

/-- A text is no element, and holds none. -/
theorem isFreeOf_ofText (test : ElementTest) (value : String) : (ofText value).IsFreeOf test := by
  intro path found hfound index parent
  cases path with
  | nil =>
    obtain rfl := Option.some.inj hfound
    rfl
  | cons i path => exact absurd hfound (by simp [ofText, get?, children])

/-- What holds no such element has no child that holds one. -/
theorem IsFreeOf.child {test : ElementTest} {node child : Node} (h : node.IsFreeOf test)
    (hmem : child ∈ node.children) : child.IsFreeOf test := by
  intro path found hfound
  obtain ⟨i, hi⟩ := List.mem_iff_getElem?.mp hmem
  refine h (i :: path) found ?_
  rw [get?_cons, hi]
  exact hfound

mutual

/-- No element is listed if none passes. -/
theorem outermost_eq_nil {test : ElementTest} : ∀ {node : Node}, node.IsFreeOf test →
    node.outermost test = []
  | .root children info, h =>
    outermostAmong_eq_nil fun _ hmem => h.child hmem
  | .element tag properties children info, h => by
    have hself := h [] _ (get?_nil _) none none
    rw [outermost, hself, if_neg Bool.false_ne_true]
    exact outermostAmong_eq_nil fun _ hmem => h.child hmem
  | .text .., _ | .comment .., _ | .doctype .., _ => rfl

/-- The same of siblings. -/
theorem outermostAmong_eq_nil {test : ElementTest} : ∀ {nodes : List Node},
    (∀ node ∈ nodes, node.IsFreeOf test) → outermostAmong test nodes = []
  | [], _ => rfl
  | node :: rest, h => by
    have hrest := fun other hmem => h other (List.mem_cons_of_mem node hmem)
    rw [outermostAmong, outermost_eq_nil (h node List.mem_cons_self), outermostAmong_eq_nil hrest]
    rfl

end

end Node

namespace Shell

/-- Whether an ancestor passes a test by tag name, whatever it holds. -/
def passes (shell : Shell) (test : ElementTest) : Bool := test.check (shell.node []) none none

/-- What a shell is filled with, and where it stands, makes no difference to the
test. -/
theorem check_node {test : ElementTest} (htest : test.byTag = true) (shell : Shell)
    (children : List Node) (index : Option Nat) (parent : Option Node) :
    test.check (shell.node children) index parent = shell.passes test := by
  refine ElementTest.check_eq htest ?_ _ _ _ _
  cases shell <;> rfl

end Shell

namespace Way

/-- Whether an ancestor on a way passes a test by tag name. -/
def shielded (way : Way) (test : ElementTest) : Bool := way.any (·.shell.passes test)

theorem shielded_cons (level : Level) (up : Way) (test : ElementTest) :
    shielded (level :: up) test = (level.shell.passes test || shielded up test) := rfl

/-- With a test by tag name, what stands on both sides of the way changes
nothing. -/
theorem isIgnored_eq_shielded {ignore : Ignore} (htest : ignore.test.byTag = true) (way : Way)
    (node : Node) : way.isIgnored ignore node = way.shielded ignore.test := by
  induction way generalizing node with
  | nil => rfl
  | cons level up ih =>
    rw [isIgnored, ih, shielded_cons, Bool.or_comm]
    refine congrArg (· || _) ?_
    exact level.shell.check_node htest _ _ _

/-- Every ancestor on the way is a level with a child put in. -/
theorem exists_level_of_mem_ancestors {way : Way} {node ancestor : Node}
    (h : ancestor ∈ way.ancestors node) : ∃ level ∈ way, ∃ child, ancestor = level.fill child := by
  induction way generalizing node with
  | nil => exact absurd h List.not_mem_nil
  | cons level up ih =>
    rcases List.mem_append.mp h with hup | hlevel
    · obtain ⟨other, hmem, hother⟩ := ih hup
      exact ⟨other, List.mem_cons_of_mem level hmem, hother⟩
    · exact ⟨level, List.mem_cons_self, node, List.mem_singleton.mp hlevel⟩

/-- If no ancestor on the way passes a test by tag name, none does as it is now. -/
theorem check_of_mem_ancestors {test : ElementTest} (htest : test.byTag = true) {way : Way}
    (hway : way.shielded test = false) {node ancestor : Node} (h : ancestor ∈ way.ancestors node)
    (index : Option Nat) (parent : Option Node) : test.check ancestor index parent = false := by
  obtain ⟨level, hmem, child, rfl⟩ := exists_level_of_mem_ancestors h
  have hlevel := List.any_eq_false.mp hway level hmem
  rw [Level.fill, level.shell.check_node htest]
  exact Bool.eq_false_iff.mpr hlevel

end Way

end Graft
