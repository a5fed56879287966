import Graft.Proofs.Tree.Editing
import Graft.Proofs.Tree.Order

/-!
# Substitutions by path

A substitution says which nodes of a tree give way to which others, by the paths
that the nodes have in the tree as it is. Carried out at once, it gives a tree
in which what is left stands at other paths, since siblings may have become more
or fewer. A walk that edits makes its substitution step by step, by marks: a
mark is a decision about a node, at the path that the node had when the walk
began.

Where a node ends up (`Substitution.moved`) is counted at every level of its
path: its index there, less the siblings to the left that gave way, and with the
nodes that came for them (`Substitution.shift`). That is the arithmetic that a
walk does as it goes, one `resume_at` after the other.

The marks of a walk are put together from those of the children, each moved
below the index of its child (`Mark.under`). So three kinds of marks matter to a
child: those of its siblings to the left, its own, and those below it. The
lemmas at the end say what such a list of marks does at each place, and that
only the first two kinds shift what follows.

Main statements:
- `Node.substitute_of_none`: a substitution that names no node of a tree leaves
  the tree as it is;
- `Node.length_substituteFrom`: children that are left stand where
  `Substitution.shift` says;
- `Mark.substituteFrom_marks`, `Mark.moved_marks`: what marks do among the
  children of a node, up to a child and the marks below it.
-/

namespace Graft

/-- What takes the place of the node at a path of a tree; `none` if the node
stays. -/
def Substitution := Path → Option (List Node)

namespace Substitution

/-- The substitution as seen from the child at an index. -/
def below (f : Substitution) (index : Nat) : Substitution := fun path => f (index :: path)

/-- The number of nodes that stand where the child at an index was. -/
def width (f : Substitution) (index : Nat) : Nat :=
  match f [index] with
  | some nodes => nodes.length
  | none => 1

/-- Where the child at an index stands, or the nodes that have taken its place. -/
def shift (f : Substitution) : Nat → Nat
  | 0 => 0
  | index + 1 => f.shift index + f.width index

/-- Where the node at a path stands after the substitution. -/
def moved : Substitution → Path → Path
  | _, [] => []
  | f, index :: path => f.shift index :: (f.below index).moved path

/-- Only what happens to the siblings to the left shifts an index. -/
theorem shift_congr {f g : Substitution} {index : Nat} (h : ∀ i < index, f [i] = g [i]) :
    f.shift index = g.shift index := by
  induction index with
  | zero => rfl
  | succ index ih =>
    have hbefore := ih fun i hi => h i (Nat.lt_succ_of_lt hi)
    have hwidth : f.width index = g.width index := by
      rw [width, width, h index (Nat.lt_succ_self index)]
    rw [shift, shift, hbefore, hwidth]

/-- What gives way at the root moves nothing, for nothing is beside it. -/
theorem moved_congr {f g : Substitution} (h : ∀ path ≠ [], f path = g path) (path : Path) :
    f.moved path = g.moved path := by
  induction path generalizing f g with
  | nil => rfl
  | cons index path ih =>
    have hshift : f.shift index = g.shift index :=
      shift_congr fun i _ => h [i] (List.cons_ne_nil i [])
    have hbelow := ih (f := f.below index) (g := g.below index)
      fun path _ => h (index :: path) (List.cons_ne_nil index path)
    rw [moved, moved, hshift, hbelow]

end Substitution

namespace Node

mutual

/-- The tree after a substitution. The root of the tree stays. -/
def substitute (f : Substitution) : Node → Node
  | .root children info => .root (substituteFrom f 0 children) info
  | .element tag properties children info =>
    .element tag properties (substituteFrom f 0 children) info
  | .text value info => .text value info
  | .comment value info => .comment value info
  | .doctype name info => .doctype name info

/-- What stands after a substitution where siblings were, the index of the first
of them given. -/
def substituteFrom (f : Substitution) (index : Nat) : List Node → List Node
  | [] => []
  | child :: rest =>
    (f [index]).getD [child.substitute (f.below index)] ++ substituteFrom f (index + 1) rest

end

/-- What a substitution does to a node it does among the children, and the rest
of the node stays. -/
theorem substitute_shell (f : Substitution) (shell : Shell) (children : List Node) :
    (shell.node children).substitute f = shell.node (substituteFrom f 0 children) := by
  cases shell with
  | root info => exact substitute.eq_1 f children info
  | element tag properties info => exact substitute.eq_2 f tag properties children info

/-- Siblings give way each on its own, at the index that it has. -/
theorem substituteFrom_append (f : Substitution) (index : Nat) (first later : List Node) :
    substituteFrom f index (first ++ later) =
      substituteFrom f index first ++ substituteFrom f (index + first.length) later := by
  induction first generalizing index with
  | nil => simp [substituteFrom]
  | cons child first ih =>
    rw [List.cons_append, substituteFrom, ih, substituteFrom, List.append_assoc, List.length_cons,
      Nat.add_assoc, Nat.add_comm 1]

/-- What stands where siblings were reaches up to where the next sibling stands. -/
theorem length_substituteFrom (f : Substitution) (index : Nat) (siblings : List Node) :
    f.shift index + (substituteFrom f index siblings).length =
      f.shift (index + siblings.length) := by
  induction siblings generalizing index with
  | nil => rfl
  | cons child rest ih =>
    have hnext := ih (index + 1)
    have hwidth : ((f [index]).getD [child.substitute (f.below index)]).length = f.width index := by
      rw [Substitution.width]
      cases f [index] <;> rfl
    rw [substituteFrom, List.length_append, hwidth, List.length_cons, ← Nat.add_assoc,
      Nat.add_comm rest.length 1, ← Nat.add_assoc, ← hnext]
    rfl

mutual

/-- A substitution is told by what it does below the root. -/
theorem substitute_congr {f g : Substitution} (h : ∀ path ≠ [], f path = g path) :
    ∀ node : Node, node.substitute f = node.substitute g
  | .root children info => by
    rw [substitute, substitute,
      substituteFrom_congr children fun i path _ _ => h _ (List.cons_ne_nil i path)]
  | .element tag properties children info => by
    rw [substitute, substitute,
      substituteFrom_congr children fun i path _ _ => h _ (List.cons_ne_nil i path)]
  | .text value info => by rw [substitute, substitute]
  | .comment value info => by rw [substitute, substitute]
  | .doctype name info => by rw [substitute, substitute]

/-- Among siblings, a substitution is told by what it does from the first to the
last of them. -/
theorem substituteFrom_congr {f g : Substitution} {index : Nat} : ∀ siblings : List Node,
    (∀ i path, index ≤ i → i < index + siblings.length → f (i :: path) = g (i :: path)) →
      substituteFrom f index siblings = substituteFrom g index siblings
  | [], _ => by rw [substituteFrom, substituteFrom]
  | child :: rest, h => by
    have hlt : index < index + (child :: rest).length := by rw [List.length_cons]; omega
    have hchild := substitute_congr (f := f.below index) (g := g.below index)
      (fun path _ => h index path (Nat.le_refl index) hlt) child
    have hrest : substituteFrom f (index + 1) rest = substituteFrom g (index + 1) rest :=
      substituteFrom_congr rest fun i path hle hi =>
        h i path (Nat.le_of_succ_le hle) (by rw [List.length_cons]; omega)
    rw [substituteFrom, substituteFrom, hchild, hrest, h index [] (Nat.le_refl index) hlt]

end

mutual

/-- Where no node below the root gives way, the tree stays as it is. -/
theorem substitute_of_none {f : Substitution} (h : ∀ path ≠ [], f path = none) :
    ∀ node : Node, node.substitute f = node
  | .root children info => by
    rw [substitute, substituteFrom_of_none fun i path _ => h _ (List.cons_ne_nil i path)]
  | .element tag properties children info => by
    rw [substitute, substituteFrom_of_none fun i path _ => h _ (List.cons_ne_nil i path)]
  | .text value info => by rw [substitute]
  | .comment value info => by rw [substitute]
  | .doctype name info => by rw [substitute]

/-- Where none of some siblings gives way, nor a node below them, they stay as
they are. -/
theorem substituteFrom_of_none {f : Substitution} {index : Nat}
    (h : ∀ i path, index ≤ i → f (i :: path) = none) :
    ∀ siblings : List Node, substituteFrom f index siblings = siblings
  | [] => by rw [substituteFrom]
  | child :: rest => by
    have hchild := substitute_of_none (f := f.below index)
      (fun path _ => h index path (Nat.le_refl index)) child
    have hrest : substituteFrom f (index + 1) rest = rest :=
      substituteFrom_of_none (fun i path hi => h i path (Nat.le_of_succ_le hi)) rest
    rw [substituteFrom, hchild, hrest, h index [] (Nat.le_refl index)]
    rfl

end

end Node

/-! ## Marks -/

namespace Decision

/-- The nodes that take the place of the one decided about. -/
def nodes? : Decision → Option (List Node)
  | .replace nodes => some nodes
  | _ => none

/-- Whether what lies below the node is passed by. -/
def passesBy : Decision → Bool
  | .skip | .replace _ => true
  | _ => false

/-- What is made of a decision about the root, which has no siblings for other
nodes to stand among. -/
def atRoot : Decision → Decision
  | .replace _ => .descend
  | other => other

/-- Whether the walk ends there. -/
def stops : Decision → Bool
  | .stop => true
  | _ => false

end Decision

/-- A decision about a node, with the path that the node had in the tree as it
was. -/
structure Mark where
  place : Path
  decision : Decision

namespace Mark

/-- The mark as seen from the parent, for a mark in the child at an index. -/
def under (index : Nat) (mark : Mark) : Mark := ⟨index :: mark.place, mark.decision⟩

/-- The substitution that marks make. -/
def substitution (marks : List Mark) : Substitution := fun path =>
  marks.findSome? fun mark => if mark.place = path then mark.decision.nodes? else none

/-- Whether a mark passes by what lies at a path. -/
def passes (marks : List Mark) (path : Path) : Bool :=
  marks.any fun mark => mark.decision.passesBy && mark.place.isPrefixOf path && mark.place != path

/-- Whether marks lie in children before an index. -/
def AreBefore (index : Nat) (marks : List Mark) : Prop :=
  ∀ mark ∈ marks, ∃ i below, mark.place = i :: below ∧ i < index

/-- Marks before an index are put together. -/
theorem AreBefore.append {index : Nat} {first later : List Mark} (hfirst : AreBefore index first)
    (hlater : AreBefore index later) : AreBefore index (first ++ later) := by
  intro mark hmem
  rcases List.mem_append.mp hmem with hmem | hmem
  · exact hfirst mark hmem
  · exact hlater mark hmem

/-- Marks before an index are before every later one. -/
theorem AreBefore.mono {i j : Nat} {marks : List Mark} (h : AreBefore i marks) (hle : i ≤ j) :
    AreBefore j marks := by
  intro mark hmem
  obtain ⟨k, below, hplace, hk⟩ := h mark hmem
  exact ⟨k, below, hplace, Nat.lt_of_lt_of_le hk hle⟩

/-- The marks of a child are before the index behind it. -/
theorem areBefore_under (index : Nat) (marks : List Mark) :
    AreBefore (index + 1) (marks.map (under index)) := by
  intro mark hmem
  obtain ⟨inner, -, rfl⟩ := List.mem_map.mp hmem
  exact ⟨index, inner.place, rfl, Nat.lt_succ_self index⟩

/-- Marks in children up to one of them: those before it, its own, and those
below it. -/
theorem AreBefore.next {index : Nat} {base own : List Mark} (hbase : AreBefore index base)
    (hown : ∀ mark ∈ own, mark.place = [index]) (inner : List Mark) :
    AreBefore (index + 1) (base ++ own ++ inner.map (under index)) := by
  have hself : AreBefore (index + 1) own := fun mark hmem =>
    ⟨index, [], hown mark hmem, Nat.lt_succ_self index⟩
  exact ((hbase.mono (Nat.le_succ index)).append hself).append (areBefore_under index inner)

/-- Where two lists of marks name a path, the first one decides. -/
theorem substitution_append (first later : List Mark) (path : Path) :
    substitution (first ++ later) path = (substitution first path).or (substitution later path) :=
  List.findSome?_append

/-- A single mark decides about its own path. -/
theorem substitution_single (path : Path) (decision : Decision) :
    substitution [⟨path, decision⟩] path = decision.nodes? := by
  simp [substitution]

/-- Where no mark names a path, nothing gives way there. -/
theorem substitution_eq_none {marks : List Mark} {path : Path}
    (h : ∀ mark ∈ marks, mark.place ≠ path) : substitution marks path = none := by
  refine List.findSome?_eq_none_iff.mpr fun mark hmem => ?_
  exact if_neg (h mark hmem)

/-- Marks before an index decide nothing there or further right. -/
theorem AreBefore.substitution_eq_none {index i : Nat} {marks : List Mark}
    (h : AreBefore index marks) (hle : index ≤ i) (path : Path) :
    substitution marks (i :: path) = none := by
  refine Mark.substitution_eq_none fun mark hmem heq => ?_
  obtain ⟨k, below, hplace, hk⟩ := h mark hmem
  rw [hplace] at heq
  obtain rfl := (List.cons.inj heq).1
  omega

/-- Marks that were moved below an index decide there what they decided in the
child. -/
theorem substitution_under_self (index : Nat) (marks : List Mark) (path : Path) :
    substitution (marks.map (under index)) (index :: path) = substitution marks path := by
  rw [substitution, substitution, List.findSome?_map]
  congr 1
  funext mark
  simp [under]

/-- Below another index they decide nothing. -/
theorem substitution_under_ne {index i : Nat} (h : i ≠ index) (marks : List Mark) (path : Path) :
    substitution (marks.map (under index)) (i :: path) = none := by
  refine substitution_eq_none fun mark hmem heq => ?_
  obtain ⟨inner, -, rfl⟩ := List.mem_map.mp hmem
  exact h (List.cons.inj heq).1.symm

variable {left : List Node} {base own inner : List Mark}

/-- Marks in the children of a node, as seen from one child: those before it,
its own, and those below it. -/
private theorem substitution_marks_before (i : Nat) (path : Path)
    (hown : ∀ mark ∈ own, mark.place = [left.length]) (h : i < left.length) :
    substitution (base ++ own ++ inner.map (under left.length)) (i :: path) =
      substitution base (i :: path) := by
  have hnone : substitution own (i :: path) = none := by
    refine substitution_eq_none fun mark hmem heq => ?_
    rw [hown mark hmem] at heq
    exact absurd (List.cons.inj heq).1 (by omega)
  rw [substitution_append, substitution_append, hnone, Option.or_none,
    substitution_under_ne (Nat.ne_of_lt h), Option.or_none]

/-- Of the three kinds of marks, those of the child itself decide what lies
below it. -/
private theorem substitution_marks_below (path : Path) (hbase : AreBefore left.length base)
    (hown : ∀ mark ∈ own, mark.place = [left.length]) (h : path ≠ []) :
    substitution (base ++ own ++ inner.map (under left.length)) (left.length :: path) =
      substitution inner path := by
  have hnone : substitution own (left.length :: path) = none := by
    refine substitution_eq_none fun mark hmem heq => ?_
    rw [hown mark hmem] at heq
    exact h (List.cons.inj heq).2.symm
  rw [substitution_append, substitution_append, hbase.substitution_eq_none (Nat.le_refl _),
    hnone, Option.or_none, Option.none_or, substitution_under_self]

/-- Behind the children with marks, the children are as they were. -/
theorem AreBefore.substituteFrom_eq (hbase : AreBefore left.length base) (rest : List Node) :
    Node.substituteFrom (substitution base) 0 (left ++ rest) =
      Node.substituteFrom (substitution base) 0 left ++ rest := by
  have hrest : Node.substituteFrom (substitution base) (0 + left.length) rest = rest :=
    Node.substituteFrom_of_none (fun i path hi => hbase.substitution_eq_none (by omega) path) rest
  rw [Node.substituteFrom_append, hrest]

/-- What marks do among the children of a node, up to a child, its own marks and
those below it. -/
theorem substituteFrom_marks (child : Node) (rest : List Node) (hbase : AreBefore left.length base)
    (hown : ∀ mark ∈ own, mark.place = [left.length]) (hinner : ∀ mark ∈ inner, mark.place ≠ []) :
    Node.substituteFrom (substitution (base ++ own ++ inner.map (under left.length))) 0
        (left ++ child :: rest) =
      Node.substituteFrom (substitution base) 0 left ++
        ((substitution own [left.length]).getD [child.substitute (substitution inner)] ++
          rest) := by
  have hleft : Node.substituteFrom (substitution (base ++ own ++ inner.map (under left.length))) 0
      left = Node.substituteFrom (substitution base) 0 left :=
    Node.substituteFrom_congr left fun i path _ hi =>
      substitution_marks_before i path hown (by omega)
  -- the marks before the child lie at other places, those below it at longer ones
  have hhere : substitution (base ++ own ++ inner.map (under left.length)) [left.length] =
      substitution own [left.length] := by
    have hnone : substitution (inner.map (under left.length)) [left.length] = none := by
      rw [substitution_under_self]
      exact substitution_eq_none hinner
    rw [substitution_append, substitution_append, hbase.substitution_eq_none (Nat.le_refl _),
      hnone, Option.or_none, Option.none_or]
  have hchild : child.substitute
      (Substitution.below (substitution (base ++ own ++ inner.map (under left.length)))
        left.length) =
        child.substitute (substitution inner) :=
    Node.substitute_congr (fun path hne => substitution_marks_below path hbase hown hne) child
  have hrest : Node.substituteFrom (substitution (base ++ own ++ inner.map (under left.length)))
      (left.length + 1) rest = rest := by
    exact Node.substituteFrom_of_none
      (fun i path hi => (hbase.next hown inner).substitution_eq_none hi path) rest
  rw [Node.substituteFrom_append, hleft, Nat.zero_add, Node.substituteFrom, hhere, hchild, hrest]

/-- Where a node below a child stands, by the marks before the child and those
below it. -/
theorem moved_marks (place : Path) (hbase : AreBefore left.length base)
    (hown : ∀ mark ∈ own, mark.place = [left.length]) :
    (substitution (base ++ own ++ inner.map (under left.length))).moved (left.length :: place) =
      (substitution base).shift left.length :: (substitution inner).moved place := by
  have hshift : (substitution (base ++ own ++ inner.map (under left.length))).shift left.length =
      (substitution base).shift left.length :=
    Substitution.shift_congr fun i hi => substitution_marks_before i [] hown hi
  have hbelow : (Substitution.below
      (substitution (base ++ own ++ inner.map (under left.length))) left.length).moved place =
        (substitution inner).moved place :=
    Substitution.moved_congr (fun path hne => substitution_marks_below path hbase hown hne) place
  rw [Substitution.moved, hshift, hbelow]

end Mark

end Graft
