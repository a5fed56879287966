import Graft.Tree.Path

/-!
# Document order

The nodes below a node are listed as a reader of the document meets them: a
child before what lies below it, and all of that before the next child. Paths
are compared index by index, and a path comes before its continuations; listed
in document order, every node stands once, and in the order of the paths.

The list is what `visit_parents` promises to go through (preorder), told without
a walk. Like the tree it is made by two functions, one for a node and one for a
list of siblings that starts at an index, and each lemma comes in the same two
halves.

Main statements:
- `Node.mem_descendants_iff`: every node below is listed, with its path;
- `Node.pairwise_descendants`: the paths grow along the list, so none stands
  twice.
-/

namespace Graft

namespace Node

mutual

/-- The nodes below a node in document order, each with its path from there. -/
def descendants : Node → List (Path × Node)
  | .root children _ | .element _ _ children _ => descendantsFrom 0 children
  | .text .. | .comment .. | .doctype .. => []

/-- Siblings and the nodes below them, in document order. The index of the first
one is given. -/
def descendantsFrom (index : Nat) : List Node → List (Path × Node)
  | [] => []
  | child :: rest =>
    ([index], child) :: child.descendants.map (fun below => (index :: below.1, below.2)) ++
      descendantsFrom (index + 1) rest

end

/-- A path that is not empty leads to one of the children first. -/
theorem get?_eq_some_iff_of_ne_nil (node : Node) (path : Path) (found : Node) :
    path ≠ [] ∧ node.get? path = some found ↔
      ∃ i child below, path = i :: below ∧ node.children[i]? = some child ∧
        child.get? below = some found := by
  constructor
  · rintro ⟨hne, hget⟩
    cases path with
    | nil => exact absurd rfl hne
    | cons i below =>
      rw [get?_cons] at hget
      obtain ⟨child, hchild, hbelow⟩ := Option.bind_eq_some_iff.mp hget
      exact ⟨i, child, below, rfl, hchild, hbelow⟩
  · rintro ⟨i, child, below, rfl, hchild, hbelow⟩
    refine ⟨List.cons_ne_nil i below, ?_⟩
    rw [get?_cons, hchild]
    exact hbelow

mutual

/-- A path with a node is listed exactly if it leads below the first node, to
that node. -/
theorem mem_descendants_iff (path : Path) (found : Node) : ∀ node : Node,
    (path, found) ∈ node.descendants ↔ path ≠ [] ∧ node.get? path = some found
  | .root children info => by
    rw [get?_eq_some_iff_of_ne_nil, descendants, mem_descendantsFrom_iff path found 0 children]
    simp only [Nat.zero_add]
    rfl
  | .element tag properties children info => by
    rw [get?_eq_some_iff_of_ne_nil, descendants, mem_descendantsFrom_iff path found 0 children]
    simp only [Nat.zero_add]
    rfl
  | .text value info => by
    rw [get?_eq_some_iff_of_ne_nil]
    simp [descendants, children]
  | .comment value info => by
    rw [get?_eq_some_iff_of_ne_nil]
    simp [descendants, children]
  | .doctype name info => by
    rw [get?_eq_some_iff_of_ne_nil]
    simp [descendants, children]

/-- Among siblings, a path is listed exactly if it leads to one of them or below
it. -/
theorem mem_descendantsFrom_iff (path : Path) (found : Node) (index : Nat) :
    ∀ siblings : List Node, (path, found) ∈ descendantsFrom index siblings ↔
      ∃ i child below, path = (index + i) :: below ∧ siblings[i]? = some child ∧
        child.get? below = some found
  | [] => by
    simp [descendantsFrom]
  | child :: rest => by
    rw [descendantsFrom, List.cons_append, List.mem_cons, List.mem_append, List.mem_map,
      mem_descendantsFrom_iff path found (index + 1) rest]
    constructor
    · rintro (hfirst | ⟨⟨below, other⟩, hmem, heq⟩ | ⟨i, other, below, hpath, hother, hbelow⟩)
      · obtain ⟨rfl, rfl⟩ := Prod.mk.inj hfirst
        exact ⟨0, found, [], rfl, rfl, get?_nil found⟩
      · obtain ⟨rfl, rfl⟩ := Prod.mk.inj heq
        exact ⟨0, child, below, rfl, rfl, ((mem_descendants_iff below other child).mp hmem).2⟩
      · refine ⟨i + 1, other, below, ?_, hother, hbelow⟩
        rw [hpath, Nat.add_assoc, Nat.add_comm 1 i]
    · rintro ⟨i, other, below, rfl, hother, hbelow⟩
      cases i with
      | zero =>
        obtain rfl := Option.some.inj hother
        by_cases hnil : below = []
        · subst hnil
          rw [get?_nil] at hbelow
          obtain rfl := Option.some.inj hbelow
          exact Or.inl rfl
        · exact Or.inr (Or.inl ⟨(below, found),
            (mem_descendants_iff below found child).mpr ⟨hnil, hbelow⟩, rfl⟩)
      | succ i =>
        refine Or.inr (Or.inr ⟨i, other, below, ?_, hother, hbelow⟩)
        rw [Nat.add_assoc, Nat.add_comm 1 i]

end

mutual

/-- The paths grow along the list of the nodes below a node. -/
theorem pairwise_descendants : ∀ node : Node,
    node.descendants.Pairwise fun a b => a.1 < b.1
  | .root children _ | .element _ _ children _ => pairwise_descendantsFrom 0 children
  | .text .. | .comment .. | .doctype .. => .nil

/-- The paths grow along the list of siblings and of what lies below them. -/
theorem pairwise_descendantsFrom (index : Nat) : ∀ siblings : List Node,
    (descendantsFrom index siblings).Pairwise fun a b => a.1 < b.1
  | [] => .nil
  | child :: rest => by
    have hlater : ∀ below, ∀ later ∈ descendantsFrom (index + 1) rest,
        index :: below < later.1 := by
      rintro below ⟨path, found⟩ hmem
      obtain ⟨i, _, beyond, rfl, -⟩ := (mem_descendantsFrom_iff path found _ rest).mp hmem
      exact List.cons_lt_cons_iff.mpr (Or.inl (by omega))
    rw [descendantsFrom, List.cons_append]
    refine List.pairwise_cons.mpr ⟨?_, List.pairwise_append.mpr ⟨?_, ?_, ?_⟩⟩
    · intro other hmem
      rcases List.mem_append.mp hmem with hbelow | hrest
      · obtain ⟨⟨below, found⟩, hdesc, rfl⟩ := List.mem_map.mp hbelow
        have hne := ((mem_descendants_iff below found child).mp hdesc).1
        obtain ⟨i, beyond, rfl⟩ := List.exists_cons_of_ne_nil hne
        exact List.cons_lt_cons_iff.mpr (Or.inr ⟨rfl, List.nil_lt_cons i beyond⟩)
      · exact hlater [] other hrest
    · rw [List.pairwise_map]
      refine (pairwise_descendants child).imp fun h => ?_
      exact List.cons_lt_cons_iff.mpr (Or.inr ⟨rfl, h⟩)
    · exact pairwise_descendantsFrom (index + 1) rest
    · intro first hfirst later hmem
      obtain ⟨⟨below, found⟩, -, rfl⟩ := List.mem_map.mp hfirst
      exact hlater below later hmem

end

end Node

end Graft
