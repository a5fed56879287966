import Graft.Proofs.Tree.Lineage
import Graft.Proofs.Tree.Marks

/-!
# What a substitution leaves

A node that neither gives way itself nor lies below a node that does is still
there after a substitution, at the path where it has been moved to, with all
that is its own. A text is still there as it was, metadata included, since it
has no children that could have changed.

This is what a search owes to the texts that it does not accept a match in:
`splice_leaf` answers `None`, and the leaf is left exactly as it is.

Main statements:
- `Node.get?_substitute`: what stands where a node that is spared has been moved
  to;
- `Mark.substitution_of_mem`: what becomes of the place of a mark.
-/

namespace Graft

namespace Substitution

/-- The substitution as seen from the node at a path. -/
def under (f : Substitution) (path : Path) : Substitution := fun below => f (path ++ below)

/-- Whether neither the node at a path gives way nor one of its ancestors. The
root never does. -/
def Spares : Substitution → Path → Prop
  | _, [] => True
  | f, index :: path => f [index] = none ∧ (f.below index).Spares path

/-- It does so if none of the paths on the way, but for that of the root, is
named. -/
theorem spares_of_forall {f : Substitution} {path : Path}
    (h : ∀ place, place ≠ [] → place <+: path → f place = none) : f.Spares path := by
  induction path generalizing f with
  | nil => trivial
  | cons index path ih =>
    refine ⟨h [index] (List.cons_ne_nil index []) (List.prefix_append [index] path),
      ih fun place _ hplace => ?_⟩
    exact h (index :: place) (List.cons_ne_nil index place)
      (List.prefix_append_right_inj [index] |>.mpr hplace)

end Substitution

namespace Node

/-- What gives way below a node is told among its children. -/
theorem children_substitute (f : Substitution) (node : Node) :
    (node.substitute f).children = substituteFrom f 0 node.children := by
  cases node <;> rw [substitute] <;> rfl

/-- Apart from its children, a node that is entered stays what it is. -/
@[simp] theorem bare_substitute (f : Substitution) (node : Node) :
    (node.substitute f).bare = node.bare := by
  cases node <;> rw [substitute] <;> rfl

/-- Nothing can give way below a text. -/
theorem substitute_of_isText (f : Substitution) {node : Node} (h : node.isText = true) :
    node.substitute f = node := by
  obtain ⟨value, info, rfl⟩ := exists_of_isText h
  rw [substitute]

/-- A sibling that does not give way stands where `Substitution.shift` says. -/
theorem getElem?_substituteFrom {f : Substitution} {siblings : List Node} {index : Nat}
    {child : Node} (hchild : siblings[index]? = some child) (hstays : f [index] = none) :
    (substituteFrom f 0 siblings)[f.shift index]? = some (child.substitute (f.below index)) := by
  obtain ⟨left, right, rfl, rfl⟩ : ∃ left right,
      siblings = left ++ child :: right ∧ left.length = index := by
    obtain ⟨hlt, rfl⟩ := List.getElem?_eq_some_iff.mp hchild
    refine ⟨siblings.take index, siblings.drop (index + 1), ?_,
      List.length_take_of_le (Nat.le_of_lt hlt)⟩
    rw [List.getElem_cons_drop, List.take_append_drop]
  have hbefore := length_substituteFrom f 0 left
  rw [Substitution.shift, Nat.zero_add, Nat.zero_add] at hbefore
  rw [substituteFrom_append, Nat.zero_add, substituteFrom, hstays, ← hbefore,
    List.getElem?_append_right (Nat.le_refl _), Nat.sub_self]
  rfl

/-- A node that is spared is there after the substitution, with what is left of
its children. -/
theorem get?_substitute {f : Substitution} {node found : Node} {path : Path}
    (hfound : node.get? path = some found)
    (h : f.Spares path) : (node.substitute f).get? (f.moved path) =
    some (found.substitute (f.under path)) := by
  induction path generalizing f node with
  | nil =>
    rw [get?_nil] at hfound
    obtain rfl := Option.some.inj hfound
    rw [Substitution.moved, get?_nil]
    rfl
  | cons index path ih =>
    obtain ⟨hstays, hbelow⟩ := h
    rw [get?_cons] at hfound
    obtain ⟨child, hchild, hfound⟩ := Option.bind_eq_some_iff.mp hfound
    rw [Substitution.moved, get?_cons, children_substitute, getElem?_substituteFrom hchild hstays]
    exact ih hfound hbelow

end Node

/-- A mark says what becomes of its place, if no other mark has the same place. -/
theorem Mark.substitution_of_mem {marks : List Mark} (hnodup : (marks.map place).Nodup)
    {mark : Mark} (h : mark ∈ marks) : substitution marks mark.place = mark.decision.nodes? := by
  obtain ⟨before, after, rfl⟩ := List.append_of_mem h
  have hother : ∀ other ∈ before ++ after, other.place ≠ mark.place := by
    rw [List.map_append, List.map_cons, List.nodup_append] at hnodup
    obtain ⟨-, hafter, hapart⟩ := hnodup
    intro other hmem heq
    rcases List.mem_append.mp hmem with hmem | hmem
    · exact hapart _ (List.mem_map_of_mem hmem) _ List.mem_cons_self heq
    · exact (List.nodup_cons.mp hafter).1 (heq ▸ List.mem_map_of_mem hmem)
  obtain ⟨hbefore, hafter⟩ := List.forall_mem_append.mp hother
  rw [substitution_append, substitution_eq_none hbefore, Option.none_or, ← List.singleton_append,
    substitution_append, substitution_single, substitution_eq_none hafter, Option.or_none]

end Graft
