import Graft.Tree.Path

/-!
# What holds of every node of a tree

A property holds everywhere in a tree if it holds of the node at every path, the
root at the empty path included. Most of what is shown of trees that have been
read, and of trees after a search, has this form: no text is empty, no object
has a key twice, no data is null.

To show it, one mostly goes down the tree, and `Node.everywhere_iff` takes one
step: the root, and then everywhere in each of the children.

Main statements:
- `Node.everywhere_iff`: a property holds everywhere in a tree if it holds of
  the root and everywhere in each of its children.
-/

namespace Graft

namespace Node

/-- Whether something holds of every node of a tree. -/
def Everywhere (holds : Node → Prop) (tree : Node) : Prop :=
  ∀ path found, tree.get? path = some found → holds found

/-- A path is empty, or leads into a child and on from there. -/
theorem everywhere_iff {holds : Node → Prop} {tree : Node} :
    tree.Everywhere holds ↔ holds tree ∧ ∀ child ∈ tree.children, child.Everywhere holds := by
  constructor
  · intro h
    refine ⟨h [] tree (get?_nil tree), fun child hmem path found hfound => ?_⟩
    obtain ⟨i, hi⟩ := List.mem_iff_getElem?.mp hmem
    refine h (i :: path) found ?_
    rw [get?_cons, hi]
    exact hfound
  · rintro ⟨hroot, hchildren⟩ path found hfound
    cases path with
    | nil =>
      rw [get?_nil] at hfound
      exact Option.some.inj hfound ▸ hroot
    | cons i path =>
      rw [get?_cons] at hfound
      obtain ⟨child, hchild, hbelow⟩ := Option.bind_eq_some_iff.mp hfound
      exact hchildren child (List.mem_of_getElem? hchild) path found hbelow

/-- A text has no children, so all that counts is the text. -/
theorem everywhere_ofText {holds : Node → Prop} {value : String} (h : holds (ofText value)) :
    (ofText value).Everywhere holds :=
  everywhere_iff.mpr ⟨h, fun _ hchild => absurd hchild List.not_mem_nil⟩

end Node

end Graft
