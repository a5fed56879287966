import Graft.Proofs.Tree.Outermost

/-!
# Texts of a tree

The texts of a tree are listed in document order, each with whether one of its
ancestors passes a test by tag name; the text content of the tree
(`text_content`) is what their values make up, those of hidden texts included.

Whether a text is hidden is carried down the tree in the list, from a node to
its children, where a search collects the stack of the text and asks each
ancestor (`is_ignored`). Both come to the same (`Node.mem_texts_of_stack?`) as
long as the test goes by tag names alone, because then an ancestor passes or not
wherever it stands.

Main statements:
- `Node.textContent_eq_join`: the text content is the values of the texts, one
  after the other;
- `Node.exists_get?_of_mem_texts`: what is listed is a text of the tree;
- `Node.mem_texts_of_stack?`: a text none of whose ancestors passes the test is
  listed as such.
-/

namespace Graft

/-- A text of a tree: its value, and whether one of its ancestors passes a test. -/
structure TextLeaf where
  value : String
  hidden : Bool
  deriving DecidableEq

namespace Node

mutual

/-- The texts of a tree in document order. `hidden` says whether an ancestor of
the tree passes the test. -/
def texts (test : ElementTest) (hidden : Bool) : Node → List TextLeaf
  | .root children _ => textsAmong test hidden children
  | .element tag properties children info =>
    textsAmong test (hidden || (Shell.element tag properties info).passes test) children
  | .text value _ => [⟨value, hidden⟩]
  | .comment .. | .doctype .. => []

/-- The texts of several trees in document order. -/
def textsAmong (test : ElementTest) (hidden : Bool) : List Node → List TextLeaf
  | [] => []
  | node :: rest => node.texts test hidden ++ textsAmong test hidden rest

end

/-- The texts of siblings are listed sibling by sibling. -/
theorem textsAmong_append (test : ElementTest) (hidden : Bool) (a b : List Node) :
    textsAmong test hidden (a ++ b) = textsAmong test hidden a ++ textsAmong test hidden b := by
  induction a with
  | nil => rfl
  | cons node rest ih => rw [List.cons_append, textsAmong, ih, textsAmong, List.append_assoc]

/-- A text is listed among siblings if one of them lists it. -/
theorem mem_textsAmong {test : ElementTest} {hidden : Bool} {nodes : List Node} {leaf : TextLeaf} :
    leaf ∈ textsAmong test hidden nodes ↔ ∃ node ∈ nodes, leaf ∈ node.texts test hidden := by
  induction nodes with
  | nil => simp [textsAmong]
  | cons node rest ih => simp [textsAmong, ih]

/-- The text content of siblings is put together in their order. -/
theorem textContents_append (a b : List Node) :
    textContents (a ++ b) = textContents a ++ textContents b := by
  induction a with
  | nil => exact (String.empty_append).symm
  | cons node rest ih => rw [List.cons_append, textContents, ih, textContents, String.append_assoc]

mutual

/-- The text content of a tree is the values of its texts, one after the other. -/
theorem textContent_eq_join (test : ElementTest) (hidden : Bool) : ∀ node : Node,
    node.textContent = String.join ((node.texts test hidden).map TextLeaf.value)
  | .root children info => textContents_eq_join test hidden children
  | .element tag properties children info => textContents_eq_join test _ children
  | .text value info => by
    rw [texts, List.map_singleton, String.join_cons, String.join_nil, String.append_empty]
    rfl
  | .comment value info => rfl
  | .doctype name info => rfl

/-- The same of siblings. -/
theorem textContents_eq_join (test : ElementTest) (hidden : Bool) : ∀ nodes : List Node,
    textContents nodes = String.join ((textsAmong test hidden nodes).map TextLeaf.value)
  | [] => rfl
  | node :: rest => by
    rw [textContents, textContent_eq_join test hidden node, textContents_eq_join test hidden rest,
      textsAmong, List.map_append, String.join_append]

end

mutual

/-- Below an ancestor that passes the test, all texts have one. -/
theorem hidden_of_mem_texts {test : ElementTest} : ∀ (node : Node),
    ∀ leaf ∈ node.texts test true, leaf.hidden = true
  | .root children info => hidden_of_mem_textsAmong children
  | .element tag properties children info => by
    rw [texts, Bool.true_or]
    exact hidden_of_mem_textsAmong children
  | .text value info => fun leaf hmem => congrArg TextLeaf.hidden (List.mem_singleton.mp hmem)
  | .comment .. | .doctype .. => fun _ hmem => absurd hmem List.not_mem_nil

/-- The same of siblings. -/
theorem hidden_of_mem_textsAmong {test : ElementTest} : ∀ (nodes : List Node),
    ∀ leaf ∈ textsAmong test true nodes, leaf.hidden = true
  | [] => fun _ hmem => absurd hmem List.not_mem_nil
  | node :: rest => fun leaf hmem => (List.mem_append.mp hmem).elim
    (hidden_of_mem_texts node leaf) (hidden_of_mem_textsAmong rest leaf)

end

mutual

/-- What is listed is a text of the tree. -/
theorem exists_get?_of_mem_texts {test : ElementTest} {leaf : TextLeaf} :
    ∀ (hidden : Bool) (node : Node), leaf ∈ node.texts test hidden →
      ∃ path info, node.get? path = some (.text leaf.value info)
  | hidden, .root children info, h => by
    obtain ⟨i, path, info, hget⟩ := exists_get?_of_mem_textsAmong hidden children h
    exact ⟨i :: path, info, by rw [get?_cons]; exact hget⟩
  | hidden, .element tag properties children info, h => by
    obtain ⟨i, path, info, hget⟩ := exists_get?_of_mem_textsAmong _ children h
    exact ⟨i :: path, info, by rw [get?_cons]; exact hget⟩
  | hidden, .text value info, h => by
    obtain rfl := List.mem_singleton.mp h
    exact ⟨[], info, get?_nil _⟩
  | hidden, .comment value info, h => absurd h List.not_mem_nil
  | hidden, .doctype name info, h => absurd h List.not_mem_nil

/-- The same of siblings, where the path begins with the index of one of them. -/
theorem exists_get?_of_mem_textsAmong {test : ElementTest} {leaf : TextLeaf} :
    ∀ (hidden : Bool) (nodes : List Node), leaf ∈ textsAmong test hidden nodes →
      ∃ (i : Nat) (path : Path) (info : Info),
        nodes[i]?.bind (·.get? path) = some (.text leaf.value info)
  | hidden, [], h => absurd h List.not_mem_nil
  | hidden, node :: rest, h => by
    rcases List.mem_append.mp h with h | h
    · obtain ⟨path, info, hget⟩ := exists_get?_of_mem_texts hidden node h
      exact ⟨0, path, info, hget⟩
    · obtain ⟨i, path, info, hget⟩ := exists_get?_of_mem_textsAmong hidden rest h
      exact ⟨i + 1, path, info, hget⟩

end

/-- A node has what its children hold, hidden by the node itself if it passes
the test. -/
theorem mem_texts_of_mem_children {test : ElementTest} (htest : test.byTag = true)
    {node child : Node} (hcheck : test.check node none none = false)
    (hchild : child ∈ node.children)
    {leaf : TextLeaf} (h : leaf ∈ child.texts test false) : leaf ∈ node.texts test false := by
  cases node with
  | root children info => exact mem_textsAmong.mpr ⟨child, hchild, h⟩
  | element tag properties children info =>
    have hpasses : (Shell.element tag properties info).passes test = false :=
      ((Shell.element tag properties info).check_node htest children none none).symm.trans hcheck
    rw [texts, hpasses]
    exact mem_textsAmong.mpr ⟨child, hchild, h⟩
  | _ => exact absurd hchild List.not_mem_nil

/-- A text none of whose ancestors passes the test is listed as such. -/
theorem mem_texts_of_stack? {test : ElementTest} (htest : test.byTag = true) {node : Node}
    {path : Path} {ancestors : List Node} {value : String} {info : Info}
    (h : node.stack? path = some (ancestors ++ [.text value info]))
    (hancestors : ∀ ancestor ∈ ancestors, test.check ancestor none none = false) :
    (⟨value, false⟩ : TextLeaf) ∈ node.texts test false := by
  induction path generalizing node ancestors with
  | nil =>
    rw [stack?] at h
    rcases List.append_eq_singleton_iff.mp (Option.some.inj h).symm with ⟨-, hlast⟩ | ⟨-, hnil⟩
    · obtain rfl := (List.cons.inj hlast).1
      exact List.mem_singleton_self _
    · exact absurd hnil (List.cons_ne_nil _ _)
  | cons i path ih =>
    rw [stack?] at h
    cases hchild : node.children[i]? with
    | none => simp [hchild] at h
    | some child =>
      rw [hchild] at h
      obtain ⟨below, hbelow, hstack⟩ := Option.map_eq_some_iff.mp h
      rcases List.append_eq_cons_iff.mp hstack.symm with ⟨-, hlast⟩ | ⟨rest, rfl, rfl⟩
      · -- a text has no children
        obtain ⟨rfl, -⟩ := List.cons.inj hlast
        exact absurd hchild (by simp [children])
      · refine mem_texts_of_mem_children htest (hancestors node List.mem_cons_self)
          (List.mem_of_getElem? hchild) (ih hbelow fun ancestor hmem => ?_)
        exact hancestors ancestor (List.mem_cons_of_mem _ hmem)

/-- A text that is the whole tree has no ancestors. -/
theorem ancestors_eq_nil_of_isText {node last : Node} {path : Path} {ancestors : List Node}
    (hnode : node.isText = true) (h : node.stack? path = some (ancestors ++ [last])) :
    ancestors = [] := by
  obtain ⟨value, info, rfl⟩ := exists_of_isText hnode
  cases path with
  | nil =>
    rcases List.append_eq_singleton_iff.mp (Option.some.inj h).symm with ⟨hnil, -⟩ | ⟨-, hnil⟩
    · exact hnil
    · exact absurd hnil (List.cons_ne_nil _ _)
  | cons i path => exact absurd h (by simp [stack?, children])

end Node

end Graft
