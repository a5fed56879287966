import Graft.Proofs.Tree.Way
import Graft.Tree.Walk

/-!
# Walks that edit

An editor is a visitor that leaves the tree alone or replaces the node it is
shown by others, and then has the walk go on behind them (`resume_at` with the
index behind the last of them). A walk works on the whole tree by paths and
indexes that shift with every replacement; the same result is given here by a
recursion over the tree as it was, in which every node is met once, below
ancestors that are finished to the left and untouched to the right.

The recursion follows the constructors: `Editor.below` goes through the children
of a node, `Editor.siblings` through a list of children that is still ahead, and
both take the way along, so that a decision may look at the ancestors as they
stand. That the walk keeps in step is one statement for each of the two. On the
siblings it says: with fuel enough for what lies ahead, the walk from here
reaches the place behind the last sibling, with the left side of the level
replaced by what the recursion gives, or it stops inside and the tree is what
the recursion has put together so far. The fuel is counted in nodes that are
entered and left, two for each, so what is left over is known exactly.

Main statements:
- `Editor.walkFrom_siblings`, `Editor.walkFrom_below`: the walk over some
  siblings, and below a node, keeps in step with the recursion;
- `Editor.walk_eq_run`: a walk ends, with twice as much fuel as the tree has
  nodes or more, and does what the recursion does.
-/

namespace Graft

variable {σ : Type}

/-- What is done about a node. It is kept and walked into, or kept while what
lies below is passed by, or the walk ends there, or other nodes take its place,
which then are passed by. -/
inductive Decision where
  | descend
  | skip
  | stop
  | replace (nodes : List Node)

/-- A visitor that changes no more than the node it is shown. It decides about
the nodes it accepts, each at a path of the tree, and the others are walked
into. -/
structure Editor (σ : Type) where
  accepts : Node → Bool
  decide : σ → Node → Path → Decision × σ

/-- What an editor made of a node or of some siblings, the state after its last
decision, and whether all of them were gone through. -/
structure Edited (α σ : Type) where
  content : α
  state : σ
  finished : Bool

namespace Editor

/-- Carries a decision about the node at a path out. The root has no siblings to
be replaced among. -/
def carryOut (tree : Node) (path : Path) : Decision × σ → Visited σ
  | (.descend, state) => ⟨some .descend, tree, state⟩
  | (.skip, state) => ⟨some .skip, tree, state⟩
  | (.stop, state) => ⟨none, tree, state⟩
  | (.replace nodes, state) =>
    match path.getLast? with
    | none => ⟨some .descend, tree, state⟩
    | some index =>
      ⟨some (.resume (index + nodes.length)),
        tree.modifyAt (·.spliceChildren index 1 nodes) path.dropLast, state⟩

/-- The visitor that carries the decisions out. -/
def visitor (editor : Editor σ) : Visitor σ where
  accepts := editor.accepts
  visit state tree path := carryOut tree path (editor.decide state tree path)

/-- The decision about a node at the end of a way. -/
def meet (editor : Editor σ) (way : Way) (node : Node) (state : σ) : Decision × σ :=
  if editor.accepts node then editor.decide state (way.plug node) way.path else (.descend, state)

mutual

/-- Edits what lies below a node at the end of a way. -/
def below (editor : Editor σ) (way : Way) : Node → σ → Edited Node σ
  | .root children info, state =>
    let edited := editor.siblings way (.root info) [] children state
    ⟨.root edited.content info, edited.state, edited.finished⟩
  | .element tag properties children info, state =>
    let edited := editor.siblings way (.element tag properties info) [] children state
    ⟨.element tag properties edited.content info, edited.state, edited.finished⟩
  | .text value info, state => ⟨.text value info, state, true⟩
  | .comment value info, state => ⟨.comment value info, state, true⟩
  | .doctype name info, state => ⟨.doctype name info, state, true⟩

/-- Edits children of a node at the end of a way, behind those that are done. -/
def siblings (editor : Editor σ) (way : Way) (shell : Shell) (done : List Node) :
    List Node → σ → Edited (List Node) σ
  | [], state => ⟨[], state, true⟩
  | child :: rest, state =>
    match editor.meet (⟨shell, done, rest⟩ :: way) child state with
    | (.descend, state) =>
      let inner := editor.below (⟨shell, done, rest⟩ :: way) child state
      if inner.finished then
        let outer := editor.siblings way shell (done ++ [inner.content]) rest inner.state
        ⟨inner.content :: outer.content, outer.state, outer.finished⟩
      else ⟨inner.content :: rest, inner.state, false⟩
    | (.skip, state) =>
      let outer := editor.siblings way shell (done ++ [child]) rest state
      ⟨child :: outer.content, outer.state, outer.finished⟩
    | (.stop, state) => ⟨child :: rest, state, false⟩
    | (.replace nodes, state) =>
      let outer := editor.siblings way shell (done ++ nodes) rest state
      ⟨nodes ++ outer.content, outer.state, outer.finished⟩

end

/-- Edits a whole tree. The root is kept whatever is decided about it. -/
def run (editor : Editor σ) (tree : Node) (state : σ) : Walked σ :=
  match editor.meet [] tree state with
  | (.skip, state) => ⟨.completed, tree, state⟩
  | (.stop, state) => ⟨.stopped, tree, state⟩
  | (.descend, state) | (.replace _, state) =>
    let edited := editor.below [] tree state
    ⟨if edited.finished then .completed else .stopped, edited.content, edited.state⟩

/-- The walk goes on at an index among the children at the end of a way, unless
it has ended. -/
def onward (editor : Editor σ) (fuel : Nat) (way : Way) (index : Nat) (tree : Node) (state : σ)
    (finished : Bool) : Walked σ :=
  if finished then walkFrom editor.visitor fuel tree index way.indexes state
  else ⟨.stopped, tree, state⟩

/-- A node at the end of a way is met by carrying out the decision about it. -/
theorem meet_visitor (editor : Editor σ) (way : Way) (node : Node) (state : σ) :
    editor.visitor.meet (way.plug node) way.path state =
      carryOut (way.plug node) way.path (editor.meet way node state) := by
  rw [Visitor.meet, Way.get?_path, meet]
  by_cases h : editor.accepts node = true
  · rw [if_pos h]
    exact if_pos h
  · rw [if_neg h]
    exact if_neg h

/-- One step of the walk carries out the decision about a child at the end of a
way. -/
theorem walkFrom_meet (editor : Editor σ) (fuel : Nat) (level : Level) (up : Way) (child : Node)
    (state : σ) :
    walkFrom editor.visitor (fuel + 1) (up.plug (level.fill child)) level.index up.indexes state =
      match editor.meet (level :: up) child state with
      | (.descend, state) =>
        walkFrom editor.visitor fuel (up.plug (level.fill child)) 0
          (level.index :: up.indexes) state
      | (.skip, state) =>
        walkFrom editor.visitor fuel (up.plug (level.fill child)) (level.index + 1) up.indexes state
      | (.stop, state) => ⟨.stopped, up.plug (level.fill child), state⟩
      | (.replace nodes, state) =>
        walkFrom editor.visitor fuel
          (up.plug (level.shell.node (level.left ++ nodes ++ level.right)))
          (level.index + nodes.length) up.indexes state := by
  have hlt : level.index < (up.plug (level.fill child)).childCount up.indexes.reverse := by
    rw [← Way.path, Way.childCount_plug, Level.children_fill, Level.index, List.length_append,
      List.length_cons]
    omega
  have hmeet := editor.meet_visitor (level :: up) child state
  rw [Way.plug] at hmeet
  have hpath : (level.index :: up.indexes).reverse = Way.path (level :: up) := rfl
  rw [walkFrom_enter _ _ _ hlt, hpath, hmeet]
  obtain ⟨decision, state⟩ := editor.meet (level :: up) child state
  cases decision with
  | descend => rfl
  | skip => rfl
  | stop => rfl
  | replace nodes =>
    simp only [carryOut, Way.getLast?_path, Way.dropLast_path, Way.spliceChildren_plug]

/-- Beyond the last child of a node, the walk goes on behind the node. -/
theorem walkFrom_done (editor : Editor σ) (fuel : Nat) (level : Level) (up : Way) (node : Node)
    (state : σ) :
    walkFrom editor.visitor (fuel + 1) (up.plug (level.fill node)) node.children.length
        (level.index :: up.indexes) state =
      walkFrom editor.visitor fuel (up.plug (level.fill node)) (level.index + 1) up.indexes
        state := by
  refine walkFrom_leave editor.visitor fuel state (Nat.le_of_eq ?_)
  exact Way.childCount_plug (level :: up) node

/-- If the walk over the children of a node keeps in step, so does the walk
below the node. -/
theorem walkFrom_shell (editor : Editor σ) (level : Level) (up : Way) (shell : Shell)
    {children : List Node} {state : σ} {edited : Edited (List Node) σ} {bound : Nat}
    (h : ∃ spent ≤ bound, ∀ fuel,
      walkFrom editor.visitor (fuel + spent) (up.plug (level.fill (shell.node children))) 0
          (level.index :: up.indexes) state =
        editor.onward fuel (level :: up) edited.content.length
          (up.plug (level.fill (shell.node edited.content))) edited.state edited.finished) :
    ∃ spent ≤ bound + 1, ∀ fuel,
      walkFrom editor.visitor (fuel + spent) (up.plug (level.fill (shell.node children))) 0
          (level.index :: up.indexes) state =
        editor.onward fuel up (level.index + 1)
          (up.plug (level.fill (shell.node edited.content))) edited.state edited.finished := by
  obtain ⟨spent, hle, hwalk⟩ := h
  refine ⟨spent + 1, by omega, fun fuel => ?_⟩
  rw [show fuel + (spent + 1) = fuel + 1 + spent by omega, hwalk, onward, onward]
  cases edited.finished with
  | false => rfl
  | true =>
    have hdone := editor.walkFrom_done fuel level up (shell.node edited.content) edited.state
    rw [Shell.children_node] at hdone
    exact hdone

mutual

/-- The walk below a node keeps in step with the recursion: with some fuel, it
is where it should be when the node has been gone through, or has ended. -/
theorem walkFrom_below (editor : Editor σ) (level : Level) (up : Way) : ∀ (node : Node) (state : σ),
    ∃ spent ≤ 2 * node.size - 1, ∀ fuel,
      walkFrom editor.visitor (fuel + spent) (up.plug (level.fill node)) 0
          (level.index :: up.indexes) state =
        editor.onward fuel up (level.index + 1)
          (up.plug (level.fill (editor.below (level :: up) node state).content))
          (editor.below (level :: up) node state).state
          (editor.below (level :: up) node state).finished
  | .root children info, state => by
    rw [Node.size, below]
    exact editor.walkFrom_shell level up (.root info)
      (editor.walkFrom_siblings (level :: up) (.root info) [] children state)
  | .element tag properties children info, state => by
    rw [Node.size, below]
    exact editor.walkFrom_shell level up (.element tag properties info)
      (editor.walkFrom_siblings (level :: up) (.element tag properties info) [] children state)
  | .text value info, state =>
    ⟨1, Nat.le_refl 1, fun fuel => editor.walkFrom_done fuel level up (.text value info) state⟩
  | .comment value info, state =>
    ⟨1, Nat.le_refl 1, fun fuel => editor.walkFrom_done fuel level up (.comment value info) state⟩
  | .doctype name info, state =>
    ⟨1, Nat.le_refl 1, fun fuel => editor.walkFrom_done fuel level up (.doctype name info) state⟩

/-- The walk over some siblings keeps in step with the recursion. -/
theorem walkFrom_siblings (editor : Editor σ) (way : Way) (shell : Shell) (done : List Node) :
    ∀ (rest : List Node) (state : σ),
    ∃ spent ≤ 2 * Node.sizes rest, ∀ fuel,
      walkFrom editor.visitor (fuel + spent) (way.plug (shell.node (done ++ rest))) done.length
          way.indexes state =
        editor.onward fuel way
          (done ++ (editor.siblings way shell done rest state).content).length
          (way.plug (shell.node (done ++ (editor.siblings way shell done rest state).content)))
          (editor.siblings way shell done rest state).state
          (editor.siblings way shell done rest state).finished
  | [], state => by
    refine ⟨0, Nat.zero_le _, fun fuel => ?_⟩
    rw [siblings, List.append_nil]
    rfl
  | child :: rest, state => by
    have hstep := fun fuel => editor.walkFrom_meet fuel ⟨shell, done, rest⟩ way child state
    have hsize := child.size_pos
    rw [Node.sizes, siblings]
    generalize editor.meet (⟨shell, done, rest⟩ :: way) child state = decided at hstep ⊢
    obtain ⟨decision, state⟩ := decided
    cases decision with
    | descend =>
      obtain ⟨inner, hinner, hbelow⟩ := editor.walkFrom_below ⟨shell, done, rest⟩ way child state
      dsimp only at hstep ⊢
      generalize editor.below (⟨shell, done, rest⟩ :: way) child state = edited at hbelow ⊢
      cases hfin : edited.finished with
      | false =>
        -- the visitor has ended the walk below the child, and `rest` is never reached
        refine ⟨inner + 1, by omega, fun fuel => ?_⟩
        rw [← Nat.add_assoc]
        refine (hstep _).trans ((hbelow fuel).trans ?_)
        rw [hfin]
        rfl
      | true =>
        -- one unit for the child, `inner` below it and back up, and `outer` for its next siblings
        obtain ⟨outer, houter, hrest⟩ :=
          editor.walkFrom_siblings way shell (done ++ [edited.content]) rest edited.state
        refine ⟨outer + inner + 1, by omega, fun fuel => ?_⟩
        rw [← Nat.add_assoc, ← Nat.add_assoc]
        refine (hstep _).trans ((hbelow _).trans ?_)
        rw [hfin, onward, if_pos rfl]
        have h := hrest fuel
        simp only [List.append_assoc, List.singleton_append, List.length_append,
          List.length_singleton] at h
        simp only [if_true, List.length_append]
        exact h
    | skip =>
      obtain ⟨spent, hle, hrest⟩ := editor.walkFrom_siblings way shell (done ++ [child]) rest state
      refine ⟨spent + 1, by omega, fun fuel => ?_⟩
      rw [← Nat.add_assoc]
      refine (hstep _).trans ?_
      have h := hrest fuel
      simp only [List.append_assoc, List.singleton_append, List.length_append,
        List.length_singleton] at h
      simp only [List.length_append]
      exact h
    | stop =>
      refine ⟨1, by omega, fun fuel => ?_⟩
      exact hstep _
    | replace nodes =>
      -- the walk resumes behind `nodes`, so they cost no fuel, however many they are
      obtain ⟨spent, hle, hrest⟩ := editor.walkFrom_siblings way shell (done ++ nodes) rest state
      refine ⟨spent + 1, by omega, fun fuel => ?_⟩
      rw [← Nat.add_assoc]
      refine (hstep _).trans ?_
      have h := hrest fuel
      simp only [List.append_assoc, List.length_append] at h
      simp only [List.append_assoc, List.length_append]
      exact h

end

/-- With fuel enough for the nodes, the walk below the root does what the
recursion does. -/
theorem walkFrom_root (editor : Editor σ) {fuel : Nat} (tree : Node) (state : σ)
    (h : 2 * tree.size ≤ fuel) :
    walkFrom editor.visitor fuel tree 0 [] state =
      ⟨if (editor.below [] tree state).finished then .completed else .stopped,
        (editor.below [] tree state).content, (editor.below [] tree state).state⟩ := by
  have hshell : ∀ (shell : Shell) (children : List Node), 2 * Node.sizes children + 2 ≤ fuel →
      walkFrom editor.visitor fuel (shell.node children) 0 [] state =
        ⟨if (editor.siblings [] shell [] children state).finished then .completed else .stopped,
          shell.node (editor.siblings [] shell [] children state).content,
          (editor.siblings [] shell [] children state).state⟩ := by
    intro shell children hle
    obtain ⟨spent, hspent, hwalk⟩ := editor.walkFrom_siblings [] shell [] children state
    -- of the two units for the root, one is left to find that no child follows
    obtain ⟨rest, rfl⟩ : ∃ rest, fuel = rest + 1 + spent := ⟨fuel - 1 - spent, by omega⟩
    refine (hwalk (rest + 1)).trans ?_
    rw [onward]
    cases (editor.siblings [] shell [] children state).finished with
    | false => rfl
    | true =>
      refine walkFrom_end editor.visitor rest _ (Nat.le_of_eq ?_)
      exact (Way.childCount_plug [] _).trans (congrArg List.length (shell.children_node _))
  have hleaf : ∀ node : Node, node.children = [] →
      walkFrom editor.visitor fuel node 0 [] state = ⟨.completed, node, state⟩ := by
    intro node hnode
    obtain ⟨rest, rfl⟩ : ∃ rest, fuel = rest + 1 := ⟨fuel - 1, by have := tree.size_pos; omega⟩
    refine walkFrom_end editor.visitor rest state (Nat.le_of_eq ?_)
    exact (Way.childCount_plug [] node).trans (congrArg List.length hnode)
  cases tree with
  | root children info => exact hshell (.root info) children h
  | element tag properties children info => exact hshell (.element tag properties info) children h
  | text value info => exact hleaf _ rfl
  | comment value info => exact hleaf _ rfl
  | doctype name info => exact hleaf _ rfl

/-- A walk with fuel enough for the nodes ends, and does what the recursion does. -/
theorem walk_eq_run (editor : Editor σ) {fuel : Nat} (tree : Node) (state : σ)
    (h : 2 * tree.size ≤ fuel) : walk editor.visitor fuel tree state = editor.run tree state := by
  have hmeet := editor.meet_visitor [] tree state
  rw [Way.plug, Way.path_nil] at hmeet
  rw [walk, hmeet, run]
  obtain ⟨decision, state⟩ := editor.meet [] tree state
  cases decision with
  | descend => exact editor.walkFrom_root tree state h
  | skip => rfl
  | stop => rfl
  | replace nodes => exact editor.walkFrom_root tree state h

end Editor

end Graft
