import Graft.Proofs.Splice.Edits

/-!
# What outlasts all passes

Passes one after the other are substitutions one after the other. So each node
of the tree that a search is given is followed from pass to pass: a text may
give way in one of them, and everything else comes out at the end, at a place of
its own, with all that is its own but its children.

`follow` takes a path through a list of substitutions and stops where one of
them names it. `Carries` says of a list of substitutions, a tree before and one
after that every node which is not a text is followed to the end, that what is
followed to the end is there with all that is its own, and that different nodes
come to different places. It holds of no substitution at all and is kept by one
more in front; the passes of a search are the instance (`carries_applyAll`).

That nodes are kept apart needs an argument, because a substitution moves paths
by different amounts. At each level the index of a node that stays is moved by
what comes before it, and strictly so (`shift_lt`); from there it goes by
induction on the path.

Main statements:
- `Substitution.moved_inj`: what stays keeps apart;
- `Rule.tree_applyAll`: the tree that passes leave;
- `Rule.carries_applyAll`: where the nodes of the first tree stand in the last.
-/

namespace Graft

variable {σ : Type}

namespace Substitution

/-- A node that stays takes up one place itself, so what comes behind it is
moved further. -/
theorem shift_lt {f : Substitution} {index other : Nat} (hstays : f [index] = none)
    (h : index < other) :
    f.shift index < f.shift other := by
  induction other with
  | zero => exact absurd h (Nat.not_lt_zero index)
  | succ other ih =>
    rw [shift]
    rcases Nat.lt_succ_iff_lt_or_eq.mp h with hlt | rfl
    · exact Nat.lt_add_right _ (ih hlt)
    · rw [width, hstays]
      exact Nat.lt_succ_self _

/-- Nodes that stay are moved to different places. -/
theorem moved_inj {f : Substitution} {path other : Path} (hpath : f.Spares path)
    (hother : f.Spares other) (h : f.moved path = f.moved other) : path = other := by
  -- level by level: the first indices agree, as different ones would be moved apart
  induction path generalizing f other with
  | nil =>
    cases other with
    | nil => rfl
    | cons j other => exact nomatch h
  | cons i path ih =>
    cases other with
    | nil => exact nomatch h
    | cons j other =>
      obtain ⟨hshift, hbelow⟩ := List.cons.inj h
      have hindex : i = j := by
        rcases Nat.lt_trichotomy i j with hlt | heq | hlt
        · exact absurd hshift (Nat.ne_of_lt (shift_lt hpath.1 hlt))
        · exact heq
        · exact absurd hshift.symm (Nat.ne_of_lt (shift_lt hother.1 hlt))
      subst hindex
      rw [ih hpath.2 hother.2 hbelow]

/-- Where the node at a path stands after substitutions one after the other;
none once it has given way. -/
def follow : List Substitution → Path → Option Path
  | [], path => some path
  | f :: rest, path =>
    match f path with
    | some _ => none
    | none => follow rest (f.moved path)

/-- A path is followed through the first substitution and then through the
others. -/
theorem follow_cons_eq_some {f : Substitution} {rest : List Substitution} {path place : Path} :
    follow (f :: rest) path = some place ↔
      f path = none ∧ follow rest (f.moved path) = some place := by
  rw [follow]
  cases f path with
  | none => exact ⟨fun h => ⟨rfl, h⟩, And.right⟩
  | some nodes => exact ⟨nofun, fun h => nomatch h.1⟩

/-- Whether substitutions carry the nodes of one tree over to another: all but
texts are there to the end, each node that is stands at a place of its own
there, with all that is its own but its children, and a text as it was. -/
structure Carries (edits : List Substitution) (before after : Node) : Prop where
  outlasts : ∀ {path found}, before.get? path = some found → found.isText = false →
    ∃ place, follow edits path = some place
  keeps : ∀ {path found place}, before.get? path = some found → follow edits path = some place →
    ∃ left, after.get? place = some left ∧ left.bare = found.bare ∧
      (found.isText = true → left = found)
  apart : ∀ {path other place}, (before.get? path).isSome = true →
    (before.get? other).isSome = true →
    follow edits path = some place → follow edits other = some place → path = other

/-- Without a substitution everything stays where it is. -/
theorem carries_nil (tree : Node) : Carries [] tree tree where
  outlasts _ _ := ⟨_, rfl⟩
  keeps hfound hplace := by
    obtain rfl := Option.some.inj hplace
    exact ⟨_, hfound, rfl, fun _ => rfl⟩
  apart _ _ hpath hother := Option.some.inj (hpath.trans hother.symm)

end Substitution

theorem Node.isText_of_bare {a b : Node} (h : a.bare = b.bare) : a.isText = b.isText := by
  have hbare : ∀ node : Node, node.bare.isText = node.isText := by
    intro node
    cases node <;> rfl
  rw [← hbare a, ← hbare b, h]

namespace Rule

open Substitution

/-- What each pass of some rules puts where, in the tree that it is given. -/
def editsAll (ignore : Ignore) : List (Rule σ) → Node → σ → List Substitution
  | [], _, _ => []
  | rule :: rest, tree, state =>
    let first := rule.apply ignore tree state
    rule.edits ignore tree state :: editsAll ignore rest first.tree first.state

/-- The tree that passes leave is the one they were given, with the texts
replaced pass by pass. -/
theorem tree_applyAll (ignore : Ignore) (rules : List (Rule σ)) (tree : Node) (state : σ) :
    (applyAll ignore rules tree state).tree =
      (editsAll ignore rules tree state).foldl (fun current edits =>
        current.substitute edits) tree := by
  induction rules generalizing tree state with
  | nil => rfl
  | cons rule rest ih =>
    rw [tree_applyAll_cons, editsAll, List.foldl_cons, ← tree_apply, ih]

/-- What passes carry over from the tree that they are given to the one that
they leave. -/
theorem carries_applyAll (ignore : Ignore) (rules : List (Rule σ)) (tree : Node) (state : σ) :
    Carries (editsAll ignore rules tree state) tree (applyAll ignore rules tree state).tree := by
  -- a node that is not a text is named by no edit, so the first pass leaves it to the others
  induction rules generalizing tree state with
  | nil => exact carries_nil tree
  | cons rule rest ih =>
    rw [tree_applyAll_cons, editsAll]
    have hrest := ih (rule.apply ignore tree state).tree (rule.apply ignore tree state).state
    constructor
    · intro path found hfound htext
      have hstays : rule.edits ignore tree state path = none := by
        refine edits_eq_none fun hmem => ?_
        obtain ⟨-, value, info, hvalue⟩ := Node.mem_textPaths.mp hmem
        obtain rfl := Option.some.inj (hfound.symm.trans hvalue)
        exact Bool.false_ne_true htext.symm
      obtain ⟨left, hleft, hbare, -⟩ := bare_get?_apply hfound hstays
      obtain ⟨place, hplace⟩ := hrest.outlasts hleft ((Node.isText_of_bare hbare).trans htext)
      exact ⟨place, follow_cons_eq_some.mpr ⟨hstays, hplace⟩⟩
    · intro path found place hfound hplace
      obtain ⟨hstays, hplace⟩ := follow_cons_eq_some.mp hplace
      obtain ⟨moved, hmoved, hbare, htext⟩ := bare_get?_apply hfound hstays
      obtain ⟨left, hleft, hsame, hkept⟩ := hrest.keeps hmoved hplace
      refine ⟨left, hleft, hsame.trans hbare, fun h => ?_⟩
      rw [hkept ((Node.isText_of_bare hbare).trans h), htext h]
    · intro path other place hpath hother hplace hsame
      obtain ⟨found, hfound⟩ := Option.isSome_iff_exists.mp hpath
      obtain ⟨second, hsecond⟩ := Option.isSome_iff_exists.mp hother
      obtain ⟨hstays, hplace⟩ := follow_cons_eq_some.mp hplace
      obtain ⟨hremains, hsame⟩ := follow_cons_eq_some.mp hsame
      obtain ⟨left, hleft, -⟩ := bare_get?_apply hfound hstays
      obtain ⟨right, hright, -⟩ := bare_get?_apply hsecond hremains
      have hmoved := hrest.apart (Option.isSome_of_eq_some hleft) (Option.isSome_of_eq_some hright)
        hplace hsame
      exact moved_inj (spares_edits hfound hstays) (spares_edits hsecond hremains) hmoved

end Rule

end Graft
