import Graft.Proofs.Regex.Literal
import Graft.Splice.Leaf

/-!
# Splicing a leaf at a literal text

A rule that looks for a literal text and always puts the same in its place cuts
a leaf at the leftmost occurrences of the text that do not overlap, and puts its
nodes where they were. The search and the splice move through the leaf together,
but for the empty text, which leaves a character between any two of its
occurrences; that character waits in front of the place where the search goes
on.

`splice_leaf` is compared here with `Text.split`, the reference on plain texts.
A leaf is held as three parts: what has been put into nodes, what is waiting
(`pending`, no characters or one), and what lies ahead of the cursor. `Cuts`
says that the splice from there on is the split of what lies ahead, with the
waiting characters put in front of its first part. The induction is on the fuel,
and the step is the case analysis on the split: no occurrence ahead, or a first
one.

If the replacement is a rejection the splice does something else entirely: it
walks through the leaf, match by match, and keeps all of it. That case is taken
off before (`spliceFrom_of_rejects`).

Main statements:
- `Leaf.cuts`: the splice from a cursor on, with what waits in front of it;
- `Rule.spliceLeaf_literal`: the splice of a leaf, in terms of its literal
  texts.
-/

namespace Graft

variable {σ : Type}

/-- Literal texts as nodes, with other nodes between any two of them. A single
text has nothing to be put beside it and stays as it is. -/
def interleave (nodes : List Node) : List (List Char) → Option (List Node)
  | [_] => none
  | parts => some (nodes.intercalate (parts.map fragment))

/-- What takes the place of a text if a replacement is put where a literal text
occurs. -/
def Replacement.putFor (replacement : Replacement) (find text : String) : Option (List Node) :=
  replacement.toNodes.bind fun nodes => interleave nodes (Text.split find.toList text.toList)

/-- The rule that puts one replacement wherever a literal text occurs. -/
def Rule.literal (find : String) (replacement : Replacement) : Rule σ :=
  ⟨.ofLiteral find, .constant replacement⟩

/-- Nodes between the parts of a text, when there are two parts at least. -/
theorem interleave_cons (nodes : List Node) (first : List Char) {more : List (List Char)}
    (h : more ≠ []) : interleave nodes (first :: more) =
      some (fragment first ++ nodes ++ nodes.intercalate (more.map fragment)) := by
  obtain ⟨second, more, rfl⟩ := List.exists_cons_of_ne_nil h
  show some (nodes.intercalate (_ :: _ :: _)) = _
  rw [List.intercalate_cons_cons]
  rfl

/-- What is put between literal texts goes on with the last of them. -/
theorem interleave_getD (nodes : List Node) {parts : List (List Char)} {text : List Char}
    (hne : parts ≠ []) (h : ∀ last, parts = [last] → last = text) :
    (interleave nodes parts).getD (fragment text) = nodes.intercalate (parts.map fragment) := by
  obtain ⟨first, more, rfl⟩ := List.exists_cons_of_ne_nil hne
  cases more with
  | nil =>
    obtain rfl := h first rfl
    exact List.intercalate_singleton.symm
  | cons second more => rfl

/-- What comes of it is one of the nodes, or a fragment of one of the parts. -/
theorem mem_intercalate_fragment {nodes : List Node} {parts : List (List Char)} {node : Node}
    (h : node ∈ nodes.intercalate (parts.map fragment)) :
    node ∈ nodes ∨ ∃ part ∈ parts, node ∈ fragment part := by
  induction parts with
  | nil => exact absurd h List.not_mem_nil
  | cons first more ih =>
    cases more with
    | nil =>
      rw [List.map_singleton, List.intercalate_singleton] at h
      exact Or.inr ⟨first, List.mem_singleton_self first, h⟩
    | cons second more =>
      rw [List.map_cons, List.map_cons, List.intercalate_cons_cons] at h
      rcases List.mem_append.mp h with h | h
      · rcases List.mem_append.mp h with h | h
        · exact Or.inr ⟨first, List.mem_cons_self, h⟩
        · exact Or.inl h
      · rcases ih h with h | ⟨part, hpart, h⟩
        · exact Or.inl h
        · exact Or.inr ⟨part, List.mem_cons_of_mem _ hpart, h⟩

/-- Nothing is put for a text in which the literal text does not occur. -/
theorem Replacement.putFor_of_not_isInfix (replacement : Replacement) {find value : String}
    (h : ¬ find.toList <:+: value.toList) : replacement.putFor find value = none := by
  rw [putFor, Text.split_of_not_isInfix h]
  cases replacement.toNodes <;> rfl

/-- What is put for a text in which the literal text occurs. -/
theorem Replacement.putFor_of_isInfix {replacement : Replacement} {nodes : List Node}
    (hnodes : replacement.toNodes = some nodes) {find value : String}
    (h : find.toList <:+: value.toList) :
    replacement.putFor find value =
      some (nodes.intercalate ((Text.split find.toList value.toList).map fragment)) := by
  rcases Text.split_cases find.toList value.toList with ⟨hnone, -⟩ | ⟨before, after, -, -, hsplit⟩
  · exact absurd h hnone
  · have hsecond := List.exists_cons_of_ne_nil (Text.behind_ne_nil find.toList after)
    obtain ⟨second, more, hbehind⟩ := hsecond
    rw [putFor, hnodes, hsplit, hbehind]
    rfl

namespace Splice.Leaf

/-- If every match is rejected, the leaf stays as it is. -/
theorem spliceFrom_of_rejects {leaf : Leaf σ}
    (h : ∀ found state, leaf.answer found state = (none, state)) (fuel cursor start : Nat)
    (state : σ) : leaf.spliceFrom fuel cursor start state = (none, state) := by
  -- each turn rejects and goes on behind the match; nothing is ever put into nodes
  induction fuel generalizing cursor with
  | zero => rfl
  | succ fuel ih =>
    rw [spliceFrom]
    split
    next => rfl
    next =>
      cases leaf.find cursor with
      | none => rfl
      | some found =>
        dsimp only
        rw [h]
        dsimp only
        split
        next => exact ih _
        next => rfl

/-- An accepted match of a global pattern is put between the literal text before
it and what the splice gives behind it. -/
theorem spliceFrom_accepted (leaf : Leaf σ) (fuel start : Nat) {cursor : Nat} {found : Match}
    {nodes : List Node} {state next : σ} (hcursor : cursor ≤ Text.byteLength leaf.text)
    (hfind : leaf.find cursor = some found) (hanswer : leaf.answer found state = (some nodes, next))
    (hglobal : leaf.global = true) :
    leaf.spliceFrom (fuel + 1) cursor start state =
      let rest := leaf.spliceFrom fuel (leaf.cursorAfter found.span) found.span.stop next
      (some (fragment (Text.between leaf.text start found.span.start) ++ nodes ++
        rest.1.getD (fragment (Text.dropBytes found.span.stop leaf.text))), rest.2) := by
  rw [spliceFrom, if_neg (Nat.not_lt.mpr hcursor), hfind]
  dsimp only
  rw [hanswer]
  dsimp only
  rw [if_pos hglobal]

/-- A leaf in which a literal text is looked for, with one answer to every match. -/
def literal (needle : List Char) (nodes : List Node) (text : List Char) : Leaf σ :=
  ⟨text, (Regex.ofExpr (.ofText needle) []).findFrom text, true, fun _ state => (some nodes, state)⟩

@[simp] theorem text_literal (needle : List Char) (nodes : List Node) (text : List Char) :
    (literal needle nodes text : Leaf σ).text = text := rfl

/-- Where a leaf has been searched to the end of a first part, its cursor is
there, and behind an occurrence of the empty text one character on. -/
theorem cursorAfter_literal (needle : List Char) (nodes : List Node) (front after : List Char) :
    let leaf : Leaf σ := literal needle nodes (front ++ (needle ++ after))
    leaf.cursorAfter ⟨Text.byteLength front, Text.byteLength (front ++ needle)⟩ =
      if needle.isEmpty then
        match after with
        | c :: _ => Text.byteLength (front ++ [c])
        | [] => Text.byteLength front + 1
      else Text.byteLength (front ++ needle) := by
  intro leaf
  rw [cursorAfter, Text.byteLength_append]
  dsimp only
  -- behind an empty occurrence the cursor passes one character, if there is one
  cases needle with
  | nil =>
    rw [if_neg (by simp), stepFrom]
    show (match Text.dropBytes (Text.byteLength front) (front ++ after) with
      | c :: _ => _
      | [] => _) = _
    rw [Text.dropBytes_append]
    cases after with
    | nil => rfl
    | cons c rest => exact (Text.byteLength_append front [c]).symm
  | cons c rest =>
    have := c.utf8Size_pos
    rw [if_pos (by rw [Text.byteLength_cons]; omega)]
    rfl

/-- Whether splices with this fuel cut what follows the cursor at the
occurrences of the literal text. What lies between the end of the last
occurrence and the cursor joins the first part. -/
def Cuts (needle : List Char) (nodes : List Node) (state : σ) (fuel : Nat) : Prop :=
  ∀ front pending back : List Char, back.length < fuel →
    (literal needle nodes (front ++ (pending ++ back))).spliceFrom fuel
        (Text.byteLength (front ++ pending)) (Text.byteLength front) state =
      (interleave nodes ((Text.split needle back).modifyHead (pending ++ ·)), state)

/-- Behind an occurrence, the splice goes on with the text that follows it. -/
theorem Cuts.behind {needle : List Char} {nodes : List Node} {state : σ} {fuel : Nat}
    (h : Cuts needle nodes state fuel) (done after : List Char)
    (hfuel : (needle ++ after).length < fuel + 1) :
    let leaf : Leaf σ := literal needle nodes (done ++ (needle ++ after))
    let stop := Text.byteLength (done ++ needle)
    leaf.spliceFrom fuel (leaf.cursorAfter ⟨Text.byteLength done, stop⟩) stop state =
      (interleave nodes (Text.behind needle after), state) := by
  intro leaf stop
  have hcursor : leaf.cursorAfter ⟨Text.byteLength done, stop⟩ = _ :=
    cursorAfter_literal needle nodes done after
  rw [hcursor]
  cases needle with
  | nil =>
    have hstop : stop = Text.byteLength done := congrArg Text.byteLength (List.append_nil done)
    rw [hstop]
    cases after with
    | nil =>
      refine leaf.spliceFrom_beyond fuel _ state ?_
      show Text.byteLength (done ++ []) < _
      rw [List.append_nil]
      exact Nat.lt_succ_self _
    | cons c rest =>
      -- the character waits until the next occurrence is found
      exact h done [c] rest (Nat.lt_of_succ_lt_succ hfuel)
  | cons first tail =>
    have hshorter : after.length < fuel := by
      rw [List.length_append, List.length_cons] at hfuel
      omega
    have hleaf : leaf = literal (first :: tail) nodes (done ++ (first :: tail) ++ ([] ++ after)) :=
      congrArg (literal (first :: tail) nodes) (List.append_assoc _ _ _).symm
    have hbehind := h (done ++ (first :: tail)) [] after hshorter
    rw [List.append_nil] at hbehind
    rw [Text.modifyHead_nil_append] at hbehind
    rw [Text.behind_of_ne_nil (List.cons_ne_nil first tail), hleaf]
    exact hbehind

/-- A splice cuts what follows the cursor at the occurrences of the literal text. -/
theorem cuts (needle : List Char) (nodes : List Node) (state : σ) (fuel : Nat) :
    Cuts needle nodes state fuel := by
  induction fuel with
  | zero => intro front pending back h; exact absurd h (Nat.not_lt_zero _)
  | succ fuel ih =>
    intro front pending back hfuel
    rw [← List.append_assoc]
    -- no occurrence ahead ends the splice; a first one is cut out, and the rest is shorter
    rcases Text.split_cases needle back with ⟨hnone, hsplit⟩ | ⟨before, after, rfl, hfirst, hsplit⟩
    · have hfind := Regex.findFrom_of_not_isInfix (front ++ pending) hnone
      rw [hsplit]
      exact (literal needle nodes _).spliceFrom_noMatch (fuel + 1) _ state hfind
    · -- the literal text before the occurrence is what has been waiting and what the search
      -- passed over
      have hfind := Regex.findFrom_of_isFirst (front ++ pending) hfirst
      have hcursor : Text.byteLength (front ++ pending) ≤
          Text.byteLength (front ++ pending ++ (before ++ (needle ++ after))) := by
        rw [Text.byteLength_append (front ++ pending)]
        omega
      have hfewer : (needle ++ after).length < fuel + 1 := by
        rw [List.length_append] at hfuel
        omega
      have hbehind := ih.behind (front ++ pending ++ before) after hfewer
      have hbefore : Text.between (front ++ pending ++ (before ++ (needle ++ after)))
          (Text.byteLength front) (Text.byteLength (front ++ pending ++ before)) =
            pending ++ before := by
        have h := Text.between_append front (pending ++ before) (needle ++ after)
        simpa only [Text.byteLength_append, List.append_assoc, Nat.add_assoc] using h
      have hafter : Text.dropBytes (Text.byteLength (front ++ pending ++ before ++ needle))
          (front ++ pending ++ (before ++ (needle ++ after))) = after := by
        have h := Text.dropBytes_append (front ++ pending ++ before ++ needle) after
        simpa only [List.append_assoc] using h
      rw [List.append_assoc (front ++ pending) before] at hbehind
      refine ((literal needle nodes _).spliceFrom_accepted fuel _ hcursor hfind rfl rfl).trans ?_
      dsimp only
      rw [hbehind, text_literal, hbefore, hafter, hsplit, List.modifyHead_cons,
        interleave_cons nodes _ (Text.behind_ne_nil needle after),
        ← interleave_getD nodes (Text.behind_ne_nil needle after)
          fun _ => Text.eq_of_behind_eq_singleton]

end Splice.Leaf

namespace Rule

/-- The leaf of a literal rule. -/
theorem leaf_literal (find : String) {replacement : Replacement} {nodes : List Node}
    (h : replacement.toNodes = some nodes) (text : List Char) (stack : List Node) :
    (literal find replacement : Rule σ).leaf text stack = .literal find.toList nodes text := by
  have hanswer : ((literal find replacement : Rule σ).leaf text stack).answer =
      fun _ state => (some nodes, state) := by
    rw [← h]
    rfl
  show (⟨_, _, _, ((literal find replacement : Rule σ).leaf text stack).answer⟩ : Splice.Leaf σ) = _
  rw [hanswer]
  rfl

/-- A leaf is cut where a literal text occurs, and a rule's replacement is put
there. The replacer's state stays as it is. -/
theorem spliceLeaf_literal (find : String) (replacement : Replacement) (value : String)
    (stack : List Node) (state : σ) :
    (literal find replacement).spliceLeaf value stack state =
      (replacement.putFor find value, state) := by
  -- a rejection is not a cut
  cases hnodes : replacement.toNodes with
  | none =>
    have hrejects : ∀ found (state : σ),
        ((literal find replacement).leaf value.toList stack).answer found state =
          (none, state) := by
      intro found state
      show (replacement.toNodes, state) = _
      rw [hnodes]
    rw [spliceLeaf, Splice.Leaf.splice, Splice.Leaf.spliceFrom_of_rejects hrejects,
      Replacement.putFor, hnodes]
    rfl
  | some nodes =>
    have hsplice := Splice.Leaf.cuts find.toList nodes state (value.toList.length + 1) [] []
      value.toList (Nat.lt_succ_self _)
    rw [spliceLeaf, leaf_literal find hnodes, Replacement.putFor, hnodes]
    rw [Text.modifyHead_nil_append] at hsplice
    exact hsplice

end Rule

end Graft
