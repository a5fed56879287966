import Graft.Proofs.Text.Part
import Graft.Splice.Leaf

/-!
# Scans of a leaf

A scan of a leaf is the list of the matches that are looked at, each with its
answer. It is told here as a relation, one rule for each way that the search
goes on, without a bound on the number of matches. Every leaf has a scan, no
longer than the text has places, and what is put in the leaf's place is computed
from it.

The program does both at once (`next_match`, `accept` and `reject` inside
`splice_leaf`), with a cursor that some answers move by a character
(`step_from`). Here the two concerns are separate. `Scan` is the search: from a
cursor, with a state, to the list of matches and answers and the state at the
end. `assemble` is the splice: from the start of the text that is kept to the
nodes. The fuel of the definition occurs in one lemma only
(`Scan.spliceFrom_eq`), and the existence of a scan within that fuel in another
(`exists_scan`).

That a scan exists is a matter of places. Each answer leaves fewer places behind
the cursor (`hasPlaces_cursorBehind`), since an accepted match that is empty and
every rejected match take the cursor over one character, and a cursor behind the
end has none left. That the text comes in pieces is an induction on the scan, in
which the cursor and the start of the kept text both stand at cuts of the text
and the start is never behind the cursor.

Main statements:
- `Leaf.exists_scan`: a leaf whose matches are parts of its text has a scan;
- `Leaf.Scan.spliceFrom_eq`: with fuel for it, the splice gives what its scan
  amounts to;
- `Leaf.Scan.starts_increasing`: the matches are looked at from left to right;
- `Leaf.Scan.inPieces`: the text is cut into accepted matches and the literal
  text around them.
-/

namespace Graft

variable {σ : Type}

namespace Splice

/-- A match with its answer: the nodes that take its place, or none if it is
rejected. -/
abbrev Answered := Match × Option (List Node)

/-- What answers amount to from an offset on: the accepted matches are replaced,
and all else is kept. `none` if no match is accepted. -/
def assemble (text : List Char) (start : Nat) : List Answered → Option (List Node)
  | [] => none
  | (_, none) :: rest => assemble text start rest
  | (found, some nodes) :: rest =>
    some (fragment (Text.between text start found.span.start) ++ nodes ++
      (assemble text found.span.stop rest).getD (fragment (Text.dropBytes found.span.stop text)))

/-- The leaf stays exactly if no match has been accepted. -/
theorem assemble_eq_none_iff (text : List Char) (start : Nat) (answered : List Answered) :
    assemble text start answered = none ↔ ∀ given ∈ answered, given.2 = none := by
  induction answered with
  | nil => simp [assemble]
  | cons given rest ih =>
    obtain ⟨found, answer⟩ := given
    cases answer with
    | none => simp [assemble, ih]
    | some nodes => simp [assemble]

/-- What answers amount to is made of texts that are not empty and of the nodes
of the answers. -/
theorem mem_assemble {text : List Char} {start : Nat} {answered : List Answered}
    {nodes : List Node} (h : assemble text start answered = some nodes) {node : Node}
    (hmem : node ∈ nodes) :
    (∃ literal, literal ≠ [] ∧ node = Node.ofText (String.ofList literal)) ∨
      ∃ given ∈ answered, ∃ put, given.2 = some put ∧ node ∈ put := by
  have hfragment : ∀ {literal : List Char}, node ∈ fragment literal →
      ∃ literal, literal ≠ [] ∧ node = Node.ofText (String.ofList literal) := by
    intro literal hmem
    rw [fragment] at hmem
    split at hmem
    next => exact absurd hmem List.not_mem_nil
    next hempty => exact ⟨literal, by simpa using hempty, List.mem_singleton.mp hmem⟩
  -- a rejected match adds nothing; an accepted one adds a fragment and its nodes in front of the
  -- rest
  induction answered generalizing start nodes with
  | nil => exact absurd h (by simp [assemble])
  | cons given rest ih =>
    obtain ⟨found, answer⟩ := given
    have hrest : ∀ {start more}, assemble text start rest = some more → node ∈ more →
        (∃ literal, literal ≠ [] ∧ node = Node.ofText (String.ofList literal)) ∨
          ∃ given ∈ (found, answer) :: rest, ∃ put, given.2 = some put ∧ node ∈ put := by
      intro start more hmore hmem
      rcases ih hmore hmem with hliteral | ⟨given, hgiven, hput⟩
      · exact Or.inl hliteral
      · exact Or.inr ⟨given, List.mem_cons_of_mem _ hgiven, hput⟩
    cases answer with
    | none => exact hrest h hmem
    | some put =>
      rw [assemble] at h
      obtain rfl := Option.some.inj h
      rcases List.mem_append.mp hmem with hmem | hmem
      · rcases List.mem_append.mp hmem with hbefore | hput
        · exact Or.inl (hfragment hbefore)
        · exact Or.inr ⟨_, List.mem_cons_self, put, rfl, hput⟩
      · cases hmore : assemble text found.span.stop rest with
        | none =>
          rw [hmore] at hmem
          exact Or.inl (hfragment hmem)
        | some more =>
          rw [hmore] at hmem
          exact hrest hmore hmem

/-- An accepted match: where it starts, its text, and the nodes that take its
place. -/
structure Replaced where
  offset : Nat
  matched : List Char
  nodes : List Node

/-- The accepted match that an answer stands for, if it is accepted. -/
def replaced? (text : List Char) (given : Answered) : Option Replaced :=
  given.2.map fun nodes => ⟨given.1.span.start, given.1.span.text text, nodes⟩

/-- A part of a leaf: literal text, and an accepted match behind it. -/
structure Piece where
  before : List Char
  matched : List Char
  nodes : List Node

namespace Piece

def text (piece : Piece) : List Char := piece.before ++ piece.matched

/-- The nodes that a piece leads to. -/
def output (piece : Piece) : List Node := fragment piece.before ++ piece.nodes

/-- The accepted matches of pieces that follow one another, from an offset on. -/
def replaced (offset : Nat) : List Piece → List Replaced
  | [] => []
  | piece :: rest =>
    ⟨offset + Text.byteLength piece.before, piece.matched, piece.nodes⟩ ::
      replaced (offset + Text.byteLength piece.text) rest

end Piece

namespace Leaf

/-- Where the search goes on after an answer. -/
def cursorBehind (leaf : Leaf σ) (span : Span) : Option (List Node) → Nat
  | none => leaf.stepFrom span.start
  | some _ => leaf.cursorAfter span

/-- The scan of a leaf from a cursor on, with the states before and after it. -/
inductive Scan (leaf : Leaf σ) : Nat → σ → List Answered → σ → Prop
  /-- The search has left the text, or finds nothing more. -/
  | done {cursor : Nat} {state : σ}
      (h : Text.byteLength leaf.text < cursor ∨ leaf.find cursor = none) :
      Scan leaf cursor state [] state
  /-- The only match that counts. -/
  | once {cursor : Nat} {state after : σ} {found : Match} {answer : Option (List Node)}
      (hcursor : cursor ≤ Text.byteLength leaf.text) (hfind : leaf.find cursor = some found)
      (hanswer : leaf.answer found state = (answer, after)) (hglobal : leaf.global = false) :
      Scan leaf cursor state [(found, answer)] after
  /-- One of the matches that count. -/
  | more {cursor : Nat} {state next after : σ} {found : Match} {answer : Option (List Node)}
      {rest : List Answered}
      (hcursor : cursor ≤ Text.byteLength leaf.text) (hfind : leaf.find cursor = some found)
      (hanswer : leaf.answer found state = (answer, next)) (hglobal : leaf.global = true)
      (hrest : Scan leaf (leaf.cursorBehind found.span answer) next rest after) :
      Scan leaf cursor state ((found, answer) :: rest) after

/-- With fuel for the scan, the splice gives what the scan amounts to. -/
theorem Scan.spliceFrom_eq {leaf : Leaf σ} {cursor : Nat} {state after : σ}
    {answered : List Answered} (h : leaf.Scan cursor state answered after) :
    ∀ {fuel : Nat} (start : Nat), answered.length ≤ fuel →
      leaf.spliceFrom fuel cursor start state = (assemble leaf.text start answered, after) := by
  -- one unit of fuel for each match, and the splice after it is that of the rest of the scan
  induction h with
  | done h =>
    intro fuel start _
    rcases h with h | h
    · exact leaf.spliceFrom_beyond fuel start _ h
    · exact leaf.spliceFrom_noMatch fuel start _ h
  | once hcursor hfind hanswer hglobal =>
    intro fuel start hfuel
    obtain ⟨fuel, rfl⟩ : ∃ n, fuel = n + 1 := ⟨fuel - 1, by simp at hfuel; omega⟩
    rw [spliceFrom, if_neg (by omega), hfind]
    dsimp only
    rw [hanswer]
    rename_i answer
    cases answer with
    | none => simp [hglobal, assemble]
    | some nodes => simp [hglobal, assemble]
  | more hcursor hfind hanswer hglobal hrest ih =>
    intro fuel start hfuel
    obtain ⟨fuel, rfl⟩ : ∃ n, fuel = n + 1 := ⟨fuel - 1, by simp at hfuel; omega⟩
    have hle := Nat.le_of_succ_le_succ hfuel
    rw [spliceFrom, if_neg (by omega), hfind]
    dsimp only
    rw [hanswer]
    rename_i answer _
    cases answer with
    | none =>
      dsimp only
      rw [if_pos hglobal]
      exact ih start hle
    | some nodes =>
      dsimp only
      rw [if_pos hglobal, show leaf.cursorAfter _ = leaf.cursorBehind _ (some nodes) from rfl,
        ih _ hle]
      rfl

/-- Whether every match that is found is a part of the text, at or behind the
cursor. -/
def FindsParts (leaf : Leaf σ) : Prop :=
  ∀ cursor found, leaf.find cursor = some found →
    Text.IsPart leaf.text found.span ∧ cursor ≤ found.span.start

/-- Whether a cursor has `n` places at or behind it: it is at a cut of the text,
or one byte beyond. -/
def HasPlaces (text : List Char) (cursor n : Nat) : Prop :=
  (∃ front back, text = front ++ back ∧ cursor = Text.byteLength front ∧ n = back.length + 1) ∨
    (cursor = Text.byteLength text + 1 ∧ n = 0)

/-- A step always moves on, by a character or behind the end. -/
theorem lt_stepFrom (leaf : Leaf σ) (offset : Nat) : offset < leaf.stepFrom offset := by
  rw [stepFrom]
  split
  next c _ _ =>
    have := c.utf8Size_pos
    omega
  next => omega

/-- A step from a cut leaves fewer places behind. -/
theorem hasPlaces_stepFrom (leaf : Leaf σ) {front back : List Char}
    (htext : leaf.text = front ++ back) :
    HasPlaces leaf.text (leaf.stepFrom (Text.byteLength front)) back.length := by
  rw [stepFrom, htext, Text.dropBytes_append]
  cases back with
  | nil =>
    refine Or.inr ⟨?_, rfl⟩
    rw [List.append_nil]
  | cons c back =>
    refine Or.inl ⟨front ++ [c], back, ?_, ?_, rfl⟩
    · rw [List.append_assoc, List.singleton_append]
    · rw [Text.byteLength_append]
      rfl

/-- The search goes on behind the start of the match, and not before its end if
it is accepted. -/
theorem lt_cursorBehind (leaf : Leaf σ) (span : Span) (answer : Option (List Node)) :
    span.start < leaf.cursorBehind span answer := by
  cases answer with
  | none => exact leaf.lt_stepFrom span.start
  | some nodes =>
    rw [cursorBehind, cursorAfter]
    split
    next h => exact h
    next => exact leaf.lt_stepFrom span.start

/-- Behind an accepted match the cursor is at its end, or further if it is empty. -/
theorem le_cursorAfter (leaf : Leaf σ) (span : Span) (h : span.start ≤ span.stop) :
    span.stop ≤ leaf.cursorAfter span := by
  have hlt := leaf.lt_stepFrom span.start
  rw [cursorAfter]
  split
  next => exact Nat.le_refl _
  next => omega

/-- After every answer, the cursor has fewer places behind it. -/
theorem hasPlaces_cursorBehind {leaf : Leaf σ} (hleaf : leaf.FindsParts) {cursor n : Nat}
    {found : Match} (answer : Option (List Node)) (hplaces : HasPlaces leaf.text cursor n)
    (hfind : leaf.find cursor = some found) :
    ∃ m < n, HasPlaces leaf.text (leaf.cursorBehind found.span answer) m := by
  obtain ⟨⟨before, inside, after, htext, hspan⟩, hcursor⟩ := hleaf cursor found hfind
  rw [hspan] at hcursor ⊢
  -- the match ends behind the cursor with fewer characters left, or is empty and a character is
  -- passed
  have hfewer : (inside ++ after).length < n := by
    rcases hplaces with ⟨front, back, hfront, rfl, rfl⟩ | ⟨rfl, -⟩
    · -- the match lies behind the cut that the cursor is at
      obtain ⟨between, -, hback⟩ := Text.exists_append_of_le (hfront.symm.trans htext) hcursor
      simp only [hback, List.length_append]
      omega
    · rw [htext, Text.byteLength_append] at hcursor
      dsimp only at hcursor
      omega
  have hstep := leaf.hasPlaces_stepFrom htext
  cases answer with
  | none => exact ⟨_, hfewer, hstep⟩
  | some nodes =>
    rw [cursorBehind, cursorAfter]
    split
    next hlt =>
      refine ⟨after.length + 1, ?_, Or.inl ⟨before ++ inside, after, ?_, ?_, rfl⟩⟩
      · have hinside : inside ≠ [] := by
          rintro rfl
          exact absurd hlt (by simp)
        have := List.length_pos_iff.mpr hinside
        rw [List.length_append] at hfewer
        omega
      · rw [htext, List.append_assoc]
      · rw [Text.byteLength_append]
    next => exact ⟨_, hfewer, hstep⟩

/-- A leaf has a scan, with no more matches than there are places. -/
theorem exists_scan {leaf : Leaf σ} (hleaf : leaf.FindsParts) :
    ∀ (n : Nat) {cursor : Nat} (state : σ), HasPlaces leaf.text cursor n →
      ∃ answered after, leaf.Scan cursor state answered after ∧ answered.length ≤ n := by
  -- on the number of places behind the cursor, since every answer moves the cursor on
  intro n
  induction n using Nat.strongRecOn with
  | ind n ih =>
    intro cursor state hplaces
    rcases Nat.lt_or_ge (Text.byteLength leaf.text) cursor with hlt | hge
    · exact ⟨[], state, .done (Or.inl hlt), Nat.zero_le _⟩
    · cases hfind : leaf.find cursor with
      | none => exact ⟨[], state, .done (Or.inr hfind), Nat.zero_le _⟩
      | some found =>
        obtain ⟨answer, next, hanswer⟩ : ∃ answer next, leaf.answer found state = (answer, next) :=
          ⟨_, _, rfl⟩
        obtain ⟨m, hm, hbehind⟩ := hasPlaces_cursorBehind hleaf answer hplaces hfind
        cases hglobal : leaf.global with
        | false => exact ⟨_, next, .once hge hfind hanswer hglobal, by
          rw [List.length_singleton]; omega⟩
        | true =>
          obtain ⟨rest, after, hscan, hlength⟩ := ih m hm next hbehind
          exact ⟨_, after, .more hge hfind hanswer hglobal hscan, by rw [List.length_cons]; omega⟩

/-- Every leaf has a scan from its start, which its splice amounts to. More fuel
changes nothing. -/
theorem exists_scan_splice {leaf : Leaf σ} (hleaf : leaf.FindsParts) (state : σ) :
    ∃ answered after, leaf.Scan 0 state answered after ∧
      answered.length ≤ leaf.text.length + 1 ∧
      leaf.splice state = (assemble leaf.text 0 answered, after) := by
  obtain ⟨answered, after, hscan, hlength⟩ :=
    exists_scan hleaf (leaf.text.length + 1) state (Or.inl ⟨[], leaf.text, rfl, rfl, rfl⟩)
  exact ⟨answered, after, hscan, hlength, hscan.spliceFrom_eq 0 hlength⟩

/-- What is looked at is a part of the text, at or behind the cursor. -/
theorem Scan.isPart {leaf : Leaf σ} (hleaf : leaf.FindsParts) {cursor : Nat} {state after : σ}
    {answered : List Answered} (h : leaf.Scan cursor state answered after) :
    ∀ given ∈ answered, Text.IsPart leaf.text given.1.span ∧ cursor ≤ given.1.span.start := by
  -- every match comes from a search, which finds parts at or behind its cursor
  induction h with
  | done => intro given hmem; exact absurd hmem List.not_mem_nil
  | once _ hfind _ _ =>
    intro given hmem
    obtain rfl := List.mem_singleton.mp hmem
    exact hleaf _ _ hfind
  | more _ hfind _ _ _ ih =>
    intro given hmem
    have hfirst := hleaf _ _ hfind
    rcases List.mem_cons.mp hmem with rfl | hrest
    · exact hfirst
    · obtain ⟨hpart, hbehind⟩ := ih given hrest
      refine ⟨hpart, Nat.le_trans hfirst.2 (Nat.le_of_lt ?_)⟩
      exact Nat.lt_of_lt_of_le (leaf.lt_cursorBehind _ _) hbehind

/-- What is looked at is answered in some state. -/
theorem Scan.exists_answer {leaf : Leaf σ} {cursor : Nat} {state after : σ}
    {answered : List Answered} (h : leaf.Scan cursor state answered after) :
    ∀ given ∈ answered, ∃ before, (leaf.answer given.1 before).1 = given.2 := by
  induction h with
  | done => intro given hmem; exact absurd hmem List.not_mem_nil
  | once _ _ hanswer _ =>
    intro given hmem
    obtain rfl := List.mem_singleton.mp hmem
    exact ⟨_, congrArg Prod.fst hanswer⟩
  | more _ _ hanswer _ _ ih =>
    intro given hmem
    rcases List.mem_cons.mp hmem with rfl | hrest
    · exact ⟨_, congrArg Prod.fst hanswer⟩
    · exact ih given hrest

/-- The matches are looked at from left to right, no two of them at one place. -/
theorem Scan.starts_increasing {leaf : Leaf σ} (hleaf : leaf.FindsParts) {cursor : Nat}
    {state after : σ} {answered : List Answered} (h : leaf.Scan cursor state answered after) :
    answered.Pairwise fun a b => a.1.span.start < b.1.span.start := by
  induction h with
  | done => exact .nil
  | once => exact List.pairwise_singleton _ _
  | more _ hfind _ _ hrest ih =>
    refine List.pairwise_cons.mpr ⟨fun given hmem => ?_, ih⟩
    have hbehind := (hrest.isPart hleaf given hmem).2
    exact Nat.lt_of_lt_of_le (leaf.lt_cursorBehind _ _) hbehind

/-- Whether the text behind a cut is made of pieces, one for each accepted
match, and of literal text that follows them, and the nodes are what these lead
to, in the same order. -/
def InPieces (text front back : List Char) (answered : List Answered) (nodes : List Node) : Prop :=
  ∃ pieces last, back = pieces.flatMap Piece.text ++ last ∧
    nodes = pieces.flatMap Piece.output ++ fragment last ∧
    answered.filterMap (replaced? text) = Piece.replaced (Text.byteLength front) pieces

/-- An accepted match is a piece in front of those that the answers behind it
lead to. -/
theorem inPieces_accepted {text front back : List Char} {found : Match} {nodes given : List Node}
    {rest : List Answered} (htext : text = front ++ back) (hpart : Text.IsPart text found.span)
    (hle : Text.byteLength front ≤ found.span.start)
    (hrest : ∀ {front back more}, text = front ++ back → Text.byteLength front = found.span.stop →
      assemble text (Text.byteLength front) rest = some more → InPieces text front back rest more)
    (hgiven : assemble text (Text.byteLength front) ((found, some nodes) :: rest) = some given) :
    InPieces text front back ((found, some nodes) :: rest) given := by
  obtain ⟨before, inside, after, hcut, hspan⟩ := hpart
  rw [hspan] at hle
  -- the kept text up to the match is the first piece, and the match is cut out behind it
  obtain ⟨literal, rfl, hback⟩ := Text.exists_append_of_le (htext.symm.trans hcut) hle
  have hstart : found.span.start = Text.byteLength front + Text.byteLength literal := by
    rw [hspan, Text.byteLength_append]
  have hstop : found.span.stop = Text.byteLength (front ++ literal ++ inside) := by
    rw [hspan, Text.byteLength_append _ inside]
  have hcut' : text = (front ++ literal ++ inside) ++ after := by
    rw [hcut, List.append_assoc _ inside]
  have hliteral : Text.between text (Text.byteLength front) found.span.start = literal := by
    rw [hstart, hcut, List.append_assoc]
    exact Text.between_append front literal (inside ++ after)
  have hinside : found.span.text text = inside := by
    rw [hspan, hcut]
    exact Text.between_append (front ++ literal) inside after
  have hafter : Text.dropBytes found.span.stop text = after := by
    rw [hstop, hcut', Text.dropBytes_append]
  have hreplaced : replaced? text (found, some nodes) =
      some ⟨Text.byteLength front + Text.byteLength literal, inside, nodes⟩ := by
    rw [← hstart, ← hinside]
    rfl
  have hbehind : Text.byteLength front + Text.byteLength (literal ++ inside) = found.span.stop := by
    rw [hstop, List.append_assoc, Text.byteLength_append front]
  rw [assemble, hliteral, hafter] at hgiven
  obtain rfl := Option.some.inj hgiven
  rw [InPieces, List.filterMap_cons_some hreplaced]
  cases hmore : assemble text found.span.stop rest with
  | none =>
    refine ⟨[⟨literal, inside, nodes⟩], after, ?_, ?_, ?_⟩
    · rw [hback, List.flatMap_singleton, Piece.text, List.append_assoc]
    · rw [List.flatMap_singleton]
      rfl
    · have hnone : rest.filterMap (replaced? text) = [] := by
        rw [List.filterMap_eq_nil_iff]
        intro other hmem
        rw [replaced?, (assemble_eq_none_iff _ _ _).mp hmore other hmem]
        rfl
      rw [hnone]
      rfl
  | some more =>
    rw [hstop] at hmore
    obtain ⟨pieces, last, hlast, hnodes, hpieces⟩ := hrest hcut' hstop.symm hmore
    refine ⟨⟨literal, inside, nodes⟩ :: pieces, last, ?_, ?_, ?_⟩
    · rw [hback, hlast, List.flatMap_cons, Piece.text, List.append_assoc, List.append_assoc]
    · rw [hnodes, List.flatMap_cons, Piece.output, List.append_assoc (fragment literal ++ nodes)]
      rfl
    · rw [hpieces, Piece.replaced, Piece.text, hbehind, hstop]

/-- The text behind a cut that the search has not gone back over is in pieces. -/
theorem Scan.inPieces {leaf : Leaf σ} (hleaf : leaf.FindsParts) {cursor : Nat} {state after : σ}
    {answered : List Answered} (h : leaf.Scan cursor state answered after) :
    ∀ {front back : List Char} {nodes : List Node}, leaf.text = front ++ back →
      Text.byteLength front ≤ cursor →
      assemble leaf.text (Text.byteLength front) answered = some nodes →
      InPieces leaf.text front back answered nodes := by
  induction h with
  | done => intro front back nodes _ _ hsome; exact absurd hsome (by simp [assemble])
  | @once cursor _ _ found answer _ hfind _ _ =>
    intro front back nodes htext hle hsome
    obtain ⟨hpart, hcursor⟩ := hleaf _ _ hfind
    cases answer with
    | none => exact absurd hsome (by simp [assemble])
    | some given =>
      refine inPieces_accepted htext hpart (Nat.le_trans hle hcursor) ?_ hsome
      intro _ _ _ _ _ hmore
      exact absurd hmore (by simp [assemble])
  | @more cursor _ _ _ found answer rest _ hfind _ _ _ ih =>
    intro front back nodes htext hle hsome
    obtain ⟨hpart, hcursor⟩ := hleaf _ _ hfind
    cases answer with
    | none =>
      -- the literal text goes on over a match that is rejected
      have hlt := leaf.lt_stepFrom found.span.start
      have hbehind : Text.byteLength front ≤ leaf.stepFrom found.span.start := by omega
      exact ih htext hbehind hsome
    | some given =>
      -- the next literal text starts where the match ends, at or before the new cursor
      refine inPieces_accepted htext hpart (Nat.le_trans hle hcursor) ?_ hsome
      intro front back more hcut hstop hmore
      refine ih hcut ?_ hmore
      rw [hstop]
      exact leaf.le_cursorAfter found.span hpart.start_le_stop

end Leaf

end Splice

end Graft
