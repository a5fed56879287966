import Graft.Proofs.Splice.Literal
import Graft.Proofs.Splice.Recording

/-!
# The scan of a leaf, turn by turn

A scan keeps two offsets: the cursor, where the next search starts, and the
offset where the text starts that is in no node yet. They move at different
speeds and by different rules. Here the scan is told as a loop in which every
search and every cut is checked first: it is a fault to search from a place that
is no boundary of the text, and to cut the text at ends that are out of order or
no boundaries. However the matches are answered, the loop keeps the two offsets
sound, so it never comes to a fault. Every turn leaves fewer places behind the
cursor, so the loop ends, and what it ends with is the splice of the leaf.

The checks are those that a string of bytes makes when it is sliced, and the
loop relies on passing them. `turn` is one round of the loop (`next_match`, then
`accept` or `reject`) with the checks in it, answering with a fault, with the
end, or with the next standing. `Standing.Sound` is the invariant: each offset
is a boundary of the text, or the cursor is one behind the end, where no search
is made any more; and the kept text starts no later than the cursor.

`turn_cases` says once what a turn can do, and everything else is derived from
it. Soundness is preserved by each way to go on (`Standing.Sound.after`), and by
induction on the turns no fault ever occurs (`Turns.sound`). The number of
places behind the cursor bounds the number of turns (`Turns.length_le`). What
has been put into nodes so far, followed by what a splice from the current
standing would make, is the same in every turn (`close_remaining`), so that the
loop ends with what `Rule.spliceLeaf` defines.

Main statements:
- `Leaf.turn_cases`: all that one turn can do;
- `Standing.Sound.after`: a turn keeps the offsets sound;
- `Leaf.Turns.length_le`: there are no more turns than there are places;
- `Leaf.exists_turns`: from every sound standing the loop comes to its end,
  without a fault;
- `Leaf.turns_sound`: all of this for the scan of a leaf, with the splice as its
  outcome.
-/

namespace Graft

variable {σ : Type}

namespace Splice

/-- What must not be done with a text. -/
inductive Fault where
  /-- To search it from an offset that is no boundary. -/
  | search (cursor : Nat)
  /-- To cut it between two offsets that are out of order or no boundaries. -/
  | cut (start stop : Nat)

/-- Where the scan of a leaf stands between two turns. -/
structure Standing (σ : Type) where
  /-- Where the next search starts. -/
  cursor : Nat
  /-- Whether no further search is made. -/
  done : Bool
  /-- Where the text starts that is in no node yet. -/
  start : Nat
  /-- The nodes so far. -/
  nodes : List Node
  /-- Whether a match has been accepted. -/
  changed : Bool
  /-- The replacer's state. -/
  state : σ

/-- Where every scan starts. -/
def Standing.initial (state : σ) : Standing σ := ⟨0, false, 0, [], false, state⟩

namespace Leaf

/-- Searches the text from a cursor. -/
def search (leaf : Leaf σ) (cursor : Nat) : Except Fault (Option Match) :=
  if Text.IsBoundary leaf.text cursor then .ok (leaf.find cursor) else .error (.search cursor)

/-- The text between two offsets. -/
def cut (leaf : Leaf σ) (start stop : Nat) : Except Fault (List Char) :=
  if start ≤ stop ∧ Text.IsBoundary leaf.text start ∧ Text.IsBoundary leaf.text stop then
    .ok (Text.between leaf.text start stop)
  else .error (.cut start stop)

/-- The text node for the text between two offsets; none if they are the same. -/
def literalNodes (leaf : Leaf σ) (start stop : Nat) : Except Fault (List Node) :=
  if start = stop then .ok [] else (leaf.cut start stop).map fun text =>
    [Node.ofText (String.ofList text)]

/-- The next candidate, if there is one. -/
def candidate (leaf : Leaf σ) (standing : Standing σ) : Except Fault (Option Match) :=
  if standing.done ∨ Text.byteLength leaf.text < standing.cursor then .ok none
  else leaf.search standing.cursor

/-- One turn of the scan: the candidate that it offers, and where the scan
stands then. None at the end. -/
def turn (leaf : Leaf σ) (standing : Standing σ) : Except Fault (Option (Match × Standing σ)) := do
  match ← leaf.candidate standing with
  | none => return none
  | some found =>
    let done := !leaf.global
    match leaf.answer found standing.state with
    | (none, state) =>
      return some (found, { standing with cursor := leaf.stepFrom found.span.start, done, state })
    | (some given, state) =>
      let literal ← leaf.literalNodes standing.start found.span.start
      return some (found, {
        cursor := leaf.cursorAfter found.span, done, start := found.span.stop,
        nodes := standing.nodes ++ literal ++ given, changed := true, state })

/-- What the scan amounts to where it ends: nothing if no match has been
accepted, else the nodes with the text that is in none of them yet. -/
def finish (leaf : Leaf σ) (standing : Standing σ) : Except Fault (Option (List Node)) :=
  if standing.changed then
    if standing.start < Text.byteLength leaf.text then
      (leaf.literalNodes standing.start (Text.byteLength leaf.text)).map fun last =>
        some (standing.nodes ++ last)
    else .ok (some standing.nodes)
  else .ok none

/-- The turns of a scan from one standing to another, with the candidate that
each of them offers. -/
inductive Turns (leaf : Leaf σ) : Standing σ → List (Standing σ × Match) → Standing σ → Prop
  | nil (standing : Standing σ) : Turns leaf standing [] standing
  | cons {standing next last : Standing σ} {found : Match} {turns : List (Standing σ × Match)}
      (h : leaf.turn standing = .ok (some (found, next))) (hrest : Turns leaf next turns last) :
      Turns leaf standing ((standing, found) :: turns) last

end Leaf

namespace Standing

/-- Whether the offsets of a standing are sound: text that is in no node yet
starts at a boundary and not behind the cursor, which is at a boundary or one
byte beyond the end. -/
structure Sound (text : List Char) (standing : Standing σ) : Prop where
  start : Text.IsBoundary text standing.start
  start_le : standing.start ≤ standing.cursor
  cursor : Text.IsBoundary text standing.cursor ∨ standing.cursor = Text.byteLength text + 1

/-- Whether a candidate can be offered without a fault: the search for it starts
in the text, and finds it there behind the text that is in no node yet. -/
structure Offers (text : List Char) (standing : Standing σ) (found : Match) : Prop where
  searched : Text.IsBoundary text standing.cursor
  within : standing.cursor ≤ Text.byteLength text
  behind : standing.cursor ≤ found.span.start
  start_le : standing.start ≤ found.span.start
  boundary : Text.IsBoundary text found.span.start

/-- A scan starts at the beginning of the text, which is a boundary. -/
theorem sound_initial (text : List Char) (state : σ) : (initial state).Sound text :=
  ⟨⟨[], text, rfl, rfl⟩, Nat.le_refl 0, Or.inl ⟨[], text, rfl, rfl⟩⟩

/-- Where a scan stands after an answer. -/
def after (leaf : Leaf σ) (standing : Standing σ) (found : Match) :
    Option (List Node) × σ → Standing σ
  | (none, state) =>
      { standing with cursor := leaf.stepFrom found.span.start, done := !leaf.global, state }
  | (some given, state) => {
      cursor := leaf.cursorAfter found.span, done := !leaf.global, start := found.span.stop,
      nodes := standing.nodes ++
        fragment (Text.between leaf.text standing.start found.span.start) ++ given,
      changed := true, state }

/-- After an answer the cursor is where the scan puts it. -/
@[simp] theorem cursor_after (leaf : Leaf σ) (standing : Standing σ) (found : Match)
    (answered : Option (List Node) × σ) :
    (standing.after leaf found answered).cursor = leaf.cursorBehind found.span answered.1 := by
  obtain ⟨answer, state⟩ := answered
  cases answer <;> rfl

end Standing

namespace Leaf

/-- Between two boundaries in order there is a fragment of the text, and no
fault. -/
theorem literalNodes_eq {leaf : Leaf σ} {start stop : Nat}
    (hstart : Text.IsBoundary leaf.text start)
    (hstop : Text.IsBoundary leaf.text stop) (hle : start ≤ stop) :
    leaf.literalNodes start stop = .ok (fragment (Text.between leaf.text start stop)) := by
  have hlength : start + Text.byteLength (Text.between leaf.text start stop) = stop :=
    (Text.isPart_of_isBoundary hstart hstop hle).start_add_byteLength
  rw [literalNodes]
  -- the program leaves out a fragment of no bytes, and so does the splice
  split
  next heq =>
    have hnil : Text.between leaf.text start stop = [] := Text.eq_nil_of_byteLength (by omega)
    rw [hnil, fragment_empty]
  next hne =>
    have hsome : Text.between leaf.text start stop ≠ [] := by
      intro hnil
      rw [hnil, Text.byteLength_nil] at hlength
      exact hne hlength
    rw [cut, if_pos ⟨hle, hstart, hstop⟩, fragment, if_neg (by simpa using hsome)]
    rfl

/-- All that one turn can do where the offsets are sound: the scan ends, because
no search is left to make or because it finds nothing, or a match is found and
answered. -/
theorem turn_cases {leaf : Leaf σ} (hleaf : leaf.FindsParts) {standing : Standing σ}
    (hsound : standing.Sound leaf.text) :
    (leaf.turn standing = .ok none ∧
      (standing.done = true ∨ Text.byteLength leaf.text < standing.cursor ∨
      leaf.find standing.cursor = none)) ∨
    ∃ found, standing.done = false ∧ leaf.find standing.cursor = some found ∧
      standing.Offers leaf.text found ∧
      leaf.turn standing =
        .ok (some (found, standing.after leaf found (leaf.answer found standing.state))) := by
  -- whether a search is left to make, and then whether it finds something
  by_cases hend : standing.done ∨ Text.byteLength leaf.text < standing.cursor
  · refine Or.inl ⟨?_, hend.imp_right Or.inl⟩
    rw [turn, candidate, if_pos hend]
    rfl
  · obtain ⟨hdone, hwithin⟩ := not_or.mp hend
    have hcursor : Text.IsBoundary leaf.text standing.cursor :=
      hsound.cursor.resolve_right (by omega)
    have hcandidate : leaf.candidate standing = .ok (leaf.find standing.cursor) := by
      rw [candidate, if_neg hend, search, if_pos hcursor]
    cases hfind : leaf.find standing.cursor with
    | none =>
      refine Or.inl ⟨?_, Or.inr (Or.inr rfl)⟩
      rw [turn, hcandidate, hfind]
      rfl
    | some found =>
      obtain ⟨hpart, hbehind⟩ := hleaf standing.cursor found hfind
      have hle := Nat.le_trans hsound.start_le hbehind
      refine Or.inr ⟨found, Bool.eq_false_iff.mpr hdone, rfl,
        ⟨hcursor, Nat.not_lt.mp hwithin, hbehind, hle, hpart.isBoundary_start⟩, ?_⟩
      rw [turn, hcandidate, hfind]
      show (match leaf.answer found standing.state with
        | (none, state) => _
        | (some given, state) => _ : Except Fault (Option (Match × Standing σ))) = _
      obtain ⟨answer, state⟩ := leaf.answer found standing.state
      cases answer with
      | none => rfl
      | some given =>
        dsimp only
        rw [literalNodes_eq hsound.start hpart.isBoundary_start hle]
        rfl

/-- A cursor has places behind it, or none, exactly if it is at a boundary or
one byte beyond the end. -/
theorem exists_hasPlaces_iff {text : List Char} {cursor : Nat} :
    (∃ n, HasPlaces text cursor n) ↔
      Text.IsBoundary text cursor ∨ cursor = Text.byteLength text + 1 := by
  constructor
  · rintro ⟨n, ⟨front, back, htext, hcursor, -⟩ | ⟨hcursor, -⟩⟩
    · exact Or.inl ⟨front, back, htext, hcursor.symm⟩
    · exact Or.inr hcursor
  · rintro (⟨front, back, htext, hcursor⟩ | hcursor)
    · exact ⟨back.length + 1, Or.inl ⟨front, back, htext, hcursor.symm, rfl⟩⟩
    · exact ⟨0, Or.inr ⟨hcursor, rfl⟩⟩

end Leaf

/-- A turn keeps the offsets sound, whatever the answer is. -/
theorem Standing.Sound.after {leaf : Leaf σ} (hleaf : leaf.FindsParts) {standing : Standing σ}
    (hsound : standing.Sound leaf.text) {found : Match}
    (hfind : leaf.find standing.cursor = some found)
    (answered : Option (List Node) × σ) : (standing.after leaf found answered).Sound leaf.text := by
  obtain ⟨hpart, hbehind⟩ := hleaf standing.cursor found hfind
  obtain ⟨n, hplaces⟩ := Leaf.exists_hasPlaces_iff.mpr hsound.cursor
  obtain ⟨m, -, hfewer⟩ := Leaf.hasPlaces_cursorBehind hleaf answered.1 hplaces hfind
  have hcursor := Leaf.exists_hasPlaces_iff.mp ⟨m, hfewer⟩
  have hstart := hsound.start_le
  obtain ⟨answer, state⟩ := answered
  cases answer with
  | none =>
    have hstep := leaf.lt_stepFrom found.span.start
    refine ⟨hsound.start, ?_, hcursor⟩
    show standing.start ≤ leaf.stepFrom found.span.start
    omega
  | some given => exact ⟨hpart.isBoundary_stop,
    leaf.le_cursorAfter found.span hpart.start_le_stop, hcursor⟩

namespace Leaf

/-- A turn that offers a candidate finds it from the cursor, and stands where
its answer leads. -/
theorem eq_after_of_turn {leaf : Leaf σ} (hleaf : leaf.FindsParts) {standing next : Standing σ}
    (hsound : standing.Sound leaf.text) {found : Match}
    (h : leaf.turn standing = .ok (some (found, next))) :
    leaf.find standing.cursor = some found ∧ standing.Offers leaf.text found ∧
      next = standing.after leaf found (leaf.answer found standing.state) := by
  rcases turn_cases hleaf hsound with ⟨hnone, -⟩ | ⟨other, -, hfind, hoffers, hturn⟩
  · rw [hnone] at h
    exact absurd (Except.ok.inj h) (Option.some_ne_none _).symm
  · rw [hturn] at h
    obtain ⟨rfl, rfl⟩ := Prod.mk.inj (Option.some.inj (Except.ok.inj h))
    exact ⟨hfind, hoffers, rfl⟩

/-- Along all turns the offsets are sound, and every candidate can be offered
without a fault. -/
theorem Turns.sound {leaf : Leaf σ} (hleaf : leaf.FindsParts) {standing last : Standing σ}
    {turns : List (Standing σ × Match)} (h : leaf.Turns standing turns last)
    (hsound : standing.Sound leaf.text) :
    last.Sound leaf.text ∧ ∀ t ∈ turns, t.1.Sound leaf.text ∧ t.1.Offers leaf.text t.2 := by
  induction h with
  | nil standing => exact ⟨hsound, fun t hmem => absurd hmem List.not_mem_nil⟩
  | cons h hrest ih =>
    obtain ⟨hfind, hoffers, rfl⟩ := eq_after_of_turn hleaf hsound h
    obtain ⟨hlast, hturns⟩ := ih (hsound.after hleaf hfind _)
    exact ⟨hlast, List.forall_mem_cons.mpr ⟨⟨hsound, hoffers⟩, hturns⟩⟩

/-- The candidates start from left to right, at or behind the cursor, no two of
them at one offset. -/
theorem Turns.starts_increase {leaf : Leaf σ} (hleaf : leaf.FindsParts) {standing last : Standing σ}
    {turns : List (Standing σ × Match)} (h : leaf.Turns standing turns last)
    (hsound : standing.Sound leaf.text) :
    (∀ t ∈ turns, standing.cursor ≤ t.2.span.start) ∧
      turns.Pairwise fun a b => a.2.span.start < b.2.span.start := by
  -- each candidate starts before the cursor of the next turn, and the next one at or behind it
  induction h with
  | nil standing => exact ⟨fun t hmem => absurd hmem List.not_mem_nil, .nil⟩
  | @cons standing next last found turns h hrest ih =>
    obtain ⟨hfind, hoffers, rfl⟩ := eq_after_of_turn hleaf hsound h
    obtain ⟨hbehind, hpairwise⟩ := ih (hsound.after hleaf hfind _)
    have hlt := leaf.lt_cursorBehind found.span (leaf.answer found standing.state).1
    rw [Standing.cursor_after] at hbehind
    have hcursor := hoffers.behind
    refine ⟨List.forall_mem_cons.mpr ⟨hcursor, fun t hmem => ?_⟩,
      List.pairwise_cons.mpr ⟨fun t hmem => ?_, hpairwise⟩⟩
    · have hafter := hbehind t hmem
      omega
    · have hafter := hbehind t hmem
      show found.span.start < t.2.span.start
      omega

/-- Every turn uses up a place behind the cursor. -/
theorem Turns.length_le {leaf : Leaf σ} (hleaf : leaf.FindsParts) {standing last : Standing σ}
    {turns : List (Standing σ × Match)} (h : leaf.Turns standing turns last) :
    ∀ {n : Nat}, standing.Sound leaf.text → HasPlaces leaf.text standing.cursor n →
      turns.length ≤ n := by
  induction h with
  | nil standing => exact fun _ _ => Nat.zero_le _
  | @cons standing next last found turns h hrest ih =>
    intro n hsound hplaces
    obtain ⟨hfind, -, rfl⟩ := eq_after_of_turn hleaf hsound h
    obtain ⟨m, hm, hfewer⟩ :=
      hasPlaces_cursorBehind hleaf (leaf.answer found standing.state).1 hplaces hfind
    rw [← Standing.cursor_after] at hfewer
    have hle := ih (hsound.after hleaf hfind _) hfewer
    rw [List.length_cons]
    omega

/-! ## The end of a scan -/

/-- What the splice gives for the part of a leaf that a scan has not come to yet. -/
def remaining (leaf : Leaf σ) (fuel : Nat) (standing : Standing σ) : Option (List Node) × σ :=
  if standing.done then (none, standing.state)
  else leaf.spliceFrom fuel standing.cursor standing.start standing.state

/-- What a scan amounts to, given what the splice gives for the part that it has
not come to yet. -/
def close (leaf : Leaf σ) (standing : Standing σ) : Option (List Node) → Option (List Node)
  | some more => some (standing.nodes ++ more)
  | none =>
    if standing.changed then
      some (standing.nodes ++ fragment (Text.dropBytes standing.start leaf.text)) else none

/-- Where the offsets are sound, the scan can end without a fault. -/
theorem finish_eq {leaf : Leaf σ} {standing : Standing σ} (hsound : standing.Sound leaf.text) :
    leaf.finish standing = .ok (leaf.close standing none) := by
  have hle := hsound.start.le_byteLength
  have hlast := literalNodes_eq hsound.start (Text.isBoundary_byteLength leaf.text) hle
  rw [Text.between_byteLength hsound.start] at hlast
  rw [finish, close]
  split
  next =>
    split
    next =>
      rw [hlast]
      rfl
    next hge =>
      -- the last match ends where the text ends
      rw [literalNodes, if_pos (by omega)] at hlast
      rw [← Except.ok.inj hlast, List.append_nil]
  next => rfl

/-- A turn carries over what the scan amounts to. -/
theorem close_remaining {leaf : Leaf σ} {standing : Standing σ} {found : Match}
    {answer : Option (List Node)} {state : σ} (fuel : Nat) (hdone : standing.done = false)
    (hcursor : standing.cursor ≤ Text.byteLength leaf.text)
    (hfind : leaf.find standing.cursor = some found)
    (hanswer : leaf.answer found standing.state = (answer, state)) :
    let next := standing.after leaf found (answer, state)
    leaf.close standing (leaf.remaining (fuel + 1) standing).1 =
      leaf.close next (leaf.remaining fuel next).1 ∧
      (leaf.remaining (fuel + 1) standing).2 = (leaf.remaining fuel next).2 := by
  intro next
  have hsplice : leaf.remaining (fuel + 1) standing =
      leaf.spliceFrom (fuel + 1) standing.cursor standing.start standing.state := by
    rw [remaining, hdone, if_neg Bool.false_ne_true]
  rw [hsplice, spliceFrom, if_neg (Nat.not_lt.mpr hcursor), hfind]
  dsimp only
  rw [hanswer]
  -- a rejected match moves only the cursor; an accepted one adds nodes and moves both offsets
  cases answer with
  | none =>
    have hrest : (if leaf.global then
        leaf.spliceFrom fuel (leaf.stepFrom found.span.start) standing.start state
          else (none, state)) =
          leaf.remaining fuel next := by
      rw [remaining]
      show _ = if (!leaf.global) = true then _ else _
      cases leaf.global <;> rfl
    dsimp only
    rw [hrest]
    exact ⟨by cases (leaf.remaining fuel next).1 <;> rfl, rfl⟩
  | some given =>
    have hrest : (if leaf.global then
        leaf.spliceFrom fuel (leaf.cursorAfter found.span) found.span.stop state
          else (none, state)) =
          leaf.remaining fuel next := by
      rw [remaining]
      show _ = if (!leaf.global) = true then _ else _
      cases leaf.global <;> rfl
    dsimp only
    rw [hrest]
    refine ⟨?_, rfl⟩
    show some (standing.nodes ++ (_ ++ given ++ _)) = _
    rw [← List.append_assoc, ← List.append_assoc]
    cases (leaf.remaining fuel next).1 <;> rfl

/-- From every sound standing the loop comes to its end without a fault, and to
what the splice gives. -/
theorem exists_turns {leaf : Leaf σ} (hleaf : leaf.FindsParts) :
    ∀ (n : Nat) {standing : Standing σ} {fuel : Nat}, standing.Sound leaf.text →
      HasPlaces leaf.text standing.cursor n → n ≤ fuel →
      ∃ turns last, leaf.Turns standing turns last ∧ leaf.turn last = .ok none ∧
        leaf.finish last = .ok (leaf.close standing (leaf.remaining fuel standing).1) ∧
        last.state = (leaf.remaining fuel standing).2 := by
  -- on the number of places behind the cursor, since every turn uses up one
  intro n
  induction n using Nat.strongRecOn with
  | ind n ih =>
    intro standing fuel hsound hplaces hfuel
    rcases turn_cases hleaf hsound with ⟨hturn, hend⟩ | ⟨found, hdone, hfind, hoffers, hturn⟩
    · have hnothing : leaf.remaining fuel standing = (none, standing.state) := by
        rw [remaining]
        split
        next => rfl
        next hdone =>
          rcases hend.resolve_left hdone with hbeyond | hnone
          · exact leaf.spliceFrom_beyond fuel standing.start standing.state hbeyond
          · exact leaf.spliceFrom_noMatch fuel standing.start standing.state hnone
      rw [hnothing]
      exact ⟨[], standing, .nil standing, hturn, finish_eq hsound, rfl⟩
    · obtain ⟨m, hm, hfewer⟩ :=
        hasPlaces_cursorBehind hleaf (leaf.answer found standing.state).1 hplaces hfind
      rw [← Standing.cursor_after] at hfewer
      obtain ⟨fuel, rfl⟩ : ∃ k, fuel = k + 1 := ⟨fuel - 1, by omega⟩
      obtain ⟨turns, last, hturns, hlast, hfinish, hstate⟩ :=
        ih m hm (hsound.after hleaf hfind _) hfewer (show m ≤ fuel by omega)
      obtain ⟨hclose, hremaining⟩ := close_remaining fuel hdone hoffers.within hfind rfl
      exact ⟨_, last, .cons hturn hturns, hlast, hclose ▸ hfinish, hremaining ▸ hstate⟩

/-- The scan of a leaf, whatever is found and however it is answered, as long as
searches find parts of the text at or behind their cursor. Wherever it stands
after some turns, its offsets are sound, the next turn comes to no fault, and
neither does its end. Every turn searches from a boundary in the text and cuts
the text at boundaries in order. The candidates start from left to right, and
there are at most as many as the text has places. So the scan comes to its end,
which is the splice of the leaf. -/
theorem turns_sound {leaf : Leaf σ} (hleaf : leaf.FindsParts) (state : σ) :
    (∀ turns standing, leaf.Turns (.initial state) turns standing →
      standing.Sound leaf.text ∧
      (∃ next, leaf.turn standing = .ok next) ∧ (∃ nodes, leaf.finish standing = .ok nodes) ∧
      (∀ t ∈ turns, t.1.Sound leaf.text ∧ t.1.Offers leaf.text t.2) ∧
      turns.Pairwise (fun a b => a.2.span.start < b.2.span.start) ∧
      turns.length ≤ leaf.text.length + 1) ∧
    ∃ turns last, leaf.Turns (.initial state) turns last ∧ leaf.turn last = .ok none ∧
      leaf.finish last = .ok (leaf.splice state).1 ∧ last.state = (leaf.splice state).2 := by
  have hinitial := Standing.sound_initial leaf.text state
  have hplaces : HasPlaces leaf.text 0 (leaf.text.length + 1) :=
    Or.inl ⟨[], leaf.text, rfl, rfl, rfl⟩
  constructor
  · intro turns standing hturns
    obtain ⟨hsound, hoffers⟩ := hturns.sound hleaf hinitial
    have hnext : ∃ next, leaf.turn standing = .ok next := by
      rcases turn_cases hleaf hsound with ⟨hturn, -⟩ | ⟨found, -, -, -, hturn⟩
      · exact ⟨_, hturn⟩
      · exact ⟨_, hturn⟩
    exact ⟨hsound, hnext, ⟨_, finish_eq hsound⟩, hoffers, (hturns.starts_increase hleaf hinitial).2,
      hturns.length_le hleaf hinitial hplaces⟩
  · obtain ⟨turns, last, hturns, hlast, hfinish, hstate⟩ :=
      exists_turns hleaf (leaf.text.length + 1) hinitial hplaces (Nat.le_refl _)
    refine ⟨turns, last, hturns, hlast, ?_, hstate⟩
    -- nothing has been accepted at first, so the scan amounts to what the splice gives
    have hclose : ∀ rest, leaf.close (.initial state) rest = rest := by
      intro rest
      cases rest <;> rfl
    rw [hfinish, hclose]
    rfl

/-- A pattern that matches the empty text everywhere, also at the end and beside
a character of two bytes. -/
theorem turns_sound_emptyMatches :
    let leaf : Leaf Unit := (Rule.literal "" (.text "|")).leaf ['a', 'é'] []
    leaf.FindsParts ∧
    (∀ turns standing, leaf.Turns (.initial ()) turns standing →
      standing.Sound ['a', 'é'] ∧ turns.length ≤ 3) ∧
    ∃ turns last, leaf.Turns (.initial ()) turns last ∧ leaf.turn last = .ok none ∧
      leaf.finish last = .ok (some (["|", "a", "|", "é", "|"].map Node.ofText)) := by
  intro leaf
  have hleaf : leaf.FindsParts := Rule.findsParts_leaf _ _ _
  obtain ⟨hsound, turns, last, hturns, hlast, hfinish, -⟩ := turns_sound hleaf ()
  have hsplice : (leaf.splice ()).1 = some (["|", "a", "|", "é", "|"].map Node.ofText) := by
    have h := Rule.spliceLeaf_literal "" (.text "|") "aé" [] ()
    refine (congrArg Prod.fst h).trans ?_
    simp [Replacement.putFor, Replacement.toNodes, interleave, Text.split_nil_needle, fragment]
  refine ⟨hleaf, fun turns standing h => ?_, turns, last, hturns, hlast, hsplice ▸ hfinish⟩
  obtain ⟨hstanding, -, -, -, -, hlength⟩ := hsound turns standing h
  exact ⟨hstanding, hlength⟩

end Leaf

end Splice

end Graft
