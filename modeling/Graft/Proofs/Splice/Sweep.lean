import Graft.Proofs.Splice.Recording
import Graft.Proofs.Text.Places

/-!
# The candidates of a leaf

The scan of a leaf jumps: behind an accepted match, over a character after a
match of the empty text, over a character after a match that is rejected. What
it offers to the replacer is still what a plain sweep offers, which goes through
the places of the text one after the other, leaves out those before the end of
the last accepted match, and offers the match that starts at a place wherever
there is one.

The sweep (`Rule.sweep`) is the specification: a recursion over the places of
the text with no cursor and no search in it, only the question whether there is
a match here. The scan (`next_match`) asks the engine for the first match from a
cursor on, and moves the cursor in three ways (`accept`, `reject`, and
`step_from` inside them).

A sweep and a scan are compared while the places that are still ahead of the
sweep are those that a search from the cursor can still reach, apart from places
that the last accepted match covers (`Ahead`). A search that finds something
skips places that have no match (`sweep_of_found`), and after the answer the
places behind the match are again ahead of the new cursor (`Ahead.behind`). A
search that finds nothing leaves the sweep with nothing to offer. So the calls
are the same by induction on the scan.

Main statements:
- `Leaf.stepFrom_le_offset`: a step of the scan goes no further than to the next
  place;
- `Rule.Ahead.behind`: after every answer, the places behind the match are ahead
  of the new cursor;
- `Rule.calls_of_scan`: a scan makes the calls of a sweep of the places ahead of
  it;
- `Rule.spliceLeaf_offers_sweep`: the candidates of a splice are those of the
  sweep of all places.
-/

namespace Graft

variable {σ : Type}

/-- Where the last accepted match ends after an answer to a match. -/
def Replacement.stopAfter (stop : Nat) (span : Span) : Replacement → Nat
  | .reject => stop
  | _ => span.stop

/-- The calls of a sweep over places, and the state after them. Places before
`stop`, the end of the last accepted match, are left out; at every other place
the replacer is asked about the match that starts there, if there is one. The
first call is the only one if not every match counts. -/
def Rule.sweep (rule : Rule σ) (text : List Char) (stack : List Node) :
    List Place → Nat → σ → List Call × σ
  | [], _, state => ([], state)
  | place :: rest, stop, state =>
    if place.offset < stop then rule.sweep text stack rest stop state
    else match rule.pattern.regex.matchAt place with
      | none => rule.sweep text stack rest stop state
      | some spans =>
        let found := rule.found text stack spans
        let (answer, state) := rule.replacer.ask found state
        if rule.pattern.global then
          let (calls, state) := rule.sweep text stack rest (answer.stopAfter stop spans.span) state
          (⟨found, answer⟩ :: calls, state)
        else ([⟨found, answer⟩], state)

/-- A step of the scan goes no further than to the next place. -/
theorem Splice.Leaf.stepFrom_le_offset (leaf : Leaf σ) {passed rest : List Place} {place : Place}
    (hplaces : Text.places leaf.text = passed ++ place :: rest) :
    ∀ next ∈ rest, leaf.stepFrom place.offset ≤ next.offset := by
  have hmem : place ∈ Text.places leaf.text := hplaces ▸ List.mem_append_right _ List.mem_cons_self
  obtain ⟨front, htext, hoffset⟩ := Text.exists_append_of_mem_placesFrom hmem
  rw [Nat.zero_add] at hoffset
  have hdrop : Text.dropBytes place.offset leaf.text = place.rest := by
    rw [hoffset, htext, Text.dropBytes_append]
  have hrest := Text.eq_of_placesFrom_eq hplaces
  -- the next place, if there is one, stands behind the character that is passed
  intro next hnext
  rw [Leaf.stepFrom, hdrop]
  cases hcs : place.rest with
  | nil =>
    rw [hrest, hcs] at hnext
    exact absurd hnext List.not_mem_nil
  | cons c after =>
    rw [hrest, hcs] at hnext
    exact Text.le_offset_of_mem_placesFrom hnext

namespace Rule

/-- Whether places are what is left to a sweep that has come as far as a scan:
the others lie before the cursor, and of these it leaves out the ones before the
cursor. -/
structure Ahead (text : List Char) (cursor stop : Nat) (ahead : List Place) : Prop where
  split : ∃ passed, Text.places text = passed ++ ahead ∧ ∀ place ∈ passed, place.offset < cursor
  skips : ∀ place ∈ ahead, place.offset < stop ↔ place.offset < cursor

/-- At the start all places are ahead. -/
theorem ahead_places (text : List Char) : Ahead text 0 0 (Text.places text) :=
  ⟨⟨[], rfl, fun _ h => absurd h List.not_mem_nil⟩, fun _ _ => Iff.rfl⟩

/-- A search from the cursor goes through the places ahead that are not left out. -/
theorem Ahead.findFrom_eq {text : List Char} {cursor stop : Nat} {ahead : List Place}
    (h : Ahead text cursor stop ahead) (regex : Regex) :
    regex.findFrom text cursor = (ahead.filter (stop ≤ ·.offset)).findSome? regex.matchAt := by
  obtain ⟨⟨passed, hplaces, hpassed⟩, hskips⟩ := h
  have hnone : passed.filter (cursor ≤ ·.offset) = [] := by
    rw [List.filter_eq_nil_iff]
    intro place hmem
    have := hpassed place hmem
    rw [decide_eq_true_eq]
    omega
  have hsame : ahead.filter (cursor ≤ ·.offset) = ahead.filter (stop ≤ ·.offset) := by
    refine List.filter_congr fun place hmem => ?_
    rw [decide_eq_decide, ← Nat.not_lt, ← Nat.not_lt, hskips place hmem]
  rw [Regex.findFrom_eq, hplaces, List.filter_append, hnone, List.nil_append, hsame]

/-- A sweep goes on past places that are left out or have no match. -/
theorem sweep_skip (rule : Rule σ) (text : List Char) (stack : List Node) {skipped : List Place}
    {stop : Nat}
    (h : ∀ place ∈ skipped, place.offset < stop ∨ rule.pattern.regex.matchAt place = none)
    (ahead : List Place) (state : σ) :
    rule.sweep text stack (skipped ++ ahead) stop state =
      rule.sweep text stack ahead stop state := by
  induction skipped with
  | nil => rfl
  | cons place skipped ih =>
    have hrest := ih fun other hmem => h other (List.mem_cons_of_mem _ hmem)
    rw [List.cons_append, sweep]
    split
    next => exact hrest
    next hge =>
      have hnone := (h place List.mem_cons_self).resolve_left hge
      rw [hnone]
      exact hrest

/-- If a search finds nothing, there is nothing left to offer. -/
theorem Ahead.sweep_of_none {text : List Char} {cursor stop : Nat} {ahead : List Place}
    (h : Ahead text cursor stop ahead) (rule : Rule σ)
    (hfind : rule.pattern.regex.findFrom text cursor = none) (stack : List Node) (state : σ) :
    rule.sweep text stack ahead stop state = ([], state) := by
  rw [h.findFrom_eq, List.findSome?_eq_none_iff] at hfind
  have hnothing : ∀ place ∈ ahead,
      place.offset < stop ∨ rule.pattern.regex.matchAt place = none := by
    intro place hmem
    by_cases hlt : place.offset < stop
    · exact Or.inl hlt
    · exact Or.inr (hfind place (List.mem_filter.mpr ⟨hmem, decide_eq_true (Nat.not_lt.mp hlt)⟩))
  have hskip := rule.sweep_skip text stack hnothing [] state
  rw [List.append_nil] at hskip
  exact hskip

/-- Beyond the end of the text there is nothing left to offer. -/
theorem Ahead.sweep_of_beyond {text : List Char} {cursor stop : Nat} {ahead : List Place}
    (h : Ahead text cursor stop ahead) (hbeyond : Text.byteLength text < cursor) (rule : Rule σ)
    (stack : List Node) (state : σ) :
    rule.sweep text stack ahead stop state = ([], state) := by
  refine h.sweep_of_none rule ?_ stack state
  rw [Regex.findFrom_eq_none_iff]
  intro place hmem hcursor
  obtain ⟨front, htext, hoffset⟩ := Text.exists_append_of_mem_placesFrom hmem
  have hlength := congrArg Text.byteLength htext
  rw [Text.byteLength_append] at hlength
  omega

/-- What a search finds is the match at the first place ahead that is not left
out and has one. -/
theorem Ahead.exists_place {text : List Char} {cursor stop : Nat} {ahead : List Place}
    (h : Ahead text cursor stop ahead) {regex : Regex} {found : Match}
    (hfind : regex.findFrom text cursor = some found) :
    ∃ skipped place rest, ahead = skipped ++ place :: rest ∧ stop ≤ place.offset ∧
      regex.matchAt place = some found ∧
      ∀ other ∈ skipped, other.offset < stop ∨ regex.matchAt other = none := by
  rw [h.findFrom_eq] at hfind
  clear h
  -- down the places: one that is left out, one without a match, or the one that is found
  induction ahead with
  | nil => exact absurd hfind (by simp)
  | cons place rest ih =>
    by_cases hlt : place.offset < stop
    · -- a place that is left out
      rw [List.filter_cons_of_neg (by simpa using hlt)] at hfind
      obtain ⟨skipped, other, after, rfl, hstop, hmatch, hskipped⟩ := ih hfind
      exact ⟨place :: skipped, other, after, rfl, hstop, hmatch,
        List.forall_mem_cons.mpr ⟨Or.inl hlt, hskipped⟩⟩
    · rw [List.filter_cons_of_pos (by simpa using hlt), List.findSome?_cons] at hfind
      cases hmatch : regex.matchAt place with
      | none =>
        rw [hmatch] at hfind
        obtain ⟨skipped, other, after, rfl, hstop, hother, hskipped⟩ := ih hfind
        exact ⟨place :: skipped, other, after, rfl, hstop, hother,
          List.forall_mem_cons.mpr ⟨Or.inr hmatch, hskipped⟩⟩
      | some here =>
        rw [hmatch] at hfind
        obtain rfl := Option.some.inj hfind
        exact ⟨[], place, rest, rfl, Nat.not_lt.mp hlt, hmatch, fun _ hmem =>
          absurd hmem List.not_mem_nil⟩

/-- After every answer to the match at a place, the places behind it are ahead
of the new cursor. -/
theorem Ahead.behind (leaf : Splice.Leaf σ) {cursor stop : Nat} {skipped rest : List Place}
    {place : Place}
    (h : Ahead leaf.text cursor stop (skipped ++ place :: rest)) (hstop : stop ≤ place.offset)
    {span : Span}
    (hstart : span.start = place.offset) (hle : span.start ≤ span.stop) (answer : Replacement) :
    Ahead leaf.text (leaf.cursorBehind span answer.toNodes) (answer.stopAfter stop span) rest := by
  obtain ⟨⟨passed, hplaces, -⟩, -⟩ := h
  have hsplit : Text.places leaf.text = (passed ++ skipped) ++ place :: rest := by
    rw [hplaces, List.append_assoc]
  have hsorted := Text.pairwise_placesFrom none 0 leaf.text
  rw [show Text.placesFrom none 0 leaf.text = _ from hsplit] at hsorted
  obtain ⟨-, hfollow, hbefore⟩ := List.pairwise_append.mp hsorted
  have hlt := leaf.lt_cursorBehind span answer.toNodes
  refine ⟨⟨(passed ++ skipped) ++ [place], ?_, ?_⟩, ?_⟩
  · rw [hsplit, List.append_assoc _ [place]]
    rfl
  · intro other hmem
    rcases List.mem_append.mp hmem with hmem | hmem
    · have hearlier := hbefore other hmem place List.mem_cons_self
      omega
    · obtain rfl := List.mem_singleton.mp hmem
      omega
  · intro next hnext
    have hafter := (List.pairwise_cons.mp hfollow).1 next hnext
    have hstep := leaf.stepFrom_le_offset hsplit next hnext
    rw [← hstart] at hstep
    -- a step leads to the next place or before it, so behind it nothing is left out
    have hreject : next.offset < stop ↔ next.offset < leaf.stepFrom span.start := by omega
    have haccept : next.offset < span.stop ↔ next.offset < leaf.cursorAfter span := by
      rw [Splice.Leaf.cursorAfter]
      split
      next => exact Iff.rfl
      next hempty => omega
    cases answer with
    | reject => exact hreject
    | _ => exact haccept

/-- What a replacer that keeps a record answers to a match of a leaf. -/
theorem answer_recording (rule : Rule σ) (text : List Char) (stack : List Node) (found : Match)
    (recorded : σ × List Call) :
    (rule.recording.leaf text stack).answer found recorded =
      let asked := rule.replacer.ask (rule.found text stack found) recorded.1
      (asked.1.toNodes, asked.2, recorded.2 ++ [⟨rule.found text stack found, asked.1⟩]) := rfl

/-- What a search finds is the next call of a sweep, and if other matches count,
a sweep of the places behind it makes the calls that follow. -/
theorem Ahead.sweep_of_found {text : List Char} {cursor stop : Nat} {ahead : List Place}
    (h : Ahead text cursor stop ahead) (rule : Rule σ) {found : Match}
    (hfind : rule.pattern.regex.findFrom text cursor = some found) (stack : List Node) (state : σ) :
    let asked := rule.replacer.ask (rule.found text stack found) state
    let call : Call := ⟨rule.found text stack found, asked.1⟩
    ∃ rest, Ahead text ((rule.recording.leaf text stack).cursorBehind found.span asked.1.toNodes)
        (asked.1.stopAfter stop found.span) rest ∧
      rule.sweep text stack ahead stop state =
        if rule.pattern.global then
          let swept := rule.sweep text stack rest (asked.1.stopAfter stop found.span) asked.2
          (call :: swept.1, swept.2)
        else ([call], asked.2) := by
  intro asked call
  obtain ⟨skipped, place, rest, rfl, hstop, hmatch, hskipped⟩ := h.exists_place hfind
  obtain ⟨last, -, hspan⟩ := Regex.reaches_of_matchAt hmatch
  have hpart := (Regex.isPart_of_findFrom hfind).1
  refine ⟨rest, ?_, ?_⟩
  · exact Ahead.behind (rule.recording.leaf text stack) h hstop (by rw [hspan])
      hpart.start_le_stop asked.1
  · rw [rule.sweep_skip text stack hskipped, sweep, if_neg (Nat.not_lt.mpr hstop), hmatch]

/-- The calls that a scan records are those of a sweep of the places ahead of it. -/
theorem calls_of_scan {rule : Rule σ} {text : List Char} {stack : List Node} {cursor : Nat}
    {recorded after : σ × List Call} {answered : List Splice.Answered}
    (h : (rule.recording.leaf text stack).Scan cursor recorded answered after) :
    ∀ {stop : Nat} {ahead : List Place}, Ahead text cursor stop ahead →
      let swept := rule.sweep text stack ahead stop recorded.1
      after = (swept.2, recorded.2 ++ swept.1) := by
  -- the scan ends, is ended by its only match, or goes on behind a match
  induction h with
  | @done cursor recorded hdone =>
    intro stop ahead hahead swept
    have hnothing : swept = ([], recorded.1) := by
      rcases hdone with hbeyond | hnone
      · exact hahead.sweep_of_beyond hbeyond rule stack recorded.1
      · exact hahead.sweep_of_none rule hnone stack recorded.1
    rw [hnothing, List.append_nil]
  | @once cursor recorded after found answer _ hfind hanswer hglobal =>
    intro stop ahead hahead swept
    have hlocal : rule.pattern.global = false := hglobal
    obtain ⟨rest, -, hsweep⟩ := hahead.sweep_of_found rule hfind stack recorded.1
    rw [answer_recording] at hanswer
    obtain ⟨rfl, rfl⟩ := Prod.mk.inj hanswer
    rw [show swept = _ from hsweep, hlocal]
    rfl
  | @more cursor recorded next after found answer rest _ hfind hanswer hglobal _ ih =>
    intro stop ahead hahead swept
    have heverywhere : rule.pattern.global = true := hglobal
    obtain ⟨rest, hbehind, hsweep⟩ := hahead.sweep_of_found rule hfind stack recorded.1
    rw [answer_recording] at hanswer
    obtain ⟨rfl, rfl⟩ := Prod.mk.inj hanswer
    rw [show swept = _ from hsweep, if_pos heverywhere, ih hbehind]
    dsimp only
    rw [List.append_assoc, List.singleton_append]

/-- A sweep offers every match if all of them count and are rejected. -/
theorem sweep_of_rejects {rule : Rule σ} (hglobal : rule.pattern.global = true)
    (hrejects : ∀ found state, (rule.replacer.ask found state).1 = .reject) (text : List Char)
    (stack : List Node) (places : List Place) (state : σ) :
    (rule.sweep text stack places 0 state).1.map Call.found =
      (places.filterMap rule.pattern.regex.matchAt).map (rule.found text stack) := by
  induction places generalizing state with
  | nil => rfl
  | cons place rest ih =>
    rw [sweep, if_neg (Nat.not_lt_zero _)]
    cases hmatch : rule.pattern.regex.matchAt place with
    | none =>
      rw [List.filterMap_cons_none hmatch]
      exact ih state
    | some spans =>
      rw [List.filterMap_cons_some hmatch, List.map_cons, ← ih (rule.replacer.ask _ state).2]
      dsimp only
      rw [if_pos hglobal, hrejects]
      rfl

/-- The candidates that the splice of a leaf offers to the replacer are those of
the sweep of all places of its text, in the same order and with the same
answers, and it leaves the state that the sweep leaves. A replacer that rejects
everything is offered the matches at all places, if all matches count. -/
theorem spliceLeaf_offers_sweep (rule : Rule σ) (text : String) (stack : List Node) (state : σ) :
    let places := Text.places text.toList
    let swept := rule.sweep text.toList stack places 0 state
    rule.recording.spliceLeaf text stack (state, []) =
        ((rule.spliceLeaf text stack state).1, swept.2, swept.1) ∧
      (rule.spliceLeaf text stack state).2 = swept.2 ∧
      (rule.pattern.global = true → (∀ found state, (rule.replacer.ask found state).1 = .reject) →
        (rule.callsOn text stack state).map Call.found =
          (places.filterMap rule.pattern.regex.matchAt).map (rule.found text.toList stack)) := by
  intro places swept
  obtain ⟨answered, after, hscan, -, hsplice⟩ :=
    Splice.Leaf.exists_scan_splice (rule.recording.findsParts_leaf text.toList stack) (state, [])
  have hafter : after = (swept.2, [] ++ swept.1) := calls_of_scan hscan (ahead_places text.toList)
  have hrecorded := rule.spliceLeaf_recording text stack state []
  -- what the recording splice leaves behind is told by the scan and by the plain splice
  have hpair : (swept.2, swept.1) =
      ((rule.spliceLeaf text stack state).2, rule.callsOn text stack state) :=
    hafter.symm.trans (congrArg Prod.snd (hsplice.symm.trans hrecorded))
  obtain ⟨hstate, hcalls⟩ := Prod.mk.inj hpair
  refine ⟨?_, hstate.symm, fun hglobal hrejects => ?_⟩
  · rw [hrecorded, hstate, hcalls]
    rfl
  · rw [← hcalls]
    exact sweep_of_rejects hglobal hrejects text.toList stack places state

end Rule

end Graft
