import Graft.Proofs.Splice.Scan
import Graft.Proofs.Splice.View

/-!
# Records of what a replacer is asked

A replacer can be made to keep a record of the matches that it is asked about
and of its answers. The record is all that it adds: the same matches get the
same answers and lead to the same trees. So what is said of the record of a run
is said of the run itself.

A replacer is a function that is called with each match, and nothing keeps the
calls. Statements about calls, such as which matches were offered and with which
ancestors, are made of the run with the recording replacer, and
`findAndReplace_recording` says that this run is the run without it, with the
record beside its state. The relation between the two is an instance of seeing a
state through a view (`Rule.SeenAs`), namely forgetting the record.

For a single leaf the record is the scan of the leaf. `callsOn` are the calls
that the splice of a text makes, and they agree one for one with the matches of
its scan and their answers (`exists_scan_callsOn`).

Main statements:
- `RuleSet.rules_recording`, `Rule.applyAll_recording`: rules that keep records
  do what the rules do;
- `Rule.spliceLeaf_recording`: what the splice of one leaf adds to a record;
- `Rule.exists_scan_callsOn`: these calls are the scan of the leaf;
- `findAndReplace_recording`: a search that is recorded is the search itself.
-/

namespace Graft

variable {σ : Type}

/-- A match that a replacer has been asked about, as it sees it, with its answer. -/
structure Call where
  found : Found
  answer : Replacement

namespace Call

def answered (call : Call) : Splice.Answered := (call.found.spans, call.answer.toNodes)

/-- The accepted match that a call stands for, if it is accepted: the offset and
the text that the replacer was told, and the nodes of its answer. -/
def replaced? (call : Call) : Option Splice.Replaced :=
  call.answer.toNodes.map fun nodes => ⟨call.found.index, call.found.value, nodes⟩

end Call

/-- The replacer with a record of its calls. -/
def Replacer.recording (replacer : Replacer σ) : Replacer (σ × List Call) :=
  .function fun found recorded =>
    let (answer, state) := replacer.ask found recorded.1
    (answer, state, recorded.2 ++ [⟨found, answer⟩])

/-- The rule with a record of its replacer's calls. -/
def Rule.recording (rule : Rule σ) : Rule (σ × List Call) := ⟨rule.pattern, rule.replacer.recording⟩

/-- The rules with one record of all replacers' calls. -/
def RuleSet.recording : RuleSet σ → RuleSet (σ × List Call)
  | .list pairs => .list (pairs.map fun pair => (pair.1, pair.2.recording))
  | .table entries => .table (entries.map fun entry => (entry.1, entry.2.recording))

/-- Rules that keep a record are made ready as the rules are. -/
theorem RuleSet.rules_recording (rules : RuleSet σ) :
    rules.recording.rules = rules.rules.map (·.map Rule.recording) := by
  have hpair : ∀ pair : Find × Replacer σ,
      Rule.ofPair (pair.1, pair.2.recording) = (Rule.ofPair pair).map Rule.recording := by
    intro pair
    unfold Rule.ofPair
    cases pair.1.toPattern? <;> rfl
  have hpairs : ∀ pairs : List (Find × Replacer σ),
      (pairs.map fun pair => (pair.1, pair.2.recording)).mapM Rule.ofPair =
        (pairs.mapM Rule.ofPair).map (·.map Rule.recording) := by
    intro pairs
    induction pairs with
    | nil => rfl
    | cons pair rest ih =>
      rw [List.map_cons, List.mapM_cons, List.mapM_cons, hpair, ih]
      cases Rule.ofPair pair with
      | error cause => rfl
      | ok rule => cases rest.mapM Rule.ofPair <;> rfl
  cases rules with
  | list pairs => exact hpairs pairs
  | table entries =>
    rw [recording, rules_table, rules_table, List.map_map]
    have h := hpairs (entries.map fun entry => (.literal entry.1, entry.2))
    rw [List.map_map] at h
    exact h

namespace Rule

/-- A rule that keeps a record is the rule itself, if the record is not looked
at. -/
theorem recording_seenAs (rule : Rule σ) : rule.recording.SeenAs Prod.fst rule :=
  ⟨rfl, fun _ _ => rfl⟩

/-- What has been recorded before changes nothing. -/
theorem recording_seenAs_append (rule : Rule σ) (before : List Call) :
    rule.recording.SeenAs (fun recorded => (recorded.1, before ++ recorded.2)) rule.recording := by
  refine ⟨rfl, fun found recorded => ?_⟩
  show (_, _, before ++ recorded.2 ++ _) = _
  rw [List.append_assoc]
  rfl

/-- So are all passes with rules that keep records, whatever has been recorded
before. -/
theorem applyAll_recording (ignore : Ignore) (rules : List (Rule σ)) (tree : Node) (state : σ)
    (before : List Call) :
    applyAll ignore rules tree state =
      (applyAll ignore (rules.map recording) tree (state, before)).map Prod.fst :=
  applyAll_view ignore recording_seenAs rules tree (state, before)

/-- The calls of the replacer in the splice of one leaf. -/
def callsOn (rule : Rule σ) (text : String) (stack : List Node) (state : σ) : List Call :=
  (rule.recording.spliceLeaf text stack (state, [])).2.2

/-- The splice of a leaf adds its calls to the record, and does what it does
without one. -/
theorem spliceLeaf_recording (rule : Rule σ) (text : String) (stack : List Node) (state : σ)
    (before : List Call) :
    rule.recording.spliceLeaf text stack (state, before) =
      ((rule.spliceLeaf text stack state).1, (rule.spliceLeaf text stack state).2,
        before ++ rule.callsOn text stack state) := by
  have hfirst := rule.recording_seenAs.spliceLeaf text stack (state, [])
  have hbefore := (rule.recording_seenAs_append before).spliceLeaf text stack (state, [])
  rw [List.append_nil] at hbefore
  rw [hbefore, hfirst]
  rfl

/-- Every match of a rule is a part of the text, at or behind the cursor. -/
theorem findsParts_leaf (rule : Rule σ) (text : List Char) (stack : List Node) :
    (rule.leaf text stack).FindsParts :=
  fun _ _ h => Regex.isPart_of_findFrom h

/-- What a scan adds to the record is the scan itself. -/
theorem exists_calls_of_scan {rule : Rule σ} {text : List Char} {stack : List Node} {cursor : Nat}
    {state after : σ × List Call} {answered : List Splice.Answered}
    (h : (rule.recording.leaf text stack).Scan cursor state answered after) :
    ∃ calls, after.2 = state.2 ++ calls ∧ answered = calls.map Call.answered ∧
      ∀ call ∈ calls, call.found = rule.found text stack call.found.spans := by
  -- match by match: the answer adds one call, and the rest adds what it records
  induction h with
  | done => exact ⟨[], (List.append_nil _).symm, rfl, fun _ hmem => absurd hmem List.not_mem_nil⟩
  | @once _ state after found answer _ _ hanswer _ =>
    cases hanswer
    refine ⟨[⟨rule.found text stack found, _⟩], rfl, rfl, fun call hmem => ?_⟩
    obtain rfl := List.mem_singleton.mp hmem
    rfl
  | @more _ state next after found answer rest _ _ hanswer _ _ ih =>
    cases hanswer
    obtain ⟨calls, hafter, hrest, hcalls⟩ := ih
    refine ⟨⟨rule.found text stack found, _⟩ :: calls, ?_, congrArg (_ :: ·) hrest, ?_⟩
    · rw [hafter]
      exact List.append_assoc _ _ _
    · intro call hmem
      rcases List.mem_cons.mp hmem with rfl | hmem
      · rfl
      · exact hcalls call hmem

/-- The calls in the splice of a leaf are the scan of the leaf, and the splice
is what they amount to. -/
theorem exists_scan_callsOn (rule : Rule σ) (text : String) (stack : List Node) (state : σ) :
    ∃ after, (rule.recording.leaf text.toList stack).Scan 0 (state, [])
        ((rule.callsOn text stack state).map Call.answered) after ∧
      (∀ call ∈ rule.callsOn text stack state,
        call.found = rule.found text.toList stack call.found.spans) ∧
      (rule.callsOn text stack state).length ≤ text.toList.length + 1 ∧
      (rule.spliceLeaf text stack state).1 =
        Splice.assemble text.toList 0 ((rule.callsOn text stack state).map Call.answered) := by
  obtain ⟨answered, after, hscan, hlength, hsplice⟩ :=
    Splice.Leaf.exists_scan_splice (rule.recording.findsParts_leaf text.toList stack) (state, [])
  obtain ⟨calls, hafter, rfl, hcalls⟩ := exists_calls_of_scan hscan
  have hspliced := rule.spliceLeaf_recording text stack state []
  have hpair := hsplice.symm.trans hspliced
  have hon : calls = rule.callsOn text stack state := by
    have := congrArg (fun spliced => spliced.2.2) hpair
    rw [hafter] at this
    exact this
  subst hon
  rw [List.length_map] at hlength
  exact ⟨after, hscan, hcalls, hlength, (congrArg Prod.fst hpair).symm⟩

/-- No fuel beyond the number of places changes the splice of a leaf. -/
theorem spliceFrom_eq_spliceLeaf (rule : Rule σ) (text : String) (stack : List Node) (state : σ)
    {fuel : Nat} (h : text.toList.length < fuel) :
    (rule.leaf text.toList stack).spliceFrom fuel 0 0 state = rule.spliceLeaf text stack state := by
  obtain ⟨answered, after, hscan, hlength, hsplice⟩ :=
    Splice.Leaf.exists_scan_splice (rule.findsParts_leaf text.toList stack) state
  have hlength' : answered.length ≤ fuel := Nat.le_trans hlength h
  exact (hscan.spliceFrom_eq 0 hlength').trans hsplice.symm

end Rule

/-- A search that is recorded is the search itself. -/
theorem findAndReplace_recording {rules : RuleSet σ} {ready : List (Rule σ)}
    (hready : rules.rules = .ok ready) (tree : Node) (ignore : Ignore) (state : σ) :
    let recorded := Rule.applyAll ignore (ready.map Rule.recording) tree (state, [])
    findAndReplace tree rules ignore state = .ok (recorded.map Prod.fst) ∧
      findAndReplace tree rules.recording ignore (state, []) = .ok recorded := by
  intro recorded
  constructor
  · rw [findAndReplace, hready]
    exact congrArg Except.ok (Rule.applyAll_recording ignore ready tree state [])
  · rw [findAndReplace, RuleSet.rules_recording, hready]
    rfl

end Graft
