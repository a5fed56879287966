import Graft.Proofs.Command.Output
import Graft.Proofs.Command.Stages
import Graft.Proofs.FileSystem.Leading
import Graft.Proofs.Rule.Reading
import Graft.Proofs.Splice.Replacing
import Graft.Proofs.Tree.Canonical

/-!
# Asking whether a tree would change

The command can be asked to tell whether it would change the tree in place of
writing it (`run_apply` with the flag for checking). It then compares the trees,
not their texts, and for trees the order of members in properties and data and
the sign of zero make no difference. Both ways go through the same stages, and
no tree in them has an object with a key twice; so what is told is whether the
text that would be written differs from the text of the tree as it was, if both
are taken in canonical form.

The statement relates two runs, one that checks and one that writes, in the same
world with the same arguments. Where the second succeeds both have gone through
the same `Stages`, so it is about one pair of trees. Equality of trees becomes
equality of canonical trees by the unique keys (`Node.same_iff`), which the tree
has because it was read and what the rules put in has because they were read
(`give_of_rulesOf`); and equality of canonical trees becomes equality of their
texts because different values have different texts.

That canonical form cannot be left out is shown at the end, by a run on a
paragraph whose data are set to the same members in another order. The text
changes, the tree does not, and the check says so.

Main statements:
- `Stages.same_iff`: trees before and after are equal if the texts of their
  canonical forms are;
- `code_check_iff`: the number that a run ends with tells whether these texts
  differ;
- `code_check_reorderedData`: the texts as they are written may differ all the
  same.
-/

namespace Graft.Command

/-- What holds of all that is read holds of the nodes of rules, wherever they
come from. -/
theorem give_of_rulesOf {holds : Node → Prop} (hread : Node.HoldsOfRead (fun _ => True) holds)
    {args : ApplyArgs} {config : Option Config} {rules : RuleSet Unit}
    (h : rulesOf args config = .ok rules) : rules.Give holds := by
  have hput := hread.puts_ofText (args.replace.getD "")
  -- rules come from flags, which put in a text, or from a configuration, which has been read
  unfold rulesOf at h
  split at h
  next =>
    dsimp only at h
    split at h
    next =>
      split at h
      next =>
        obtain rfl := Except.ok.inj h
        exact RuleSet.give_single hput
      next => exact absurd h error_ne_ok
    next =>
      obtain rfl := Except.ok.inj h
      exact RuleSet.give_single hput
  next config hfind =>
    unfold Config.ruleSet at h
    cases hgiven : (RuleSet.ofJson config.rules : Except RuleError (RuleSet Unit)) with
    | error cause =>
      rw [hgiven] at h
      exact absurd h error_ne_ok
    | ok given =>
      rw [hgiven] at h
      obtain rfl := Except.ok.inj h
      exact hread.gives_of_ofJson trivial hgiven
  next => exact absurd h error_ne_ok

namespace Stages

variable {args : ApplyArgs} {configPath : Option String} {world : World}

/-- Neither the tree that has been read nor the result has an object with a key
twice. -/
theorem everywhere_isKeyed (stages : Stages args configPath world) :
    stages.before.Everywhere Node.IsKeyed ∧ stages.outcome.tree.Everywhere Node.IsKeyed := by
  obtain ⟨text, htext⟩ := exists_text_of_tree stages.reads
  obtain ⟨v, -, hv⟩ := Node.exists_parse?_of_ofDocument htext
  have hread := Node.holdsOfRead_isKeyed
  have hbefore := hread.ofJson trivial hv
  have hgive := give_of_rulesOf hread stages.hasRules
  exact ⟨hbefore, hread.everywhere_outcome hgive hbefore stages.replaces⟩

/-- The trees before and after are equal if the texts of their canonical forms
are. -/
theorem same_iff (stages : Stages args configPath world) :
    stages.outcome.tree.same stages.before = true ↔
      stages.outcome.tree.canonical.compact = stages.before.canonical.compact := by
  obtain ⟨hbefore, hafter⟩ := stages.everywhere_isKeyed
  rw [Node.same_iff hafter hbefore]
  constructor
  · intro h
    rw [h]
  · intro h
    exact Node.compact_injective h

/-- The run of the command that tells what would change, told from the stages of
the run that writes. -/
theorem runApply_check
    (stages : Stages { args with check := false, pretty := false } configPath world) :
    (runApply World.host { args with check := true } configPath world).1 =
      .ok (!stages.outcome.tree.same stages.before) := by
  -- neither the rules nor the tree depend on what is done in the end
  let checking : Stages { args with check := true } configPath world :=
    { stages with
      hasRules := stages.hasRules
      reads := stages.reads
      replaces := stages.replaces }
  rw [checking.runApply_eq, if_pos rfl]
  rfl

/-- What has been written when the run that writes has succeeded. -/
theorem gains_of_runApply
    (stages : Stages { args with check := false, pretty := false } configPath world)
    {changed : Bool} {written : World}
    (h : runApply World.host { args with check := false, pretty := false } configPath world =
      (.ok changed, written)) :
    world.Gains written args.output (stages.outcome.tree.compact ++ "\n") := by
  rw [stages.runApply_eq, if_neg Bool.false_ne_true] at h
  dsimp only at h
  obtain ⟨hresult, hworld⟩ := Prod.mk.inj h
  obtain ⟨nothing, hwrote, -⟩ := map_eq_ok hresult
  have hwritten : writeTree World.host stages.outcome.tree
      { args with check := false, pretty := false } stages.logged = (.ok (), written) :=
    Prod.ext hwrote hworld
  have htext : outputText stages.outcome.tree false = stages.outcome.tree.compact ++ "\n" := by
    rw [outputText, if_neg Bool.false_ne_true]
  have hgains := stages.onlyLogs.gains (gains_of_writeTree hwritten)
  rwa [htext] at hgains

end Stages

/-- Where a run succeeds in writing the tree on one line, the same run with the
question whether it would change ends with 1 if the text that is written differs
from the text of the tree as it was read, both in canonical form, and with 0 if
not. If it ends with 1, the texts themselves differ as well. -/
theorem code_check_iff (args : ApplyArgs) (configPath : Option String) (verbose : Bool)
    {world written : World}
    (hrun : runRequest World.host
      (.run ⟨.apply { args with check := false, pretty := false }, configPath, verbose⟩) world =
        (.done, written)) :
    ∃ before after : Node,
      (readTree World.host args.input world).1 = .ok before ∧
      world.Gains written args.output (after.compact ++ "\n") ∧
      let code := (runRequest World.host
        (.run ⟨.apply { args with check := true }, configPath, verbose⟩) world).1.code
      (code = 1 ↔ after.canonical.compact ≠ before.canonical.compact) ∧
      (code = 0 ↔ after.canonical.compact = before.canonical.compact) ∧
      (code = 1 → after.compact ≠ before.compact) := by
  rw [runRequest_apply] at hrun
  obtain ⟨hdone, hworld⟩ := Prod.mk.inj hrun
  obtain ⟨result, hresult⟩ : ∃ result, result = (runApply World.host
    { args with check := false, pretty := false } configPath world).1 := ⟨_, rfl⟩
  rw [← hresult] at hdone
  -- a run that fails has not written
  rcases result with failure | changed
  · exact Result.noConfusion hdone
  have happly : runApply World.host { args with check := false, pretty := false } configPath world =
      (.ok changed, written) := Prod.ext hresult.symm hworld
  obtain ⟨stages⟩ := Stages.of_runApply happly
  refine ⟨stages.before, stages.outcome.tree, stages.readTree_eq,
    stages.gains_of_runApply happly, ?_⟩
  have hsame := stages.same_iff
  intro code
  have hcode : code = if stages.outcome.tree.same stages.before then 0 else 1 := by
    show (runRequest World.host _ world).1.code = _
    rw [runRequest_apply, stages.runApply_check]
    cases stages.outcome.tree.same stages.before <;> rfl
  cases hchanged : stages.outcome.tree.same stages.before with
  | true =>
    rw [hchanged, if_pos rfl] at hcode
    have hequal := hsame.mp hchanged
    rw [hcode]
    exact ⟨⟨fun h => absurd h (by decide), fun h => absurd hequal h⟩,
      ⟨fun _ => hequal, fun _ => rfl⟩, fun h => absurd h (by decide)⟩
  | false =>
    rw [hchanged, if_neg Bool.false_ne_true] at hcode
    have hdiffer : stages.outcome.tree.canonical.compact ≠ stages.before.canonical.compact := by
      intro hequal
      rw [hsame.mpr hequal] at hchanged
      exact absurd hchanged.symm Bool.false_ne_true
    rw [hcode]
    refine ⟨⟨fun _ => hdiffer, fun _ => rfl⟩,
      ⟨fun h => absurd h (by decide), fun h => absurd h hdiffer⟩, ?_⟩
    intro _ hequal
    exact hdiffer (by rw [Node.compact_injective hequal])

/-! ## A paragraph whose data are set -/

/-- The letter `a` with members as its data. -/
def marked (data : Members) : Node := .text "a" { data := some (.object data) }

/-- A paragraph of such a letter. -/
def paragraph (data : Members) : Node := .element "p" [] [marked data] {}

/-- The data that every `a` is to have. -/
def wantedData : Members := [("y", .string "2"), ("x", .string "1")]

/-- The rules that give them these data, in their JSON form. -/
def markingRules : Json := .array [.array [.string "a", (marked wantedData).toJson]]

/-- The text of the configuration with these rules. -/
def markingText : String := (Json.object [("rules", markingRules)]).compact

/-- A paragraph on the standard input, and the configuration in the only file. -/
def markingWorld (data : Members) : World where
  files := ⟨[(["rules.json"], .file markingText.toUTF8)], []⟩
  input := ((paragraph data).compact ++ "\n").toUTF8

/-- The only file of a directory is read at its name. -/
theorem read_onlyFile (content : ByteArray) :
    (⟨[(["rules.json"], .file content)], []⟩ : FileSystem).read "rules.json" = .ok content := by
  have hnames : FileSystem.namesOf "rules.json" = ["rules.json"] := by decide
  have hplain : FileSystem.IsPlain "rules.json" := by
    unfold FileSystem.IsPlain
    decide
  have hleads : (⟨[(["rules.json"], .file content)], []⟩ : FileSystem).Reaches true "rules.json" []
      ["rules.json"] := by
    refine ⟨by decide, by decide, ?_⟩
    rw [hnames, ite_self]
    exact .here hplain nofun nofun
  rw [FileSystem.read, FileSystem.resolve, hleads.lead_eq false]
  rfl

/-- The file spells a configuration with these rules and no other settings. -/
theorem ofText_markingText : Config.ofText markingText = .ok { rules := markingRules } := by
  -- once the text is a list of characters again, the reader can be run on it
  unfold Config.ofText Json.parseRelaxed? markingText Json.compact
  rw [String.toList_ofList]
  rfl

theorem ofJson_markingRules : (RuleSet.ofJson markingRules : Except RuleError (RuleSet Unit)) =
    .ok (.literals [("a", .nodes [marked wantedData])]) := rfl

/-- In the paragraph the only text is replaced by the marked one. -/
theorem replaceTexts_paragraph (data : Members) :
    (paragraph data).replaceTexts Ignore.default.test
      ((Replacement.nodes [marked wantedData]).putFor "a") = paragraph wantedData := by
  have hsplit : Text.split "a".toList "a".toList = [[], []] := by
    refine (Text.split_append (by decide) []).trans ?_
    rw [Text.split_nil (by decide)]
  have hput : (Replacement.nodes [marked wantedData]).putFor "a" "a" =
      some [marked wantedData] := by
    rw [Replacement.putFor_of_isInfix rfl (List.infix_refl _), hsplit]
    rfl
  have hshown : ¬ (Shell.element "p" [] {}).passes Ignore.default.test := by decide
  have hamong : Node.replaceTextsAmong Ignore.default.test
      ((Replacement.nodes [marked wantedData]).putFor "a") [marked data] = [marked wantedData] := by
    refine (Node.replaceTextsAmong.eq_2 ..).trans ?_
    rw [hput]
    rfl
  rw [paragraph, Node.replaceTexts, if_neg hshown, hamong]
  rfl

theorem rawFree_paragraph {data : Members} (h : (Json.object data).RawFree) :
    (paragraph data).toJson.RawFree := by
  have hletter : (marked data).toJson.RawFree := ⟨rfl, trivial, trivial, h, trivial⟩
  exact ⟨rfl, trivial, trivial, ⟨rfl, trivial⟩, ⟨hletter, trivial⟩, trivial⟩

/-- A run on such a paragraph goes through all stages, if the paragraph is read
from its own text. -/
theorem exists_stages_paragraph (data : Members)
    (hvalue : Node.ofJson .outer (paragraph data).toJson = .ok (paragraph data))
    (hfree : (Json.object data).RawFree)
    (hnest : (paragraph data).toJson.nest ≤ Json.Reader.maxDepth)
    (hnumbers : (paragraph data).toJson.numbers = []) :
    ∃ stages : Stages { input := "-" } (some "rules.json") (markingWorld data),
      stages.before = paragraph data ∧ stages.outcome.tree = paragraph wantedData := by
  have hnone : ∀ n, n ∉ (paragraph data).toJson.numbers := by
    intro n hn
    rw [hnumbers] at hn
    exact absurd hn List.not_mem_nil
  -- no numbers, and few levels, so that the text of the paragraph is read back
  have hwithin : Json.Within Json.Reader.maxDepth (paragraph data).toJson :=
    ⟨hnest, fun n hn => absurd hn (hnone n)⟩
  have htext : Node.ofDocument ((paragraph data).compact ++ "\n") = .ok (paragraph data) :=
    (ofDocument_outputText hwithin (rawFree_paragraph hfree) hvalue (fun x hx =>
      absurd hx (hnone _)) false).trans (if_pos hnest)
  have hread : (markingWorld data).tree "-" = .ok (paragraph data) := by
    refine (tree_input rfl).trans ?_
    rw [htext]
    rfl
  have htest : Ignore.default.test.byTag = true := rfl
  have hfits : ∀ pair ∈ [("a", Replacement.nodes [marked wantedData])],
      (Find.literal pair.1).Fits := by
    decide
  obtain ⟨outcome, hrun, hresult⟩ :=
    findAndReplace_literals (paragraph data) hfits htest ()
  let stages : Stages { input := "-" } (some "rules.json") (markingWorld data) :=
    { config := some { rules := markingRules }
      rules := .literals [("a", .nodes [marked wantedData])]
      before := paragraph data
      outcome
      loaded := _
      loads := loadConfig_given (read_onlyFile _) ofText_markingText
      hasRules := congrArg (Except.mapError Failure.badRules) ofJson_markingRules
      reads := hread
      replaces := hrun }
  exact ⟨stages, rfl, hresult.trans (replaceTexts_paragraph data)⟩

/-- Where the data are not the wanted ones, the tree would change. -/
theorem code_check_iff_emptyData :
    let args : ApplyArgs := { input := "-" }
    ∃ written,
      runRequest World.host
        (.run ⟨.apply { args with check := false, pretty := false }, some "rules.json", false⟩)
        (markingWorld []) = (.done, written) ∧
      (runRequest World.host (.run ⟨.apply { args with check := true }, some "rules.json", false⟩)
        (markingWorld [])).1.code = 1 := by
  intro args
  obtain ⟨stages, hbefore, hafter⟩ :=
    exists_stages_paragraph [] rfl ⟨rfl, trivial⟩ (by decide) rfl
  obtain ⟨written, hrun, hgains⟩ := stages.done_of_output_none rfl rfl rfl false
  refine ⟨written, hrun, ?_⟩
  obtain ⟨before, after, hread, hwritten, hcode, -⟩ :=
    code_check_iff args (some "rules.json") false hrun
  have htold : before = stages.before := Except.ok.inj (hread.symm.trans stages.readTree_eq)
  have hgiven : after = stages.outcome.tree :=
    Node.compact_injective (String.append_left_inj "\n" |>.mp (hwritten.text_eq hgains))
  have hsame : stages.outcome.tree.same stages.before = false := by
    rw [hbefore, hafter]
    rfl
  rw [hcode, htold, hgiven, Ne, ← stages.same_iff, hsame]
  exact Bool.false_ne_true

/-- Where only the order of the members is another, what is written is another
text, and still the question is answered with 0. -/
theorem code_check_reorderedData :
    let args : ApplyArgs := { input := "-" }
    let before := paragraph wantedData.reverse
    let after := paragraph wantedData
    let world := markingWorld wantedData.reverse
    ∃ written,
      runRequest World.host
        (.run ⟨.apply { args with check := false, pretty := false }, some "rules.json", false⟩)
          world =
          (.done, written) ∧
      (readTree World.host args.input world).1 = .ok before ∧
      world.Gains written args.output (after.compact ++ "\n") ∧
      after.compact ≠ before.compact ∧
      (runRequest World.host (.run ⟨.apply { args with check := true }, some "rules.json", false⟩)
        world).1.code = 0 := by
  intro args before after world
  obtain ⟨stages, hbefore, hafter⟩ :=
    exists_stages_paragraph wantedData.reverse rfl (⟨rfl, trivial, trivial, trivial⟩)
      (by decide) rfl
  obtain ⟨written, hrun, hgains⟩ := stages.done_of_output_none rfl rfl rfl false
  have hsame : stages.outcome.tree.same stages.before = true := by
    rw [hbefore, hafter]
    rfl
  have hdiffer : after.compact ≠ before.compact := by
    intro hequal
    have htrees : paragraph wantedData = paragraph wantedData.reverse :=
      Node.compact_injective hequal
    -- equal trees would have the data in one order
    obtain ⟨-, -, hchildren, -⟩ := Node.element.inj htrees
    obtain ⟨-, hinfo⟩ := Node.text.inj (List.cons.inj hchildren).1
    have hdata : wantedData = wantedData.reverse :=
      Json.object.inj (Option.some.inj (congrArg Info.data hinfo))
    have hkeys : wantedData.map Prod.fst = wantedData.reverse.map Prod.fst := congrArg _ hdata
    exact absurd hkeys (by decide)
  refine ⟨written, hrun, ?_, ?_, hdiffer, ?_⟩
  · exact stages.readTree_eq.trans (congrArg Except.ok hbefore)
  · rw [hafter] at hgains
    exact hgains
  · rw [runRequest_apply, Stages.runApply_check stages, hsame]
    rfl

end Graft.Command
