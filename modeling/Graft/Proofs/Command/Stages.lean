import Graft.Command.Run
import Graft.Proofs.Tree.RoundTrip

/-!
# The stages of the command

Up to the point where something is written, the command (`run_apply`) changes
nothing but the log: it reads the configuration (`load_config`), the rules
(`build_schema`) and the tree (`read_tree`), and replaces. A run that goes
beyond this point has gone through all of these stages, and from here on it
either tells whether the tree has changed, or writes it (`write_tree`).

The run is a program over a host that reads, writes and logs. Against the host
of a `World`, whose files, input and output are values, each stage has one lemma
that says what it gives and that the world afterwards differs in its log at most
(`World.OnlyLogs`, a preorder, so that stages compose). A stage that only reads
is thus a function of the world: `World.config`, `World.tree`, and all stages
together `World.rewriting`.

`Stages` is the record of a run that has come so far, with what each stage gave
and the equations for it. There is an inversion lemma that gets it from a run
that succeeds (`Stages.of_runApply`) and an equation that goes on from it
(`Stages.runApply_eq`). What is proved of runs of the command elsewhere opens no
part of the program; it uses these two.

Main statements:
- `loadConfig_onlyLogs`, `readTree_eq`: what is read depends on files and input,
  and reading changes neither;
- `writeTree_handOut`: writing hands out the text of the tree, or fails and
  changes nothing;
- `Stages.of_rewriting`: what is made of the tree is made in the stages of a
  run;
- `Stages.of_runApply`: a run of the command that succeeds has gone through all
  stages;
- `Stages.runApply_eq`: and a run that has gone through them ends with telling
  or writing.
-/

namespace Graft.Command

/-- One step of a run after another. -/
theorem bind_run {α β : Type} {first : StateM World α} {next : α → StateM World β}
    {world after : World} {a : α} (h : first world = (a, after)) :
    (first >>= next) world = next a after := by
  show (match first world with | (a, after) => next a after) = next a after
  rw [h]

/-- Whether a world differs from another in nothing but the log. -/
def World.OnlyLogs (before after : World) : Prop := ∃ log, after = { before with log }

namespace World.OnlyLogs

theorem refl (world : World) : world.OnlyLogs world := ⟨world.log, rfl⟩

theorem trans {first second third : World} (h : first.OnlyLogs second)
    (hnext : second.OnlyLogs third) : first.OnlyLogs third := by
  obtain ⟨log, rfl⟩ := h
  obtain ⟨log, rfl⟩ := hnext
  exact ⟨log, rfl⟩

variable {before after : World}

theorem files_eq (h : before.OnlyLogs after) : after.files = before.files := by
  obtain ⟨log, rfl⟩ := h
  rfl

theorem outputFault_eq (h : before.OnlyLogs after) : after.outputFault = before.outputFault := by
  obtain ⟨log, rfl⟩ := h
  rfl

theorem output_eq (h : before.OnlyLogs after) : after.output = before.output := by
  obtain ⟨log, rfl⟩ := h
  rfl

end World.OnlyLogs

/-! ## Reading -/

/-- The configuration in the file at a path. -/
def World.configAt (world : World) (path : String) : Except Failure Config :=
  match (world.files.read path).bind textOfBytes with
  | .error cause => .error (.unreadableConfig path cause)
  | .ok text => (Config.ofText text).mapError .badConfig

/-- The configuration that a command finds: that of the file that is given, else
of the first one of its name in the working directory, if there is one. -/
def World.config (world : World) (given : Option String) : Except Failure (Option Config) :=
  match given with
  | some path => (world.configAt path).map some
  | none =>
    match Config.fileNames.find? (fun name => world.files.isFile ("./" ++ name)) with
    | some name => (world.configAt ("./" ++ name)).map some
    | none => .ok none

section

variable (world : World)

/-- Reading a configuration changes nothing. -/
theorem readConfig_eq (path : String) :
    readConfig World.host path world = (world.configAt path, world) := by
  have htext : readText World.host path world =
      ((world.files.read path).bind textOfBytes, world) := rfl
  unfold readConfig World.configAt
  rw [bind_run htext]
  cases (world.files.read path).bind textOfBytes <;> rfl

/-- The first of the names that is a file is found, in the directory of the run. -/
theorem findFile_eq (names : List String) :
    findFile World.host names world =
      ((names.find? fun name => world.files.isFile ("./" ++ name)).map ("./" ++ ·), world) := by
  induction names with
  | nil => rfl
  | cons name rest ih =>
    have hfile : World.host.isFile ("./" ++ name) world =
        (world.files.isFile ("./" ++ name), world) := rfl
    unfold findFile
    dsimp only
    rw [bind_run hfile, List.find?_cons]
    cases world.files.isFile ("./" ++ name) with
    | true => rfl
    | false => exact ih

/-- Loading the configuration changes nothing but the log. -/
theorem loadConfig_onlyLogs (given : Option String) :
    ∃ after, loadConfig World.host given world = (world.config given, after) ∧
      world.OnlyLogs after := by
  -- in each of the three cases one line is logged and then at most one file is read
  have hread : ∀ (level : LogLevel) (text path : String), ∃ after,
      (World.host.log ⟨level, text⟩ >>= fun _ =>
        readConfig World.host path >>= fun read => pure (read.map some)) world =
          ((world.configAt path).map some, after) ∧ world.OnlyLogs after := by
    intro level text path
    have hlog : World.host.log ⟨level, text⟩ world =
        ((), { world with log := ⟨level, text⟩ :: world.log }) := rfl
    rw [bind_run hlog, bind_run (readConfig_eq _ path)]
    exact ⟨_, rfl, _, rfl⟩
  unfold loadConfig World.config
  cases given with
  | some path => exact hread .debug _ path
  | none =>
    dsimp only
    rw [bind_run (findFile_eq world Config.fileNames)]
    cases Config.fileNames.find? (fun name => world.files.isFile ("./" ++ name)) with
    | some name => exact hread .info _ ("./" ++ name)
    | none => exact ⟨_, rfl, _, rfl⟩

/-- The bytes of a text are that text. -/
theorem textOfBytes_toUTF8 (text : String) : textOfBytes text.toUTF8 = .ok text := by
  have hvalid : text.toUTF8.IsValidUTF8 := text.isValidUTF8
  unfold textOfBytes String.fromUTF8?
  rw [dif_pos hvalid]
  rfl

/-- A configuration in the file that is given is loaded. -/
theorem loadConfig_given {world : World} {path text : String} {config : Config}
    (hfile : world.files.read path = .ok text.toUTF8) (hconfig : Config.ofText text = .ok config) :
    loadConfig World.host (some path) world =
      (.ok (some config),
        { world with log := ⟨.debug, s!"Using config: {path}"⟩ :: world.log }) := by
  have hread : ∀ log, readConfig World.host path { world with log } =
      (.ok config, { world with log }) := by
    intro log
    have htext : readText World.host path { world with log } = (.ok text, { world with log }) := by
      show ((world.files.read path).bind textOfBytes, _) = _
      rw [hfile, ← textOfBytes_toUTF8 text]
      rfl
    unfold readConfig
    rw [bind_run htext]
    dsimp only
    rw [hconfig]
    rfl
  have hlog : debug World.host s!"Using config: {path}" world =
      ((), { world with log := ⟨.debug, s!"Using config: {path}"⟩ :: world.log }) := rfl
  unfold loadConfig
  dsimp only
  rw [bind_run hlog, bind_run (hread _)]
  rfl

/-- The text that an input holds in a world. -/
def World.treeText (world : World) (input : String) : Except Failure String :=
  if isStandardInput input then (world.standardInput.bind textOfBytes).mapError .unreadableInput
  else ((world.files.read input).bind textOfBytes).mapError (.unreadableTree input)

/-- The tree that an input holds in a world. -/
def World.tree (world : World) (input : String) : Except Failure Node :=
  (world.treeText input).bind fun text => (Node.ofDocument text).mapError (.badTree input)

/-- What is logged does not matter to the tree. -/
theorem World.OnlyLogs.tree_eq {before after : World} (h : before.OnlyLogs after) (input : String) :
    after.tree input = before.tree input := by
  obtain ⟨log, rfl⟩ := h
  rfl

/-- The tree on the standard input. -/
theorem tree_input {world : World} {text : String} (h : world.standardInput = .ok text.toUTF8) :
    world.tree "-" = (Node.ofDocument text).mapError (.badTree "-") := by
  have hhyphen : isStandardInput "-" = true := by decide
  rw [World.tree, World.treeText, if_pos hhyphen, h, Except.bind, textOfBytes_toUTF8]
  rfl

/-- Reading the tree changes nothing. -/
theorem readTree_eq (input : String) :
    readTree World.host input world = (world.tree input, world) := by
  unfold readTree readTreeText World.tree World.treeText
  split <;> rfl

/-- A tree that has been read is that of a text. -/
theorem exists_text_of_tree {world : World} {input : String} {tree : Node}
    (h : world.tree input = .ok tree) : ∃ text, Node.ofDocument text = .ok tree := by
  obtain ⟨text, -, htree⟩ := bind_eq_ok h
  exact ⟨text, mapError_eq_ok_iff.mp htree⟩

/-- One line is logged for each pass. -/
theorem logPasses_onlyLogs (index : Nat) (passes : List PassReport) :
    world.OnlyLogs (logPasses World.host index passes world).2 := by
  induction passes generalizing index world with
  | nil => exact .refl world
  | cons pass rest ih =>
    have hlogged : world.OnlyLogs { world with log :=
        ⟨.debug, s!"Finished pass pair={index} splices={pass.splices}"⟩ ::
        ⟨.debug, s!"Starting pass pair={index} pattern={Text.quoted pass.source}"⟩ :: world.log } :=
      ⟨_, rfl⟩
    exact hlogged.trans (ih _ (index + 1))

end

/-! ## Writing -/

/-- The world after a text has been handed out: behind what stands on the
standard output, or as the file at a path. -/
def World.handOut (world : World) (text : String) : Option String → Except Failure World
  | none => (world.printed text).mapError .unwritableOutput
  | some path =>
    ((world.files.write path text.toUTF8).mapError (.unwritable path)).map fun files =>
      { world with files }

/-- What is logged does not matter to what is handed out. -/
theorem World.OnlyLogs.handOut {before logged : World} (h : before.OnlyLogs logged) (text : String)
    (output : Option String) :
    logged.handOut text output =
      (before.handOut text output).map fun left => { left with log := logged.log } := by
  obtain ⟨log, rfl⟩ := h
  cases output with
  | none =>
    unfold World.handOut World.printed
    dsimp only
    cases before.outputFault <;> rfl
  | some path =>
    unfold World.handOut
    dsimp only
    cases before.files.write path text.toUTF8 <;> rfl

/-- Writing the tree hands out its text, or fails and changes nothing. -/
theorem writeTree_handOut (tree : Node) (args : ApplyArgs) (world : World) :
    match world.handOut (outputText tree args.pretty) args.output with
    | .error failure => writeTree World.host tree args world = (.error failure, world)
    | .ok left => ∃ after, writeTree World.host tree args world = (.ok (), after) ∧
      left.OnlyLogs after := by
  unfold writeTree World.handOut
  -- without a path the text is printed, which may fail as writing a file may
  cases args.output with
  | none =>
    have hprint := world.host_print (outputText tree args.pretty)
    dsimp only
    cases hprinted : world.printed (outputText tree args.pretty) with
    | error cause =>
      rw [hprinted] at hprint
      rw [bind_run hprint]
      rfl
    | ok left =>
      rw [hprinted] at hprint
      refine ⟨left, ?_, .refl _⟩
      rw [bind_run hprint]
      rfl
  | some path =>
    have hwrite : World.host.write path (outputText tree args.pretty).toUTF8 world =
        world.change (world.files.write path (outputText tree args.pretty).toUTF8) := rfl
    dsimp only
    rw [bind_run hwrite]
    cases world.files.write path (outputText tree args.pretty).toUTF8 with
    | error cause => rfl
    | ok files => exact ⟨_, rfl, _, rfl⟩

/-- Whether a text is what a world has gained: behind what stood on the standard
output, or as the file at a path. -/
def World.Gains (before after : World) (output : Option String) (text : String) : Prop :=
  match output with
  | none => after.output = before.output ++ text
  | some path => before.files.write path text.toUTF8 = .ok after.files

/-- The standard output has gained no other text. -/
theorem World.Gains.text_eq {before after : World} {text other : String}
    (h : before.Gains after none text) (hother : before.Gains after none other) : text = other := by
  unfold World.Gains at h hother
  exact String.append_right_inj before.output |>.mp (h.symm.trans hother)

theorem World.OnlyLogs.gains {before logged after : World} (hlogs : before.OnlyLogs logged)
    {output : Option String} {text : String} (h : logged.Gains after output text) :
    before.Gains after output text := by
  unfold World.Gains at h ⊢
  cases output with
  | none => rwa [hlogs.output_eq] at h
  | some path => rwa [hlogs.files_eq] at h

/-- What is logged afterwards makes no difference. -/
theorem World.Gains.onlyLogs {before left after : World} {output : Option String} {text : String}
    (h : before.Gains left output text) (hlogs : left.OnlyLogs after) :
    before.Gains after output text := by
  obtain ⟨log, rfl⟩ := hlogs
  cases output <;> exact h

/-- What is handed out is gained. -/
theorem World.gains_of_handOut {world left : World} {text : String} {output : Option String}
    (h : world.handOut text output = .ok left) : world.Gains left output text := by
  cases output with
  | none =>
    obtain ⟨-, rfl⟩ := World.printed_eq_ok_iff.mp (mapError_eq_ok_iff.mp h)
    rfl
  | some path =>
    obtain ⟨files, hfiles, rfl⟩ := map_eq_ok h
    exact mapError_eq_ok_iff.mp hfiles

/-- When the tree has been written, the world has gained its text. -/
theorem gains_of_writeTree {tree : Node} {args : ApplyArgs} {world after : World}
    (h : writeTree World.host tree args world = (.ok (), after)) :
    world.Gains after args.output (outputText tree args.pretty) := by
  have hout := writeTree_handOut tree args world
  cases hleft : world.handOut (outputText tree args.pretty) args.output with
  | error failure =>
    rw [hleft] at hout
    exact nomatch (Prod.mk.inj (hout.symm.trans h)).1
  | ok left =>
    rw [hleft] at hout
    obtain ⟨other, hwrote, hlogs⟩ := hout
    obtain ⟨-, rfl⟩ := Prod.mk.inj (hwrote.symm.trans h)
    exact (World.gains_of_handOut hleft).onlyLogs hlogs

/-! ## Whole runs -/

/-- How a run ends, told from what the command gives. -/
def Result.ofApply : Except Failure Bool → Result
  | .ok true => .wouldChange
  | .ok false => .done
  | .error failure => .failed failure

/-- A run of the command ends with the result of `runApply`, in the world that
it leaves. -/
theorem runRequest_apply (args : ApplyArgs) (configPath : Option String) (verbose : Bool)
    (world : World) :
    runRequest World.host (.run ⟨.apply args, configPath, verbose⟩) world =
      (.ofApply (runApply World.host args configPath world).1,
        (runApply World.host args configPath world).2) := by
  obtain ⟨result, after, hrun⟩ : ∃ result after,
      runApply World.host args configPath world = (result, after) := ⟨_, _, rfl⟩
  have htask : runTask World.host ⟨.apply args, configPath, verbose⟩ world = (result, after) := hrun
  unfold runRequest
  dsimp only
  rw [bind_run htask, hrun]
  rcases result with failure | changed
  · rfl
  · cases changed <;> rfl

/-- The tree that a command reads in a world, and what it makes of it. -/
def World.rewriting (world : World) (args : ApplyArgs) (configPath : Option String) :
    Except Failure (Node × Node) := do
  let config ← world.config configPath
  let rules ← rulesOf args config
  let before ← world.tree args.input
  let outcome ← (findAndReplace before rules (ignoringOf args config) ()).mapError .badRules
  return (before, outcome.tree)

/-- If there is nothing to make of the tree, the run ends with the reason, and
has changed nothing. -/
theorem runApply_of_rewriting_error {args : ApplyArgs} {configPath : Option String} {world : World}
    {failure : Failure} (h : world.rewriting args configPath = .error failure) :
    ∃ after, runApply World.host args configPath world = (.error failure, after) ∧
      world.OnlyLogs after := by
  -- the first stage that fails ends the run, as it does what is made of the tree
  obtain ⟨loaded, hload, hlogs⟩ := loadConfig_onlyLogs world configPath
  unfold World.rewriting at h
  unfold runApply
  rw [bind_run hload]
  cases hconfig : world.config configPath with
  | error cause =>
    rw [hconfig] at h
    obtain rfl := Except.error.inj h
    exact ⟨loaded, rfl, hlogs⟩
  | ok config =>
    rw [hconfig, ok_bind] at h
    dsimp only
    cases hrules : rulesOf args config with
    | error cause =>
      rw [hrules] at h
      obtain rfl := Except.error.inj h
      exact ⟨loaded, rfl, hlogs⟩
    | ok rules =>
      rw [hrules, ok_bind, ← hlogs.tree_eq] at h
      dsimp only
      rw [bind_run (Command.readTree_eq loaded args.input)]
      cases htree : loaded.tree args.input with
      | error cause =>
        rw [htree] at h
        obtain rfl := Except.error.inj h
        exact ⟨loaded, rfl, hlogs⟩
      | ok before =>
        rw [htree, ok_bind] at h
        dsimp only
        cases hfind : findAndReplace before rules (ignoringOf args config) () with
        | error cause =>
          rw [hfind] at h
          obtain rfl := Except.error.inj h
          exact ⟨loaded, rfl, hlogs⟩
        | ok outcome =>
          rw [hfind] at h
          exact nomatch h

/-- What the command has in hand before it tells or writes anything. -/
structure Stages (args : ApplyArgs) (configPath : Option String) (world : World) where
  config : Option Config
  rules : RuleSet Unit
  before : Node
  outcome : Outcome Unit
  /-- The world when the configuration has been loaded. -/
  loaded : World
  loads : loadConfig World.host configPath world = (.ok config, loaded)
  hasRules : rulesOf args config = .ok rules
  reads : loaded.tree args.input = .ok before
  replaces : findAndReplace before rules (ignoringOf args config) () = .ok outcome

namespace Stages

variable {args : ApplyArgs} {configPath : Option String} {world : World}

/-- The world when the passes have been logged. -/
def logged (stages : Stages args configPath world) : World :=
  (logPasses World.host 0 stages.outcome.passes stages.loaded).2

/-- The stages have changed nothing but the log. -/
theorem onlyLogs (stages : Stages args configPath world) : world.OnlyLogs stages.logged := by
  obtain ⟨after, hload, hlogs⟩ := loadConfig_onlyLogs world configPath
  obtain ⟨-, rfl⟩ := Prod.mk.inj (hload.symm.trans stages.loads)
  exact hlogs.trans (logPasses_onlyLogs _ 0 _)

/-- The tree as it was is the one that is read. -/
theorem readTree_eq (stages : Stages args configPath world) :
    (readTree World.host args.input world).1 = .ok stages.before := by
  obtain ⟨after, hload, hlogs⟩ := loadConfig_onlyLogs world configPath
  obtain ⟨-, rfl⟩ := Prod.mk.inj (hload.symm.trans stages.loads)
  have hreads := stages.reads
  rw [Command.readTree_eq]
  rwa [hlogs.tree_eq] at hreads

/-- After all stages the command tells whether the tree has changed, or writes
it. -/
theorem runApply_eq (stages : Stages args configPath world) :
    runApply World.host args configPath world =
      if args.check then
        let told := tellChange World.host args.input stages.before stages.outcome.tree stages.logged
        (.ok told.1, told.2)
      else
        let wrote := writeTree World.host stages.outcome.tree args stages.logged
        (wrote.1.map fun _ => false, wrote.2) := by
  -- what the stages gave is given again, one after the other
  have htree : readTree World.host args.input stages.loaded =
      (.ok stages.before, stages.loaded) := by
    rw [Command.readTree_eq, stages.reads]
  have hlog : logPasses World.host 0 stages.outcome.passes stages.loaded = ((), stages.logged) :=
    rfl
  unfold runApply
  rw [bind_run stages.loads]
  dsimp only
  rw [stages.hasRules]
  dsimp only
  rw [bind_run htree]
  dsimp only
  rw [stages.replaces]
  dsimp only
  rw [bind_run hlog]
  cases args.check <;> rfl

/-- A run that has gone through all stages and writes to the standard output
succeeds, if it can. -/
theorem done_of_output_none (stages : Stages args configPath world) (hcheck : args.check = false)
    (hout : args.output = none) (hfault : world.outputFault = none) (verbose : Bool) :
    ∃ written, runRequest World.host (.run ⟨.apply args, configPath, verbose⟩) world =
        (.done, written) ∧
      world.Gains written args.output (outputText stages.outcome.tree args.pretty) := by
  have hwrote := writeTree_handOut stages.outcome.tree args stages.logged
  have hprinted : stages.logged.handOut (outputText stages.outcome.tree args.pretty) none =
      .ok { stages.logged with
        output := stages.logged.output ++ outputText stages.outcome.tree args.pretty } :=
    mapError_eq_ok_iff.mpr
      (World.printed_eq_ok_iff.mpr ⟨stages.onlyLogs.outputFault_eq.trans hfault, rfl⟩)
  rw [hout, hprinted] at hwrote
  obtain ⟨written, hwrite, -⟩ := hwrote
  refine ⟨written, ?_, stages.onlyLogs.gains (gains_of_writeTree hwrite)⟩
  rw [runRequest_apply, stages.runApply_eq, hcheck, if_neg Bool.false_ne_true, hwrite]
  rfl

/-- What is made of the tree is made in the stages of a run. -/
theorem of_rewriting {before tree : Node}
    (h : world.rewriting args configPath = .ok (before, tree)) :
    ∃ stages : Stages args configPath world,
      stages.before = before ∧ stages.outcome.tree = tree := by
  obtain ⟨loaded, hload, hlogs⟩ := loadConfig_onlyLogs world configPath
  obtain ⟨config, hconfig, h⟩ := bind_eq_ok h
  obtain ⟨rules, hrules, h⟩ := bind_eq_ok h
  obtain ⟨found, htree, h⟩ := bind_eq_ok h
  obtain ⟨outcome, hfind, h⟩ := bind_eq_ok h
  obtain ⟨rfl, rfl⟩ := Prod.mk.inj (Except.ok.inj h)
  rw [hconfig] at hload
  rw [← hlogs.tree_eq] at htree
  refine ⟨⟨config, rules, found, outcome, loaded, hload, hrules, htree, ?_⟩, rfl, rfl⟩
  cases hrun : findAndReplace found rules (ignoringOf args config) () with
  | error cause => rw [hrun] at hfind; exact nomatch hfind
  | ok other => rw [hrun] at hfind; exact congrArg Except.ok (Except.ok.inj hfind)

/-- A run of the command that succeeds has gone through all stages. -/
theorem of_runApply {changed : Bool} {after : World}
    (h : runApply World.host args configPath world = (.ok changed, after)) :
    Nonempty (Stages args configPath world) := by
  cases hrewriting : world.rewriting args configPath with
  | error failure =>
    obtain ⟨other, hrun, -⟩ := runApply_of_rewriting_error hrewriting
    exact nomatch (Prod.mk.inj (hrun.symm.trans h)).1
  | ok rewritten =>
    obtain ⟨stages, -, -⟩ := of_rewriting hrewriting
    exact ⟨stages⟩

end Stages

end Graft.Command
