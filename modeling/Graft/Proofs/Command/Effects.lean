import Graft.Proofs.Command.Stages
import Graft.Proofs.FileSystem.Writing

/-!
# What a run of the command changes

A run (`main`, with `run_apply` and `write_tree` inside) either hands out one
text, to a file or to the standard output, or it changes nothing at all. What is
made of the tree is worked out from the files and the input as they are at the
start, and only then is anything handed out; so it makes no difference if the
file that is written is one of those that have been read.

`World.rewriting` is that computation, a function of the world at the start
without any effects. `World.Refuses` and `World.Receives` describe handing out a
text from its two ends: a place that cannot be written, or an output that fails,
refuses it, and any other receives it and is otherwise as before. The run is
then told by its exit code alone. Code 2 stands for every failure, among them
that the output refuses the text; code 1 only for a tree that would change, when
the run was asked for that; and code 0 for everything else.

The log is left out of what is compared. It grows in every run and is not an
effect that anything in the program reads (`World.OnlyLogs`).

Main statements:
- `runRequest_cases`: a run fails, tells whether the tree would change, or hands
  out a text;
- `effects_of_apply`: how a run ends, and what it leaves behind, for every world
  and all arguments.
-/

namespace Graft.Command

/-! ## Handing out -/

/-- Whether a text cannot go to a destination: the standard output has a fault,
or the file at the path cannot be written. -/
def World.Refuses (world : World) (output : Option String) (text : String) : Prop :=
  match output with
  | none => ∃ cause, world.outputFault = some cause
  | some path => ∃ cause, world.files.write path text.toUTF8 = .error cause

/-- Handing out fails exactly where the destination refuses the text. -/
theorem exists_handOut_error_iff {world : World} {text : String} {output : Option String} :
    (∃ failure, world.handOut text output = .error failure) ↔ world.Refuses output text := by
  cases output with
  | none =>
    have hprinted := @World.printed_eq_error_iff world text
    show (∃ failure, (world.printed text).mapError Failure.unwritableOutput = .error failure) ↔
      ∃ cause, world.outputFault = some cause
    simp only [← hprinted, exists_mapError_error_iff]
  | some path =>
    show (∃ failure, ((world.files.write path text.toUTF8).mapError (Failure.unwritable path)).map
      _ =
      .error failure) ↔ ∃ cause, world.files.write path text.toUTF8 = .error cause
    simp only [map_eq_error_iff, exists_mapError_error_iff]

/-- Whether a text has gone to one destination and nothing else has changed: to
the standard output, or to the file at a path. -/
def World.Receives (before after : World) (output : Option String) (text : String) : Prop :=
  match output with
  | none => after.output = before.output ++ text ∧ after.files = before.files
  | some path => after.output = before.output ∧
    ∃ location, before.files.Replaces after.files path text.toUTF8 location

/-- What is handed out is received. -/
theorem World.receives_of_handOut {world left : World} {text : String} {output : Option String}
    (h : world.handOut text output = .ok left) : world.Receives left output text := by
  cases output with
  | none =>
    obtain ⟨-, rfl⟩ := World.printed_eq_ok_iff.mp (mapError_eq_ok_iff.mp h)
    exact ⟨rfl, rfl⟩
  | some path =>
    have hwrite := World.gains_of_handOut h
    obtain ⟨files, -, rfl⟩ := map_eq_ok h
    exact ⟨rfl, FileSystem.replaces_of_write hwrite⟩

/-- What is logged afterwards makes no difference. -/
theorem World.Receives.onlyLogs {before left after : World} {output : Option String} {text : String}
    (h : before.Receives left output text) (hlogs : left.OnlyLogs after) :
    before.Receives after output text := by
  obtain ⟨log, rfl⟩ := hlogs
  cases output <;> exact h

/-! ## Runs -/

/-- The ways in which a run ends: it fails, it tells whether the tree would
change, or it hands out the text of the tree. -/
theorem runRequest_cases (args : ApplyArgs) (configPath : Option String) (verbose : Bool)
    (world : World) :
    let run := runRequest World.host (.run ⟨.apply args, configPath, verbose⟩) world
    let rewriting := world.rewriting args configPath
    (∃ failure, rewriting = .error failure ∧ run.1 = .failed failure ∧ world.OnlyLogs run.2) ∨
    ∃ before tree, rewriting = .ok (before, tree) ∧
      (args.check = true ∧ run.1 = (if tree.same before then .done else .wouldChange) ∧
        world.OnlyLogs run.2 ∨
      args.check = false ∧
        ((∃ failure, world.handOut (outputText tree args.pretty) args.output = .error failure ∧
          run.1 = .failed failure ∧ world.OnlyLogs run.2) ∨
        ∃ left, world.handOut (outputText tree args.pretty) args.output = .ok left ∧
          run.1 = .done ∧ left.OnlyLogs run.2)) := by
  intro run rewriting
  have hrun : run = (.ofApply (runApply World.host args configPath world).1,
      (runApply World.host args configPath world).2) := runRequest_apply args configPath
        verbose world
  clear_value run
  subst hrun
  cases hrewriting : world.rewriting args configPath with
  | error failure =>
    obtain ⟨after, hrun, hlogs⟩ := runApply_of_rewriting_error hrewriting
    rw [hrun]
    exact Or.inl ⟨failure, hrewriting, rfl, hlogs⟩
  | ok rewritten =>
    obtain ⟨before, tree⟩ := rewritten
    obtain ⟨stages, rfl, rfl⟩ := Stages.of_rewriting hrewriting
    refine Or.inr ⟨_, _, hrewriting, ?_⟩
    rw [stages.runApply_eq]
    cases args.check with
    | true =>
      refine Or.inl ⟨rfl, ?_, stages.onlyLogs.trans ⟨_, rfl⟩⟩
      show Result.ofApply (.ok !stages.outcome.tree.same stages.before) = _
      cases stages.outcome.tree.same stages.before <;> rfl
    | false =>
      refine Or.inr ⟨rfl, ?_⟩
      rw [if_neg Bool.false_ne_true]
      -- what the passes have logged makes no difference to what is handed out
      have hwrite := writeTree_handOut stages.outcome.tree args stages.logged
      rw [stages.onlyLogs.handOut] at hwrite
      cases hleft : world.handOut (outputText stages.outcome.tree args.pretty) args.output with
      | error failure =>
        rw [hleft] at hwrite
        rw [hwrite]
        exact Or.inl ⟨failure, rfl, rfl, stages.onlyLogs⟩
      | ok left =>
        rw [hleft] at hwrite
        obtain ⟨after, hwrote, hlogs⟩ := hwrite
        rw [hwrote]
        exact Or.inr ⟨left, rfl, rfl, World.OnlyLogs.trans ⟨_, rfl⟩ hlogs⟩

section

variable (args : ApplyArgs) (configPath : Option String) (verbose : Bool) (world : World)

/-- A run that fails, or is only asked whether the tree would change, changes
neither files nor output. -/
theorem unchanged_of_code_or_check :
    let run := runRequest World.host (.run ⟨.apply args, configPath, verbose⟩) world
    run.1.code = 2 ∨ args.check = true →
      run.2.files = world.files ∧ run.2.output = world.output := by
  intro run hends
  rcases runRequest_cases args configPath verbose world with
    ⟨_, -, -, hlogs⟩ | ⟨before, tree, -,
      ⟨-, -, hlogs⟩ | ⟨hcheck, ⟨_, -, -, hlogs⟩ | ⟨_, -, hresult, -⟩⟩⟩
  · exact ⟨hlogs.files_eq, hlogs.output_eq⟩
  · exact ⟨hlogs.files_eq, hlogs.output_eq⟩
  · exact ⟨hlogs.files_eq, hlogs.output_eq⟩
  · have hcode : run.1.code = 0 := congrArg Result.code hresult
    simp [hcode, hcheck] at hends

/-- A run fails exactly if nothing can be made of the tree, or if the result
cannot go where it should. -/
theorem code_eq_two_iff :
    (runRequest World.host (.run ⟨.apply args, configPath, verbose⟩) world).1.code = 2 ↔
      (∃ failure, world.rewriting args configPath = .error failure) ∨
      args.check = false ∧ ∃ before tree, world.rewriting args configPath = .ok (before, tree) ∧
        world.Refuses args.output (outputText tree args.pretty) := by
  rcases runRequest_cases args configPath verbose world with
    ⟨failure, hrewriting, hresult, -⟩ | ⟨before, tree, hrewriting, ⟨hcheck, hresult, -⟩ |
      ⟨hcheck, ⟨failure, hout, hresult, -⟩ | ⟨left, hout, hresult, -⟩⟩⟩
  · simp [hresult, hrewriting, Result.code]
  · cases hsame : tree.same before <;> simp [hresult, hrewriting, hcheck, hsame, Result.code]
  · have hrefuses := exists_handOut_error_iff.mp ⟨failure, hout⟩
    have hcode : (Result.failed failure).code = 2 := rfl
    rw [hresult, hcode]
    exact ⟨fun _ => Or.inr ⟨hcheck, before, tree, hrewriting, hrefuses⟩, fun _ => rfl⟩
  · have hnone : ¬∃ failure, world.handOut (outputText tree args.pretty) args.output =
        .error failure := by
      simp [hout]
    rw [exists_handOut_error_iff] at hnone
    simpa [hresult, hrewriting, hcheck, Result.code] using hnone

/-- A run tells that the tree would change exactly if it is asked, and the tree
that is made is another one. -/
theorem code_eq_one_iff :
    (runRequest World.host (.run ⟨.apply args, configPath, verbose⟩) world).1.code = 1 ↔
      args.check = true ∧
        ∃ before tree, world.rewriting args configPath = .ok (before, tree) ∧
          tree.same before = false := by
  rcases runRequest_cases args configPath verbose world with
    ⟨failure, hrewriting, hresult, -⟩ | ⟨before, tree, hrewriting, ⟨hcheck, hresult, -⟩ |
      ⟨hcheck, ⟨_, -, hresult, -⟩ | ⟨_, -, hresult, -⟩⟩⟩
  · simp [hresult, hrewriting, Result.code]
  · cases hsame : tree.same before <;> simp [hresult, hrewriting, hcheck, hsame, Result.code,
      and_assoc]
  · simp [hresult, hcheck, Result.code]
  · simp [hresult, hcheck, Result.code]

/-- A run that succeeds and is not asked has handed out the text of the tree
that is made. -/
theorem receives_of_code_eq_zero :
    let run := runRequest World.host (.run ⟨.apply args, configPath, verbose⟩) world
    run.1.code = 0 → args.check = false →
      ∃ before tree, world.rewriting args configPath = .ok (before, tree) ∧
        world.Receives run.2 args.output (outputText tree args.pretty) := by
  intro run hcode hcheck
  rcases runRequest_cases args configPath verbose world with
    ⟨failure, -, hresult, -⟩ | ⟨before, tree, hrewriting, ⟨hasked, -, -⟩ |
      ⟨-, ⟨failure, -, hresult, -⟩ | ⟨left, hout, -, hlogs⟩⟩⟩
  · exact nomatch (congrArg Result.code hresult).symm.trans hcode
  · exact nomatch hcheck.symm.trans hasked
  · exact nomatch (congrArg Result.code hresult).symm.trans hcode
  · exact ⟨before, tree, hrewriting, (World.receives_of_handOut hout).onlyLogs hlogs⟩

/-- How a run of the command ends, and what it leaves behind. If it ends with 2,
or if it is only asked whether the tree would change, no file is changed and
nothing is written to the standard output. It ends with 2 exactly if nothing can
be made of the tree, for want of a configuration, of rules or of the tree
itself, or if it is not asked and the result cannot be written, be it to the
file or to the standard output. It ends with 1 exactly if it is asked whether
the tree would change, and the tree that is made differs from the one that is
read. In all other cases it ends with 0, and unless it is asked, the text of the
tree that is made has gone to the file at the path that is given, or else to the
standard output, and nothing else has changed. -/
theorem effects_of_apply :
    let run := runRequest World.host (.run ⟨.apply args, configPath, verbose⟩) world
    let code := run.1.code
    let rewriting := world.rewriting args configPath
    (code = 2 ∨ args.check = true → run.2.files = world.files ∧ run.2.output = world.output) ∧
    (code = 2 ↔ (∃ failure, rewriting = .error failure) ∨
      args.check = false ∧ ∃ before tree, rewriting = .ok (before, tree) ∧
        world.Refuses args.output (outputText tree args.pretty)) ∧
    (code = 1 ↔ args.check = true ∧ ∃ before tree,
      rewriting = .ok (before, tree) ∧ tree.same before = false) ∧
    (code ≠ 2 → code ≠ 1 → code = 0) ∧
    (code = 0 → args.check = false → ∃ before tree, rewriting = .ok (before, tree) ∧
      world.Receives run.2 args.output (outputText tree args.pretty)) := by
  intro run code rewriting
  refine ⟨unchanged_of_code_or_check args configPath verbose world,
    code_eq_two_iff args configPath verbose world,
    code_eq_one_iff args configPath verbose world, fun htwo hone => ?_,
    receives_of_code_eq_zero args configPath verbose world⟩
  show run.1.code = 0
  cases hresult : run.1 with
  | done => rfl
  | wouldChange => exact absurd (congrArg Result.code hresult) hone
  | usage => exact absurd (congrArg Result.code hresult) htwo
  | failed failure => exact absurd (congrArg Result.code hresult) htwo

end

end Graft.Command
