import Graft.Proofs.Command.Stages
import Graft.Proofs.FileSystem.Creating

/-!
# What `init` changes

The loop that writes the starter file (`run_init` with `write_starter`) tries to
make it (`open_new`) and, where something is in the way and it is forced to,
removes that and tries again. Nothing bounds the number of rounds, and it needs
none to: what has been removed is not there in the next round, so there are two
at most.

The command bounds its attempts so that it is a function at all. `World.round`
is one turn of the loop, `Rounds` relates a number of turns without a bound to
how they end, and a run of the command is such a number of turns whenever these
end before the bound (`Rounds.writeStarter_eq`). That they do is
`exists_rounds`: whatever the world, one or two turns end the loop.

The cases are those of `FileSystem.create_cases`. Nothing in the way: one round.
Something that can be removed: removing it makes room, and the second round
makes the file. A directory, or a path that leads nowhere: the first round
fails. And one case that is easily overlooked: the path leads across the very
link at its end, so that removing the link cuts the path off. Then the second
round fails, and the link is gone. `Leaves` lists these outcomes with what each
leaves behind, so that everything said about a run is read off it.

The example at the end is the last case, a link to its own directory with a path
through it.

Main statements:
- `Rounds.writeStarter_eq`: the bound on the attempts of the command makes no
  difference to rounds that end before it;
- `exists_rounds`: the rounds end, and what they leave behind;
- `effects_of_init`: how a run of `init` ends, and what it leaves behind, for
  every world and every path.
-/

namespace Graft.Command

open FileSystem (Makes CrossesEnd)

/-! ## Rounds -/

/-- One round of the loop: how it ends the loop, or nothing if another round is
to follow. -/
def World.round (path : String) (force : Bool) (world : World) :
    Option (Except Failure Unit) × World :=
  match world.files.create path starterText.toUTF8 with
  | .ok files => (some (.ok ()), { world with files })
  | .error .alreadyExists =>
    if force then
      let log := ⟨.debug, s!"Replacing {path}"⟩ :: world.log
      match world.files.delete path with
      | .ok files => (none, { world with files, log })
      | .error .notFound => (none, { world with log })
      | .error cause => (some (.error (.notRemoved cause)), { world with log })
    else (some (.error (.exists path)), world)
  | .error cause => (some (.error (.notCreated path cause)), world)

/-- Whether the loop ends after this many rounds, with this result and in this
world. Nothing bounds their number. -/
inductive Rounds (path : String) (force : Bool) :
    Nat → World → Except Failure Unit × World → Prop where
  | ends {world result after} (hround : world.round path force = (some result, after)) :
      Rounds path force 1 world (result, after)
  | again {world between rounds ended} (hround : world.round path force = (none, between))
      (hrest : Rounds path force rounds between ended) : Rounds path force (rounds + 1) world ended

/-- An attempt of the command is a round of the loop. -/
theorem writeStarter_succ (path : String) (force : Bool) (attempts : Nat) (world : World) :
    writeStarter World.host path force (attempts + 1) world =
      match world.round path force with
      | (some result, after) => (result, after)
      | (none, between) => writeStarter World.host path force attempts between := by
  have hcreate : World.host.create path starterText.toUTF8 world =
      world.change (world.files.create path starterText.toUTF8) := rfl
  rw [writeStarter, World.round]
  -- the file is made, or something is in the way, or it fails otherwise
  cases hfiles : world.files.create path starterText.toUTF8 with
  | ok files =>
    rw [hfiles] at hcreate
    rw [bind_run hcreate]
    rfl
  | error cause =>
    rw [hfiles] at hcreate
    rw [bind_run hcreate]
    cases cause with
    | alreadyExists =>
      cases force with
      | false => rfl
      | true =>
        let noted : World := { world with log := ⟨.debug, s!"Replacing {path}"⟩ :: world.log }
        have hlog : World.host.log ⟨.debug, s!"Replacing {path}"⟩ world = ((), noted) := rfl
        have hdelete : World.host.delete path noted = noted.change (world.files.delete path) := rfl
        dsimp only
        rw [if_pos rfl, if_pos rfl, bind_run hlog]
        cases hdeleted : world.files.delete path with
        | ok files =>
          rw [hdeleted] at hdelete
          rw [bind_run hdelete]
        | error cause =>
          rw [hdeleted] at hdelete
          rw [bind_run hdelete]
          cases cause <;> rfl
    | _ => rfl

/-- However many attempts the command may make, if they are enough for the
rounds, it ends as the loop does. -/
theorem Rounds.writeStarter_eq {path : String} {force : Bool} {rounds : Nat} {world : World}
    {ended : Except Failure Unit × World} (h : Rounds path force rounds world ended)
    {attempts : Nat}
    (hle : rounds ≤ attempts) : writeStarter World.host path force attempts world = ended := by
  induction h generalizing attempts with
  | ends hround =>
    obtain ⟨rest, rfl⟩ : ∃ rest, attempts = rest + 1 := ⟨attempts - 1, by omega⟩
    rw [writeStarter_succ, hround]
  | again hround _ ih =>
    obtain ⟨rest, rfl⟩ : ∃ rest, attempts = rest + 1 := ⟨attempts - 1, by omega⟩
    rw [writeStarter_succ, hround]
    exact ih (Nat.le_of_succ_le_succ hle)

/-! ## How the loop ends -/

/-- How the loop ends, and what it leaves behind: the starter file is made, or
nothing is changed, or else a symbolic link at the end of the path is removed
that the path leads across. -/
inductive Leaves (path : String) (force : Bool) (before : FileSystem) :
    Except Failure Unit → FileSystem → Prop where
  | made {after location} (hroom : before.HasRoom path force)
      (hmakes : before.Makes after path starterText.toUTF8 location)
      (hkept : force = false → before.at? location = none) : Leaves path force before (.ok ()) after
  | kept {failure} (hroom : ¬before.HasRoom path force)
      (hcrosses : force = true → ¬before.CrossesEnd path) :
      Leaves path force before (.error failure) before
  | torn {failure location target} (hforce : force = true) (hcrosses : before.CrossesEnd path)
      (hlink : before.resolve false path = .ok (.present location (.symlink target))) :
      Leaves path force before (.error failure) (before.remove location)

section

variable {path : String} {force : Bool} {world : World}

/-- A round that fails and changes nothing ends the loop. -/
theorem exists_rounds_of_kept {failure : Failure} {after : World}
    (hround : world.round path force = (some (.error failure), after))
    (hfiles : after.files = world.files)
    (hroom : ¬world.files.HasRoom path force)
    (hcrosses : force = true → ¬world.files.CrossesEnd path) :
    ∃ rounds ≤ 2, ∃ result after, Rounds path force rounds world (result, after) ∧
      Leaves path force world.files result after.files := by
  refine ⟨1, Nat.le_succ 1, _, _, .ends hround, ?_⟩
  rw [hfiles]
  exact .kept hroom hcrosses

/-- So it does where something is there and is to stay. -/
theorem exists_rounds_of_present {location : Location} {entry : Entry}
    (hplace : world.files.place false path = .ok (.present location entry))
    (hcreate : world.files.create path starterText.toUTF8 = .error .alreadyExists) :
    ∃ rounds ≤ 2, ∃ result after, Rounds path false rounds world (result, after) ∧
      Leaves path false world.files result after.files := by
  have hround : world.round path false = (some (.error (.exists path)), world) := by
    rw [World.round, hcreate]
    rfl
  have hroom : ¬world.files.HasRoom path false := by
    refine FileSystem.not_hasRoom_of_place (fun there hfree => ?_) fun _ _ _ => Bool.noConfusion
    cases hfree.symm.trans hplace
  exact exists_rounds_of_kept hround rfl hroom Bool.noConfusion

/-- What is in the way is removed in one round, and the next one ends the loop:
the file is made where there is room for it now, or else the path has led across
what has been removed. -/
theorem exists_rounds_of_removed {crossed : List Location} {location : Location}
    (hreaches : world.files.Reaches false path crossed location) {entry : Entry}
    (hat : world.files.at? location = some entry) {between : World}
    (hround : world.round path true = (none, between))
    (hbetween : between.files = world.files.remove location) :
    ∃ rounds ≤ 2, ∃ result after, Rounds path true rounds world (result, after) ∧
      Leaves path true world.files result after.files := by
  -- whether the path survives the removal decides the second round
  by_cases hcrosses : world.files.CrossesEnd path
  · obtain ⟨there, target, hlead, hcreate⟩ := hcrosses.exists_link
    have hlink := Except.ok.inj ((hreaches.lead_eq false).symm.trans (hlead false))
    obtain ⟨rfl, -⟩ := FileSystem.at?_of_found_present hlink
    have hends : between.round path true =
        (some (.error (.notCreated path .notFound)), between) := by
      rw [World.round, hbetween, hcreate]
    refine ⟨2, Nat.le_refl 2, _, _, .again hround (.ends hends), ?_⟩
    rw [hbetween]
    exact .torn rfl hcrosses (hlead false)
  · have hnot : location ∉ crossed := fun hmem => hcrosses ⟨crossed, location, hreaches, hmem⟩
    have hfree := FileSystem.at?_remove_self world.files hreaches.leads.ne_nil
    have hcreate := FileSystem.create_of_free (hreaches.remove hnot) hfree starterText.toUTF8
    rw [← hbetween] at hcreate
    have hends : between.round path true = (some (.ok ()), { between with
        files := between.files.put location (.file starterText.toUTF8) }) := by
      rw [World.round, hcreate]
    refine ⟨2, Nat.le_refl 2, _, _, .again hround (.ends hends), ?_⟩
    rw [hbetween]
    refine .made (Or.inr ⟨rfl, hcrosses, location, entry, ?_, ?_⟩)
      (Makes.of_removed hreaches hnot _) Bool.noConfusion
    · rw [FileSystem.place, hreaches.lead_eq true, FileSystem.found, hat]
    · intro hdirectory
      rw [hdirectory] at hat
      exact hreaches.leads.not_directory hat

end

/-- The loop ends after two rounds at most. -/
theorem exists_rounds (path : String) (force : Bool) (world : World) :
    ∃ rounds ≤ 2, ∃ result after, Rounds path force rounds world (result, after) ∧
      Leaves path force world.files result after.files := by
  rcases world.files.create_cases path starterText.toUTF8 with
    ⟨crossed, location, hreaches, hfree, hcreate⟩ |
    ⟨crossed, location, entry, hreaches, hat, hcreate, hdelete⟩ |
    ⟨location, hplace, hcreate, hdelete⟩ |
    ⟨cause, hcause, hplace, hcreate⟩
  · -- nothing is there
    have hround : world.round path force =
        (some (.ok ()),
          { world with files := world.files.put location (.file starterText.toUTF8) }) := by
      rw [World.round, hcreate]
    have hplace : world.files.place false path = .ok (.free location) := by
      rw [FileSystem.place, hreaches.lead_eq true, FileSystem.found, hfree]
    exact ⟨1, Nat.le_succ 1, _, _, .ends hround,
      .made (Or.inl ⟨location, hplace⟩) (Makes.of_free hreaches hfree _) fun _ => hfree⟩
  · -- a file or a symbolic link is there
    cases force with
    | false =>
      have hplace : world.files.place false path = .ok (.present location entry) := by
        rw [FileSystem.place, hreaches.lead_eq true, FileSystem.found, hat]
      exact exists_rounds_of_present hplace hcreate
    | true =>
      have hround : ∃ log, world.round path true =
          (none, { world with files := world.files.remove location, log }) := by
        rw [World.round, hcreate, hdelete]
        exact ⟨_, rfl⟩
      obtain ⟨log, hround⟩ := hround
      exact exists_rounds_of_removed hreaches hat hround rfl
  · -- a directory is there
    cases force with
    | false => exact exists_rounds_of_present hplace hcreate
    | true =>
      have hround : ∃ log, world.round path true =
          (some (.error (.notRemoved .isADirectory)), { world with log }) := by
        rw [World.round, hcreate, hdelete]
        exact ⟨_, rfl⟩
      obtain ⟨log, hround⟩ := hround
      refine exists_rounds_of_kept hround rfl (FileSystem.not_hasRoom_of_place ?_ ?_)
        fun _ => FileSystem.not_crossesEnd_of_place ?_
      · intro there hfree
        cases hfree.symm.trans hplace
      · intro there entry hpresent _
        cases hpresent.symm.trans hplace
        rfl
      · intro there target hlink
        cases hlink.symm.trans hplace
  · -- the path leads nowhere
    have hround : world.round path force = (some (.error (.notCreated path cause)), world) := by
      rw [World.round, hcreate]
      cases cause with
      | alreadyExists => exact absurd rfl hcause
      | _ => rfl
    have hnowhere : ∀ target, world.files.place false path ≠ .ok target := by
      intro target htarget
      cases htarget.symm.trans hplace
    exact exists_rounds_of_kept hround rfl
      (FileSystem.not_hasRoom_of_place (fun _ => hnowhere _) fun _ _ hpresent =>
        absurd hpresent (hnowhere _))
      fun _ => FileSystem.not_crossesEnd_of_place fun _ _ => hnowhere _

namespace Leaves

variable {path : String} {force : Bool} {before after : FileSystem} {result : Except Failure Unit}

/-- The loop succeeds exactly where there is room for the file, or can be made. -/
theorem eq_ok_iff (h : Leaves path force before result after) :
    result = .ok () ↔ before.HasRoom path force := by
  cases h with
  | made hroom => exact ⟨fun _ => hroom, fun _ => rfl⟩
  | kept hroom => exact ⟨nofun, fun h => absurd h hroom⟩
  | torn _ hcrosses => exact ⟨nofun, fun h => absurd h (hcrosses.not_hasRoom force)⟩

/-- Where it succeeds the file has been made; without force nothing was there
before. -/
theorem exists_makes (h : Leaves path force before (.ok ()) after) :
    ∃ location, before.Makes after path starterText.toUTF8 location ∧
      (force = false → before.at? location = none) := by
  cases h with
  | made _ hmakes hkept => exact ⟨_, hmakes, hkept⟩

/-- Where it fails nothing has changed, unless the path crosses its own end and
is forced. -/
theorem eq_of_not_crossesEnd {failure : Failure}
    (h : Leaves path force before (.error failure) after)
    (hcrosses : force = true → ¬before.CrossesEnd path) : after = before := by
  cases h with
  | kept => rfl
  | torn hforce hcrossed => exact absurd hcrossed (hcrosses hforce)

/-- In that case the link at the end of the path is gone, and nothing else. -/
theorem exists_removed {failure : Failure} (h : Leaves path force before (.error failure) after)
    (hforce : force = true) (hcrosses : before.CrossesEnd path) :
    ∃ location target, before.resolve false path = .ok (.present location (.symlink target)) ∧
      after.at? location = none := by
  cases h with
  | kept _ hnot => exact absurd hcrosses (hnot hforce)
  | @torn _ location target _ _ hlink =>
    obtain ⟨crossed, there, hreaches, -⟩ := hcrosses
    obtain ⟨rfl, -⟩ :=
      FileSystem.at?_of_found_present (Except.ok.inj ((hreaches.lead_eq false).symm.trans hlink))
    exact ⟨_, target, hlink, FileSystem.at?_remove_self before hreaches.leads.ne_nil⟩

/-- Nothing is changed but at the end of the path. -/
theorem at?_eq (h : Leaves path force before result after) {other : Location}
    (hother : before.resolve false path ≠ .ok (before.found other)) :
    after.at? other = before.at? other := by
  cases h with
  | made _ hmakes =>
    refine hmakes.elsewhere other fun hsame => hother ?_
    rw [hmakes.led, hsame]
  | kept => rfl
  | @torn _ location target _ hcrosses hlink =>
    obtain ⟨crossed, there, hreaches, -⟩ := hcrosses
    have hled : before.resolve false path = .ok (before.found there) := hreaches.lead_eq false
    obtain ⟨rfl, -⟩ := FileSystem.at?_of_found_present (Except.ok.inj (hled.symm.trans hlink))
    refine FileSystem.at?_remove_ne before fun hsame => hother ?_
    rw [hled, hsame]

/-- The file that a link at the end of the path leads to stands elsewhere, so it
is kept. -/
theorem at?_of_link (h : Leaves path force before result after) {target : String}
    {location there : Location}
    {content : ByteArray}
    (hlink : before.resolve false path = .ok (.present location (.symlink target)))
    (hfile : before.resolve true path = .ok (.present there (.file content))) :
    after.at? there = some (.file content) := by
  have hat : before.at? there = some (.file content) := FileSystem.at?_of_lead_file hfile
  rw [h.at?_eq, hat]
  intro hled
  obtain ⟨rfl, hother⟩ := FileSystem.at?_of_found_present (Except.ok.inj (hled.symm.trans hlink))
  cases hother.symm.trans hat

end Leaves

/-! ## Runs -/

/-- A run of `init` ends as the loop does, and only adds to the log. -/
theorem runRequest_init (configPath : Option String) (force verbose : Bool) (world : World)
    {result : Except Failure Unit} {after : World}
    (h : writeStarter World.host (configPath.getD ".textsplice.jsonc") force maxAttempts world =
      (result, after)) :
    ∃ left, after.OnlyLogs left ∧
      runRequest World.host (.run ⟨.init force, configPath, verbose⟩) world =
      (.ofApply (result.map fun _ => false), left) := by
  obtain ⟨left, hlogs, hinit⟩ : ∃ left, after.OnlyLogs left ∧
      runInit World.host configPath force world = (result, left) := by
    have hwritten : writeStarter World.host (configPath.getD (Config.fileNames.headD "")) force
      maxAttempts world =
        (result, after) := h
    unfold runInit
    rw [bind_run hwritten]
    -- what is logged afterwards does not depend on the file system
    cases result with
    | error failure => exact ⟨after, .refl after, rfl⟩
    | ok => exact ⟨_, ⟨_, rfl⟩, rfl⟩
  have htask : runTask World.host ⟨.init force, configPath, verbose⟩ world =
      (result.map fun _ => false, left) := by
    unfold runTask
    dsimp only
    rw [bind_run hinit]
    rfl
  refine ⟨left, hlogs, ?_⟩
  unfold runRequest
  dsimp only
  rw [bind_run htask]
  cases result <;> rfl

/-- A run of `init` ends after two rounds at most, and leaves behind what the
loop does. -/
theorem leaves_of_init (configPath : Option String) (force verbose : Bool) (world : World) :
    let path := configPath.getD ".textsplice.jsonc"
    let run := runRequest World.host (.run ⟨.init force, configPath, verbose⟩) world
    (∃ rounds ≤ 2, Rounds path force rounds world
      (writeStarter World.host path force maxAttempts world)) ∧
      ∃ result : Except Failure Unit, run.1 = .ofApply (result.map fun _ => false) ∧
        Leaves path force world.files result run.2.files := by
  intro path run
  obtain ⟨rounds, hle, result, written, hrounds, hleaves⟩ := exists_rounds path force world
  have hwrite : writeStarter World.host path force maxAttempts world = (result, written) :=
    hrounds.writeStarter_eq (Nat.le_trans hle (by decide))
  obtain ⟨left, hlogs, hrun⟩ := runRequest_init configPath force verbose world hwrite
  have hrun : run = (.ofApply (result.map fun _ => false), left) := hrun
  rw [hwrite, hrun]
  rw [← hlogs.files_eq] at hleaves
  exact ⟨⟨rounds, hle, hrounds⟩, result, rfl, hleaves⟩

/-- How a run of `init` ends, and what it leaves behind. The loop ends after two
rounds at most. The run succeeds exactly if there is room for the starter file;
then the path leads to a file with this text, and if it is not forced, nothing
was there before. If it fails, the files are as they were, unless it is forced
and the path leads across the very symbolic link that stands at its end; then
the run does fail, and that link is gone. In every case nothing is changed but
what the path itself names, so the file that a link at its end leads to is kept.
-/
theorem effects_of_init (configPath : Option String) (force verbose : Bool) (world : World) :
    let path := configPath.getD ".textsplice.jsonc"
    let run := runRequest World.host (.run ⟨.init force, configPath, verbose⟩) world
    let code := run.1.code
    let before := world.files
    let after := run.2.files
    (∃ rounds ≤ 2, Rounds path force rounds world
      (writeStarter World.host path force maxAttempts world)) ∧
    (code = 0 ∨ code = 2) ∧
    (code = 0 ↔ before.HasRoom path force) ∧
    (code = 0 → ∃ location, before.Makes after path starterText.toUTF8 location ∧
      (force = false → before.at? location = none)) ∧
    (code = 2 → (force = true → ¬before.CrossesEnd path) → after = before) ∧
    (force = true → before.CrossesEnd path → code = 2 ∧
      ∃ location target, before.resolve false path = .ok (.present location (.symlink target)) ∧
        after.at? location = none) ∧
    (∀ other, before.resolve false path ≠ .ok (before.found other) →
      after.at? other = before.at? other) ∧
    (∀ location target there content,
      before.resolve false path = .ok (.present location (.symlink target)) →
      before.resolve true path = .ok (.present there (.file content)) →
        after.at? there = some (.file content)) := by
  intro path run code before after
  obtain ⟨hrounds, result, hresult, hleaves⟩ := leaves_of_init configPath force verbose world
  have hcode : code = (Result.ofApply (result.map fun _ => false)).code :=
    congrArg Result.code hresult
  have helsewhere : ∀ other, before.resolve false path ≠ .ok (before.found other) →
      after.at? other = before.at? other := fun other hother => hleaves.at?_eq hother
  have hlinked : ∀ location target there content,
      before.resolve false path = .ok (.present location (.symlink target)) →
        before.resolve true path = .ok (.present there (.file content)) →
          after.at? there = some (.file content) :=
    fun location target there content hlink hfile => hleaves.at?_of_link hlink hfile
  refine ⟨hrounds, ?_⟩
  cases result with
  | ok =>
    have hroom : before.HasRoom path force := hleaves.eq_ok_iff.mp rfl
    have hzero : code = 0 := hcode
    refine ⟨Or.inl hzero, ⟨fun _ => hroom, fun _ => hzero⟩, fun _ =>
      hleaves.exists_makes, fun htwo => ?_,
      fun _ hcrosses => absurd hroom (hcrosses.not_hasRoom force), helsewhere, hlinked⟩
    exact nomatch hzero.symm.trans htwo
  | error failure =>
    have htwo : code = 2 := hcode
    have hnotZero : ¬code = 0 := fun hzero => nomatch htwo.symm.trans hzero
    refine ⟨Or.inr htwo, ⟨fun hzero => absurd hzero hnotZero, fun hroom => ?_⟩, fun hzero =>
      absurd hzero hnotZero,
      fun _ hcrosses => hleaves.eq_of_not_crossesEnd hcrosses,
      fun hforce hcrosses => ⟨htwo, hleaves.exists_removed hforce hcrosses⟩, helsewhere, hlinked⟩
    exact nomatch hleaves.eq_ok_iff.mpr hroom

/-- A directory `d`, and beside it a symbolic link `l` to it. -/
def linkedDirectory : FileSystem := ⟨[(["d"], .directory), (["l"], .symlink "d")], []⟩

/-- The path goes through the link into the directory, out of it again, and back
to the link. -/
theorem linkedDirectory_reaches : linkedDirectory.Reaches false "l/../l" [["l"]] ["l"] := by
  have hlink : linkedDirectory.at? ["l"] = some (.symlink "d") := rfl
  have hnames : FileSystem.namesOf "l/../l" = ["l", "..", "l"] := by decide
  have htarget : FileSystem.namesOf "d" = ["d"] := by decide
  have hplain : ∀ name ∈ ["d", "l"], FileSystem.IsPlain name := by
    unfold FileSystem.IsPlain
    decide
  have hroot : ∀ path : String,
      (if path.startsWith "/" then [] else linkedDirectory.workingDirectory) = [] :=
    fun _ => ite_self _
  refine ⟨by decide, by decide, ?_⟩
  rw [hnames, hroot]
  refine .across (hplain "l" (by decide)) hlink (by decide) ?_
  rw [htarget, ite_self]
  exact .into (hplain "d" (by decide)) rfl
    (.up (.here (hplain "l" (by decide)) nofun fun _ _ => rfl))

/-- Forced to write to this path, a run fails, and the link is gone. -/
theorem init_removes_crossedLink :
    let run := runRequest World.host (.run ⟨.init true, some "l/../l", false⟩)
      { files := linkedDirectory, input := .empty }
    run.1.code = 2 ∧ linkedDirectory.at? ["l"] = some (.symlink "d") ∧
      run.2.files.at? ["l"] = none := by
  intro run
  have hcrosses : linkedDirectory.CrossesEnd "l/../l" :=
    ⟨_, _, linkedDirectory_reaches, List.mem_singleton_self _⟩
  obtain ⟨-, result, hresult, hleaves⟩ :=
    leaves_of_init (some "l/../l") true false { files := linkedDirectory, input := .empty }
  cases result with
  | ok => exact absurd (hleaves.eq_ok_iff.mp rfl) (hcrosses.not_hasRoom true)
  | error failure =>
    obtain ⟨location, target, hlink, hgone⟩ := hleaves.exists_removed rfl hcrosses
    obtain ⟨rfl, -⟩ := FileSystem.at?_of_found_present
      (Except.ok.inj ((linkedDirectory_reaches.lead_eq false).symm.trans hlink))
    exact ⟨congrArg Result.code hresult, rfl, hgone⟩

end Graft.Command
