import Graft.FileSystem.Access

/-!
# Hosts

What a command needs of the machine it runs on: files, the standard input and
output, and a log. A host offers these in some monad. The host of this module
keeps all of them in a value, so that a run of a command is a function from one
value to another.

Everything that can fail on a machine can fail here. Operations on files fail as
the file system says (`Graft.FileSystem.Access`). The standard input and output
have a fault in the world: if there is one, reading or printing fails with it
and changes nothing, else it succeeds. Only the log cannot fail; where a line of
it is lost, nothing that the program does depends on it.

Main statements:
- `World.printed_eq_ok_iff`: when something can be printed, and what is there
  then;
- `World.host_print`: printing does this, or fails and changes nothing;
- `World.host_write_error`: a failed write changes nothing.
-/

namespace Graft.Command

/-- How much a log line matters. -/
inductive LogLevel where
  | info
  | debug
  deriving DecidableEq

/-- A line of the log. -/
structure LogLine where
  level : LogLevel
  text : String
  deriving DecidableEq

/-- The machine that a command runs on. -/
structure Host (m : Type → Type) where
  /-- The bytes of the file at a path. -/
  read : String → m (Except FileError ByteArray)
  /-- Whether a path leads to a file. -/
  isFile : String → m Bool
  /-- Writes the file at a path. -/
  write : String → ByteArray → m (Except FileError Unit)
  /-- Makes a new file at a path. -/
  create : String → ByteArray → m (Except FileError Unit)
  /-- Removes the file at a path. -/
  delete : String → m (Except FileError Unit)
  /-- All bytes of the standard input. -/
  readInput : m (Except FileError ByteArray)
  /-- Writes to the standard output. -/
  print : String → m (Except FileError Unit)
  /-- Adds a line to the log. -/
  log : LogLine → m Unit

/-- A machine as a value. -/
structure World where
  /-- The files. -/
  files : FileSystem
  /-- The standard input. -/
  input : ByteArray
  /-- Why the standard input cannot be read, if it cannot. -/
  inputFault : Option FileError := none
  /-- What has been written to the standard output. -/
  output : String := ""
  /-- Why nothing more can be written there, if it cannot. -/
  outputFault : Option FileError := none
  /-- The log, the last line first. -/
  log : List LogLine := []

namespace World

/-- The world after a change of its files, or as it was if the change fails. -/
def change (world : World) : Except FileError FileSystem → Except FileError Unit × World
  | .ok files => (.ok (), { world with files })
  | .error e => (.error e, world)

/-- All bytes of the standard input, if it can be read. -/
def standardInput (world : World) : Except FileError ByteArray :=
  match world.inputFault with
  | some cause => .error cause
  | none => .ok world.input

/-- The world after something has been written to the standard output, if that
is possible. -/
def printed (world : World) (text : String) : Except FileError World :=
  match world.outputFault with
  | some cause => .error cause
  | none => .ok { world with output := world.output ++ text }

/-- The host that keeps everything in a value. -/
def host : Host (StateM World) where
  read path world := (world.files.read path, world)
  isFile path world := (world.files.isFile path, world)
  write path content world := world.change (world.files.write path content)
  create path content world := world.change (world.files.create path content)
  delete path world := world.change (world.files.delete path)
  readInput world := (world.standardInput, world)
  print text world :=
    match world.printed text with
    | .ok after => (.ok (), after)
    | .error cause => (.error cause, world)
  log line world := ((), { world with log := line :: world.log })

theorem printed_eq_ok_iff {world after : World} {text : String} :
    world.printed text = .ok after ↔
      world.outputFault = none ∧ after = { world with output := world.output ++ text } := by
  unfold printed
  cases world.outputFault with
  | some cause => simp
  | none => simp [eq_comm]

theorem printed_eq_error_iff {world : World} {text : String} {cause : FileError} :
    world.printed text = .error cause ↔ world.outputFault = some cause := by
  unfold printed
  cases world.outputFault <;> simp

/-- Printing puts the text behind what stands on the standard output, or fails
and changes nothing. -/
theorem host_print (world : World) (text : String) :
    host.print text world =
      match world.printed text with
      | .ok after => (.ok (), after)
      | .error cause => (.error cause, world) := rfl

/-- A failed write changes nothing. -/
theorem host_write_error (world : World) (path : String) (content : ByteArray) {e : FileError}
    (h : world.files.write path content = .error e) :
    host.write path content world = (.error e, world) := by
  simp [host, change, h]

end World

end Graft.Command
