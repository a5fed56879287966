import Graft.Command.Failure
import Graft.Command.Host

/-!
# The command `init`

A configuration to start from is written to a new file. What is in the way is
removed if that is asked for, a symbolic link and not the file that it leads to.

`runInit` is `run_init`, with `write_starter` as the loop that it runs. The file
is made with the demand that nothing is there (`open_new`), so that no file is
overwritten between a look and a write. Where something is there and it is to be
replaced, it is removed and the attempt is made again; that it has gone in the
meantime is no failure. The loop has no bound in the program. Here it has one,
far beyond what is ever needed: two attempts settle it
(`Graft.Proofs.Command.Starter`).
-/

namespace Graft.Command

variable {m : Type → Type} [Monad m]

/-- The configuration to start from. -/
def starterText : String := String.join [
  "\x7b\n",
  "  // `[find, replace]` tuples, applied in order.\n",
  "  // A find is a string or \x7b \"regex\": \"...\", \"global\": true, ",
  "\"ignoreCase\": false \x7d.\n",
  "  // A replacement is a string, null (delete), false (keep) or hast nodes.\n",
  "  \"rules\": [],\n",
  "\n",
  "  // Tag names whose text is left alone.\n",
  "  // Without this, title, script, style, svg and math are skipped.\n",
  "  // \"ignore\": [\"pre\", \"code\"],\n",
  "  \"extendDefaultIgnore\": true\n",
  "\x7d\n"]

/-- How often the file may turn out to be there although it has just been
removed. -/
def maxAttempts : Nat := 1000

/-- Writes the configuration to a new file. The first argument bounds the number
of attempts. -/
def writeStarter (host : Host m) (path : String) (force : Bool) : Nat → m (Except Failure Unit)
  | 0 => return .error (.exists path)
  | attempts + 1 => do
    match ← host.create path starterText.toUTF8 with
    | .ok () => return .ok ()
    | .error .alreadyExists =>
      if force then
        host.log ⟨.debug, s!"Replacing {path}"⟩
        match ← host.delete path with
        | .ok () | .error .notFound => writeStarter host path force attempts
        | .error cause => return .error (.notRemoved cause)
      else return .error (.exists path)
    | .error cause => return .error (.notCreated path cause)

/-- Runs the command. -/
def runInit (host : Host m) (configPath : Option String) (force : Bool) :
    m (Except Failure Unit) := do
  let path := configPath.getD (Config.fileNames.headD "")
  match ← writeStarter host path force maxAttempts with
  | .error failure => return .error failure
  | .ok () =>
    host.log ⟨.info, s!"Created {path}"⟩
    return .ok ()

end Graft.Command
