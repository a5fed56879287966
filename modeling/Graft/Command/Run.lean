import Graft.Command.Apply
import Graft.Command.Init

/-!
# Running a command line

A run ends with a number: 0 if all went well, 1 if a tree would change and it
was asked whether it would, 2 if the command line makes no sense or the command
fails.

Help and version are printed and end with 0, whether or not they could be
written. In a world that is a value a run is a function (`World.run`), which
gives the end of the run, the log lines that are shown, and what the run leaves
behind; on a machine it is the same program with another host (`Graft.Main`).
-/

namespace Graft.Command

variable {m : Type → Type} [Monad m]

/-- How a run ends. -/
inductive Result where
  /-- All went well. -/
  | done
  /-- A tree would change. -/
  | wouldChange
  /-- The command line makes no sense. -/
  | usage
  /-- The command failed. -/
  | failed (failure : Failure)

/-- The number that a run ends with. -/
def Result.code : Result → Nat
  | done => 0
  | wouldChange => 1
  | usage | failed _ => 2

/-- The name and version of the program. -/
def versionText : String := "textsplice 0.1.0\n"

/-- How the program is to be called. -/
def usageText : String := String.join [
  "Usage: textsplice [-c FILE] [-v] apply INPUT [-o FILE] [--find TEXT [--replace TEXT] ",
  "[--regex [-i]]] [--ignore TAG,...] [--pretty] [--check]\n",
  "       textsplice [-c FILE] [-v] init [--force]\n"]

/-- Runs the task of a command line. -/
def runTask (host : Host m) (line : Line) : m (Except Failure Bool) := do
  match line.task with
  | .apply args => runApply host args line.config
  | .init force => return (← runInit host line.config force).map fun _ => false

/-- Runs what a command line asks for. -/
def runRequest (host : Host m) : Request → m Result
  | .usage => return .usage
  -- whether these texts can be written does not matter to how the run ends
  | .help => do
    discard (host.print usageText)
    return .done
  | .version => do
    discard (host.print versionText)
    return .done
  | .run line => do
    match ← runTask host line with
    | .ok true => return .wouldChange
    | .ok false => return .done
    | .error failure => return .failed failure

/-- Whether a log line is shown. -/
def LogLine.isShown (verbose : Bool) (line : LogLine) : Bool := verbose || line.level = .info

/-- Whether a request asks for all log lines. -/
def Request.isVerbose : Request → Bool
  | .run line => line.verbose
  | _ => false

/-- Runs a command line in a world. Gives how the run ends, the log lines that
are shown, in order, and the world after the run. -/
def World.run (world : World) (args : List String) : Result × List LogLine × World :=
  let request := Request.parse args
  let (result, after) := runRequest World.host request world
  (result, after.log.reverse.filter (LogLine.isShown request.isVerbose), after)

end Graft.Command
