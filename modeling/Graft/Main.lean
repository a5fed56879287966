import Graft.Command.Run

/-!
# The program

Commands on the machine itself: the host whose files are real, and the program
that runs the command line it is given.

The host is the only part of the library that acts. Every operation that can
fail is caught and handed on as a value, printing included, so that a full disk
or a closed pipe ends a run as the command decides and with its number. What
goes to the standard error is attempted and no more. The log is written as it
comes, filtered by the flag of the request.
-/

namespace Graft.Command

/-- A failure of the machine as a failure of an operation on files. -/
def fileErrorOf (e : IO.Error) : FileError :=
  match e with
  | .noFileOrDirectory .. => .notFound
  | .alreadyExists .. => .alreadyExists
  | .inappropriateType _ 20 _ => .notADirectory
  | .inappropriateType _ 21 _ => .isADirectory
  | .permissionDenied .. => .other "Permission denied (os error 13)"
  | e => .other (toString e)

/-- Runs an action that may fail. -/
def attempt {α : Type} (action : IO α) : IO (Except FileError α) := do
  match ← action.toBaseIO with
  | .ok value => return .ok value
  | .error e => return .error (fileErrorOf e)

/-- Writes bytes to the file at a path, opened in this mode. -/
def writeBytes (path : String) (mode : IO.FS.Mode) (content : ByteArray) : IO Unit := do
  let handle ← IO.FS.Handle.mk path mode
  handle.write content

/-- Whether a path leads to a file. -/
def leadsToFile (path : String) : IO Bool := do
  return (← (← IO.FS.realPath path).metadata).type == .file

/-- Prints to the standard output, at once. -/
def printText (text : String) : IO Unit := do
  let out ← IO.getStdout
  out.putStr text
  out.flush

/-- Prints to the standard error. Where that fails, there is nowhere left to
tell. -/
def report (text : String) : IO Unit := discard (IO.eprint text).toBaseIO

/-- The machine itself. Log lines go to the standard error. -/
def machine (verbose : Bool) : Host IO where
  read path := attempt (IO.FS.readBinFile path)
  isFile path := do return ((← attempt (leadsToFile path)).toOption).getD false
  write path content := attempt (writeBytes path .write content)
  create path content := attempt (writeBytes path .writeNew content)
  delete path := attempt (IO.FS.removeFile path)
  readInput := attempt do (← IO.getStdin).readBinToEnd
  print text := attempt (printText text)
  log line := do
    if line.isShown verbose then
      report ((match line.level with
        | .info => " INFO "
        | .debug => "DEBUG ") ++ line.text ++ "\n")

end Graft.Command

open Graft.Command in
/-- Runs the command line. -/
def main (args : List String) : IO UInt32 := do
  let request := Request.parse args
  let result ← runRequest (machine request.isVerbose) request
  match result with
  | .usage => report usageText
  | .failed failure =>
    report ("ERROR " ++ failure.message ++ (failure.detail?.map (": " ++ ·)).getD "" ++ "\n")
  | .done | .wouldChange => pure ()
  return result.code.toUInt32
