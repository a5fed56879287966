import Graft.Command.Failure
import Graft.Command.Host
import Graft.Command.Line
import Graft.Splice.Pass
import Graft.Tree.Encode

/-!
# The command `apply`

The configuration is read first, then the rules, then the tree; the rules are
applied, and the result is written as JSON with a line end, or compared with the
tree as it was. Nothing is written unless all of this has gone well.

`runApply` is `run_apply`, and its helpers have their counterparts here:
`load_config` reads the file that is given or looks for one in the working
directory, `build_schema` takes the rules from flags or from the configuration,
`build_options` decides what is left alone, `read_tree` reads a file or the
standard input, and `write_tree` writes the result. A failure in any of them
ends the run with this failure, so the order in which they stand is the order in
which faults are reported.

The input is the standard input if its path is a single hyphen. Paths are
compared by their components, as paths are, and not as texts, so that a hyphen
with slashes or dots behind it is the standard input too (`isStandardInput`).
Whether a tree would change is decided by comparing trees, not texts
(`Node.same`).

The log is kept line by line, with its level, because what is shown of it
depends on a flag.
-/

namespace Graft.Command

variable {m : Type → Type} [Monad m]

/-- The text in bytes. -/
def textOfBytes (bytes : ByteArray) : Except FileError String :=
  match String.fromUTF8? bytes with
  | some text => .ok text
  | none => .error .notText

/-- Reads the text of the file at a path. -/
def readText (host : Host m) (path : String) : m (Except FileError String) := do
  return (← host.read path).bind textOfBytes

/-- Adds a line to the log that matters to everyone. -/
def info (host : Host m) (text : String) : m Unit := host.log ⟨.info, text⟩

/-- Adds a line to the log that matters to the curious. -/
def debug (host : Host m) (text : String) : m Unit := host.log ⟨.debug, text⟩

/-- Reads the configuration file at a path. -/
def readConfig (host : Host m) (path : String) : m (Except Failure Config) := do
  match ← readText host path with
  | .error cause => return .error (.unreadableConfig path cause)
  | .ok text => return (Config.ofText text).mapError .badConfig

/-- The first of these names that is a file of the working directory. -/
def findFile (host : Host m) : List String → m (Option String)
  | [] => return none
  | name :: rest => do
    let path := "./" ++ name
    if ← host.isFile path then return some path else findFile host rest

/-- Reads the configuration: the file that is given, else the one in the working
directory, if there is one. -/
def loadConfig (host : Host m) (given : Option String) : m (Except Failure (Option Config)) := do
  match given with
  | some path =>
    debug host s!"Using config: {path}"
    return (← readConfig host path).map some
  | none =>
    match ← findFile host Config.fileNames with
    | some path =>
      info host s!"Using config: {path}"
      return (← readConfig host path).map some
    | none =>
      debug host "No config file found"
      return .ok none

/-- The rules: a text to find, if one is given, else those of the configuration. -/
def rulesOf (args : ApplyArgs) (config : Option Config) : Except Failure (RuleSet Unit) :=
  match args.find, config with
  | some text, _ =>
    let replacer := some (.constant (Replacement.ofText (args.replace.getD "")))
    if args.regex then
      match Pattern.ofText? text true args.ignoreCase with
      | some pattern => .ok (.single (.pattern pattern) replacer)
      | none => .error (.badRules (.badPattern text))
    else .ok (.single (.literal text) replacer)
  | none, some config => config.ruleSet.mapError .badRules
  | none, none => .error .noRules

/-- What is left alone: the tag names that are given, else what the
configuration says. -/
def ignoringOf (args : ApplyArgs) (config : Option Config) : Ignore :=
  if args.ignore.isEmpty then (config.map Config.ignoring).getD .default else ⟨.tags args.ignore⟩

/-- Whether a path stands for the standard input. Paths are compared name by
name, so slashes and single dots behind the hyphen make no difference, but a
directory before it does. -/
def isStandardInput (path : String) : Bool :=
  match FileSystem.namesOf path with
  | [] => false
  | name :: rest => name = "-" && rest.all fun name => name = "" || name = "."

/-- Reads the text of the tree. -/
def readTreeText (host : Host m) (input : String) : m (Except Failure String) := do
  if isStandardInput input then
    return ((← host.readInput).bind textOfBytes).mapError .unreadableInput
  else
    return (← readText host input).mapError (.unreadableTree input)

/-- Reads the tree. -/
def readTree (host : Host m) (input : String) : m (Except Failure Node) := do
  return (← readTreeText host input).bind fun text =>
    (Node.ofDocument text).mapError (.badTree input)

/-- The tree as it is written. -/
def outputText (tree : Node) (pretty : Bool) : String :=
  (if pretty then tree.pretty else tree.compact) ++ "\n"

/-- Writes the result to the standard output, or to a file. -/
def writeTree (host : Host m) (tree : Node) (args : ApplyArgs) : m (Except Failure Unit) := do
  let text := outputText tree args.pretty
  match args.output with
  | none => return (← host.print text).mapError .unwritableOutput
  | some path =>
    match ← host.write path text.toUTF8 with
    | .error cause => return .error (.unwritable path cause)
    | .ok () =>
      info host s!"Wrote {path}"
      return .ok ()

/-- Logs what the passes did. -/
def logPasses (host : Host m) (index : Nat) : List PassReport → m Unit
  | [] => return ()
  | pass :: rest => do
    debug host s!"Starting pass pair={index} pattern={Text.quoted pass.source}"
    debug host s!"Finished pass pair={index} splices={pass.splices}"
    logPasses host (index + 1) rest

/-- Tells whether the tree has changed. -/
def tellChange (host : Host m) (input : String) (before after : Node) : m Bool := do
  let changed := !after.same before
  info host (if changed then s!"{input} would change" else "No changes")
  return changed

/-- Runs the command. Gives whether anything would change, which is only told if
it is asked for. -/
def runApply (host : Host m) (args : ApplyArgs) (configPath : Option String) :
    m (Except Failure Bool) := do
  match ← loadConfig host configPath with
  | .error failure => return .error failure
  | .ok config =>
    match rulesOf args config with
    | .error failure => return .error failure
    | .ok rules =>
      match ← readTree host args.input with
      | .error failure => return .error failure
      | .ok tree =>
        match findAndReplace tree rules (ignoringOf args config) () with
        | .error cause => return .error (.badRules cause)
        | .ok outcome =>
          logPasses host 0 outcome.passes
          if args.check then
            return .ok (← tellChange host args.input tree outcome.tree)
          else
            return (← writeTree host outcome.tree args).map fun _ => false

end Graft.Command
