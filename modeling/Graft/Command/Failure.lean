import Graft.Config.Decode
import Graft.FileSystem.Basic
import Graft.Tree.Document

/-!
# Why a command fails

The causes for which a command ends without a result, and their wording.

A failure keeps its cause, and the message names what was tried; where the cause
has words of its own they follow behind a colon (`Failure.detail?`). The words
that a machine has for its errors are not fixed here and are taken as they come.
-/

namespace Graft.Command

/-- Why a command fails. -/
inductive Failure where
  /-- There are no rules. -/
  | noRules
  /-- The configuration file cannot be read. -/
  | unreadableConfig (path : String) (cause : FileError)
  /-- The configuration is not well formed. -/
  | badConfig (cause : ConfigError)
  /-- The rules are not well formed. -/
  | badRules (cause : RuleError)
  /-- The standard input cannot be read. -/
  | unreadableInput (cause : FileError)
  /-- The file of the tree cannot be read. -/
  | unreadableTree (path : String) (cause : FileError)
  /-- The text that was read is no tree. -/
  | badTree (path : String) (cause : DocumentError)
  /-- The result cannot be written. -/
  | unwritable (path : String) (cause : FileError)
  /-- The result cannot be written to the standard output. -/
  | unwritableOutput (cause : FileError)
  /-- The file to be created is there already. -/
  | exists (path : String)
  /-- The file cannot be created. -/
  | notCreated (path : String) (cause : FileError)
  /-- The file in the way cannot be removed. -/
  | notRemoved (cause : FileError)

/-- A failure in words. -/
def Failure.message : Failure → String
  | .noRules =>
    "No rules to apply. Pass --find or create a config with `textsplice init`."
  | .unreadableConfig path cause =>
    s!"Configuration error: Failed to read {path}: {cause.message}"
  | .badConfig cause => cause.message
  | .badRules cause => cause.message
  | .unreadableInput cause => cause.message
  | .unreadableTree path cause => s!"Failed to read {path}: {cause.message}"
  | .badTree path _ => s!"Invalid hast tree in {path}"
  | .unwritable path cause => s!"Failed to write {path}: {cause.message}"
  | .unwritableOutput cause => cause.message
  | .exists path => s!"{path} already exists. Use --force to overwrite."
  | .notCreated path cause => s!"Failed to create {path}: {cause.message}"
  | .notRemoved cause => cause.message

/-- What stands behind a colon after the words of a failure. Of a pattern it is
the pattern itself, and of a text that is no JSON nothing: what the readers of
patterns and of JSON say is not told here. -/
def Failure.detail? : Failure → Option String
  | .badRules (.badPattern source) => some source
  | .badTree _ (.data cause) => some cause.message
  | _ => none

end Graft.Command
