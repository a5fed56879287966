import Graft.Json.Raw
import Graft.Json.Writer
import Graft.Text.Quoted
import Graft.Tree.Node

/-!
# What can be wrong with the JSON form of a value

The causes for which a JSON value is not the form of a tree, a position or a
configuration, and their wording.

A cause keeps what was found, so that the message can quote it the way the
reader does: a number or a text is quoted with its value, a sequence or a map by
its type alone. Places in a text are not part of a cause.
-/

namespace Graft

/-- Where a value is read: on its own, or as part of a node. -/
inductive Site where
  | outer
  | inner
  deriving DecidableEq

/-- What a reader asked for. -/
inductive Expected where
  | string
  | map
  | sequence
  | boolean
  | position
  | point
  | config
  | node
  | kindName
  | lineOrColumn
  | offset
  | rawValue
  deriving DecidableEq

/-- The wording of what was asked for. -/
def Expected.message : Expected → String
  | .string => "a string"
  | .map => "a map"
  | .sequence => "a sequence"
  | .boolean => "a boolean"
  | .position => "struct Position"
  | .point => "struct Point"
  | .config => "struct Config"
  | .node => "internally tagged enum Node"
  | .kindName => "variant identifier"
  | .lineOrColumn => "u32"
  | .offset => "usize"
  | .rawValue => "raw value"

/-- The values that can be written as a sequence of their fields. -/
inductive Shape where
  | node (kind : Kind)
  | position
  | point
  deriving DecidableEq

/-- The name of a shape and the number of its fields. -/
def Shape.nameAndSize : Shape → String × Nat
  | .node .root => ("Root", 3)
  | .node .element => ("Element", 5)
  | .node .text => ("Text", 3)
  | .node .comment => ("Comment", 3)
  | .node .doctype => ("Doctype", 3)
  | .position => ("Position", 2)
  | .point => ("Point", 3)

/-- Why a JSON value is not of the form asked for. -/
inductive DataError where
  /-- A required field is not there. -/
  | missingField (name : String)
  /-- A field is there twice. -/
  | duplicateField (name : String)
  /-- The kind of a node has no such name. -/
  | unknownKind (name : String)
  /-- The kind of a node has no such number. -/
  | unknownKindNumber (n : Nat)
  /-- A value is of another type. -/
  | wrongType (found : Json) (expected : Expected)
  /-- A whole number is too small or too large. -/
  | outOfRange (n : Int) (expected : Expected)
  /-- A sequence ends before a required field. -/
  | tooShort (length : Nat) (shape : Shape)
  /-- A sequence inside a node goes on after the last field. -/
  | tooLong (length : Nat) (shape : Shape)
  /-- A sequence on its own goes on after the last field. -/
  | surplus (length : Nat)
  /-- An object that should hold the text of a value does not. -/
  | raw (fault : RawFault) (site : Site)
  /-- The ignore setting is neither a string nor a list of strings. -/
  | notTagNames

/-- How a value that was not asked for is called in messages. -/
def Json.describe : Json → String
  | .null => "null"
  | .bool b => s!"boolean `{b}`"
  | .number (.whole n) => s!"integer `{n}`"
  | .number (.real x) => s!"floating point `{String.ofList (realText x)}`"
  | .string s => "string " ++ Text.quoted s
  | .array _ => "sequence"
  | .object _ => "map"

/-- The wording of a fault. What is wrong with a text that spells no value is
told in the words of the reader of texts, which are left out. -/
def DataError.message : DataError → String
  | .missingField name => s!"missing field `{name}`"
  | .duplicateField name => s!"duplicate field `{name}`"
  | .unknownKind name =>
    s!"unknown variant `{name}`, expected one of " ++
      ", ".intercalate (Kind.all.map fun kind => s!"`{kind.name}`")
  | .unknownKindNumber n =>
    s!"invalid value: integer `{n}`, expected variant index 0 <= i < {Kind.all.length}"
  | .wrongType found expected => s!"invalid type: {found.describe}, expected {expected.message}"
  | .outOfRange n expected => s!"invalid value: integer `{n}`, expected {expected.message}"
  | .tooShort length shape =>
    s!"invalid length {length}, expected struct {shape.nameAndSize.1} with " ++
      s!"{shape.nameAndSize.2} elements"
  | .tooLong length shape =>
    s!"invalid length {length}, expected {shape.nameAndSize.2} elements in sequence"
  | .surplus length => s!"invalid length {length}, expected fewer elements in array"
  | .raw (.notText found) _ =>
    s!"invalid type: {found.describe}, expected {Expected.rawValue.message}"
  | .raw (.unreadable _) _ => ""
  | .raw (.beside count) .inner => s!"invalid length {count}, expected 1 element in map"
  | .raw (.beside count) .outer => s!"invalid length {count}, expected fewer elements in map"
  | .notTagNames => "data did not match any variant of untagged enum TagTest"

end Graft
