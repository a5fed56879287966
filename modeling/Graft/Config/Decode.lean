import Graft.Config.Basic
import Graft.Json.Relaxed

/-!
# Reading configurations

A configuration is read from an object, field by field in the order they are
written, or from a list of its fields. Other members are dropped, and any field
may be missing. The text of a configuration may use the wider form of JSON; a
text without a value is the default configuration.

Reading the text (`from_jsonc`) takes two steps with different faults, a text
that is not well formed and a value of the wrong form. Between the two, repeated
keys are merged, so unlike in trees a field that is given twice is no fault and
the last one counts. Names to leave alone are one text or a list of texts, and
null counts as absent.

Main statements:
- `Config.ofText_empty`: the empty text is the default configuration.
-/

namespace Graft

/-- Why a text is no configuration. -/
inductive ConfigError where
  /-- The text is not well formed. -/
  | notJson
  /-- The value is not of the right form. -/
  | data (cause : DataError)

/-- What is wrong with the text of a configuration, in words. -/
def ConfigError.message : ConfigError → String
  | .notJson => "Configuration error: Failed to parse config"
  | .data cause => "Configuration error: Invalid config: " ++ cause.message

/-- Reads a tag name or a list of tag names. -/
def TagNames.ofJson (v : Json) : Except DataError TagNames :=
  match v with
  | .string name => .ok (.one name)
  | .array items =>
    match items.mapM Json.string? with
    | some names => .ok (.many names)
    | none => .error .notTagNames
  | _ => .error .notTagNames

namespace Config

/-- Reads a truth value. -/
def boolOfJson : Json → Except DataError Bool
  | .bool b => .ok b
  | v => .error (.wrongType v .boolean)

/-- Reads the tag names; null counts as absent. -/
def ignoreOfJson : Json → Except DataError (Option TagNames) := optionally TagNames.ofJson

/-- Reads one member. -/
def readMember (config : Config) (key : String) (v : Json) : Except DataError Config :=
  if key = "rules" then (v.resolve.mapError (.raw · .outer)).map fun rules => { config with rules }
  else if key = "ignore" then (ignoreOfJson v).map fun ignore => { config with ignore }
  else if key = "extendDefaultIgnore" then
    (boolOfJson v).map fun extendDefaultIgnore => { config with extendDefaultIgnore }
  else .ok config

/-- Reads the members of an object, of which no two have one key. -/
def readMembers : Config → Members → Except DataError Config
  | config, [] => .ok config
  | config, (key, v) :: rest => (config.readMember key v).bind fun config => config.readMembers rest

/-- Reads a configuration. -/
def ofJson : Json → Except DataError Config
  | .object members => ({} : Config).readMembers members
  | .array items => do
    let fields := ["rules", "ignore", "extendDefaultIgnore"].zip items
    let config ← ({} : Config).readMembers fields
    if fields.length < items.length then throw (.surplus items.length) else return config
  | v => .error (.wrongType v .config)

/-- Reads the text of a configuration. -/
def ofText (text : String) : Except ConfigError Config :=
  match Json.parseRelaxed? text with
  | none => .error .notJson
  | some none => .ok {}
  | some (some v) => (ofJson v.mergeKeys).mapError .data

theorem ofText_empty : ofText "" = .ok {} := by
  simp [ofText, Json.parseRelaxed?]

end Config

end Graft
