import Graft.Json.Writer
import Graft.Tree.Node

/-!
# The JSON form of a tree

A node is written as an object: its kind under `type`, then what belongs to the
kind, then position and data. Children and properties are written even when
there are none; a missing name, position, offset or data is left out.

The order of members is fixed by the order in which the fields of a node are
declared, kind by kind. What is left out makes no difference to a reader, with
one exception that lies in the type of data: it is optional, so data that is
null is read as missing, and is not written afterwards (`Graft.Tree.Decode`).
-/

namespace Graft

/-- A member that is left out when there is no value. -/
def optionalMember (key : String) : Option Json → Members
  | some value => [(key, value)]
  | none => []

/-- The JSON form of a natural number. -/
def natJson (n : Nat) : Json := .number (.whole n)

/-- The JSON form of a point. -/
def Point.toJson (p : Point) : Json :=
  .object ([("line", natJson p.line.toNat), ("column", natJson p.column.toNat)] ++
    optionalMember "offset" (p.offset.map fun n => natJson n.toNat))

/-- The JSON form of a position. -/
def Position.toJson (p : Position) : Json :=
  .object [("start", p.start.toJson), ("end", p.stop.toJson)]

/-- The members that hold position and data. -/
def Info.toMembers (info : Info) : Members :=
  optionalMember "position" (info.position.map Position.toJson) ++ optionalMember "data" info.data

namespace Node

mutual

/-- The JSON form of a node. -/
def toJson : Node → Json
  | .root children info =>
    .object ([("type", .string "root"), ("children", .array (toJsonList children))] ++
      info.toMembers)
  | .element tag properties children info =>
    .object ([("type", .string "element"), ("tagName", .string tag),
      ("properties", .object properties), ("children", .array (toJsonList children))] ++
      info.toMembers)
  | .text value info =>
    .object ([("type", .string "text"), ("value", .string value)] ++ info.toMembers)
  | .comment value info =>
    .object ([("type", .string "comment"), ("value", .string value)] ++ info.toMembers)
  | .doctype name info =>
    .object ([("type", .string "doctype")] ++ optionalMember "name" (name.map .string) ++
      info.toMembers)

/-- The JSON forms of a list of nodes. -/
def toJsonList : List Node → List Json
  | [] => []
  | node :: rest => node.toJson :: toJsonList rest

end

/-- The JSON text of a tree on one line. -/
def compact (node : Node) : String := node.toJson.compact

/-- The JSON text of a tree with one item a line. -/
def pretty (node : Node) : String := node.toJson.pretty

end Node

end Graft
