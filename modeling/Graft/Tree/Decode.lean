import Graft.Tree.DataError

/-!
# Reading the JSON form of a tree

A node is read from an object with its kind under `type`, or from a sequence of
its kind and its fields in order; unknown members are dropped. The kind is
judged first, wherever it stands, then the other fields in the order they are
written, and what is missing last, in the order of declaration. Nodes inside a
node may also name their kind by its number.

The reader looks for the kind first and buffers all other members, then hands
them to the reader of the fields of that kind. That is why the kind counts
before anything else although it may stand last, and why a nested node, which
has been buffered once with the node around it, may give the index of its kind:
a buffered value no longer knows that its format has nothing but names. `Site`
tells the two apart.

A repeated known field is a fault. Inside properties and data, where any key may
stand, the last value of a repeated key counts, and an object that holds the
text of a value stands for this value. The properties themselves are no such
object, whatever their first key is, but each of their values may be one.

Faults are values too (`DataError`), with what was found and what was expected,
since their wording is part of what the program prints. Which fault is reported
follows from the order above and from nothing else.
-/

namespace Graft

/-- The whole number in a value, where it lies below the bound. -/
def natBelow (bound : Nat) (expected : Expected) : Json → Except DataError Nat
  | .number (.whole n) =>
    if 0 ≤ n ∧ n < bound then .ok n.toNat else .error (.outOfRange n expected)
  | v => .error (.wrongType v expected)

/-- The string in a value. -/
def stringOf : Json → Except DataError String
  | .string s => .ok s
  | v => .error (.wrongType v .string)

/-- A value that may be absent: null counts as absent. -/
def optionally {α : Type} (read : Json → Except DataError α) : Json → Except DataError (Option α)
  | .null => .ok none
  | v => (read v).map some

/-- Refuses a sequence that goes on after the last field. -/
def checkLength (site : Site) (shape : Shape) (length : Nat) : Except DataError Unit :=
  if length ≤ shape.nameAndSize.2 then .ok ()
  else match site with
    | .outer => .error (.surplus length)
    | .inner => .error (.tooLong length shape)

/-! ## Points and positions -/

/-- The fields of a point that have been read. -/
structure PointFields where
  line : Option Nat := none
  column : Option Nat := none
  offset : Option (Option Nat) := none

namespace PointFields

/-- The names of the fields, in order. -/
def names : List String := ["line", "column", "offset"]

/-- Reads one field. -/
def read (fields : PointFields) (key : String) (v : Json) : Except DataError PointFields :=
  if key = "line" then
    if fields.line.isSome then .error (.duplicateField key)
    else (natBelow UInt32.size .lineOrColumn v).map fun n => { fields with line := some n }
  else if key = "column" then
    if fields.column.isSome then .error (.duplicateField key)
    else (natBelow UInt32.size .lineOrColumn v).map fun n => { fields with column := some n }
  else if key = "offset" then
    if fields.offset.isSome then .error (.duplicateField key)
    else (optionally (natBelow UInt64.size .offset) v).map fun n => { fields with offset := some n }
  else .ok fields

/-- The point of these fields, `missing` telling what to say of one that is not
there. -/
def finish (fields : PointFields) (missing : String → DataError) : Except DataError Point :=
  match fields.line, fields.column with
  | none, _ => .error (missing "line")
  | _, none => .error (missing "column")
  | some line, some column =>
    .ok ⟨.ofNat line, .ofNat column, (fields.offset.getD none).map .ofNat⟩

end PointFields

/-- Reads a point. -/
def Point.ofJson (site : Site) : Json → Except DataError Point
  | .object members => do
    let fields ← members.foldlM (fun fields m => fields.read m.1 m.2) ({} : PointFields)
    fields.finish .missingField
  | .array items => do
    let named := PointFields.names.zip items
    let fields ← named.foldlM (fun fields m => fields.read m.1 m.2) ({} : PointFields)
    let point ← fields.finish fun _ => .tooShort items.length .point
    checkLength site .point items.length
    return point
  | v => .error (.wrongType v .point)

/-- The fields of a position that have been read. -/
structure PositionFields where
  start : Option Point := none
  stop : Option Point := none

namespace PositionFields

/-- The names of the fields, in order. -/
def names : List String := ["start", "end"]

/-- Reads one field. -/
def read (site : Site) (fields : PositionFields) (key : String) (v : Json) :
    Except DataError PositionFields :=
  if key = "start" then
    if fields.start.isSome then .error (.duplicateField key)
    else (Point.ofJson site v).map fun p => { fields with start := some p }
  else if key = "end" then
    if fields.stop.isSome then .error (.duplicateField key)
    else (Point.ofJson site v).map fun p => { fields with stop := some p }
  else .ok fields

/-- The position of these fields, `missing` telling what to say of one that is
not there. -/
def finish (fields : PositionFields) (missing : String → DataError) :
    Except DataError Position :=
  match fields.start, fields.stop with
  | none, _ => .error (missing "start")
  | _, none => .error (missing "end")
  | some start, some stop => .ok ⟨start, stop⟩

end PositionFields

/-- Reads a position. -/
def Position.ofJson (site : Site) : Json → Except DataError Position
  | .object members => do
    let fields ← members.foldlM (fun fields m => fields.read site m.1 m.2) ({} : PositionFields)
    fields.finish .missingField
  | .array items => do
    let named := PositionFields.names.zip items
    let fields ← named.foldlM (fun fields m => fields.read site m.1 m.2) ({} : PositionFields)
    let position ← fields.finish fun _ => .tooShort items.length .position
    checkLength site .position items.length
    return position
  | v => .error (.wrongType v .position)

/-! ## Nodes -/

/-- The fields of nodes, besides their kind. -/
inductive Field where
  | tagName
  | properties
  | children
  | value
  | name
  | position
  | data
  deriving DecidableEq

/-- The key of a field. -/
def Field.key : Field → String
  | .tagName => "tagName"
  | .properties => "properties"
  | .children => "children"
  | .value => "value"
  | .name => "name"
  | .position => "position"
  | .data => "data"

/-- The fields of a kind of node, in order. -/
def Kind.fields : Kind → List Field
  | .root => [.children, .position, .data]
  | .element => [.tagName, .properties, .children, .position, .data]
  | .text | .comment => [.value, .position, .data]
  | .doctype => [.name, .position, .data]

/-- The field of a kind of node with this key. -/
def Kind.field? (kind : Kind) (key : String) : Option Field :=
  kind.fields.find? fun field => field.key = key

/-- The fields of a node that have been read. -/
structure NodeFields where
  /-- Which fields these are. -/
  seen : List Field := []
  tagName : Option String := none
  properties : Members := []
  children : List Node := []
  value : Option String := none
  name : Option String := none
  info : Info := {}

namespace NodeFields

/-- Reads one field other than the children. -/
def read (fields : NodeFields) (field : Field) (v : Json) : Except DataError NodeFields :=
  match field with
  | .tagName => (stringOf v).map fun s => { fields with tagName := some s }
  | .properties =>
    match v with
    | .object members =>
      ((Json.resolveMembers members).mapError (.raw · .inner)).map fun resolved =>
        { fields with properties := Members.merge resolved }
    | v => .error (.wrongType v .map)
  | .children => .ok fields
  | .value => (stringOf v).map fun s => { fields with value := some s }
  | .name => (optionally stringOf v).map fun s => { fields with name := s }
  | .position =>
    (optionally (Position.ofJson .inner) v).map fun p =>
      { fields with info := { fields.info with position := p } }
  | .data =>
    (optionally (fun v => v.resolve.mapError (.raw · .inner)) v).map fun data =>
      { fields with info := { fields.info with data } }

/-- Marks a field as read. -/
def mark (fields : NodeFields) (field : Field) : NodeFields :=
  { fields with seen := field :: fields.seen }

/-- The node of these fields, `missing` telling what to say of a required one
that is not there. -/
def finish (fields : NodeFields) (kind : Kind) (missing : String → DataError) :
    Except DataError Node :=
  match kind with
  | .root => .ok (.root fields.children fields.info)
  | .element =>
    match fields.tagName with
    | some tag => .ok (.element tag fields.properties fields.children fields.info)
    | none => .error (missing "tagName")
  | .text =>
    match fields.value with
    | some value => .ok (.text value fields.info)
    | none => .error (missing "value")
  | .comment =>
    match fields.value with
    | some value => .ok (.comment value fields.info)
    | none => .error (missing "value")
  | .doctype => .ok (.doctype fields.name fields.info)

end NodeFields

/-- Reads the kind of a node. A node on its own names it by a string, a node
inside another one may also give its number. -/
def Kind.ofJson (site : Site) : Json → Except DataError Kind
  | .string s =>
    match Kind.ofName? s with
    | some kind => .ok kind
    | none => .error (.unknownKind s)
  | .number (.whole n) =>
    if site = .inner ∧ 0 ≤ n then
      match Kind.all[n.toNat]? with
      | some kind => .ok kind
      | none => .error (.unknownKindNumber n.toNat)
    else .error (.wrongType (.number (.whole n)) .kindName)
  | v => .error (.wrongType v .kindName)

/-- Finds the kind among the members of a node; `found` is the one met so far. -/
def kindOfMembers (site : Site) (found : Option Kind) : Members → Except DataError Kind
  | [] =>
    match found with
    | some kind => .ok kind
    | none => .error (.missingField "type")
  | (key, v) :: rest =>
    if key = "type" then
      match found with
      | some _ => .error (.duplicateField "type")
      | none => (Kind.ofJson site v).bind fun kind => kindOfMembers site (some kind) rest
    else kindOfMembers site found rest

namespace Node

mutual

/-- Reads a node. -/
def ofJson (site : Site) : Json → Except DataError Node
  | .object members =>
    (kindOfMembers site none members).bind fun kind =>
      (fieldsOfMembers kind {} members).bind fun fields => fields.finish kind .missingField
  | .array [] => .error (.missingField "type")
  | .array (tag :: items) =>
    (Kind.ofJson site tag).bind fun kind =>
      (fieldsOfItems kind.fields {} items).bind fun fields =>
        (fields.finish kind fun _ => .tooShort items.length (.node kind)).bind fun node =>
          (checkLength .inner (.node kind) items.length).map fun _ => node
  | v => .error (.wrongType v .node)

/-- Reads the children of a node. -/
def childrenOfJson : Json → Except DataError (List Node)
  | .array items => nodesOfItems items
  | v => .error (.wrongType v .sequence)

/-- Reads nodes inside a node. -/
def nodesOfItems : List Json → Except DataError (List Node)
  | [] => .ok []
  | v :: rest =>
    (ofJson .inner v).bind fun node => (nodesOfItems rest).map fun nodes => node :: nodes

/-- Reads the fields of a node from the members of an object. -/
def fieldsOfMembers (kind : Kind) (fields : NodeFields) :
    List (String × Json) → Except DataError NodeFields
  | [] => .ok fields
  | (key, v) :: rest =>
    match kind.field? key with
    | none => fieldsOfMembers kind fields rest
    | some field =>
      if fields.seen.contains field then .error (.duplicateField key)
      else if field = .children then
        (childrenOfJson v).bind fun nodes =>
          fieldsOfMembers kind (NodeFields.mark { fields with children := nodes } field) rest
      else
        (fields.read field v).bind fun fields => fieldsOfMembers kind (fields.mark field) rest

/-- Reads the fields of a node from the items of a sequence. -/
def fieldsOfItems (names : List Field) (fields : NodeFields) :
    List Json → Except DataError NodeFields
  | [] => .ok fields
  | v :: rest =>
    match names with
    | [] => .ok fields
    | field :: names =>
      if field = .children then
        (childrenOfJson v).bind fun nodes =>
          fieldsOfItems names (NodeFields.mark { fields with children := nodes } field) rest
      else
        (fields.read field v).bind fun fields => fieldsOfItems names (fields.mark field) rest

end

end Node

end Graft
