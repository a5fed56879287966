import Graft.Json.Reader
import Graft.Tree.Decode

/-!
# Reading a tree from JSON text

Reading from text finds faults as early as they can be told. The order is: a
value that is neither object nor sequence is judged as soon as it has been read;
the kind of the outermost node is judged as soon as it has been read, and so is
a second kind; then the rest of the outermost value has to be JSON; then its
fields are judged; and at last nothing but blanks may follow.

So the text of a tree (`from_str`) is not simply parsed and then read as a value
(`from_value`): a text with an unknown kind near its beginning is refused for
the kind, although a bracket is missing at its end. The functions here follow
the text as far as that order goes, and use the readers of values for everything
inside the outermost members. Where a text is accepted the two ways agree
(`Graft.Proofs.Tree.Document`).
-/

namespace Graft

open Json.Reader

/-- Why a text holds no tree. -/
inductive DocumentError where
  /-- The text is not JSON, or lies too deep. -/
  | notJson
  /-- The text is JSON, but not the form of a tree. -/
  | data (error : DataError)

namespace Document

/-- Reads the kind of the outermost node, at its first character. A sequence or
object is refused before its end is looked for. -/
def kind? (cs : List Char) : Except DocumentError (Kind × List Char) :=
  match skipBlanks cs with
  | '[' :: _ => .error (.data (.wrongType (.array []) .kindName))
  | '{' :: _ => .error (.data (.wrongType (.object []) .kindName))
  | cs =>
    match scalar? cs with
    | none => .error .notJson
    | some (v, rest) =>
      match Kind.ofJson .outer v with
      | .ok kind => .ok (kind, rest)
      | .error e => .error (.data e)

/-- Reads the members of the outermost node up to its closing brace. `found` is
its kind, if it has been met, and `before` the members met so far, the last one
first. -/
def members? : Nat → Option Kind → Members → List Char →
    Except DocumentError (Option Kind × Members × List Char)
  | 0, _, _, _ => .error .notJson
  | fuel + 1, found, before, cs =>
    let next (found : Option Kind) (before : Members) (cs : List Char) :=
      match skipBlanks cs with
      | ',' :: rest => members? fuel found before rest
      | '}' :: rest => .ok (found, before.reverse, rest)
      | _ => .error .notJson
    match skipBlanks cs with
    | '"' :: rest =>
      match string? rest with
      | none => .error .notJson
      | some (key, rest) =>
        if key = "type" ∧ found.isSome then .error (.data (.duplicateField "type"))
        else
          match skipBlanks rest with
          | ':' :: rest =>
            if key = "type" then
              match kind? rest with
              | .error e => .error e
              | .ok (kind, rest) => next (some kind) before rest
            else
              match value? (valueFuel rest) (maxDepth - 1) rest with
              | none => .error .notJson
              | some (v, rest) => next found ((key, v) :: before) rest
          | _ => .error .notJson
    | _ => .error .notJson

/-- Reads the fields of the outermost node up to its closing bracket, after its
kind. -/
def items? (cs : List Char) : Except DocumentError (List Json × List Char) :=
  match skipBlanks cs with
  | ']' :: rest => .ok ([], rest)
  | ',' :: rest =>
    match Json.Reader.items? (valueFuel rest) (maxDepth - 1) rest with
    | some r => .ok r
    | none => .error .notJson
  | _ => .error .notJson

/-- Accepts a node if only blanks follow it. -/
def finish (node : Except DataError Node) (rest : List Char) : Except DocumentError Node :=
  match node with
  | .error e => .error (.data e)
  | .ok node => if (skipBlanks rest).isEmpty then .ok node else .error .notJson

/-- Reads a node from the characters of a text. -/
def nodeOfChars (cs : List Char) : Except DocumentError Node :=
  match skipBlanks cs with
  | '{' :: rest =>
    let body : Except DocumentError (Option Kind × Members × List Char) :=
      match skipBlanks rest with
      | '}' :: rest => .ok (none, [], rest)
      | rest => members? (rest.length + 1) none [] rest
    match body with
    | .error e => .error e
    | .ok (none, _, _) => .error (.data (.missingField "type"))
    | .ok (some kind, members, rest) =>
      finish ((Node.fieldsOfMembers kind {} members).bind fun fields =>
        fields.finish kind .missingField) rest
  | '[' :: rest =>
    match skipBlanks rest with
    | ']' :: _ => .error (.data (.missingField "type"))
    | rest =>
      match kind? rest with
      | .error e => .error e
      | .ok (kind, rest) =>
        match items? rest with
        | .error e => .error e
        | .ok (items, rest) =>
          finish (Node.ofJson .outer (.array (.string kind.name :: items))) rest
  | cs =>
    match scalar? cs with
    | some (v, _) => .error (.data (.wrongType v .node))
    | none => .error .notJson

end Document

/-- Reads a tree from JSON text. -/
def Node.ofDocument (text : String) : Except DocumentError Node :=
  Document.nodeOfChars text.toList

end Graft
