import Graft.Json.Reader

/-!
# Raw texts

A value that is handed on is not always taken as it stands. An object whose
first key is `Json.rawKey` does not stand for itself: it holds the text of
another value, and stands for the value that this text spells. The key is meant
to be private to whoever writes values and reads them in one go, but nothing
keeps it out of the text of a document, so every value that is taken over from
one (`data`, each of the `properties`, the `rules` of a configuration) is
resolved here, and each of the values inside it.

The rules are these. Only the first key counts; further on, the key is a key
like any other. What the object holds must be a string, this string must spell a
value, and no other member may stand beside it; they are checked in this order
(`Json.ofRaw`). The text is read by the reader of texts, with the whole depth of
nesting at its disposal, and values in it are resolved in their turn. All other
objects are taken as they are, and of repeated keys the last value stands at the
first place, as `Json.mergeKeys` has it.

Resolving a value goes down its structure, and is handed what to make of a text
(`Json.resolveWith`). A text can hold another one only if it is longer, so the
texts inside each other are read with the length of the outermost as fuel
(`Json.readRaw`).
-/

namespace Graft

/-- What is wrong with an object that should hold the text of a value. -/
inductive RawFault where
  /-- It holds something other than a string. -/
  | notText (found : Json)
  /-- It holds a string that spells no value. -/
  | unreadable (text : String)
  /-- There are other members beside the text, this many with it. -/
  | beside (count : Nat)

namespace Json

/-- The key of an object that holds the text of a value. -/
def rawKey : String := "$serde_json::private::RawValue"

end Json

/-- What the members of an object hold under the key of raw texts, if they begin
with it. -/
def Members.raw? : Members → Option Json
  | [] => none
  | (key, v) :: _ => if key = Json.rawKey then some v else none

namespace Json

/-- The value that stands in an object of this many members under the key of raw
texts. -/
def ofRaw (read : String → Option Json) (count : Nat) : Json → Except RawFault Json
  | .string text =>
    match read text with
    | none => .error (.unreadable text)
    | some v => if count = 1 then .ok v else .error (.beside count)
  | v => .error (.notText v)

mutual

/-- The value that a value stands for, where texts are read in this way. -/
def resolveWith (read : String → Option Json) : Json → Except RawFault Json
  | .array items => (resolveItemsWith read items).map .array
  | .object members =>
    match Members.raw? members with
    | some v => ofRaw read members.length v
    | none => (resolveMembersWith read members).map fun members => .object (Members.merge members)
  | v => .ok v

/-- The values that the values of a list stand for. -/
def resolveItemsWith (read : String → Option Json) : List Json → Except RawFault (List Json)
  | [] => .ok []
  | v :: rest =>
    (resolveWith read v).bind fun v => (resolveItemsWith read rest).map fun rest => v :: rest

/-- Members with the values that their values stand for. The first key makes no
difference here. -/
def resolveMembersWith (read : String → Option Json) :
    List (String × Json) → Except RawFault (List (String × Json))
  | [] => .ok []
  | (key, v) :: rest =>
    (resolveWith read v).bind fun v => (resolveMembersWith read rest).map fun rest =>
      (key, v) :: rest

end

/-- The value that a text stands for. The first argument bounds how many texts
may lie inside each other. -/
def readRawWith : Nat → String → Option Json
  | 0, _ => none
  | fuel + 1, text => (parse? text).bind fun v => (resolveWith (readRawWith fuel) v).toOption

/-- The value that a text stands for. What lies inside it is shorter, so its
length is fuel enough. -/
def readRaw (text : String) : Option Json := readRawWith (text.length + 1) text

/-- The value that a value stands for. -/
def resolve : Json → Except RawFault Json := resolveWith readRaw

/-- Members with the values that their values stand for. -/
def resolveMembers : Members → Except RawFault Members := resolveMembersWith readRaw

end Json

end Graft
