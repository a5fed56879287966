import Graft.Decimal.Shortest

/-!
# JSON values

JSON values as the library holds them. The members of an object keep their
order, numbers keep the distinction between whole numbers and doubles, and two
notions of equality live side by side: `=` compares the values member by member,
and `Json.same` looks past the order of members and the sign of zero.

An object is a list of members and may have a key twice, as a text may. A reader
of values merges them (`Json.mergeKeys`) in the way of a map that keeps the
order of insertion: the last value counts, at the first place. Since it is a
list, the order in which members are written is part of the value, and since it
is not a map, whether its keys are unique is a property that has to be proved
where it is needed (`Graft.Proofs.Json.Keys`).

Main statements:
- `Members.get?_set_self`, `Members.get?_set_ne`: what setting a member does to
  look-ups.
-/

namespace Graft

open Decimal (Binary64)

/-- A JSON number: a whole number of at most 64 bits, or a double. -/
inductive Number where
  | whole (n : Int)
  | real (x : Binary64)
  deriving DecidableEq

/-- Equality of numbers of one kind; a whole number never equals a double. -/
def Number.same : Number → Number → Bool
  | .whole m, .whole n => m = n
  | .real x, .real y => x.same y
  | _, _ => false

/-- A JSON value. -/
inductive Json where
  | null
  | bool (b : Bool)
  | number (n : Number)
  | string (s : String)
  | array (items : List Json)
  | object (members : List (String × Json))

/-- The members of an object, in order. -/
abbrev Members := List (String × Json)

namespace Members

/-- The value of the first member with this key, if any. -/
def get? : Members → String → Option Json
  | [], _ => none
  | (k, v) :: rest, key => if k = key then some v else get? rest key

/-- Sets a member: in its place if the key is there, else at the end. -/
def set : Members → String → Json → Members
  | [], key, value => [(key, value)]
  | (k, v) :: rest, key, value =>
    if k = key then (k, value) :: rest else (k, v) :: set rest key value

@[simp] theorem get?_set_self (members : Members) (key : String) (value : Json) :
    get? (set members key value) key = some value := by
  induction members with
  | nil => simp [set, get?]
  | cons m rest ih =>
    obtain ⟨k, v⟩ := m
    by_cases h : k = key <;> simp [set, get?, h, ih]

theorem get?_set_ne (members : Members) {key other : String} (value : Json) (h : other ≠ key) :
    get? (set members key value) other = get? members other := by
  induction members with
  | nil => simp [set, get?, h.symm]
  | cons m rest ih =>
    obtain ⟨k, v⟩ := m
    by_cases hk : k = key
    · subst hk; simp [set, get?, h.symm]
    · by_cases ho : k = other
      · subst ho; simp [set, get?, hk]
      · simp [set, get?, hk, ho, ih]

/-- Merges members with one key: the last value, at the first place. -/
def merge (members : Members) : Members :=
  members.foldl (fun merged m => set merged m.1 m.2) []

end Members

namespace Json

mutual

/-- Equality of values up to the order of members and the sign of zero. -/
def same : Json → Json → Bool
  | .null, .null => true
  | .bool a, .bool b => a = b
  | .number m, .number n => m.same n
  | .string s, .string t => s = t
  | .array xs, .array ys => sameItems xs ys
  | .object ms, .object ns => ms.length = ns.length && sameMembers ms ns
  | _, _ => false

/-- Equality of two lists of values, place by place. -/
def sameItems : List Json → List Json → Bool
  | [], [] => true
  | x :: xs, y :: ys => x.same y && sameItems xs ys
  | _, _ => false

/-- Whether every member of the first list has an equal in the second. -/
def sameMembers : List (String × Json) → List (String × Json) → Bool
  | [], _ => true
  | (k, v) :: rest, ns =>
    (match Members.get? ns k with
      | some w => v.same w
      | none => false) && sameMembers rest ns

end

mutual

/-- Merges repeated keys in every object of the value. -/
def mergeKeys : Json → Json
  | .array items => .array (mergeItems items)
  | .object members => .object (Members.merge (mergeMembers members))
  | v => v

/-- Merges repeated keys in every value of a list. -/
def mergeItems : List Json → List Json
  | [] => []
  | v :: rest => v.mergeKeys :: mergeItems rest

/-- Merges repeated keys in every value of a list of members, not among the
members themselves. -/
def mergeMembers : List (String × Json) → List (String × Json)
  | [] => []
  | (k, v) :: rest => (k, v.mergeKeys) :: mergeMembers rest

end

/-- The member of an object with this key. -/
def member? (v : Json) (key : String) : Option Json :=
  match v with
  | .object members => Members.get? members key
  | _ => none

/-- The text of a string. -/
def string? : Json → Option String
  | .string s => some s
  | _ => none

/-- The truth value of a boolean. -/
def bool? : Json → Option Bool
  | .bool b => some b
  | _ => none

end Json

end Graft
