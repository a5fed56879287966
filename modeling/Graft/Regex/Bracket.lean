import Graft.Regex.Escape

/-!
# Bracketed classes

A class in brackets is a union of characters, ranges, named classes and further
brackets. `&&`, `--` and `~~` combine such unions from left to right, none
binding tighter than another. A circumflex after the opening bracket negates the
class; hyphens right after it, and a closing bracket where it comes first, stand
for themselves.
-/

namespace Graft.Regex

open Unicode (Ranges)

/-- A part of a class, with the levels of nesting in it. -/
structure Part where
  /-- The characters of the part. -/
  chars : Ranges
  /-- Levels of brackets, unions of several parts and operations. -/
  depth : Nat := 0

/-- The part that a union of parts makes. A union of several parts is a level of
its own. -/
def Part.ofUnion : List Part → Part
  | [] => ⟨[], 0⟩
  | [part] => part
  | parts => ⟨Ranges.ofList (parts.map Part.chars).flatten, (parts.map Part.depth).foldl max 0 + 1⟩

/-- The ways to combine two unions. -/
inductive Combination where
  /-- The characters in both. -/
  | intersection
  /-- The characters in the first alone. -/
  | difference
  /-- The characters in just one of them. -/
  | symmetricDifference

/-- Combines two sets. -/
def Combination.apply : Combination → Ranges → Ranges → Ranges
  | intersection => Ranges.inter
  | difference => Ranges.diff
  | symmetricDifference => Ranges.symmDiff

/-- A bracket that has been opened. -/
structure OpenBracket where
  /-- Whether the class is negated. -/
  negated : Bool
  /-- The operation that waits for its second operand, and its first one. -/
  pending : Option (Combination × Part) := none
  /-- The parts of the union at hand, the last one first. -/
  parts : List Part

namespace OpenBracket

/-- Adds a part to the union at hand. -/
def add (bracket : OpenBracket) (part : Part) : OpenBracket :=
  { bracket with parts := part :: bracket.parts }

/-- The set that the bracket holds so far: the union at hand, as the second
operand of the operation that waits for one. -/
def content (flags : Flags) (bracket : OpenBracket) : Part :=
  let union := Part.ofUnion bracket.parts
  match bracket.pending with
  | none => union
  | some (operation, first) =>
    ⟨operation.apply (flags.fold first.chars) (flags.fold union.chars),
      max first.depth union.depth + 1⟩

/-- Puts an operation after what the bracket holds so far. -/
def combine (flags : Flags) (bracket : OpenBracket) (operation : Combination) : OpenBracket :=
  { bracket with pending := some (operation, bracket.content flags), parts := [] }

/-- The class as a whole. -/
def close (flags : Flags) (bracket : OpenBracket) : Option Part := do
  let content := bracket.content flags
  let chars ← flags.settle bracket.negated content.chars
  return ⟨chars, content.depth + 1⟩

end OpenBracket

namespace Bracket

/-- Counts hyphens, blanks apart, and gives what follows. The first argument
bounds their number. -/
def leadingHyphens (flags : Flags) : Nat → List Char → Nat × List Char
  | fuel + 1, '-' :: rest =>
    let (n, rest) := leadingHyphens flags fuel (flags.skip rest)
    (n + 1, rest)
  | _, cs => (0, cs)

/-- Reads what may follow an opening bracket before the parts of the class. -/
def start (flags : Flags) (cs : List Char) : OpenBracket × List Char :=
  let (negated, cs) := match flags.skip cs with
    | '^' :: rest => (true, flags.skip rest)
    | cs => (false, cs)
  let single := fun c : Char => Part.mk (Ranges.single c.toNat) 0
  match leadingHyphens flags cs.length cs with
  | (0, ']' :: rest) => (⟨negated, none, [single ']']⟩, rest)
  | (n, rest) => (⟨negated, none, List.replicate n (single '-')⟩, rest)

/-- The name of an ASCII class and whether it is negated, after `[`, if such a
class stands there. -/
def named? : List Char → Option (Bool × Ranges × List Char)
  | ':' :: cs =>
    let (negated, cs) := match cs with
      | '^' :: rest => (true, rest)
      | cs => (false, cs)
    let name := cs.takeWhile (· ≠ ':')
    match cs.drop name.length with
    | ':' :: ']' :: rest => (asciiClass? name).map (negated, ·, rest)
    | _ => none
  | _ => none
where
  /-- The ASCII class with this name. -/
  asciiClass? (name : List Char) : Option Ranges := Flags.asciiClass? (String.ofList name)

/-- What stands for a character or for a class. -/
def item (flags : Flags) : List Char → Option (Escape × List Char)
  | [] => none
  | '\\' :: rest => Escape.read flags rest
  | c :: rest => some (.literal c, rest)

/-- Whether a character may stand in a class. Without the `u` flag only ASCII
characters may. -/
def admits (flags : Flags) (c : Char) : Bool := flags.unicode || c.toNat ≤ 0x7F

/-- A single part: a character or a class; no condition on the place can be part
of a class. -/
def single (flags : Flags) : Escape → Option Part
  | .literal c => if admits flags c then some ⟨Ranges.single c.toNat, 0⟩ else none
  | .set chars => some ⟨chars, 0⟩
  | .look _ => none

/-- A range of characters. -/
def range (flags : Flags) : Escape → Escape → Option Part
  | .literal a, .literal b =>
    if a ≤ b ∧ admits flags a ∧ admits flags b then some ⟨[(a.toNat, b.toNat)], 0⟩ else none
  | _, _ => none

/-- Reads a character, a class, or a range: a hyphen makes a range unless a
hyphen or the closing bracket follows it. -/
def part (flags : Flags) (cs : List Char) : Option (Part × List Char) := do
  let (first, rest) ← item flags cs
  match flags.skip rest with
  | '-' :: rest =>
    if flags.peek rest = some ']' ∨ flags.peek rest = some '-' then
      return (← single flags first, '-' :: rest)
    else
      let (second, rest) ← item flags (flags.skip rest)
      return (← range flags first second, rest)
  | rest => return (← single flags first, rest)

/-- Reads the rest of a class, given the brackets that are open: the innermost
one and those around it. The first argument bounds the number of parts. -/
def readFrom (flags : Flags) :
    Nat → OpenBracket → List OpenBracket → List Char → Option (Part × List Char)
  | 0, _, _, _ => none
  | fuel + 1, bracket, outer, cs =>
    match flags.skip cs with
    | [] => none
    | '[' :: rest =>
      match named? rest with
      | some (negated, chars, rest) => do
        let chars ← flags.settle negated chars
        readFrom flags fuel (bracket.add ⟨chars, 0⟩) outer rest
      | none =>
        let (inner, rest) := start flags rest
        readFrom flags fuel inner (bracket :: outer) rest
    | ']' :: rest => do
      let closed ← bracket.close flags
      match outer with
      | [] => return (closed, rest)
      | next :: outer => readFrom flags fuel (next.add closed) outer rest
    | '&' :: '&' :: rest => readFrom flags fuel (bracket.combine flags .intersection) outer rest
    | '-' :: '-' :: rest => readFrom flags fuel (bracket.combine flags .difference) outer rest
    | '~' :: '~' :: rest =>
      readFrom flags fuel (bracket.combine flags .symmetricDifference) outer rest
    | cs => do
      let (part, rest) ← part flags cs
      readFrom flags fuel (bracket.add part) outer rest

/-- Reads a class after its opening bracket. -/
def read (flags : Flags) (cs : List Char) : Option (Part × List Char) :=
  let (bracket, rest) := start flags cs
  readFrom flags (cs.length + 1) bracket [] rest

end Bracket

end Graft.Regex
