import Graft.Regex.Flags

/-!
# Escapes

A backslash takes the meaning from a character that has one, and gives one to a
letter: a character by its code point, a class, or a condition on a place.

Main statements:
- `Escape.read_meta`: a backslash before a character with a meaning stands for
  the character.
-/

namespace Graft.Regex

open Unicode (Ranges)

/-- The characters that have a meaning of their own in a pattern, in some place
or other. -/
def metaCharacters : List Char :=
  ['\\', '.', '+', '*', '?', '(', ')', '|', '[', ']', '\x7b', '\x7d', '^', '$', '#', '&', '-', '~']

/-- Whether a character has a meaning of its own. -/
def isMeta (c : Char) : Bool := metaCharacters.contains c

/-- The pattern that matches a text and nothing else. -/
def escape (text : List Char) : List Char :=
  text.flatMap fun c => if isMeta c then ['\\', c] else [c]

/-- What an escape stands for. -/
inductive Escape where
  /-- A character. -/
  | literal (c : Char)
  /-- One character of a class. -/
  | set (chars : Ranges)
  /-- A condition on the place. -/
  | look (condition : Look)

/-- The character with this code point. -/
def scalar? (n : Nat) : Option Char := if n.isValidChar then some (Char.ofNat n) else none

namespace Escape

/-- The next `n` characters, blanks apart. -/
def counted (flags : Flags) : Nat → List Char → Option (List Char × List Char)
  | 0, cs => some ([], cs)
  | n + 1, cs =>
    match flags.skip cs with
    | c :: rest => (counted flags n rest).map fun (digits, rest) => (c :: digits, rest)
    | [] => none

/-- The characters up to a closing brace, blanks apart, and what follows the
brace. -/
def braced (flags : Flags) (inComment : Bool) : List Char → Option (List Char × List Char)
  | [] => none
  | c :: rest =>
    if inComment then braced flags (c ≠ '\n') rest
    else if c = '\x7d' then some ([], rest)
    else if flags.verbose ∧ Unicode.isWhiteSpace c then braced flags false rest
    else if flags.verbose ∧ c = '#' then braced flags true rest
    else (braced flags false rest).map fun (inside, rest) => (c :: inside, rest)

/-- A character by its code point, with this many digits or with braces around
them. Without the `u` flag, two digits cannot go beyond ASCII. -/
def codePoint (flags : Flags) (width : Nat) (cs : List Char) : Option (Escape × List Char) :=
  match flags.skip cs with
  | '\x7b' :: rest => do
    let (digits, rest) ← braced flags false rest
    if digits.isEmpty then none
    let c ← (Text.hexValue? digits).bind scalar?
    return (.literal c, rest)
  | cs => do
    let (digits, rest) ← counted flags width cs
    let c ← (Text.hexValue? digits).bind scalar?
    if width = 2 ∧ !flags.unicode ∧ c.toNat > 0x7F then none
    return (.literal c, rest)

/-- Splits at the first place where `mark` stands, and drops the mark. -/
def splitAtMark (mark : List Char) : List Char → Option (List Char × List Char)
  | [] => none
  | c :: rest =>
    if mark.isPrefixOf (c :: rest) then some ([], (c :: rest).drop mark.length)
    else (splitAtMark mark rest).map fun (before, after) => (c :: before, after)

/-- The class that the inside of `\p` stands for: a name, or a property and its
value around a colon, an equals sign, or `!=`, which negates. Gives the class
and whether it is negated. -/
def propertyClass? (inside : List Char) : Option (Ranges × Bool) :=
  let byValue := fun (parts : List Char × List Char) =>
    Unicode.classOfValue? (String.ofList parts.1) (String.ofList parts.2)
  match splitAtMark ['!', '='] inside with
  | some parts => (byValue parts).map (·, true)
  | none =>
    match (splitAtMark [':'] inside).orElse fun _ => splitAtMark ['='] inside with
    | some parts => (byValue parts).map (·, false)
    | none => (Unicode.classNamed? (String.ofList inside)).map (·, false)

/-- The class after `\p` or `\P`. It needs the `u` flag. -/
def property (flags : Flags) (negated : Bool) (cs : List Char) : Option (Escape × List Char) := do
  let (inside, rest) ← match flags.skip cs with
    | [] => none
    | '\x7b' :: rest => braced flags false rest
    | '\\' :: _ => none
    | c :: rest => some ([c], rest)
  if !flags.unicode then none
  let (chars, otherwise) ← propertyClass? inside
  let chars ← flags.settle (negated != otherwise) chars
  return (.set chars, rest)

/-- What stands after `\b`: braces with a letter or a hyphen in them name a
condition on words. -/
def boundary (flags : Flags) (cs : List Char) : Option (Escape × List Char) :=
  match cs with
  | '\x7b' :: rest =>
    match flags.skip rest with
    | [] => none
    | c :: _ =>
      if c.isAlpha ∨ c = '-' then do
        let (name, rest) ← braced flags false rest
        let condition ← match String.ofList name with
          | "start" => some (Look.wordStart flags.alphabet)
          | "end" => some (Look.wordEnd flags.alphabet)
          | "start-half" => some (Look.noWordBefore flags.alphabet)
          | "end-half" => some (Look.noWordAfter flags.alphabet)
          | _ => none
        return (.look condition, rest)
      else some (.look (.wordBoundary flags.alphabet), cs)
  | cs => some (.look (.wordBoundary flags.alphabet), cs)

/-- Whether a backslash before a character that has no meaning stands for the
character. -/
def isEscapable (c : Char) : Bool :=
  c.toNat ≤ 0x7F && !c.isAlphanum && c ≠ '<' && c ≠ '>'

/-- Reads what follows a backslash. -/
def read (flags : Flags) : List Char → Option (Escape × List Char)
  | [] => none
  | c :: rest =>
    if isMeta c || isEscapable c then some (.literal c, rest)
    else match flags.letterClass? c with
      | some chars => chars.map fun chars => (.set chars, rest)
      | none =>
        match c with
        | 'x' => codePoint flags 2 rest
        | 'u' => codePoint flags 4 rest
        | 'U' => codePoint flags 8 rest
        | 'p' => property flags false rest
        | 'P' => property flags true rest
        | 'a' => some (.literal '\x07', rest)
        | 'f' => some (.literal '\x0c', rest)
        | 't' => some (.literal '\t', rest)
        | 'n' => some (.literal '\n', rest)
        | 'r' => some (.literal '\r', rest)
        | 'v' => some (.literal '\x0b', rest)
        | 'A' => some (.look .textStart, rest)
        | 'z' => some (.look .textEnd, rest)
        | 'b' => boundary flags rest
        | 'B' => some (.look (.noWordBoundary flags.alphabet), rest)
        | '<' => some (.look (.wordStart flags.alphabet), rest)
        | '>' => some (.look (.wordEnd flags.alphabet), rest)
        | _ => none

/-- A backslash before a character with a meaning stands for the character. -/
theorem read_meta (flags : Flags) {c : Char} (h : isMeta c = true) (rest : List Char) :
    read flags (c :: rest) = some (.literal c, rest) := by
  simp [read, h]

end Escape

end Graft.Regex
