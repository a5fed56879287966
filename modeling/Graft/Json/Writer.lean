import Graft.Json.Basic

/-!
# Writing JSON

The compact text of a value on one line, and the indented text with one item a
line. A double is written as the shortest numeral that reads back to it, always
with a fraction while it is written positionally, so that it never reads back as
a whole number.

Both texts are defined apart (`to_string` and `to_string_pretty`), as they are
made by two formatters. That they differ in blanks only is proved where it is
used (`Graft.Proofs.Json.Spelling`). Empty arrays and objects are written
without a line break inside in both of them.
-/

namespace Graft

open Decimal (Binary64)

/-- The numeral for digits and the place of the decimal point counted from their
left end. Between five places to the left and sixteen to the right the point is
written in its place; elsewhere the numeral has an exponent, with a sign in
front of it also when it is positive. -/
def placePoint (digits : List Char) (point : Int) : List Char :=
  let n : Int := digits.length
  if 0 < point ∧ point ≤ 16 then
    if n ≤ point then digits ++ List.replicate (point - n).toNat '0' ++ ['.', '0']
    else digits.take point.toNat ++ '.' :: digits.drop point.toNat
  else if -5 < point ∧ point ≤ 0 then
    ['0', '.'] ++ List.replicate (-point).toNat '0' ++ digits
  else
    let mantissa := match digits with
      | d :: e :: rest => d :: '.' :: e :: rest
      | ds => ds
    let power := point - 1
    mantissa ++ 'e' :: (if power < 0 then '-' else '+') :: (toString power.natAbs).toList

/-- Drops the zeros at the right end of a list of digits. -/
def dropTrailingZeros (digits : List Char) : List Char :=
  (digits.reverse.dropWhile (· = '0')).reverse

/-- The text of a double. -/
def realText (x : Binary64) : List Char :=
  let sign := if x.negative then ['-'] else []
  if x.magnitude = 0 then sign ++ ['0', '.', '0']
  else
    let (digits, e) := Binary64.shortest x.magnitude
    let cs := (toString digits).toList
    sign ++ placePoint (dropTrailingZeros cs) (cs.length + e)

/-- The text of a number. -/
def Number.text : Number → List Char
  | .whole n => (toString n).toList
  | .real x => realText x

namespace Json

/-- A hexadecimal digit, in lower case. -/
def hexDigit (n : Nat) : Char :=
  if n < 10 then Char.ofNat (n + '0'.toNat) else Char.ofNat (n - 10 + 'a'.toNat)

/-- The written form of one character of a string. -/
def escapeChar (c : Char) : List Char :=
  if c = '"' then ['\\', '"']
  else if c = '\\' then ['\\', '\\']
  else if c = '\x08' then ['\\', 'b']
  else if c = '\x0c' then ['\\', 'f']
  else if c = '\n' then ['\\', 'n']
  else if c = '\r' then ['\\', 'r']
  else if c = '\t' then ['\\', 't']
  else if c.toNat < 0x20 then
    ['\\', 'u', '0', '0', hexDigit (c.toNat / 16), hexDigit (c.toNat % 16)]
  else [c]

/-- The written form of a string, between quotes. -/
def quote (s : String) : List Char :=
  '"' :: s.toList.flatMap escapeChar ++ ['"']

mutual

/-- The compact text of a value. -/
def compactChars : Json → List Char
  | .null => ['n', 'u', 'l', 'l']
  | .bool true => ['t', 'r', 'u', 'e']
  | .bool false => ['f', 'a', 'l', 's', 'e']
  | .number n => n.text
  | .string s => quote s
  | .array [] => ['[', ']']
  | .array (v :: rest) => '[' :: v.compactChars ++ compactItems rest
  | .object [] => ['{', '}']
  | .object ((k, v) :: rest) => '{' :: quote k ++ ':' :: v.compactChars ++ compactMembers rest

/-- The items after the first, up to the closing bracket. -/
def compactItems : List Json → List Char
  | [] => [']']
  | v :: rest => ',' :: v.compactChars ++ compactItems rest

/-- The members after the first, up to the closing brace. -/
def compactMembers : List (String × Json) → List Char
  | [] => ['}']
  | (k, v) :: rest => ',' :: quote k ++ ':' :: v.compactChars ++ compactMembers rest

end

/-- A new line, indented by two blanks a level. -/
def newLine (level : Nat) : List Char := '\n' :: List.replicate (2 * level) ' '

mutual

/-- The indented text of a value whose first line stands at the given level. -/
def prettyChars : Nat → Json → List Char
  | _, .null => ['n', 'u', 'l', 'l']
  | _, .bool true => ['t', 'r', 'u', 'e']
  | _, .bool false => ['f', 'a', 'l', 's', 'e']
  | _, .number n => n.text
  | _, .string s => quote s
  | _, .array [] => ['[', ']']
  | level, .array (v :: rest) =>
    '[' :: newLine (level + 1) ++ prettyChars (level + 1) v ++ prettyItems level rest
  | _, .object [] => ['{', '}']
  | level, .object ((k, v) :: rest) =>
    '{' :: newLine (level + 1) ++ quote k ++ ':' :: ' ' :: prettyChars (level + 1) v ++
      prettyMembers level rest

/-- The items after the first, up to the closing bracket. -/
def prettyItems : Nat → List Json → List Char
  | level, [] => newLine level ++ [']']
  | level, v :: rest =>
    ',' :: newLine (level + 1) ++ prettyChars (level + 1) v ++ prettyItems level rest

/-- The members after the first, up to the closing brace. -/
def prettyMembers : Nat → List (String × Json) → List Char
  | level, [] => newLine level ++ ['}']
  | level, (k, v) :: rest =>
    ',' :: newLine (level + 1) ++ quote k ++ ':' :: ' ' :: prettyChars (level + 1) v ++
      prettyMembers level rest

end

/-- The value on one line, without blanks. -/
def compact (v : Json) : String := String.ofList v.compactChars

/-- The value with one item a line, indented by two blanks. -/
def pretty (v : Json) : String := String.ofList (prettyChars 0 v)

end Json

end Graft
