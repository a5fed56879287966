import Graft.Json.Basic
import Graft.Text.Hex

/-!
# Reading JSON

A reader for JSON text. Every function takes the characters that are left and
returns what it read together with the characters after it, or `none` where the
text is not JSON. A value may lie in at most 127 arrays and objects. Repeated
keys are kept as they stand; `Json.mergeKeys` merges them.

Numbers are read in three parts, the digits before the point, the fraction and
the exponent, and put together afterwards (`Numeral`). A number without fraction
and exponent is whole if it fits into 64 bits, with or without a sign, and a
double otherwise, minus zero among them; a double that would be infinite is no
number at all.

Strings are read character by character. Control characters have to be escaped,
and an escape of a surrogate must be followed by that of its partner.

The recursion of values, items and members runs on fuel; `valueFuel` is more
than any text can use, so running out never decides anything
(`Graft.Proofs.Json.Remainder`).
-/

namespace Graft

open Decimal (Binary64)

/-- A numeral as written: its sign, its digits as one number, the power of ten,
and whether it has neither fraction nor exponent. -/
structure Numeral where
  /-- Whether a minus sign stands in front. -/
  negative : Bool
  /-- The digits that were taken in. -/
  digits : Nat
  /-- The power of ten that the digits are to be multiplied by. -/
  exponent : Int
  /-- Whether the numeral has neither fraction nor exponent, and all its digits
  were taken in. -/
  isWhole : Bool

namespace Numeral

/-- The greatest number that digits are collected in. -/
def maxDigits : Nat := Nat.pow 2 64 - 1

/-- Takes digits in while they fit, and counts those left over. -/
def absorb : Nat → List Nat → Nat × Nat
  | digits, [] => (digits, 0)
  | digits, d :: rest =>
    if digits * 10 + d ≤ maxDigits then absorb (digits * 10 + d) rest
    else (digits, rest.length + 1)

/-- The numeral with these digits before and after the point and this exponent. -/
def ofParts (negative : Bool) (whole : List Nat) (fraction : Option (List Nat))
    (exponent : Option Int) : Numeral :=
  let (digits, left) := absorb 0 whole
  let places := fraction.getD []
  let (digits, leftPlaces) := absorb digits places
  { negative
    digits
    exponent := (left : Int) - (places.length - leftPlaces : Nat) + exponent.getD 0
    isWhole := fraction.isNone && exponent.isNone && left = 0 }

/-- The number that a numeral denotes: a whole number if it is written as one
and fits into 64 bits, with or without sign, else a double. Minus zero is a
double. -/
def toNumber? (n : Numeral) : Option Number :=
  if n.isWhole ∧ (n.negative = false ∨ 0 < n.digits ∧ n.digits ≤ Nat.pow 2 63) then
    some (.whole (if n.negative then -(n.digits : Int) else n.digits))
  else
    (Binary64.ofDecimal? n.negative n.digits n.exponent).map .real

end Numeral

namespace Json.Reader

/-- Drops blanks, tabs and line ends. -/
def skipBlanks : List Char → List Char
  | [] => []
  | c :: rest =>
    if c = ' ' ∨ c = '\n' ∨ c = '\t' ∨ c = '\r' then skipBlanks rest else c :: rest

/-- The value of a decimal digit. -/
def digit? (c : Char) : Option Nat :=
  if '0' ≤ c ∧ c ≤ '9' then some (c.toNat - '0'.toNat) else none

/-- The digits in front, and what follows them. -/
def digits : List Char → List Nat × List Char
  | [] => ([], [])
  | c :: rest =>
    match digit? c with
    | some d => let (ds, left) := digits rest; (d :: ds, left)
    | none => ([], c :: rest)

/-- The number that decimal digits stand for. -/
def ofDigits (ds : List Nat) : Nat := ds.foldl (fun n d => n * 10 + d) 0

/-- Reads digits of which there must be one. -/
def digits1? (cs : List Char) : Option (List Nat × List Char) :=
  match digits cs with
  | ([], _) => none
  | r => some r

/-- Reads a fraction, if there is one. -/
def fraction? : List Char → Option (Option (List Nat) × List Char)
  | '.' :: rest => (digits1? rest).map fun (ds, left) => (some ds, left)
  | cs => some (none, cs)

/-- Reads the sign and the digits of an exponent. -/
def signedExponent? : List Char → Option (Int × List Char)
  | '+' :: rest => (digits1? rest).map fun (ds, left) => ((ofDigits ds : Int), left)
  | '-' :: rest => (digits1? rest).map fun (ds, left) => (-(ofDigits ds : Int), left)
  | cs => (digits1? cs).map fun (ds, left) => ((ofDigits ds : Int), left)

/-- Reads an exponent, if there is one. -/
def exponent? : List Char → Option (Option Int × List Char)
  | 'e' :: rest | 'E' :: rest => (signedExponent? rest).map fun (e, left) => (some e, left)
  | cs => some (none, cs)

/-- Reads the digits before the point: a lone zero, or digits that do not start
with one. -/
def wholePart? (cs : List Char) : Option (List Nat × List Char) :=
  match digits cs with
  | ([], _) => none
  | (0 :: _ :: _, _) => none
  | r => some r

/-- Reads a number. -/
def number? (cs : List Char) : Option (Number × List Char) :=
  let (negative, cs) := match cs with
    | '-' :: rest => (true, rest)
    | cs => (false, cs)
  match wholePart? cs with
  | none => none
  | some (whole, cs) =>
    match fraction? cs with
    | none => none
    | some (fraction, cs) =>
      match exponent? cs with
      | none => none
      | some (exponent, cs) =>
        ((Numeral.ofParts negative whole fraction exponent).toNumber?).map fun n => (n, cs)

/-- Reads four hexadecimal digits. -/
def hex4? : List Char → Option (Nat × List Char)
  | a :: b :: c :: d :: rest =>
    (Text.hexValue? [a, b, c, d]).map fun unit => (unit, rest)
  | _ => none

/-- Reads the character of an escape after `\u`. A character beyond the first
plane is written as two escapes, a high surrogate and a low one; a surrogate on
its own is no character. -/
def unicodeEscape? (cs : List Char) : Option (Char × List Char) :=
  match hex4? cs with
  | none => none
  | some (unit, rest) =>
    if 0xD800 ≤ unit ∧ unit ≤ 0xDBFF then
      match rest with
      | '\\' :: 'u' :: rest =>
        match hex4? rest with
        | some (low, rest) =>
          if 0xDC00 ≤ low ∧ low ≤ 0xDFFF then
            some (Char.ofNat (0x10000 + (unit - 0xD800) * 0x400 + (low - 0xDC00)), rest)
          else none
        | none => none
      | _ => none
    else if 0xDC00 ≤ unit ∧ unit ≤ 0xDFFF then none
    else some (Char.ofNat unit, rest)

/-- Reads the character of an escape after the backslash. -/
def escape? : List Char → Option (Char × List Char)
  | '"' :: rest => some ('"', rest)
  | '\\' :: rest => some ('\\', rest)
  | '/' :: rest => some ('/', rest)
  | 'b' :: rest => some ('\x08', rest)
  | 'f' :: rest => some ('\x0c', rest)
  | 'n' :: rest => some ('\n', rest)
  | 'r' :: rest => some ('\r', rest)
  | 't' :: rest => some ('\t', rest)
  | 'u' :: rest => unicodeEscape? rest
  | _ => none

/-- Reads the rest of a string after its opening quote. Controls below the blank
must be escaped. -/
def stringBody? : Nat → List Char → Option (List Char × List Char)
  | 0, _ => none
  | _, [] => none
  | fuel + 1, c :: rest =>
    if c = '"' then some ([], rest)
    else if c = '\\' then
      match escape? rest with
      | some (c, rest) => (stringBody? fuel rest).map fun (cs, left) => (c :: cs, left)
      | none => none
    else if c.toNat < 0x20 then none
    else (stringBody? fuel rest).map fun (cs, left) => (c :: cs, left)

/-- Reads a string after its opening quote. -/
def string? (cs : List Char) : Option (String × List Char) :=
  (stringBody? (cs.length + 1) cs).map fun (body, rest) => (String.ofList body, rest)

/-- Drops the given characters from the front. -/
def keyword? : List Char → List Char → Option (List Char)
  | [], cs => some cs
  | k :: ks, c :: cs => if k = c then keyword? ks cs else none
  | _ :: _, [] => none

/-- Reads a value that is neither array nor object, at its first character. -/
def scalar? : List Char → Option (Json × List Char)
  | 'n' :: rest => (keyword? ['u', 'l', 'l'] rest).map fun left => (.null, left)
  | 't' :: rest => (keyword? ['r', 'u', 'e'] rest).map fun left => (.bool true, left)
  | 'f' :: rest => (keyword? ['a', 'l', 's', 'e'] rest).map fun left => (.bool false, left)
  | '"' :: rest => (string? rest).map fun (s, left) => (.string s, left)
  | cs => (number? cs).map fun (n, left) => (.number n, left)

/-- Reads the key of a member and the colon after it. -/
def key? (cs : List Char) : Option (String × List Char) :=
  match cs with
  | '"' :: rest =>
    match string? rest with
    | some (key, rest) =>
      match skipBlanks rest with
      | ':' :: rest => some (key, rest)
      | _ => none
    | none => none
  | _ => none

mutual

/-- Reads a value, blanks before it included. `depth` more arrays and objects
may be opened. -/
def value? : Nat → Nat → List Char → Option (Json × List Char)
  | 0, _, _ => none
  | fuel + 1, depth, cs =>
    match skipBlanks cs with
    | '[' :: rest =>
      match depth with
      | 0 => none
      | depth + 1 =>
        match skipBlanks rest with
        | ']' :: rest => some (.array [], rest)
        | rest => (items? fuel depth rest).map fun (items, left) => (.array items, left)
    | '{' :: rest =>
      match depth with
      | 0 => none
      | depth + 1 =>
        match skipBlanks rest with
        | '}' :: rest => some (.object [], rest)
        | rest => (members? fuel depth rest).map fun (members, left) => (.object members, left)
    | cs => scalar? cs

/-- Reads items of an array up to its closing bracket. -/
def items? : Nat → Nat → List Char → Option (List Json × List Char)
  | 0, _, _ => none
  | fuel + 1, depth, cs =>
    match value? fuel depth cs with
    | none => none
    | some (v, rest) =>
      match skipBlanks rest with
      | ',' :: rest => (items? fuel depth rest).map fun (items, left) => (v :: items, left)
      | ']' :: rest => some ([v], rest)
      | _ => none

/-- Reads members of an object up to its closing brace. -/
def members? : Nat → Nat → List Char → Option (Members × List Char)
  | 0, _, _ => none
  | fuel + 1, depth, cs =>
    match key? (skipBlanks cs) with
    | none => none
    | some (key, rest) =>
      match value? fuel depth rest with
      | none => none
      | some (v, rest) =>
        match skipBlanks rest with
        | ',' :: rest =>
          (members? fuel depth rest).map fun (members, left) => ((key, v) :: members, left)
        | '}' :: rest => some ([(key, v)], rest)
        | _ => none

end

/-- The number of arrays and objects that a value may lie in. -/
def maxDepth : Nat := 127

/-- Fuel for reading a value: two steps a character, and one for the end of the
text. -/
def valueFuel (cs : List Char) : Nat := 2 * cs.length + 2

end Json.Reader

open Json.Reader in
/-- Reads a text that holds one value and nothing else but blanks. -/
def Json.parse? (text : String) : Option Json :=
  let cs := text.toList
  match value? (valueFuel cs) maxDepth cs with
  | some (v, rest) => if (skipBlanks rest).isEmpty then some v else none
  | none => none

end Graft
