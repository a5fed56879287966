import Graft.Json.Reader
import Graft.Unicode.Class

/-!
# JSON written by hand

A wider form of JSON for texts that people write: comments and any white space
between the parts, a comma after the last item, or no comma at all, strings
between single quotes, keys without quotes, and numbers with a plus sign or with
hexadecimal digits. A text without a value is no fault.

The text is first cut into tokens, which does not depend on where they stand,
and the tokens are read as a value. So a fault in a single token, such as a
string that does not end, is one for the whole text wherever it stands. Repeated
keys are kept as they stand; `Json.mergeKeys` merges them.

A number that fits no type of number is kept as the text of its digits, in the
way of the reader that configurations are read with.

Main statements:
- `Relaxed.tokens_nil`: the empty text has no tokens.
-/

namespace Graft.Json.Relaxed

open Reader (digits1? fraction? exponent? unicodeEscape?)

/-- The parts of a text. -/
inductive Token where
  | openBrace
  | closeBrace
  | openBracket
  | closeBracket
  | comma
  | colon
  | string (value : String)
  /-- A number as it is written, and the value it stands for. -/
  | number (source : String) (value : Json)
  | bool (value : Bool)
  | null
  /-- A key without quotes. -/
  | word (name : String)

/-! ## Strings -/

/-- Reads the character of an escape after the backslash. Of the two quotes only
the one around the string can be escaped. -/
def escape? (quote : Char) : List Char → Option (Char × List Char)
  | '"' :: rest => if quote = '"' then some ('"', rest) else none
  | '\'' :: rest => if quote = '\'' then some ('\'', rest) else none
  | cs => Reader.escape? cs

/-- Reads the rest of a string after its opening quote. Line ends and controls
may stand in it. -/
def stringBody? (quote : Char) : Nat → List Char → Option (List Char × List Char)
  | 0, _ => none
  | _, [] => none
  | fuel + 1, c :: rest =>
    if c = quote then some ([], rest)
    else if c = '\\' then
      match escape? quote rest with
      | some (c, rest) => (stringBody? quote fuel rest).map fun (cs, left) => (c :: cs, left)
      | none => none
    else (stringBody? quote fuel rest).map fun (cs, left) => (c :: cs, left)

/-- Reads a string after its opening quote. -/
def string? (quote : Char) (cs : List Char) : Option (Token × List Char) :=
  (stringBody? quote (cs.length + 1) cs).map fun (body, rest) =>
    (.string (String.ofList body), rest)

/-! ## Numbers -/

/-- What is in front of the last part of a text. -/
def upTo (whole rest : List Char) : String :=
  String.ofList (whole.take (whole.length - rest.length))

/-- The digits before the point: a zero on its own, or digits that start with
another. -/
def wholePart? : List Char → Option (List Nat × List Char)
  | '0' :: rest => some ([0], rest)
  | cs => digits1? cs

/-- Reads a number in decimal digits. One that is too large stands for its own
text. -/
def decimal? (source : List Char) (negative : Bool) (cs : List Char) :
    Option (Token × List Char) := do
  let (whole, cs) ← wholePart? cs
  let (fraction, cs) ← fraction? cs
  let (exponent, cs) ← exponent? cs
  let text := upTo source cs
  let value := match (Numeral.ofParts negative whole fraction exponent).toNumber? with
    | some n => .number n
    | none => .string text
  return (.number text value, cs)

/-- The greatest number in hexadecimal digits. -/
def maxHex : Nat := Nat.pow 2 63 - 1

/-- Reads a number in hexadecimal digits after its `0x`. One that is too large
stands for its own text. -/
def hexadecimal? (source : List Char) (negative : Bool) (cs : List Char) :
    Option (Token × List Char) := do
  let isDigit := fun c => (Text.hexDigit? c).isSome
  let rest := cs.dropWhile isDigit
  let n ← Text.hexValue? (cs.takeWhile isDigit)
  if rest.length = cs.length then none
  let text := upTo source rest
  let value := if n ≤ maxHex then .number (.whole (if negative then -(n : Int) else n))
    else .string text
  return (.number text value, rest)

/-- Reads a number after its sign. -/
def unsigned? (source : List Char) (negative : Bool) (cs : List Char) :
    Option (Token × List Char) :=
  match cs with
  | '0' :: 'x' :: rest | '0' :: 'X' :: rest => hexadecimal? source negative rest
  | cs => decimal? source negative cs

/-- Reads a number. -/
def number? (cs : List Char) : Option (Token × List Char) :=
  match cs with
  | '-' :: rest => unsigned? cs true rest
  | '+' :: rest => unsigned? cs false rest
  | rest => unsigned? cs false rest

/-! ## Words -/

/-- Whether a keyword may end before these characters. -/
def endsKeyword : List Char → Bool
  | [] => true
  | c :: _ => !(Unicode.isAlphanumeric c || c = '-')

/-- Reads a keyword. -/
def keyword? (name : String) (token : Token) (cs : List Char) : Option (Token × List Char) :=
  match Reader.keyword? name.toList cs with
  | some rest => if endsKeyword rest then some (token, rest) else none
  | none => none

/-- Reads a key without quotes, up to white space or a colon: letters, numbers,
`-` and `_`. -/
def word? (cs : List Char) : Option (Token × List Char) :=
  let name := cs.takeWhile fun c => !(Unicode.isWhiteSpace c || c = ':')
  if name.isEmpty ∨ !name.all fun c => Unicode.isAlphanumeric c || c = '-' || c = '_' then none
  else some (.word (String.ofList name), cs.drop name.length)

/-! ## Tokens -/

/-- What follows a comment that runs to the end of the line. A carriage return
ends the line only together with the line feed. -/
def afterLine : List Char → List Char
  | [] => []
  | '\n' :: rest => '\n' :: rest
  | '\r' :: '\n' :: rest => '\r' :: '\n' :: rest
  | _ :: rest => afterLine rest

/-- What follows a comment that runs to `*/`. -/
def afterBlock? : List Char → Option (List Char)
  | [] => none
  | '*' :: '/' :: rest => some rest
  | _ :: rest => afterBlock? rest

/-- Reads a token at its first character. -/
def token? (cs : List Char) : Option (Token × List Char) :=
  match cs with
  | '{' :: rest => some (.openBrace, rest)
  | '}' :: rest => some (.closeBrace, rest)
  | '[' :: rest => some (.openBracket, rest)
  | ']' :: rest => some (.closeBracket, rest)
  | ',' :: rest => some (.comma, rest)
  | ':' :: rest => some (.colon, rest)
  | '"' :: rest => string? '"' rest
  | '\'' :: rest => string? '\'' rest
  | [] => none
  | c :: _ =>
    if c = '-' ∨ c = '+' ∨ (Reader.digit? c).isSome then number? cs
    else
      ((keyword? "true" (.bool true) cs).orElse fun _ =>
        (keyword? "false" (.bool false) cs).orElse fun _ =>
          keyword? "null" .null cs).orElse fun _ => word? cs

/-- Cuts a text into tokens. The first argument bounds their number, blanks and
comments included. -/
def tokensFrom : Nat → List Char → Option (List Token)
  | _, [] => some []
  | 0, _ => none
  | fuel + 1, c :: rest =>
    if Unicode.isWhiteSpace c then tokensFrom fuel rest
    else match c, rest with
      | '/', '/' :: rest => tokensFrom fuel (afterLine rest)
      | '/', '*' :: rest => match afterBlock? rest with
        | some rest => tokensFrom fuel rest
        | none => none
      | c, rest => match token? (c :: rest) with
        | some (token, rest) => (tokensFrom fuel rest).map (token :: ·)
        | none => none

/-- The tokens of a text. -/
def tokens? (cs : List Char) : Option (List Token) := tokensFrom cs.length cs

@[simp] theorem tokens_nil : tokens? [] = some [] := rfl

/-! ## Values -/

/-- The key that a token can be. -/
def Token.key? : Token → Option String
  | .string value => some value
  | .word name => some name
  | .number source _ => some source
  | _ => none

/-- What follows a comma, if there is one. -/
def dropComma : List Token → List Token
  | .comma :: rest => rest
  | tokens => tokens

mutual

/-- Reads a value. -/
def value? : Nat → List Token → Option (Json × List Token)
  | 0, _ => none
  | _, [] => none
  | fuel + 1, token :: rest =>
    match token with
    | .openBrace => (members? fuel rest).map fun (members, left) => (.object members, left)
    | .openBracket => (items? fuel rest).map fun (items, left) => (.array items, left)
    | .string value => some (.string value, rest)
    | .number _ value => some (value, rest)
    | .bool value => some (.bool value, rest)
    | .null => some (.null, rest)
    | _ => none

/-- Reads items of an array up to its closing bracket. -/
def items? : Nat → List Token → Option (List Json × List Token)
  | 0, _ => none
  | _, .closeBracket :: rest => some ([], rest)
  | fuel + 1, tokens =>
    match value? fuel tokens with
    | some (v, rest) =>
      (items? fuel (dropComma rest)).map fun (items, left) => (v :: items, left)
    | none => none

/-- Reads members of an object up to its closing brace. -/
def members? : Nat → List Token → Option (Members × List Token)
  | 0, _ => none
  | _, .closeBrace :: rest => some ([], rest)
  | fuel + 1, token :: .colon :: rest =>
    match token.key?, value? fuel rest with
    | some key, some (v, rest) =>
      (members? fuel (dropComma rest)).map fun (members, left) => ((key, v) :: members, left)
    | _, _ => none
  | _, _ => none

end

/-- Fuel for reading a value: two steps a token, and one for the end of the text. -/
def valueFuel (tokens : List Token) : Nat := 2 * tokens.length + 2

end Graft.Json.Relaxed

namespace Graft

open Json.Relaxed in
/-- Reads a text that holds at most one value; `some none` if it holds none. -/
def Json.parseRelaxed? (text : String) : Option (Option Json) :=
  match tokens? text.toList with
  | none => none
  | some [] => some none
  | some tokens =>
    match value? (valueFuel tokens) tokens with
    | some (v, []) => some (some v)
    | _ => none

end Graft
