import Graft.Regex.Bracket

/-!
# Reading patterns

A pattern is read from left to right with the groups that are open on a stack.
Each part that has been read is an expression with the levels of nesting in it,
which are limited. Whatever does not follow the rules makes the text no pattern
at all.

The reader is a loop with one character, or one escape, class or repetition, a
step. It keeps the items of the alternative that is being read, the alternatives
before it, and the flags, which a group can change for itself or for what
follows in it. Closing a group takes the state before it from the stack and adds
the group as an item.

Main statements:
- `Reader.step_ordinary`, `Reader.step_escaped`: what a character adds that
  stands for itself, with or without a backslash.
-/

namespace Graft.Regex

/-- A part of a pattern. -/
structure Item where
  /-- What it matches. -/
  expr : Expr
  /-- Levels of groups, repetitions, classes, sequences and alternatives. -/
  depth : Nat := 0
  /-- Whether it only changes flags, so that it cannot be repeated. -/
  changesFlags : Bool := false

namespace Item

/-- The greatest depth among some parts. -/
def maxDepth (items : List Item) : Nat := (items.map Item.depth).foldl max 0

/-- Parts one after the other. Two or more are a level of nesting. -/
def ofSequence (items : List Item) : Item where
  expr := Expr.ofSequence (items.map Item.expr)
  depth := if items.length < 2 then maxDepth items else maxDepth items + 1

/-- Parts of which one matches. Two or more are a level of nesting. -/
def ofAlternatives (items : List Item) : Item where
  expr := Expr.ofAlternatives (items.map Item.expr)
  depth := if items.length < 2 then maxDepth items else maxDepth items + 1

end Item

/-- A group that has been opened, with what surrounds it. -/
structure OpenGroup where
  /-- Its index, if what it matches is remembered. -/
  index : Option Nat
  /-- The flags around the group. -/
  flags : Flags
  /-- The alternatives before it in the surrounding group, the last one first. -/
  alternatives : List Item
  /-- The parts before it in its own alternative, the last one first. -/
  items : List Item

/-- What has been read of a pattern. -/
structure Reader where
  /-- The flags in force. -/
  flags : Flags
  /-- The names of groups with their indexes, the last one first. -/
  names : List (String × Nat) := []
  /-- The number of groups that are remembered. -/
  groups : Nat := 0
  /-- The groups that are open, the innermost one first. -/
  opened : List OpenGroup := []
  /-- The finished alternatives of the innermost group, the last one first. -/
  alternatives : List Item := []
  /-- The parts of the alternative at hand, the last one first. -/
  items : List Item := []

/-- Levels of nesting that a pattern may have. -/
def maxNesting : Nat := 250

namespace Reader

/-- Adds a part. -/
def add (reader : Reader) (item : Item) : Reader := { reader with items := item :: reader.items }

/-- The innermost group as one part: its alternatives, the one at hand included. -/
def body (reader : Reader) : Item :=
  Item.ofAlternatives (Item.ofSequence reader.items.reverse :: reader.alternatives).reverse

/-- Ends an alternative. -/
def endAlternative (reader : Reader) : Reader :=
  { reader with
    alternatives := Item.ofSequence reader.items.reverse :: reader.alternatives
    items := [] }

/-- Opens a group in which these flags are in force. -/
def openGroup (reader : Reader) (index : Option Nat) (flags : Flags) : Reader :=
  { reader with
    flags
    groups := if index.isSome then reader.groups + 1 else reader.groups
    opened := ⟨index, reader.flags, reader.alternatives, reader.items⟩ :: reader.opened
    alternatives := []
    items := [] }

/-- Closes the innermost group. -/
def closeGroup (reader : Reader) : Option Reader :=
  match reader.opened with
  | [] => none
  | group :: opened =>
    let body := reader.body
    let expr := match group.index with
      | some index => .group index body.expr
      | none => body.expr
    some { reader with
      flags := group.flags
      opened
      alternatives := group.alternatives
      items := { expr, depth := body.depth + 1 } :: group.items }

/-- Repeats the last part. A mark after the repetition inverts its greed, and so
does the `U` flag. -/
def repeatLast (reader : Reader) (low : Nat) (high : Option Nat) (marked : Bool) : Option Reader :=
  match reader.items with
  | [] => none
  | item :: items =>
    if item.changesFlags then none
    else
      let greedy := marked == reader.flags.swapGreed
      some { reader with
        items :=
          { expr := Expr.repeated low high greedy item.expr, depth := item.depth + 1 } :: items }

/-! ## Groups -/

/-- Whether a group looks ahead or behind, which patterns cannot. -/
def looksAround : List Char → Bool
  | '?' :: '=' :: _ | '?' :: '!' :: _ | '?' :: '<' :: '=' :: _ | '?' :: '<' :: '!' :: _ => true
  | _ => false

/-- Whether a character may stand in the name of a group. -/
def isNameChar (first : Bool) (c : Char) : Bool :=
  c = '_' || (if first then Unicode.isAlphabetic c
    else c = '.' || c = '[' || c = ']' || Unicode.isAlphanumeric c)

/-- Whether a text can be the name of a group. -/
def isName : List Char → Bool
  | [] => false
  | c :: rest => isNameChar true c && rest.all (isNameChar false)

/-- Opens a group by its name, which ends at `>`. No two groups may have one
name. -/
def openNamed (reader : Reader) (cs : List Char) : Option (Reader × List Char) :=
  let name := cs.takeWhile (· ≠ '>')
  match cs.drop name.length with
  | [] => none
  | _ :: rest =>
    let key := String.ofList name
    if !isName name || (reader.names.lookup key).isSome then none
    else
      let index := reader.groups + 1
      some ({ reader with names := (key, index) :: reader.names }.openGroup (some index)
        reader.flags, rest)

/-- Reads what follows the question mark of a group without a name: flags for
the group, or for all that follows in the surrounding one. -/
def openFlags (reader : Reader) (cs : List Char) : Option (Reader × List Char) := do
  let (flags, letters, rest) ← reader.flags.change true [] cs
  match rest with
  | ':' :: rest => return (reader.openGroup none flags, rest)
  | _ :: rest =>
    if letters.isEmpty then none
    else return ({ reader with flags }.add { expr := .empty, changesFlags := true }, rest)
  | [] => none

/-- Reads what follows an opening parenthesis. -/
def openAny (reader : Reader) (cs : List Char) : Option (Reader × List Char) :=
  let cs := reader.flags.skip cs
  if looksAround cs then none
  else match cs with
    | '?' :: 'P' :: '<' :: rest => reader.openNamed rest
    | '?' :: '<' :: rest => reader.openNamed rest
    | '?' :: rest => reader.openFlags rest
    | cs => some (reader.openGroup (some (reader.groups + 1)) reader.flags, cs)

/-! ## Repetitions -/

/-- The greatest number in a repetition. -/
def maxCount : Nat := Nat.pow 2 32 - 1

/-- Reads the digits of a number, blanks apart, given what has been read of it. -/
def digits (verbose : Bool) (inComment : Bool) (n : Option Nat) :
    List Char → Option Nat × List Char
  | [] => (n, [])
  | c :: rest =>
    if inComment then digits verbose (c ≠ '\n') n rest
    else if '0' ≤ c ∧ c ≤ '9' then
      digits verbose false (some (n.getD 0 * 10 + (c.toNat - '0'.toNat))) rest
    else if verbose ∧ Unicode.isWhiteSpace c then digits verbose false n rest
    else if verbose ∧ c = '#' then digits verbose true n rest
    else (n, c :: rest)

/-- Reads a number with white space around it; `none` if there is none or it is
too large. -/
def count (flags : Flags) (cs : List Char) : Option Nat × List Char :=
  let isWhite := fun c => Unicode.isWhiteSpace c
  let (n, rest) := digits flags.verbose false none (cs.dropWhile isWhite)
  (n.filter (· ≤ maxCount), rest.dropWhile isWhite)

/-- Reads the numbers of a repetition and its closing brace: `{n}`, `{n,}` or
`{n,m}`. -/
def counts (flags : Flags) (cs : List Char) : Option (Nat × Option Nat × List Char) := do
  let (low, cs) := count flags cs
  let low ← low
  match cs with
  | '\x7d' :: rest => return (low, some low, rest)
  | ',' :: cs =>
    match flags.skip cs with
    | '\x7d' :: rest => return (low, none, rest)
    | cs =>
      let (high, cs) := count flags cs
      let high ← high
      match cs with
      | '\x7d' :: rest => if low ≤ high then return (low, some high, rest) else none
      | _ => none
  | _ => none

/-- Reads the question mark after a repetition, if there is one. -/
def mark : List Char → Bool × List Char
  | '?' :: rest => (true, rest)
  | cs => (false, cs)

/-- Repeats the last part, by `?`, `*` or `+`. -/
def repeatSimply (reader : Reader) (low : Nat) (high : Option Nat) (cs : List Char) :
    Option (Reader × List Char) :=
  let (marked, rest) := mark cs
  (reader.repeatLast low high marked).map (·, rest)

/-- Repeats the last part as often as the numbers between braces say. -/
def repeatCounted (reader : Reader) (cs : List Char) : Option (Reader × List Char) := do
  let (low, high, rest) ← counts reader.flags cs
  let (marked, rest) := mark (reader.flags.skip rest)
  let reader ← reader.repeatLast low high marked
  return (reader, rest)

/-! ## All together -/

/-- The part that an escape makes. -/
def ofEscape (flags : Flags) : Escape → Item
  | .literal c => { expr := flags.literal c }
  | .set chars => { expr := .set chars }
  | .look condition => { expr := .look condition }

/-- Reads one part, given its first character and what follows. -/
def step (reader : Reader) (c : Char) (rest : List Char) : Option (Reader × List Char) :=
  match c with
  | '(' => reader.openAny rest
  | ')' => reader.closeGroup.map (·, rest)
  | '|' => some (reader.endAlternative, rest)
  | '[' => (Bracket.read reader.flags rest).map fun (part, rest) =>
    (reader.add { expr := .set part.chars, depth := part.depth }, rest)
  | '?' => reader.repeatSimply 0 (some 1) rest
  | '*' => reader.repeatSimply 0 none rest
  | '+' => reader.repeatSimply 1 none rest
  | '\x7b' => reader.repeatCounted rest
  | '\\' => (Escape.read reader.flags rest).map fun (escape, rest) =>
    (reader.add (ofEscape reader.flags escape), rest)
  | '.' => reader.flags.dot.map fun expr => (reader.add { expr }, rest)
  | '^' => some (reader.add { expr := .look reader.flags.caret }, rest)
  | '$' => some (reader.add { expr := .look reader.flags.dollar }, rest)
  | c => some (reader.add { expr := reader.flags.literal c }, rest)

/-- Reads parts to the end of the pattern. The first argument bounds their
number. -/
def run : Nat → Reader → List Char → Option Reader
  | 0, _, _ => none
  | fuel + 1, reader, cs =>
    match reader.flags.skip cs with
    | [] => some reader
    | c :: rest => match reader.step c rest with
      | some (reader, rest) => run fuel reader rest
      | none => none

/-- The pattern as a whole, if no group is open and it is not nested too deeply. -/
def finish (reader : Reader) : Option Expr :=
  let body := reader.body
  if reader.opened.isEmpty && body.depth ≤ maxNesting then some body.expr else none

/-- A character that has no meaning stands for itself. -/
theorem step_ordinary (reader : Reader) {c : Char} (h : isMeta c = false) (rest : List Char) :
    reader.step c rest = some (reader.add { expr := reader.flags.literal c }, rest) := by
  unfold step
  split <;> first | rfl | exact absurd h (by decide)

/-- A character that has a meaning stands for itself after a backslash. -/
theorem step_escaped (reader : Reader) {c : Char} (h : isMeta c = true) (rest : List Char) :
    reader.step '\\' (c :: rest) = some (reader.add { expr := reader.flags.literal c }, rest) := by
  simp [step, Escape.read_meta reader.flags h, ofEscape]

end Reader

end Graft.Regex
