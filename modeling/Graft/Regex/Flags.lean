import Graft.Regex.Expr
import Graft.Unicode.Fold

/-!
# Flags and classes

What the characters of a pattern stand for depends on flags, which a pattern can
change on the way. This module holds the flags, the classes under them, and the
blanks that a verbose pattern may have between its parts.

Main statements:
- `Flags.skip_of_not_verbose`: without the verbose flag every character counts;
- `Flags.literal_default`: a character without flags matches itself alone.
-/

namespace Graft.Regex

open Unicode (Ranges)

/-- The flags of a pattern. -/
structure Flags where
  /-- `i`: letters match in either case. -/
  ignoreCase : Bool := false
  /-- `m`: `^` and `$` match at lines. -/
  multiLine : Bool := false
  /-- `s`: the dot matches line ends too. -/
  dotAll : Bool := false
  /-- `U`: repetitions are lazy unless they are marked. -/
  swapGreed : Bool := false
  /-- `R`: lines may end in a carriage return and a line feed. -/
  crlf : Bool := false
  /-- `x`: blanks and comments between the parts of a pattern do not count. -/
  verbose : Bool := false
  /-- `u`: classes hold the characters of all scripts. -/
  unicode : Bool := true
  deriving DecidableEq

namespace Flags

/-- Switches the flag of this letter. -/
def set? (flags : Flags) (letter : Char) (on : Bool) : Option Flags :=
  match letter with
  | 'i' => some { flags with ignoreCase := on }
  | 'm' => some { flags with multiLine := on }
  | 's' => some { flags with dotAll := on }
  | 'U' => some { flags with swapGreed := on }
  | 'R' => some { flags with crlf := on }
  | 'x' => some { flags with verbose := on }
  | 'u' => some { flags with unicode := on }
  | _ => none

/-- Reads letters of flags up to a colon or a closing parenthesis, which is left
to be read. Letters after a hyphen switch their flags off; neither a letter nor
the hyphen may stand twice, and the hyphen may not be last. Gives the flags, the
letters seen and what follows. -/
def change (flags : Flags) (on : Bool) (seen : List Char) :
    List Char → Option (Flags × List Char × List Char)
  | [] => none
  | c :: rest =>
    if c = ':' ∨ c = ')' then
      if seen.head? = some '-' then none else some (flags, seen, c :: rest)
    else if c ∈ seen then none
    else if c = '-' then flags.change false (c :: seen) rest
    else match flags.set? c on with
      | some flags => flags.change on (c :: seen) rest
      | none => none

/-! ## Blanks and comments -/

/-- Drops white space and comments, which run from a number sign to the end of
the line. -/
def dropBlanks (inComment : Bool) : List Char → List Char
  | [] => []
  | c :: rest =>
    if inComment then dropBlanks (c ≠ '\n') rest
    else if Unicode.isWhiteSpace c then dropBlanks false rest
    else if c = '#' then dropBlanks true rest
    else c :: rest

/-- The pattern from its next character that counts. -/
def skip (flags : Flags) (cs : List Char) : List Char :=
  if flags.verbose then dropBlanks false cs else cs

/-- The next character that counts, in the view of a hyphen: white space is
passed over, and so is one number sign, but not the comment behind it. If
nothing else follows, the next character counts. -/
def peek (flags : Flags) (cs : List Char) : Option Char :=
  if flags.verbose then
    let isWhite := fun c => Unicode.isWhiteSpace c
    let beyond := match cs.dropWhile isWhite with
      | '#' :: rest => rest.dropWhile isWhite
      | rest => rest
    beyond.head?.or cs.head?
  else cs.head?

/-! ## Classes -/

/-- Adds the other case if case does not count. -/
def fold (flags : Flags) (chars : Ranges) : Ranges :=
  if flags.ignoreCase then
    if flags.unicode then chars.closeUnderCase else chars.closeUnderAsciiCase
  else chars

/-- Settles a class: case first, negation second. Without the `u` flag a class
may hold ASCII characters only. -/
def settle (flags : Flags) (negated : Bool) (chars : Ranges) : Option Ranges :=
  let folded := flags.fold chars
  let settled := if negated then folded.complement else folded
  if flags.unicode || settled.isAscii then some settled else none

/-- A character that stands for itself. -/
def literal (flags : Flags) (c : Char) : Expr :=
  .set (flags.fold (Ranges.single c.toNat))

/-- The dot: any character but a line end. It needs the `u` flag. -/
def dot (flags : Flags) : Option Expr :=
  if !flags.unicode then none
  else if flags.dotAll then some (.set Ranges.full)
  else if flags.crlf then some (.set (Ranges.complement [(10, 10), (13, 13)]))
  else some (.set (Ranges.complement [(10, 10)]))

/-- The line ends in force. -/
def lineEnd (flags : Flags) : LineEnd := if flags.crlf then .crlf else .lf

/-- The characters of words in force. -/
def alphabet (flags : Flags) : Alphabet := if flags.unicode then .unicode else .ascii

/-- The condition that `^` stands for. -/
def caret (flags : Flags) : Look :=
  if flags.multiLine then .lineStart flags.lineEnd else .textStart

/-- The condition that `$` stands for. -/
def dollar (flags : Flags) : Look :=
  if flags.multiLine then .lineEnd flags.lineEnd else .textEnd

/-- The classes that stand between `[:` and `:]`. -/
def asciiClasses : List (String × Ranges) := [
  ("alnum", [(0x30, 0x39), (0x41, 0x5A), (0x61, 0x7A)]),
  ("alpha", [(0x41, 0x5A), (0x61, 0x7A)]),
  ("ascii", [(0x00, 0x7F)]),
  ("blank", [(0x09, 0x09), (0x20, 0x20)]),
  ("cntrl", [(0x00, 0x1F), (0x7F, 0x7F)]),
  ("digit", [(0x30, 0x39)]),
  ("graph", [(0x21, 0x7E)]),
  ("lower", [(0x61, 0x7A)]),
  ("print", [(0x20, 0x7E)]),
  ("punct", [(0x21, 0x2F), (0x3A, 0x40), (0x5B, 0x60), (0x7B, 0x7E)]),
  ("space", [(0x09, 0x0D), (0x20, 0x20)]),
  ("upper", [(0x41, 0x5A)]),
  ("word", [(0x30, 0x39), (0x41, 0x5A), (0x5F, 0x5F), (0x61, 0x7A)]),
  ("xdigit", [(0x30, 0x39), (0x41, 0x46), (0x61, 0x66)])]

/-- The ASCII class with this name. -/
def asciiClass? (name : String) : Option Ranges := asciiClasses.lookup name

/-- The class that a single letter after a backslash stands for; upper case
negates it. -/
def letterClass? (flags : Flags) (letter : Char) : Option (Option Ranges) :=
  let classOf := fun (negated : Bool) (all : Ranges) (ascii : String) =>
    some (flags.settle negated (if flags.unicode then all else (asciiClass? ascii).getD []))
  match letter with
  | 'd' => classOf false Unicode.decimalDigit "digit"
  | 'D' => classOf true Unicode.decimalDigit "digit"
  | 's' => classOf false Unicode.whiteSpace "space"
  | 'S' => classOf true Unicode.whiteSpace "space"
  | 'w' => classOf false Unicode.word "word"
  | 'W' => classOf true Unicode.word "word"
  | _ => none

/-! ## Without flags -/

theorem skip_of_not_verbose {flags : Flags} (h : flags.verbose = false) (cs : List Char) :
    flags.skip cs = cs := by
  simp [skip, h]

theorem literal_default (c : Char) : ({} : Flags).literal c = Expr.char c := rfl

end Flags

end Graft.Regex
