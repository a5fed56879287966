import Graft.Regex.Expr

/-!
# Programs

An expression is matched by a program of small instructions, each of which names
the ones that may come next, in order of preference. A program is built from its
end: what an expression needs is put before the instruction that follows it.
Instruction 0 accepts.

A repetition without a bound needs a loop, in which the body leads back to the
choice whether to go on. That choice is put in first and filled in when the body
is there (`Fragment.onceOrMore`). Groups are two instructions that save the
offset of a thread, and conditions are instructions that let a thread pass or
not, by the two characters at its place.

Main statements:
- `compile_ofText`: the program of a text that stands for itself is a chain of
  its characters.
-/

namespace Graft.Regex

open Unicode (Ranges)

/-- An instruction of a program. The numbers are places of instructions. -/
inductive Instr where
  /-- The match is complete. -/
  | accept
  /-- Takes a character of the set. -/
  | take (chars : Ranges) (next : Nat)
  /-- Goes on where the condition holds. -/
  | require (condition : Look) (next : Nat)
  /-- Remembers the offset in a slot. -/
  | save (slot : Nat) (next : Nat)
  /-- Tries the first, and the second if that leads to no match. -/
  | split (first second : Nat)
  deriving DecidableEq

/-- A program under construction. -/
abbrev Code := Array Instr

/-- What turns a following instruction into the instruction to start with,
putting code in between. -/
abbrev Fragment := Nat → Code → Nat × Code

namespace Fragment

/-- One instruction. -/
def single (instr : Nat → Instr) : Fragment := fun next code => (code.size, code.push (instr next))

/-- A choice between going into the body and going past it. -/
def choice (greedy : Bool) (into past : Nat) : Instr :=
  if greedy then .split into past else .split past into

/-- The body `n` times. -/
def copies (body : Fragment) : Nat → Fragment
  | 0 => fun next code => (next, code)
  | n + 1 => fun next code =>
    let (start, code) := copies body n next code
    body start code

/-- The body at most `n` times. -/
def atMost (body : Fragment) (greedy : Bool) : Nat → Fragment
  | 0 => fun next code => (next, code)
  | n + 1 => fun next code =>
    let (after, code) := atMost body greedy n next code
    let (start, code) := body after code
    single (fun _ => choice greedy start next) next code

/-- The body once or more. The choice after the body comes first, so that the
body can lead to it. -/
def onceOrMore (body : Fragment) (greedy : Bool) : Fragment := fun next code =>
  let (start, code') := body code.size (code.push .accept)
  (start, code'.setIfInBounds code.size (choice greedy start next))

/-- The body any number of times: once or more, or not at all. -/
def anyNumber (body : Fragment) (greedy : Bool) : Fragment :=
  atMost (onceOrMore body greedy) greedy 1

/-- The body at least `low` times and at most `high` times. -/
def repeated (body : Fragment) (greedy : Bool) : Nat → Option Nat → Fragment
  | 0, none => anyNumber body greedy
  | low + 1, none => fun next code =>
    let (start, code) := onceOrMore body greedy next code
    copies body low start code
  | low, some high => fun next code =>
    let (start, code) := atMost body greedy (high - low) next code
    copies body low start code

end Fragment

/-- The slot for the start of a group. -/
def startSlot (index : Nat) : Nat := 2 * index

/-- The slot for the end of a group. -/
def stopSlot (index : Nat) : Nat := 2 * index + 1

/-- The program of an expression, put before the instruction that follows it. -/
def Expr.compile : Expr → Fragment
  | .empty => fun next code => (next, code)
  | .set chars => Fragment.single (.take chars)
  | .look condition => Fragment.single (.require condition)
  | .group index body => fun next code =>
    let (stop, code) := Fragment.single (.save (stopSlot index)) next code
    let (start, code) := body.compile stop code
    Fragment.single (.save (startSlot index)) start code
  | .concat first second => fun next code =>
    let (middle, code) := second.compile next code
    first.compile middle code
  | .either first second => fun next code =>
    let (other, code) := second.compile next code
    let (start, code) := first.compile next code
    Fragment.single (fun _ => .split start other) next code
  | .repetition low high greedy body => Fragment.repeated body.compile greedy low high

/-- A program and the instruction it starts with. -/
structure Program where
  /-- The instructions. -/
  code : Code
  /-- The first one to run. -/
  start : Nat

/-- The program of an expression. -/
def Expr.program (e : Expr) : Program :=
  let (start, code) := e.compile 0 #[.accept]
  ⟨code, start⟩

namespace Expr

theorem compile_char (c : Char) (next : Nat) (code : Code) :
    (char c).compile next code = (code.size, code.push (.take (Ranges.single c.toNat) next)) := rfl

/-- The program of a text that stands for itself takes its characters one after
the other. -/
theorem compile_ofText (c : Char) (rest : List Char) (next : Nat) (code : Code) :
    (ofText (c :: rest)).compile next code =
      (char c).compile ((ofText rest).compile next code).1 ((ofText rest).compile next code).2 := by
  cases rest <;> rfl

end Expr

end Graft.Regex
