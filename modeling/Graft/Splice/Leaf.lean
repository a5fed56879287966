import Graft.Rule.RuleSet

/-!
# Splicing a leaf

The matches of a rule in one text leaf are taken from left to right, each
searched for from a cursor in the whole text. A match that is accepted is
replaced, and the cursor moves behind it; after a match of the empty text, and
after one that is rejected, the cursor moves one character on from where the
match starts. Rejected text stays where it is. A pattern that is not global has
a single attempt.

`spliceFrom` is `splice_leaf` together with the scanner that it drives. In the
program the loop asks `next_match` for a candidate, calls the replacer, and
tells the scanner to `accept` or `reject` it; the scanner keeps the cursor, the
loop keeps the offset at which the literal text not yet taken over starts. Here
both offsets are arguments of one recursion:

- `next_match` is the test that the cursor lies in the text, and then
  `Leaf.find`;
- `accept` is `cursorAfter`, `reject` is `stepFrom` at the start of the match,
  and `step_from` is `stepFrom`, which is one behind the end of the text where
  no character is left;
- the flag that nothing has been accepted is `none`, in which case the leaf is
  not touched at all.

Nodes are gathered while the recursion returns and not while it descends, so the
literal text behind the last match is made where the scan ends and the fragment
before a match in front of what follows it. The replacer is asked in the order
of the matches all the same, since its state is passed down.

The number of candidates is bounded by the places of the text, so the fuel in
`Leaf.splice` is never used up (`Graft.Proofs.Splice.Scan`).

Main statements:
- `spliceFrom_beyond`, `spliceFrom_noMatch`: where the scan ends without a
  further match;
- `fragment_empty`: no text node is made for the empty text.
-/

namespace Graft

variable {σ : Type}

/-- The text nodes for a part of a leaf: none for the empty text, else one. -/
def fragment (text : List Char) : List Node :=
  if text.isEmpty then [] else [Node.ofText (String.ofList text)]

@[simp] theorem fragment_empty : fragment [] = [] := rfl

namespace Splice

/-- A leaf as it is searched. -/
structure Leaf (σ : Type) where
  /-- The text of the leaf. -/
  text : List Char
  /-- The match at the first place, at or after a cursor, that has one. -/
  find : Nat → Option Match
  /-- Whether every match counts, or only the first. -/
  global : Bool
  /-- The nodes that take the place of a match, given the replacer's state; none
  if it is rejected. -/
  answer : Match → σ → Option (List Node) × σ

namespace Leaf

/-- The offset of the next character boundary after an offset; at the end of the
text, one more. -/
def stepFrom (leaf : Leaf σ) (offset : Nat) : Nat :=
  match Text.dropBytes offset leaf.text with
  | c :: _ => offset + c.utf8Size
  | [] => offset + 1

/-- Where the search goes on after a match that is accepted. -/
def cursorAfter (leaf : Leaf σ) (span : Span) : Nat :=
  if span.start < span.stop then span.stop else leaf.stepFrom span.start

/-- Splices what lies from offset `start` on, searching from the cursor. `none`
if no match is accepted. No more than `fuel` matches are looked at. -/
def spliceFrom (leaf : Leaf σ) : Nat → Nat → Nat → σ → Option (List Node) × σ
  | 0, _, _, state => (none, state)
  | fuel + 1, cursor, start, state =>
    if Text.byteLength leaf.text < cursor then (none, state)
    else match leaf.find cursor with
      | none => (none, state)
      | some found =>
        match leaf.answer found state with
        -- rejected: the text from `start` on is still to be taken over
        | (none, state) =>
          if leaf.global then
            leaf.spliceFrom fuel (leaf.stepFrom found.span.start) start state
          else (none, state)
        | (some nodes, state) =>
          let (more, state) :=
            if leaf.global then
              leaf.spliceFrom fuel (leaf.cursorAfter found.span) found.span.stop state
            else (none, state)
          -- the literal text between the accepted matches, and behind the last of them
          let before := fragment (Text.between leaf.text start found.span.start)
          let after := more.getD (fragment (Text.dropBytes found.span.stop leaf.text))
          (some (before ++ nodes ++ after), state)

/-- The nodes that take the leaf's place, and the state after all answers.
`none` if no match is accepted; then the leaf stays as it is. There are no more
matches to look at than there are places. -/
def splice (leaf : Leaf σ) (state : σ) : Option (List Node) × σ :=
  leaf.spliceFrom (leaf.text.length + 1) 0 0 state

theorem spliceFrom_beyond (leaf : Leaf σ) (fuel start : Nat) {cursor : Nat} (state : σ)
    (h : Text.byteLength leaf.text < cursor) :
    leaf.spliceFrom fuel cursor start state = (none, state) := by
  cases fuel with
  | zero => rfl
  | succ fuel => rw [spliceFrom, if_pos h]

theorem spliceFrom_noMatch (leaf : Leaf σ) (fuel start : Nat) {cursor : Nat} (state : σ)
    (h : leaf.find cursor = none) :
    leaf.spliceFrom fuel cursor start state = (none, state) := by
  cases fuel with
  | zero => rfl
  | succ fuel => simp [spliceFrom, h]

end Leaf

end Splice

namespace Rule

/-- The match as the rule's replacer sees it. -/
def found (rule : Rule σ) (input : List Char) (stack : List Node) (spans : Match) : Found :=
  ⟨spans, rule.pattern.regex.names, input, stack⟩

/-- A leaf with this text at the end of this stack, searched for the rule's
pattern. -/
def leaf (rule : Rule σ) (text : List Char) (stack : List Node) : Splice.Leaf σ where
  text
  find := rule.pattern.regex.findFrom text
  global := rule.pattern.global
  answer spans state :=
    let (replacement, state) := rule.replacer.ask (rule.found text stack spans) state
    (replacement.toNodes, state)

/-- The nodes that take the place of a leaf with this text, at the end of this
stack; `none` if no match is accepted. -/
def spliceLeaf (rule : Rule σ) (text : String) (stack : List Node) (state : σ) :
    Option (List Node) × σ :=
  (rule.leaf text.toList stack).splice state

end Rule

end Graft
