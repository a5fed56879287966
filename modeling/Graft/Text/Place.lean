/-!
# Places in a text

Offsets into a text count the bytes of its UTF-8 form. A place is a point
between two characters, or at either end: it knows the character before it, its
offset, and the characters that follow. A text of `n` characters has `n + 1`
places, and their offsets are the character boundaries of the text.

Texts are lists of characters wherever they are taken apart. A cut at an offset
(`takeBytes`, `dropBytes`, and `between` for a slice) goes by whole characters:
an offset inside a character counts as the boundary behind it. The program would
refuse such a cut, and never makes one (`Graft.Proofs.Splice.Turns`).

Main statements:
- `length_placesFrom`: one place more than there are characters;
- `takeBytes_append`, `dropBytes_append`, `between_append`: a text cut at the
  ends of its parts.
-/

namespace Graft.Text

/-- The number of bytes of a text. -/
def byteLength : List Char → Nat
  | [] => 0
  | c :: rest => c.utf8Size + byteLength rest

/-- The text without its first `n` bytes. A cut inside a character takes the
whole character away. -/
def dropBytes : Nat → List Char → List Char
  | 0, text => text
  | _, [] => []
  | n, c :: rest => dropBytes (n - c.utf8Size) rest

/-- The first `n` bytes of the text. A cut inside a character keeps the whole
character. -/
def takeBytes : Nat → List Char → List Char
  | 0, _ => []
  | _, [] => []
  | n, c :: rest => c :: takeBytes (n - c.utf8Size) rest

/-- The bytes from offset `start` up to offset `stop`. -/
def between (text : List Char) (start stop : Nat) : List Char :=
  takeBytes (stop - start) (dropBytes start text)

/-- Whether an offset lies between two characters or at an end of the text. -/
def IsBoundary (text : List Char) (n : Nat) : Prop :=
  ∃ front back, text = front ++ back ∧ byteLength front = n

@[simp] theorem byteLength_nil : byteLength [] = 0 := rfl

@[simp] theorem byteLength_cons (c : Char) (rest : List Char) :
    byteLength (c :: rest) = c.utf8Size + byteLength rest := rfl

@[simp] theorem byteLength_append (a b : List Char) :
    byteLength (a ++ b) = byteLength a + byteLength b := by
  induction a with
  | nil => simp
  | cons c a ih => simp [ih, Nat.add_assoc]

/-- A text has at least as many bytes as characters. -/
theorem length_le_byteLength (text : List Char) : text.length ≤ byteLength text := by
  induction text with
  | nil => simp
  | cons c rest ih =>
    have := c.utf8Size_pos
    simp only [List.length_cons, byteLength_cons]
    omega

@[simp] theorem dropBytes_zero (text : List Char) : dropBytes 0 text = text := by
  cases text <;> rfl

@[simp] theorem takeBytes_zero (text : List Char) : takeBytes 0 text = [] := by
  cases text <;> rfl

/-- Dropping as many bytes as the first part has leaves the second part. -/
@[simp] theorem dropBytes_append (a b : List Char) : dropBytes (byteLength a) (a ++ b) = b := by
  induction a with
  | nil => simp
  | cons c a ih =>
    obtain ⟨n, hn⟩ := Nat.exists_eq_succ_of_ne_zero (Nat.pos_iff_ne_zero.mp c.utf8Size_pos)
    rw [List.cons_append, byteLength_cons, hn, Nat.succ_add, dropBytes.eq_3 _ _ _ (by simp)]
    rw [hn, show (n + byteLength a).succ - n.succ = byteLength a by omega, ih]

/-- Taking as many bytes as the first part has gives the first part. -/
@[simp] theorem takeBytes_append (a b : List Char) : takeBytes (byteLength a) (a ++ b) = a := by
  induction a with
  | nil => simp
  | cons c a ih =>
    obtain ⟨n, hn⟩ := Nat.exists_eq_succ_of_ne_zero (Nat.pos_iff_ne_zero.mp c.utf8Size_pos)
    rw [List.cons_append, byteLength_cons, hn, Nat.succ_add, takeBytes.eq_3 _ _ _ (by simp)]
    rw [hn, show (n + byteLength a).succ - n.succ = byteLength a by omega, ih]

/-- The middle of three parts lies between their ends. -/
theorem between_append (a b c : List Char) :
    between (a ++ (b ++ c)) (byteLength a) (byteLength a + byteLength b) = b := by
  rw [between, dropBytes_append, Nat.add_sub_cancel_left, takeBytes_append]

end Graft.Text

namespace Graft

/-- A point between two characters of a text, or at one of its ends. -/
structure Place where
  /-- The character before the place; none at the start of the text. -/
  before : Option Char
  /-- The number of bytes before the place. -/
  offset : Nat
  /-- The characters after the place. -/
  rest : List Char
  deriving DecidableEq

namespace Place

/-- The start of a text. -/
def start (text : List Char) : Place := ⟨none, 0, text⟩

/-- The character after the place; none at the end of the text. -/
def next (place : Place) : Option Char := place.rest.head?

end Place

namespace Text

/-- A place and all that follow it, given by what they are made of. -/
def placesFrom (before : Option Char) (offset : Nat) : List Char → List Place
  | [] => [⟨before, offset, []⟩]
  | c :: rest => ⟨before, offset, c :: rest⟩ :: placesFrom (some c) (offset + c.utf8Size) rest

/-- All places of a text, in order. -/
def places (text : List Char) : List Place := placesFrom none 0 text

/-- There is one place more than there are characters. -/
@[simp] theorem length_placesFrom (before : Option Char) (offset : Nat) (text : List Char) :
    (placesFrom before offset text).length = text.length + 1 := by
  induction text generalizing before offset with
  | nil => rfl
  | cons c rest ih => simp [placesFrom, ih]

end Text

end Graft
