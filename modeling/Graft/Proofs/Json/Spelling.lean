import Graft.Proofs.Json.Nesting
import Graft.Proofs.Json.Quoting
import Graft.Proofs.Json.Remainder

/-!
# Written values are read back

The compact and the indented text of a value (`to_string` and
`to_string_pretty`) differ in nothing but blanks between its parts. A reader
skips these, and finds of each part where it ends. So it reads the value back
from either text, if it may go as deep as the value is nested; if not, it
refuses the text.

One writer with a parameter stands for both. A `Layout` says which blanks stand
before a part on some level and which behind a colon, with the proof that they
are blanks; `Layout.compact` has none, `Layout.indented` has line breaks and two
spaces a level. The two texts are instances of the writer (`spell_compact`,
`spell_indented`), and everything else is proved once, for any layout.

The round trip is a recursion on the fuel of the reader over values, items and
members together (`value?_spell`). What follows a value may be anything that
stops a number. The statement is an equation with a case for both outcomes, so
that it can be used to show that a text is refused as well: the reader gives up
exactly where the depth of the value exceeds what it is allowed, and `opened`
hands this condition from a level to the next. Numbers must be legible
(`Number.IsLegible`), which all whole numbers of 64 bits are, and which every
reader guarantees for what it reads.

Main statements:
- `Json.spell_compact`, `Json.spell_indented`: both texts are spelled by one
  writer;
- `Json.Reader.value?_spell`: what is spelled is read back, or refused if it is
  nested too deep.
-/

namespace Graft

/-- Whether a number is read back from its text. -/
def Number.IsLegible (n : Number) : Prop := Json.Reader.number? n.text = some (n, [])

namespace Json

open Reader

/-! ## One writer for both texts -/

/-- Whether a character may stand between the parts of a text. -/
def IsBlank (c : Char) : Prop := c = ' ' ∨ c = '\n' ∨ c = '\t' ∨ c = '\r'

instance (c : Char) : Decidable (IsBlank c) :=
  inferInstanceAs (Decidable (c = ' ' ∨ c = '\n' ∨ c = '\t' ∨ c = '\r'))

/-- The blanks of a text. -/
structure Layout where
  /-- What stands before an item or a closing bracket at a level. -/
  line : Nat → List Char
  /-- What stands after a colon. -/
  gap : List Char
  line_isBlank : ∀ level, ∀ c ∈ line level, IsBlank c
  gap_isBlank : ∀ c ∈ gap, IsBlank c

/-- No blanks at all. -/
def Layout.compact : Layout where
  line _ := []
  gap := []
  line_isBlank _ _ hmem := absurd hmem List.not_mem_nil
  gap_isBlank _ hmem := absurd hmem List.not_mem_nil

/-- One item a line, indented by its level. -/
def Layout.indented : Layout where
  line := newLine
  gap := [' ']
  line_isBlank level c hmem := by
    rcases List.mem_cons.mp hmem with rfl | hmem
    · exact .inr (.inl rfl)
    · exact .inl (List.eq_of_mem_replicate hmem)
  gap_isBlank c hmem := .inl (List.mem_singleton.mp hmem)

section

variable (L : Layout)

mutual

/-- The text of a value whose first line stands at the given level. -/
def spell : Nat → Json → List Char
  | _, .null => ['n', 'u', 'l', 'l']
  | _, .bool true => ['t', 'r', 'u', 'e']
  | _, .bool false => ['f', 'a', 'l', 's', 'e']
  | _, .number n => n.text
  | _, .string s => quote s
  | _, .array [] => ['[', ']']
  | level, .array (v :: rest) =>
    '[' :: (L.line (level + 1) ++ (spell (level + 1) v ++ spellItems level rest))
  | _, .object [] => ['{', '}']
  | level, .object ((k, v) :: rest) =>
    '{' :: (L.line (level + 1) ++ (quote k ++ ':' :: (L.gap ++ (spell (level + 1) v ++
      spellMembers level rest))))

/-- The items after the first, up to the closing bracket. -/
def spellItems : Nat → List Json → List Char
  | level, [] => L.line level ++ [']']
  | level, v :: rest =>
    ',' :: (L.line (level + 1) ++ (spell (level + 1) v ++ spellItems level rest))

/-- The members after the first, up to the closing brace. -/
def spellMembers : Nat → List (String × Json) → List Char
  | level, [] => L.line level ++ ['}']
  | level, (k, v) :: rest =>
    ',' :: (L.line (level + 1) ++ (quote k ++ ':' :: (L.gap ++ (spell (level + 1) v ++
      spellMembers level rest))))

end

end

mutual

/-- The compact text is spelled without blanks. -/
theorem spell_compact : ∀ (level : Nat) (v : Json), spell .compact level v = v.compactChars
  | _, .null | _, .bool true | _, .bool false | _, .number _ | _, .string _ => by
    rw [spell, compactChars]
  | _, .array [] | _, .object [] => by rw [spell, compactChars]
  | level, .array (v :: rest) => by
    rw [spell, compactChars, spell_compact (level + 1) v, spellItems_compact level rest]
    rfl
  | level, .object ((k, v) :: rest) => by
    rw [spell, compactChars, spell_compact (level + 1) v, spellMembers_compact level rest]
    simp only [Layout.compact, List.nil_append, List.cons_append, List.append_assoc]

/-- The items of an array in the compact layout. -/
theorem spellItems_compact : ∀ (level : Nat) (items : List Json),
    spellItems .compact level items = compactItems items
  | _, [] => by rw [spellItems, compactItems]; rfl
  | level, v :: rest => by
    rw [spellItems, compactItems, spell_compact (level + 1) v, spellItems_compact level rest]
    rfl

theorem spellMembers_compact : ∀ (level : Nat) (members : List (String × Json)),
    spellMembers .compact level members = compactMembers members
  | _, [] => by rw [spellMembers, compactMembers]; rfl
  | level, (k, v) :: rest => by
    rw [spellMembers, compactMembers, spell_compact (level + 1) v, spellMembers_compact level rest]
    simp only [Layout.compact, List.nil_append, List.cons_append, List.append_assoc]

end

mutual

/-- The indented text is spelled with one item a line. -/
theorem spell_indented : ∀ (level : Nat) (v : Json), spell .indented level v = prettyChars level v
  | _, .null | _, .bool true | _, .bool false | _, .number _ | _, .string _ => by
    rw [spell, prettyChars]
  | _, .array [] | _, .object [] => by rw [spell, prettyChars]
  | level, .array (v :: rest) => by
    rw [spell, prettyChars, spell_indented (level + 1) v, spellItems_indented level rest]
    simp only [Layout.indented, List.cons_append, List.append_assoc]
  | level, .object ((k, v) :: rest) => by
    rw [spell, prettyChars, spell_indented (level + 1) v, spellMembers_indented level rest]
    simp only [Layout.indented, List.cons_append, List.nil_append, List.append_assoc]

/-- The items of an array, each on a line of its own. -/
theorem spellItems_indented : ∀ (level : Nat) (items : List Json),
    spellItems .indented level items = prettyItems level items
  | _, [] => by rw [spellItems, prettyItems]; rfl
  | level, v :: rest => by
    rw [spellItems, prettyItems, spell_indented (level + 1) v, spellItems_indented level rest]
    simp only [Layout.indented, List.cons_append, List.append_assoc]

theorem spellMembers_indented : ∀ (level : Nat) (members : List (String × Json)),
    spellMembers .indented level members = prettyMembers level members
  | _, [] => by rw [spellMembers, prettyMembers]; rfl
  | level, (k, v) :: rest => by
    rw [spellMembers, prettyMembers, spell_indented (level + 1) v, spellMembers_indented level rest]
    simp only [Layout.indented, List.cons_append, List.nil_append, List.append_assoc]

end

/-! ## Blanks, and where values begin and end -/

namespace Reader

/-- Blanks before a value are skipped. -/
theorem skipBlanks_append {blanks : List Char} (h : ∀ c ∈ blanks, IsBlank c) (rest : List Char) :
    skipBlanks (blanks ++ rest) = skipBlanks rest := by
  induction blanks with
  | nil => rfl
  | cons c blanks ih =>
    obtain ⟨hc, hblanks⟩ := List.forall_mem_cons.mp h
    rw [List.cons_append, skipBlanks]
    exact (if_pos hc).trans (ih hblanks)

/-- What is no blank is not skipped. -/
theorem skipBlanks_cons {c : Char} (h : ¬ IsBlank c) (rest : List Char) :
    skipBlanks (c :: rest) = c :: rest := by
  rw [skipBlanks]
  exact if_neg h

/-- Blanks before a value do not change how it is read. -/
theorem value?_blanks {blanks : List Char} (h : ∀ c ∈ blanks, IsBlank c) (fuel depth : Nat)
    (rest : List Char) : value? fuel depth (blanks ++ rest) = value? fuel depth rest := by
  cases fuel with
  | zero => rw [value?, value?]
  | succ fuel => rw [value?, skipBlanks_append h, value?]

theorem items?_blanks {blanks : List Char} (h : ∀ c ∈ blanks, IsBlank c) (fuel depth : Nat)
    (rest : List Char) : items? fuel depth (blanks ++ rest) = items? fuel depth rest := by
  cases fuel with
  | zero => rw [items?, items?]
  | succ fuel => rw [items?, value?_blanks h, items?]

theorem members?_blanks {blanks : List Char} (h : ∀ c ∈ blanks, IsBlank c) (fuel depth : Nat)
    (rest : List Char) : members? fuel depth (blanks ++ rest) = members? fuel depth rest := by
  cases fuel with
  | zero => rw [members?, members?]
  | succ fuel => rw [members?, skipBlanks_append h, members?]

theorem not_isBlank_of_isNumeric {c : Char} (h : isNumeric c = true) : ¬ IsBlank c := by
  rintro (rfl | rfl | rfl | rfl) <;> exact absurd h (by decide)

/-- A character that belongs to no number stops it, also behind blanks. -/
theorem stops_append_cons {blanks : List Char} (h : ∀ c ∈ blanks, IsBlank c) {c : Char}
    (hc : isNumeric c = false) (rest : List Char) : Stops (blanks ++ c :: rest) := by
  cases blanks with
  | nil => exact hc
  | cons b blanks =>
    show isNumeric b = false
    cases hb : isNumeric b with
    | false => rfl
    | true => exact absurd (h b List.mem_cons_self) (not_isBlank_of_isNumeric hb)

/-- Behind an item stands a comma or the end of the array, with or without
blanks. -/
theorem stops_spellItems (L : Layout) (level : Nat) (items : List Json) (rest : List Char) :
    Stops (spellItems L level items ++ rest) := by
  cases items with
  | nil =>
    rw [spellItems, List.append_assoc, List.singleton_append]
    exact stops_append_cons (L.line_isBlank level) rfl rest
  | cons v items =>
    rw [spellItems, List.cons_append]
    exact rfl

theorem stops_spellMembers (L : Layout) (level : Nat) (members : List (String × Json))
    (rest : List Char) : Stops (spellMembers L level members ++ rest) := by
  cases members with
  | nil =>
    rw [spellMembers, List.append_assoc, List.singleton_append]
    exact stops_append_cons (L.line_isBlank level) rfl rest
  | cons m members =>
    rw [spellMembers, List.cons_append]
    exact rfl

/-- A number begins with a sign or a digit. -/
theorem isNumeric_of_number? {c : Char} {cs left : List Char} {n : Number}
    (h : number? (c :: cs) = some (n, left)) : c = '-' ∨ c.isDigit = true := by
  by_cases hsign : c = '-'
  · exact .inl hsign
  · right
    rw [number?_of_ne_minus hsign] at h
    obtain ⟨_, _, _, _, _, hwhole, -⟩ := unsigned?_eq_some_iff.mp h
    cases hdigit : c.isDigit with
    | true => rfl
    | false =>
      rw [wholePart?, digits, digit?_of_not_isDigit hdigit] at hwhole
      exact absurd hwhole.symm (Option.some_ne_none _)

/-- A number begins with a digit or a minus and with nothing else. -/
theorem ne_of_number? {c d : Char} {cs left : List Char} {n : Number}
    (h : number? (c :: cs) = some (n, left)) (hsign : d ≠ '-') (hdigit : d.isDigit = false) :
    c ≠ d := by
  rintro rfl
  rcases isNumeric_of_number? h with rfl | htrue
  · exact hsign rfl
  · exact absurd (hdigit.symm.trans htrue) Bool.noConfusion

/-- A value begins with a character that is neither a blank nor a closing
bracket or brace. -/
theorem spell_begins (L : Layout) (level : Nat) {v : Json} (h : ∀ n ∈ v.numbers, n.IsLegible) :
    ∃ c cs, spell L level v = c :: cs ∧ ¬ IsBlank c ∧ c ≠ ']' ∧ c ≠ '}' := by
  have hother : ∀ c : Char, (c = 'n' ∨ c = 't' ∨ c = 'f' ∨ c = '"' ∨ c = '[' ∨ c = '{') →
      ¬ IsBlank c ∧ c ≠ ']' ∧ c ≠ '}' := by
    unfold IsBlank
    rintro c (rfl | rfl | rfl | rfl | rfl | rfl) <;> decide
  cases v with
  | null => exact ⟨'n', _, by rw [spell], hother 'n' (by decide)⟩
  | bool b =>
    cases b with
    | true => exact ⟨'t', _, by rw [spell], hother 't' (by decide)⟩
    | false => exact ⟨'f', _, by rw [spell], hother 'f' (by decide)⟩
  | string s => exact ⟨'"', _, by rw [spell]; rfl, hother '"' (by decide)⟩
  | array items =>
    cases items with
    | nil => exact ⟨'[', _, by rw [spell], hother '[' (by decide)⟩
    | cons v rest => exact ⟨'[', _, by rw [spell], hother '[' (by decide)⟩
  | object members =>
    cases members with
    | nil => exact ⟨'{', _, by rw [spell], hother '{' (by decide)⟩
    | cons m rest => exact ⟨'{', _, by rw [spell], hother '{' (by decide)⟩
  | number n =>
    have hn : number? n.text = some (n, []) := h n List.mem_cons_self
    cases htext : n.text with
    | nil =>
      rw [htext] at hn
      exact nomatch hn
    | cons c cs =>
      rw [htext] at hn
      refine ⟨c, cs, by rw [spell, htext], ?_⟩
      rcases isNumeric_of_number? hn with rfl | hdigit
      · unfold IsBlank
        decide
      · refine ⟨?_, ?_, ?_⟩
        · refine not_isBlank_of_isNumeric ?_
          unfold isNumeric
          rw [hdigit]
          rfl
        · rintro rfl
          exact absurd hdigit (by decide)
        · rintro rfl
          exact absurd hdigit (by decide)

/-- What opens neither an array nor an object is a value without parts. -/
theorem value?_scalar {c : Char} (hblank : ¬ IsBlank c) (harray : c ≠ '[') (hobject : c ≠ '{')
    (fuel depth : Nat) (cs : List Char) :
    value? (fuel + 1) depth (c :: cs) = scalar? (c :: cs) := by
  rw [value?, skipBlanks_cons hblank]
  split
  next heq => exact absurd (List.cons.inj heq).1 harray
  next heq => exact absurd (List.cons.inj heq).1 hobject
  next => rfl

/-- A number is taken for one: it begins with no letter of a keyword and with no
quote. -/
theorem scalar?_number {cs left : List Char} {n : Number} (h : number? cs = some (n, left)) :
    scalar? cs = some (.number n, left) := by
  cases cs with
  | nil => exact nomatch h
  | cons c cs =>
    unfold scalar?
    split
    next heq => exact absurd (List.cons.inj heq).1 (ne_of_number? h (by decide) rfl)
    next heq => exact absurd (List.cons.inj heq).1 (ne_of_number? h (by decide) rfl)
    next heq => exact absurd (List.cons.inj heq).1 (ne_of_number? h (by decide) rfl)
    next heq => exact absurd (List.cons.inj heq).1 (ne_of_number? h (by decide) rfl)
    next => rw [h]; rfl

/-- The key of a member is read back. -/
theorem key?_quote (key : String) (rest : List Char) :
    key? (skipBlanks (quote key ++ ':' :: rest)) = some (key, rest) := by
  obtain ⟨cs, hcs, hstring⟩ := string?_quote key (':' :: rest)
  have hquote : ¬ IsBlank '"' := by decide
  have hcolon : ¬ IsBlank ':' := by decide
  rw [hcs, skipBlanks_cons hquote, key?]
  simp only [hstring, skipBlanks_cons hcolon]

/-! ## Reading what is spelled -/

variable (L : Layout)

/-- What lies within some levels lies, once it has been opened, within one more. -/
theorem opened {α β : Type} (f : α → β) (a : α) (levels depth : Nat) :
    (if depth = 0 then none else (if levels ≤ depth - 1 then some a else none).map f) =
      if levels + 1 ≤ depth then some (f a) else none := by
  cases depth with
  | zero => rfl
  | succ depth =>
    rw [if_neg depth.succ_ne_zero, Nat.succ_sub_one]
    by_cases hlevels : levels ≤ depth
    · rw [if_pos hlevels, if_pos (Nat.succ_le_succ hlevels)]
      rfl
    · rw [if_neg hlevels, if_neg fun h => hlevels (Nat.le_of_succ_le_succ h)]
      rfl

/-- An array is read back if its items are. -/
theorem value?_spell_array {fuel level depth : Nat} {v : Json} {others : List Json}
    {rest : List Char} (hv : ∀ n ∈ v.numbers, n.IsLegible)
    (hitems : items? fuel (depth - 1)
      (spell L (level + 1) v ++ (spellItems L level others ++ rest)) =
      if nestItems (v :: others) ≤ depth - 1 then some (v :: others, rest) else none) :
    value? (fuel + 1) depth (spell L level (.array (v :: others)) ++ rest) =
      if (Json.array (v :: others)).nest ≤ depth then some (.array (v :: others), rest)
      else none := by
  -- the first item begins after the blanks
  obtain ⟨c, cs, hcs, hblank, hbracket, -⟩ := spell_begins L (level + 1) hv
  have hinner : skipBlanks (L.line (level + 1) ++ (spell L (level + 1) v ++
      (spellItems L level others ++ rest))) =
      spell L (level + 1) v ++ (spellItems L level others ++ rest) := by
    rw [skipBlanks_append (L.line_isBlank _), hcs, List.cons_append, skipBlanks_cons hblank]
  have hbegins : ∀ more, spell L (level + 1) v ++ (spellItems L level others ++ rest) ≠
      ']' :: more := by
    intro more heq
    rw [hcs, List.cons_append] at heq
    exact hbracket (List.cons.inj heq).1
  have hopen : ¬ IsBlank '[' := by decide
  rw [spell, List.cons_append, List.append_assoc, List.append_assoc,
    value?_open_array (skipBlanks_cons hopen _) hinner hbegins, hitems, opened, nest]

/-- An object is read back if its members are. -/
theorem value?_spell_object {fuel level depth : Nat} {k : String} {v : Json} {others : Members}
    {rest : List Char}
    (hmembers : members? fuel (depth - 1) (quote k ++ ':' :: (L.gap ++ (spell L (level + 1) v ++
        (spellMembers L level others ++ rest)))) =
      if nestMembers ((k, v) :: others) ≤ depth - 1 then some ((k, v) :: others, rest) else none) :
    value? (fuel + 1) depth (spell L level (.object ((k, v) :: others)) ++ rest) =
      if (Json.object ((k, v) :: others)).nest ≤ depth then some (.object ((k, v) :: others), rest)
      else none := by
  obtain ⟨cs, hcs, -⟩ := string?_quote k
    (':' :: (L.gap ++ (spell L (level + 1) v ++ (spellMembers L level others ++ rest))))
  have hquote : ¬ IsBlank '"' := by decide
  -- behind the brace stands a quote, so there is a first member to be read
  have hinner : skipBlanks (L.line (level + 1) ++ (quote k ++ ':' :: (L.gap ++
      (spell L (level + 1) v ++ (spellMembers L level others ++ rest))))) =
      quote k ++ ':' :: (L.gap ++ (spell L (level + 1) v ++
        (spellMembers L level others ++ rest))) := by
    rw [skipBlanks_append (L.line_isBlank _), hcs, skipBlanks_cons hquote]
  have hbegins : ∀ more, quote k ++ ':' :: (L.gap ++ (spell L (level + 1) v ++
      (spellMembers L level others ++ rest))) ≠ '}' :: more := by
    intro more heq
    rw [hcs] at heq
    exact absurd (List.cons.inj heq).1 (by decide)
  have hassoc : spell L level (.object ((k, v) :: others)) ++ rest =
      '{' :: (L.line (level + 1) ++ (quote k ++ ':' :: (L.gap ++ (spell L (level + 1) v ++
        (spellMembers L level others ++ rest))))) := by
    rw [spell]
    simp only [List.cons_append, List.append_assoc]
  have hopen : ¬ IsBlank '{' := by decide
  rw [hassoc, value?_open_object (skipBlanks_cons hopen _) hinner hbegins, hmembers, opened, nest]

mutual

/-- What is spelled is read back, if it is not nested too deep; else it is
refused. -/
theorem value?_spell : ∀ (fuel : Nat) (v : Json) (level : Nat) {depth : Nat} {rest : List Char},
    (∀ n ∈ v.numbers, n.IsLegible) → Stops rest → (spell L level v).length ≤ fuel →
      value? fuel depth (spell L level v ++ rest) =
        if v.nest ≤ depth then some (v, rest) else none
  | 0, v, level, depth, rest, hlegible, _, hfuel => by
    obtain ⟨c, cs, hcs, -⟩ := spell_begins L level hlegible
    rw [hcs] at hfuel
    exact absurd hfuel (Nat.not_succ_le_zero _)
  | fuel + 1, .null, level, depth, rest, _, _, _ => by
    rw [spell, nest, if_pos (Nat.zero_le _)]
    exact value?_scalar (by decide) (by decide) (by decide) fuel depth _
  | fuel + 1, .bool true, level, depth, rest, _, _, _ => by
    rw [spell, nest, if_pos (Nat.zero_le _)]
    exact value?_scalar (by decide) (by decide) (by decide) fuel depth _
  | fuel + 1, .bool false, level, depth, rest, _, _, _ => by
    rw [spell, nest, if_pos (Nat.zero_le _)]
    exact value?_scalar (by decide) (by decide) (by decide) fuel depth _
  | fuel + 1, .number n, level, depth, rest, hlegible, hstops, _ => by
    have hn : number? n.text = some (n, []) := hlegible n List.mem_cons_self
    have hread := number?_append hstops hn
    obtain ⟨c, cs, hcs, hblank, -⟩ := spell_begins L level hlegible
    rw [spell] at hcs
    rw [hcs] at hn
    rw [spell, nest, if_pos (Nat.zero_le _)]
    rw [hcs, List.cons_append] at hread ⊢
    rw [value?_scalar hblank (ne_of_number? hn (by decide) rfl) (ne_of_number? hn (by decide) rfl)]
    exact scalar?_number hread
  | fuel + 1, .string s, level, depth, rest, _, _, _ => by
    obtain ⟨cs, hcs, hstring⟩ := string?_quote s rest
    rw [spell, nest, if_pos (Nat.zero_le _), hcs,
      value?_scalar (by decide) (by decide) (by decide), scalar?, hstring]
    rfl
  | fuel + 1, .array [], level, depth, rest, _, _, _ => by
    rw [spell]
    cases depth with
    | zero => rfl
    | succ depth => rfl
  | fuel + 1, .array (v :: others), level, depth, rest, hlegible, _, hfuel => by
    rw [numbers, numbersOfItems] at hlegible
    obtain ⟨hv, hothers⟩ := List.forall_mem_append.mp hlegible
    rw [spell, List.length_cons, List.length_append, List.length_append] at hfuel
    exact value?_spell_array L hv (items?_spell fuel others v level hv hothers (by omega))
  | fuel + 1, .object [], level, depth, rest, _, _, _ => by
    rw [spell]
    cases depth with
    | zero => rfl
    | succ depth => rfl
  | fuel + 1, .object ((k, v) :: others), level, depth, rest, hlegible, _, hfuel => by
    rw [numbers, numbersOfMembers] at hlegible
    obtain ⟨hv, hothers⟩ := List.forall_mem_append.mp hlegible
    rw [spell, List.length_cons, List.length_append] at hfuel
    exact value?_spell_object L (members?_spell fuel others k v level hv hothers (by omega))

/-- The items of an array are read back up to the closing bracket. -/
theorem items?_spell : ∀ (fuel : Nat) (items : List Json) (v : Json) (level : Nat) {depth : Nat}
    {rest : List Char}, (∀ n ∈ v.numbers, n.IsLegible) →
      (∀ n ∈ numbersOfItems items, n.IsLegible) →
      (spell L (level + 1) v).length + (spellItems L level items).length ≤ fuel →
      items? fuel depth (spell L (level + 1) v ++ (spellItems L level items ++ rest)) =
        if max v.nest (nestItems items) ≤ depth then some (v :: items, rest) else none
  | 0, items, v, level, depth, rest, hv, _, hfuel => by
    obtain ⟨c, cs, hcs, -⟩ := spell_begins L (level + 1) hv
    rw [hcs, List.length_cons] at hfuel
    omega
  | fuel + 1, items, v, level, depth, rest, hv, hitems, hfuel => by
    have hpos : 0 < (spellItems L level items).length := by
      cases items with
      | nil => rw [spellItems, List.length_append]; exact Nat.succ_pos _
      | cons w items => rw [spellItems]; exact Nat.succ_pos _
    rw [items?, value?_spell fuel v (level + 1) hv (stops_spellItems L level items rest) (by omega)]
    -- the first item decides whether the others are looked at
    by_cases hnest : v.nest ≤ depth
    · rw [if_pos hnest]
      dsimp only
      cases items with
      | nil =>
        have hbracket : ¬ IsBlank ']' := by decide
        rw [spellItems, List.append_assoc, skipBlanks_append (L.line_isBlank level),
          List.singleton_append, skipBlanks_cons hbracket, nestItems, Nat.max_zero, if_pos hnest]
        rfl
      | cons w items =>
        have hcomma : ¬ IsBlank ',' := by decide
        rw [numbersOfItems] at hitems
        obtain ⟨hw, hitems⟩ := List.forall_mem_append.mp hitems
        rw [spellItems, List.length_cons, List.length_append, List.length_append] at hfuel
        rw [spellItems, List.cons_append, skipBlanks_cons hcomma, List.append_assoc,
          List.append_assoc]
        show Option.map _ (items? fuel depth _) = _
        rw [items?_blanks (L.line_isBlank _), items?_spell fuel items w level hw hitems (by omega),
          nestItems]
        by_cases hrest : max w.nest (nestItems items) ≤ depth
        · rw [if_pos hrest, if_pos (Nat.max_le.mpr ⟨hnest, hrest⟩)]
          rfl
        · rw [if_neg hrest, if_neg fun h => hrest (Nat.max_le.mp h).2]
          rfl
    · rw [if_neg hnest, if_neg fun h => hnest (Nat.max_le.mp h).1]

/-- The members of an object are read back up to the closing brace. -/
theorem members?_spell : ∀ (fuel : Nat) (members : List (String × Json)) (k : String) (v : Json)
    (level : Nat) {depth : Nat} {rest : List Char}, (∀ n ∈ v.numbers, n.IsLegible) →
      (∀ n ∈ numbersOfMembers members, n.IsLegible) →
      (quote k ++ ':' :: (L.gap ++ (spell L (level + 1) v ++
        spellMembers L level members))).length ≤ fuel →
      members? fuel depth (quote k ++ ':' :: (L.gap ++ (spell L (level + 1) v ++
        (spellMembers L level members ++ rest)))) =
        if max v.nest (nestMembers members) ≤ depth then some ((k, v) :: members, rest) else none
  | 0, members, k, v, level, depth, rest, _, _, hfuel => by
    rw [List.length_append, List.length_cons] at hfuel
    omega
  | fuel + 1, members, k, v, level, depth, rest, hv, hmembers, hfuel => by
    rw [List.length_append, List.length_cons, List.length_append, List.length_append] at hfuel
    rw [members?, key?_quote]
    dsimp only
    rw [value?_blanks L.gap_isBlank,
      value?_spell fuel v (level + 1) hv (stops_spellMembers L level members rest) (by omega)]
    by_cases hnest : v.nest ≤ depth
    · rw [if_pos hnest]
      dsimp only
      cases members with
      | nil =>
        have hbrace : ¬ IsBlank '}' := by decide
        rw [spellMembers, List.append_assoc, skipBlanks_append (L.line_isBlank level),
          List.singleton_append, skipBlanks_cons hbrace, nestMembers, Nat.max_zero, if_pos hnest]
        rfl
      | cons m members =>
        obtain ⟨key, w⟩ := m
        have hcomma : ¬ IsBlank ',' := by decide
        rw [numbersOfMembers] at hmembers
        obtain ⟨hw, hmembers⟩ := List.forall_mem_append.mp hmembers
        have hassoc : spellMembers L level ((key, w) :: members) ++ rest =
            ',' :: (L.line (level + 1) ++ (quote key ++ ':' :: (L.gap ++ (spell L (level + 1) w ++
              (spellMembers L level members ++ rest))))) := by
          rw [spellMembers]
          simp only [List.cons_append, List.append_assoc]
        rw [spellMembers, List.length_cons, List.length_append] at hfuel
        rw [hassoc, skipBlanks_cons hcomma]
        show Option.map _ (members? fuel depth _) = _
        rw [members?_blanks (L.line_isBlank _),
          members?_spell fuel members key w level hw hmembers (by omega), nestMembers]
        by_cases hrest : max w.nest (nestMembers members) ≤ depth
        · rw [if_pos hrest, if_pos (Nat.max_le.mpr ⟨hnest, hrest⟩)]
          rfl
        · rw [if_neg hrest, if_neg fun h => hrest (Nat.max_le.mp h).2]
          rfl
    · rw [if_neg hnest, if_neg fun h => hnest (Nat.max_le.mp h).1]

end

end Reader

/-- The compact text of a value, with a line end, spells this value, if it is
not nested too deep. -/
theorem parse?_compact {v : Json} (hlegible : ∀ n ∈ v.numbers, n.IsLegible)
    (hnest : v.nest ≤ maxDepth) : parse? (v.compact ++ "\n") = some v := by
  have htext : (v.compact ++ "\n").toList = spell .compact 0 v ++ ['\n'] := by
    rw [String.toList_append, compact, String.toList_ofList, ← spell_compact 0]
    rfl
  have hfuel : (spell .compact 0 v).length ≤ valueFuel (spell .compact 0 v ++ ['\n']) := by
    simp only [valueFuel, List.length_append]
    omega
  have hstops : Stops ['\n'] := rfl
  have hvalue : value? _ maxDepth (spell .compact 0 v ++ ['\n']) = _ :=
    value?_spell .compact _ v 0 hlegible hstops hfuel
  rw [if_pos hnest] at hvalue
  exact parse?_eq_some_iff.mpr ⟨['\n'], by rw [htext]; exact hvalue, rfl⟩

end Json

end Graft
