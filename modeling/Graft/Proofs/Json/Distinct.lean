import Graft.Proofs.Json.NumberText
import Graft.Proofs.Json.Spelling

/-!
# Different values have different texts

The first character of a compact text tells what kind of value it is the text
of, and each value ends where its text says. So two values with the same text
are one value: of numbers because their texts tell them apart, of strings
because they are read back, of arrays and objects by their parts.

This is what makes a comparison of texts a comparison of trees. A command that
writes a tree only if its text has changed compares what it would write with
what it has read, and it may do so only because no two trees share a text.

The proof runs over two values at once and carries along what stands behind
them: if two compact texts followed by something are equal, and no number could
go on behind them, then the values are equal and so is what follows
(`eq_of_compactChars_append`). Without the rest the induction does not go
through, since an item of an array is followed by the other items. Opening
characters keep the number of cases down: `opening` maps each value to a
character that tells its kind, all numbers to one, and values with different
ones are out of the way before the cases are split.

Main statements:
- `Json.eq_of_quote_append`: quoted strings tell the strings apart, whatever
  follows;
- `Json.eq_of_compactChars_append`: so do compact texts, if no number could go
  on behind them;
- `Json.compact_injective`: no two values have the same compact text.
-/

namespace Graft

namespace Json

open Reader

/-- Quoted strings tell the strings apart. -/
theorem eq_of_quote_append {s t : String} {rest more : List Char}
    (h : quote s ++ rest = quote t ++ more) : s = t ∧ rest = more := by
  obtain ⟨cs, hcs, hs⟩ := string?_quote s rest
  obtain ⟨ds, hds, ht⟩ := string?_quote t more
  obtain rfl : cs = ds := (List.cons.inj (hcs.symm.trans (h.trans hds))).2
  exact Prod.mk.inj (Option.some.inj (hs.symm.trans ht))

/-- Numbers end where no number could go on. -/
theorem eq_of_text_append {m n : Number} {rest more : List Char} (hrest : Stops rest)
    (hmore : Stops more) (h : m.text ++ rest = n.text ++ more) : m = n ∧ rest = more := by
  -- a number is the longest beginning in which a number could go on
  have htake : ∀ (n : Number) (rest : List Char), Stops rest →
      (n.text ++ rest).takeWhile isNumeric = n.text := by
    intro n rest hstops
    rw [List.takeWhile_append_of_pos n.isNumeric_of_mem_text]
    cases rest with
    | nil => exact List.append_nil _
    | cons c rest =>
      have hc : isNumeric c = false := hstops
      rw [List.takeWhile_cons, hc]
      exact List.append_nil _
  have htext : m.text = n.text := by
    rw [← htake m rest hrest, h, htake n more hmore]
  obtain rfl := Number.text_injective htext
  exact ⟨rfl, List.append_cancel_left h⟩

/-! ## Kinds of values -/

/-- The first character of the text of a value, where all numbers count as one. -/
def opening : Json → Char
  | .null => 'n'
  | .bool true => 't'
  | .bool false => 'f'
  | .number _ => '0'
  | .string _ => '"'
  | .array _ => '['
  | .object _ => '{'

/-- Whether two values are of one kind; true and false are two kinds. -/
inductive SameKind : Json → Json → Prop
  | null : SameKind .null .null
  | bool (b : Bool) : SameKind (.bool b) (.bool b)
  | number (m n : Number) : SameKind (.number m) (.number n)
  | string (s t : String) : SameKind (.string s) (.string t)
  | array (items others : List Json) : SameKind (.array items) (.array others)
  | object (members others : List (String × Json)) : SameKind (.object members) (.object others)

/-- Values that begin in the same way are of the same kind. -/
theorem SameKind.of_opening {v w : Json} (h : v.opening = w.opening) : SameKind v w := by
  unfold opening at h
  split at h <;> split at h
  all_goals first
    | constructor
    | exact absurd h (by decide)

/-- The text of a value begins with its opening character, or with a digit or
sign if it is a number. -/
theorem compactChars_begins (v : Json) :
    ∃ c cs, v.compactChars = c :: cs ∧ (if isNumeric c then '0' else c) = v.opening := by
  cases v with
  | null => exact ⟨'n', _, by rw [compactChars], rfl⟩
  | bool b =>
    cases b with
    | true => exact ⟨'t', _, by rw [compactChars], rfl⟩
    | false => exact ⟨'f', _, by rw [compactChars], rfl⟩
  | string s => exact ⟨'"', _, by rw [compactChars]; rfl, rfl⟩
  | array items =>
    cases items with
    | nil => exact ⟨'[', _, by rw [compactChars], rfl⟩
    | cons v rest => exact ⟨'[', _, by rw [compactChars]; rfl, rfl⟩
  | object members =>
    cases members with
    | nil => exact ⟨'{', _, by rw [compactChars], rfl⟩
    | cons m rest => exact ⟨'{', _, by rw [compactChars]; rfl, rfl⟩
  | number n =>
    obtain ⟨c, cs, hcs, -⟩ := n.text_begins
    refine ⟨c, cs, by rw [compactChars, hcs], ?_⟩
    rw [n.isNumeric_of_mem_text c (hcs ▸ List.mem_cons_self)]
    rfl

/-- Values with the same text are of one kind. -/
theorem SameKind.of_compactChars {v w : Json} {rest more : List Char}
    (h : v.compactChars ++ rest = w.compactChars ++ more) : SameKind v w := by
  obtain ⟨c, cs, hcs, hc⟩ := v.compactChars_begins
  obtain ⟨d, ds, hds, hd⟩ := w.compactChars_begins
  rw [hcs, hds] at h
  obtain rfl := (List.cons.inj h).1
  exact SameKind.of_opening (hc.symm.trans hd)

/-- No value begins with a closing bracket or brace. -/
theorem compactChars_ne {close : Char} (hclose : close = ']' ∨ close = '}') (v : Json)
    (rest more : List Char) : v.compactChars ++ rest ≠ close :: more := by
  obtain ⟨c, cs, hcs, hc⟩ := v.compactChars_begins
  rw [hcs]
  intro heq
  obtain rfl := (List.cons.inj heq).1
  have hnumeric : isNumeric c = false := by
    rcases hclose with rfl | rfl <;> rfl
  rw [hnumeric] at hc
  -- no opening character is a closing one
  have hother : ∀ w : Json, w.opening ≠ ']' ∧ w.opening ≠ '}' := by
    intro w
    unfold opening
    split <;> decide
  rcases hclose with rfl | rfl
  · exact (hother v).1 hc.symm
  · exact (hother v).2 hc.symm

/-- Behind an item stands a comma or a bracket, so that no number could go on. -/
theorem stops_compactItems (items : List Json) (rest : List Char) :
    Stops (compactItems items ++ rest) := by
  rw [← spellItems_compact 0]
  exact stops_spellItems .compact 0 items rest

theorem stops_compactMembers (members : List (String × Json)) (rest : List Char) :
    Stops (compactMembers members ++ rest) := by
  rw [← spellMembers_compact 0]
  exact stops_spellMembers .compact 0 members rest

/-! ## Values -/

mutual

/-- Compact texts tell values apart. -/
theorem eq_of_compactChars_append :
    ∀ (v w : Json) {rest more : List Char}, Stops rest → Stops more →
    v.compactChars ++ rest = w.compactChars ++ more → v = w ∧ rest = more
  | .null, w, rest, more, hrest, hmore, h => by
    cases SameKind.of_compactChars h with
    | null => exact ⟨rfl, List.append_cancel_left h⟩
  | .bool b, w, rest, more, hrest, hmore, h => by
    cases SameKind.of_compactChars h with
    | bool => exact ⟨rfl, List.append_cancel_left h⟩
  | .number m, w, rest, more, hrest, hmore, h => by
    cases SameKind.of_compactChars h with
    | number _ n =>
      rw [compactChars, compactChars] at h
      obtain ⟨rfl, htail⟩ := eq_of_text_append hrest hmore h
      exact ⟨rfl, htail⟩
  | .string s, w, rest, more, hrest, hmore, h => by
    cases SameKind.of_compactChars h with
    | string _ t =>
      rw [compactChars, compactChars] at h
      obtain ⟨rfl, htail⟩ := eq_of_quote_append h
      exact ⟨rfl, htail⟩
  | .array [], w, rest, more, hrest, hmore, h => by
    cases SameKind.of_compactChars h with
    | array _ others =>
      cases others with
      | nil => exact ⟨rfl, List.append_cancel_left h⟩
      | cons w others =>
        -- where one array ends, the other would have to go on with a value
        rw [compactChars, compactChars] at h
        simp only [List.cons_append, List.append_assoc] at h
        exact absurd (List.cons.inj h).2.symm (compactChars_ne (.inl rfl) w _ _)
  | .array (v :: items), w, rest, more, hrest, hmore, h => by
    cases SameKind.of_compactChars h with
    | array _ others =>
      rw [compactChars] at h
      simp only [List.cons_append, List.append_assoc] at h
      cases others with
      | nil =>
        rw [compactChars] at h
        exact absurd (List.cons.inj h).2 (compactChars_ne (.inl rfl) v _ _)
      | cons w others =>
        rw [compactChars] at h
        simp only [List.cons_append, List.append_assoc] at h
        obtain ⟨rfl, htail⟩ := eq_of_compactChars_append v w (stops_compactItems items rest)
          (stops_compactItems others more) (List.cons.inj h).2
        obtain ⟨rfl, hend⟩ := eq_of_compactItems_append items others htail
        exact ⟨rfl, hend⟩
  | .object [], w, rest, more, hrest, hmore, h => by
    cases SameKind.of_compactChars h with
    | object _ others =>
      cases others with
      | nil => exact ⟨rfl, List.append_cancel_left h⟩
      | cons n others =>
        rw [compactChars, compactChars] at h
        exact absurd (List.cons.inj (List.cons.inj h).2).1 (by decide)
  | .object ((k, v) :: members), w, rest, more, hrest, hmore, h => by
    cases SameKind.of_compactChars h with
    | object _ others =>
      cases others with
      | nil =>
        rw [compactChars, compactChars] at h
        exact absurd (List.cons.inj (List.cons.inj h).2).1 (by decide)
      | cons n others =>
        obtain ⟨l, w⟩ := n
        rw [compactChars, compactChars] at h
        simp only [List.cons_append, List.append_assoc] at h
        obtain ⟨rfl, hvalue⟩ := eq_of_quote_append (List.cons.inj h).2
        obtain ⟨rfl, htail⟩ := eq_of_compactChars_append v w (stops_compactMembers members rest)
          (stops_compactMembers others more) (List.cons.inj hvalue).2
        obtain ⟨rfl, hend⟩ := eq_of_compactMembers_append members others htail
        exact ⟨rfl, hend⟩

/-- Items are compared one by one; where one list ends, the other begins with a
comma, and a bracket is none. -/
theorem eq_of_compactItems_append : ∀ (items others : List Json) {rest more : List Char},
    compactItems items ++ rest = compactItems others ++ more → items = others ∧ rest = more
  | [], [], rest, more, h => ⟨rfl, List.append_cancel_left h⟩
  | [], w :: others, rest, more, h => by
    rw [compactItems, compactItems] at h
    exact absurd (List.cons.inj h).1 (by decide)
  | v :: items, [], rest, more, h => by
    rw [compactItems, compactItems] at h
    exact absurd (List.cons.inj h).1 (by decide)
  | v :: items, w :: others, rest, more, h => by
    rw [compactItems, compactItems] at h
    simp only [List.cons_append, List.append_assoc] at h
    obtain ⟨rfl, htail⟩ := eq_of_compactChars_append v w (stops_compactItems items rest)
      (stops_compactItems others more) (List.cons.inj h).2
    obtain ⟨rfl, hend⟩ := eq_of_compactItems_append items others htail
    exact ⟨rfl, hend⟩

/-- Members are compared by their keys, which are quoted, and then by their
values. -/
theorem eq_of_compactMembers_append : ∀ (members others : List (String × Json))
    {rest more : List Char}, compactMembers members ++ rest = compactMembers others ++ more →
      members = others ∧ rest = more
  | [], [], rest, more, h => ⟨rfl, List.append_cancel_left h⟩
  | [], n :: others, rest, more, h => by
    rw [compactMembers, compactMembers] at h
    exact absurd (List.cons.inj h).1 (by decide)
  | m :: members, [], rest, more, h => by
    rw [compactMembers, compactMembers] at h
    exact absurd (List.cons.inj h).1 (by decide)
  | (k, v) :: members, (l, w) :: others, rest, more, h => by
    rw [compactMembers, compactMembers] at h
    simp only [List.cons_append, List.append_assoc] at h
    obtain ⟨rfl, hvalue⟩ := eq_of_quote_append (List.cons.inj h).2
    obtain ⟨rfl, htail⟩ := eq_of_compactChars_append v w (stops_compactMembers members rest)
      (stops_compactMembers others more) (List.cons.inj hvalue).2
    obtain ⟨rfl, hend⟩ := eq_of_compactMembers_append members others htail
    exact ⟨rfl, hend⟩

end

/-- No two values have the same compact text. -/
theorem compact_injective {v w : Json} (h : v.compact = w.compact) : v = w := by
  have hchars : v.compactChars = w.compactChars := String.ofList_injective h
  have hend : Stops [] := trivial
  exact (eq_of_compactChars_append v w hend hend (congrArg (· ++ []) hchars)).1

end Json

end Graft
