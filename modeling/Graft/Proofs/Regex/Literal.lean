import Graft.Proofs.Text.Split
import Graft.Rule.Pattern

/-!
# Literal patterns

The pattern of a literal text (`Pattern::literal`, that is `parse` of `escape`)
is written with a backslash before every character that has a meaning, read back
part by part, compiled to a chain of instructions that take one character each,
and run at one place after the other. All of this amounts to looking for the
first occurrence of the text: whatever characters the text has, it matches where
it is what follows.

The chain of lemmas follows the stages. Reading: one character of the escaped
text is one step of the parser and becomes one item (`Reader.step_escape`), and
the items make up `Expr.ofText` (`read?_escape`). Weighing: such an expression
weighs 32 for each byte, so the limit on the size of patterns is a limit on the
length of texts (`isSmall_ofText`). Running: `Spells` says that the instructions
from some address on take the characters of the text and then accept; threads
that run along it accept exactly where the text follows
(`runThreads_of_spells`), by induction on the text. Searching: the first place
that has a match is the first occurrence (`findFrom_of_isFirst`), by recursion
over the places.

Main statements:
- `Regex.read?_escape`: the pattern of a text reads as the text itself;
- `Regex.Expr.isSmall_ofText`: it is small enough exactly if the text has at
  most 327,674 bytes;
- `Regex.matchAt_ofText`: it matches exactly where the text follows;
- `Regex.findFrom_of_isFirst`, `Regex.findFrom_of_not_isInfix`: a search finds
  the first occurrence;
- `Pattern.literal?_eq`: a literal text is a pattern exactly if it has no more
  bytes than a pattern may have.
-/

namespace Graft

namespace Regex

open Unicode (Ranges)

/-! ## Reading -/

theorem escape_cons (c : Char) (rest : List Char) :
    escape (c :: rest) = (if isMeta c then ['\\', c] else [c]) ++ escape rest := List.flatMap_cons

/-- Escaping makes no text shorter, so the fuel for reading it is enough for its
characters. -/
theorem length_le_length_escape (text : List Char) : text.length ≤ (escape text).length := by
  induction text with
  | nil => exact Nat.le_refl 0
  | cons c rest ih =>
    rw [escape_cons, List.length_append, List.length_cons]
    split
    next => rw [List.length_cons, List.length_singleton]; omega
    next => rw [List.length_singleton]; omega

/-- The parts that a text is read as: one for each character. -/
def itemsOf (text : List Char) : List Item := text.map fun c => { expr := .char c }

/-- Each character of an escaped text is read as itself. -/
theorem Reader.step_escape (reader : Reader) (hflags : reader.flags = {}) (c : Char)
    (rest : List Char) (fuel : Nat) :
    Reader.run (fuel + 1) reader (escape (c :: rest)) =
      Reader.run fuel (reader.add { expr := .char c }) (escape rest) := by
  have hskip : ∀ cs, reader.flags.skip cs = cs := by
    rw [hflags]
    exact Flags.skip_of_not_verbose rfl
  have hliteral : reader.flags.literal c = Expr.char c := by
    rw [hflags]
    exact Flags.literal_default c
  -- escaped or not, the character is taken as it is, since no flag is set that gives it a meaning
  cases hmeta : isMeta c with
  | true =>
    rw [escape_cons, if_pos hmeta, List.cons_append, List.singleton_append, run, hskip]
    dsimp only
    rw [Reader.step_escaped reader hmeta, hliteral]
  | false =>
    rw [escape_cons, hmeta, if_neg Bool.false_ne_true, List.singleton_append, run, hskip]
    dsimp only
    rw [Reader.step_ordinary reader hmeta, hliteral]

/-- An escaped text is read to its end. -/
theorem Reader.run_escape {fuel : Nat} {reader : Reader} (hflags : reader.flags = {})
    {text : List Char} (hfuel : text.length < fuel) :
    Reader.run fuel reader (escape text) =
      some { reader with items := (itemsOf text).reverse ++ reader.items } := by
  induction text generalizing fuel reader with
  | nil =>
    obtain ⟨fuel, rfl⟩ := Nat.exists_eq_succ_of_ne_zero (Nat.ne_of_gt hfuel)
    have hskip : reader.flags.skip (escape []) = [] := by rw [hflags]; rfl
    rw [run, hskip]
    rfl
  | cons c rest ih =>
    obtain ⟨fuel, rfl⟩ := Nat.exists_eq_succ_of_ne_zero (Nat.ne_of_gt (Nat.zero_lt_of_lt hfuel))
    have hadded : (reader.add { expr := .char c }).flags = {} := hflags
    rw [Reader.step_escape reader hflags, ih hadded (Nat.lt_of_succ_lt_succ hfuel)]
    simp [itemsOf, add]

theorem maxDepth_itemsOf (text : List Char) : Item.maxDepth (itemsOf text) = 0 := by
  unfold Item.maxDepth itemsOf
  rw [List.map_map]
  induction text with
  | nil => rfl
  | cons c rest ih => exact ih

/-- The parts of a text make up one sequence, with no more than one level of
nesting. -/
theorem ofSequence_itemsOf (text : List Char) :
    (Item.ofSequence (itemsOf text)).expr = .ofText text ∧
      (Item.ofSequence (itemsOf text)).depth ≤ 1 := by
  constructor
  · rw [Item.ofSequence, itemsOf, List.map_map, Expr.ofText]
    rfl
  · rw [Item.ofSequence, maxDepth_itemsOf]
    dsimp only
    split <;> omega

/-- What has been read of an escaped text is the text. -/
theorem Reader.finish_itemsOf (text : List Char) :
    Reader.finish { flags := {}, items := (itemsOf text).reverse ++ [] } = some (.ofText text) := by
  obtain ⟨hexpr, hdepth⟩ := ofSequence_itemsOf text
  have hbody : Reader.body { flags := {}, items := (itemsOf text).reverse ++ [] } =
      Item.ofAlternatives [Item.ofSequence (itemsOf text)] := by
    rw [body, List.append_nil, List.reverse_reverse]
    rfl
  -- groups and alternatives of one part are that part, within the limit on nesting
  have halone : ∀ item : Item, item.depth ≤ 1 →
      (Item.ofAlternatives [item]).depth ≤ maxNesting := by
    intro item h
    rw [Item.ofAlternatives, Item.maxDepth]
    simp [maxNesting]
    omega
  rw [finish, hbody]
  dsimp only
  rw [if_pos (by simpa using halone _ hdepth), ← hexpr]
  rfl

/-- The pattern of a text reads as the text itself. -/
theorem read?_escape (text : List Char) : read? false (escape text) = some (.ofText text, []) := by
  have hfuel := Nat.lt_succ_of_le (length_le_length_escape text)
  have hread : Reader.run ((escape text).length + 1) { flags := {} } (escape text) = _ :=
    Reader.run_escape rfl hfuel
  rw [read?, hread]
  show (Reader.finish _).bind _ = _
  rw [Reader.finish_itemsOf]
  rfl

/-! ## Weighing -/

/-- A character weighs as much as the bytes of it that a program would have to
take. -/
theorem Expr.weight_char (c : Char) : (Expr.char c).weight = 32 * c.utf8Size := by
  simp [Expr.char, Expr.weight, Expr.setWeight, Ranges.single]

/-- A text that stands for itself weighs as much as its bytes, a state of 32
bytes for each. -/
theorem Expr.weight_ofText (c : Char) (rest : List Char) :
    (Expr.ofText (c :: rest)).weight = 32 * Text.byteLength (c :: rest) := by
  induction rest generalizing c with
  | nil => exact Expr.weight_char c
  | cons d rest ih =>
    show (Expr.char c).weight + (Expr.ofText (d :: rest)).weight = _
    rw [Expr.weight_char, ih, Text.byteLength_cons c, Nat.mul_add]

/-- The most bytes that a text may have to stand for itself: with 32 bytes for
each of them and 168 more, there is no room for another one in ten mebibytes. -/
def maxTextBytes : Nat := 327674

/-- A text that stands for itself is small enough exactly if it has no more
bytes than that. -/
theorem Expr.isSmall_ofText (text : List Char) :
    (Expr.ofText text).isSmall = decide (Text.byteLength text ≤ maxTextBytes) := by
  cases text with
  | nil => decide
  | cons c rest =>
    rw [Expr.isSmall, Expr.weight_ofText]
    refine decide_eq_decide.mpr ?_
    have hlimit : Expr.weightLimit = 10485760 := by decide
    have hframe : Expr.frameWeight = 168 := rfl
    have hmax : maxTextBytes = 327674 := rfl
    omega

/-- The pattern of a text is accepted, unless the text is too long. -/
theorem ofText?_escape (text : List Char) :
    ofText? false (escape text) =
      if Text.byteLength text ≤ maxTextBytes then some (ofExpr (.ofText text) []) else none := by
  rw [ofText?, read?_escape]
  show (if (Expr.ofText text).isSmall then _ else _) = _
  rw [Expr.isSmall_ofText]
  simp only [decide_eq_true_eq]
  rfl

/-! ## Running -/

/-- Whether the instructions from one on take the characters of a text, and then
accept. -/
def Spells (code : Code) : Nat → List Char → Prop
  | start, [] => code[start]? = some .accept
  | start, c :: rest =>
    ∃ next, code[start]? = some (.take (Ranges.single c.toNat) next) ∧ Spells code next rest

theorem Spells.start_lt_size {code : Code} {start : Nat} {text : List Char}
    (h : Spells code start text) : start < code.size := by
  cases text with
  | nil => exact (Array.getElem?_eq_some_iff.mp h).1
  | cons c rest =>
    obtain ⟨_, hinstr, -⟩ := h
    exact (Array.getElem?_eq_some_iff.mp hinstr).1

/-- Instructions that are added behind a text do not change how it is spelled. -/
theorem Spells.push {code : Code} {start : Nat} {text : List Char} (h : Spells code start text)
    (instr : Instr) : Spells (code.push instr) start text := by
  have hkeep : ∀ {i : Nat} {found : Instr}, code[i]? = some found →
      (code.push instr)[i]? = some found := by
    intro i found hfound
    obtain ⟨hi, rfl⟩ := Array.getElem?_eq_some_iff.mp hfound
    rw [Array.getElem?_push_lt hi]
  induction text generalizing start with
  | nil => exact hkeep h
  | cons c rest ih =>
    obtain ⟨next, hinstr, hrest⟩ := h
    exact ⟨next, hkeep hinstr, ih hrest⟩

/-- The program of a text spells it. -/
theorem spells_compile (text : List Char) :
    Spells ((Expr.ofText text).compile 0 #[.accept]).2 ((Expr.ofText text).compile 0 #[.accept]).1
      text := by
  induction text with
  | nil => rfl
  | cons c rest ih =>
    rw [Expr.compile_ofText, Expr.compile_char]
    exact ⟨_, Array.getElem?_push_size, ih.push _⟩

theorem runThreads_nil (code : Code) (fuel : Nat) (tried : Std.TreeSet Nat) :
    runThreads code fuel [] tried = none := by
  cases fuel <;> rfl

/-- A thread that is alone, at an offset behind all that have been tried, does
what it is at. -/
theorem runThreads_alone {code : Code} (fuel : Nat) (thread : Thread) {tried : Std.TreeSet Nat}
    {instr : Instr} (htried : ∀ key, tried.contains key = true →
      key < thread.place.offset * code.size)
    (hinstr : code[thread.instr]? = some instr) :
    runThreads code (fuel + 1) [thread] tried =
      if instr = .accept then some thread
      else runThreads code fuel (thread.next instr) (tried.insert (thread.key code)) := by
  have hnew : ¬ tried.contains (thread.key code) = true := by
    intro h
    have := htried _ h
    rw [Thread.key] at this
    omega
  rw [runThreads, if_neg hnew, hinstr]
  cases instr with
  | accept => rfl
  | _ => simp

/-- A character is taken if it is the next one. -/
theorem Thread.next_take_single (start target : Nat) (before : Option Char) (offset : Nat)
    (saved : List (Nat × Nat)) (c d : Char) (rest : List Char) :
    Thread.next ⟨start, ⟨before, offset, d :: rest⟩, saved⟩ (.take (Ranges.single c.toNat) target) =
      if d = c then [⟨target, ⟨some d, offset + d.utf8Size, rest⟩, saved⟩] else [] := by
  rw [Thread.next]
  dsimp only
  rw [Ranges.contains_single]
  simp only [decide_eq_true_eq, Char.toNat_inj]

/-- What has been tried at an offset lies before all that can be tried behind it. -/
theorem lt_of_contains_insert {code : Code} {thread : Thread} {tried : Std.TreeSet Nat}
    {offset : Nat}
    (htried : ∀ key, tried.contains key = true → key < thread.place.offset * code.size)
    (hinstr : thread.instr < code.size) (hoffset : thread.place.offset < offset) :
    ∀ key, (tried.insert (thread.key code)).contains key = true → key < offset * code.size := by
  have hstep : (thread.place.offset + 1) * code.size ≤ offset * code.size :=
    Nat.mul_le_mul_right _ hoffset
  rw [Nat.succ_mul] at hstep
  intro key hkey
  rw [Std.TreeSet.contains_insert, Bool.or_eq_true, beq_iff_eq, Nat.compare_eq_eq] at hkey
  rcases hkey with rfl | hkey
  · rw [Thread.key]
    omega
  · have := htried key hkey
    omega

/-- Where a text follows, the instructions that spell it accept behind it;
elsewhere they do not. -/
theorem runThreads_of_spells {code : Code} {fuel start : Nat} {place : Place} {text : List Char}
    (saved : List (Nat × Nat)) {tried : Std.TreeSet Nat} (hspells : Spells code start text)
    (htried : ∀ key, tried.contains key = true → key < place.offset * code.size)
    (hfuel : place.rest.length < fuel) :
    (runThreads code fuel [⟨start, place, saved⟩] tried).map (·.place.offset) =
      if text.isPrefixOf place.rest then some (place.offset + Text.byteLength text) else none := by
  -- along the text; the only thread takes a character or dies, so at no time are there two
  induction text generalizing fuel start place tried with
  | nil =>
    obtain ⟨fuel, rfl⟩ := Nat.exists_eq_succ_of_ne_zero (Nat.ne_of_gt (Nat.zero_lt_of_lt hfuel))
    rw [runThreads_alone fuel ⟨start, place, saved⟩ htried hspells, if_pos rfl]
    rfl
  | cons c text ih =>
    have hlt := hspells.start_lt_size
    obtain ⟨next, hinstr, hrest⟩ := hspells
    obtain ⟨fuel, rfl⟩ := Nat.exists_eq_succ_of_ne_zero (Nat.ne_of_gt (Nat.zero_lt_of_lt hfuel))
    rw [runThreads_alone fuel ⟨start, place, saved⟩ htried hinstr, if_neg Instr.noConfusion]
    obtain ⟨before, offset, rest⟩ := place
    cases rest with
    | nil =>
      rw [Thread.next]
      dsimp only
      rw [runThreads_nil]
      rfl
    | cons d rest =>
      rw [Thread.next_take_single]
      by_cases hd : d = c
      · -- the next place has a greater offset, so nothing that has been tried stands in the way
        subst hd
        have hbehind : offset < offset + d.utf8Size := by
          have := d.utf8Size_pos
          omega
        rw [if_pos rfl, ih hrest (lt_of_contains_insert htried hlt hbehind)
          (Nat.lt_of_succ_lt_succ hfuel), List.isPrefixOf_cons_cons]
        simp [Nat.add_assoc]
      · rw [if_neg hd, runThreads_nil, List.isPrefixOf_cons_cons]
        simp [Ne.symm hd]

/-- The program of a text accepts behind the text, where it follows. -/
theorem run_ofText (text : List Char) (place : Place) :
    ((Expr.ofText text).program.run place).map (·.place.offset) =
      if text.isPrefixOf place.rest then some (place.offset + Text.byteLength text) else none := by
  refine runThreads_of_spells [] (spells_compile text) ?_ ?_
  · intro key h
    rw [Std.TreeSet.contains_emptyc] at h
    exact absurd h Bool.false_ne_true
  · -- there is fuel for every instruction at every place that is left
    have hsize : 0 < (Expr.ofText text).program.code.size :=
      Nat.zero_lt_of_lt (spells_compile text).start_lt_size
    have := Nat.le_mul_of_pos_left (place.rest.length + 1)
      (Nat.mul_pos Nat.zero_lt_two hsize)
    rw [fuelAt]
    omega

/-- A literal text has no groups, so a match has only its own span. -/
theorem lastGroup_ofText (text : List Char) : (Expr.ofText text).lastGroup = 0 := by
  unfold Expr.ofText
  induction text with
  | nil => rfl
  | cons c rest ih =>
    cases rest with
    | nil => rfl
    | cons d rest => exact (Nat.zero_max _).trans ih

/-- The pattern of a text matches exactly where the text follows, and has no
groups. -/
theorem matchAt_ofText (text : List Char) (place : Place) :
    (ofExpr (.ofText text) []).matchAt place =
      if text.isPrefixOf place.rest then
        some ⟨⟨place.offset, place.offset + Text.byteLength text⟩, []⟩
      else none := by
  have hrun := congrArg (Option.map fun stop => (⟨⟨place.offset, stop⟩, []⟩ : Match))
    (run_ofText text place)
  have hmatch : (ofExpr (.ofText text) []).matchAt place =
      (((Expr.ofText text).program.run place).map (·.place.offset)).map fun stop =>
        ⟨⟨place.offset, stop⟩, []⟩ := by
    rw [matchAt, ofExpr, lastGroup_ofText, Option.map_map]
    rfl
  rw [hmatch, hrun]
  split <;> rfl

/-- Where the text does not follow, its pattern does not match. -/
theorem matchAt_ofText_eq_none {text : List Char} {place : Place} (h : ¬ text <+: place.rest) :
    (ofExpr (.ofText text) []).matchAt place = none := by
  rw [matchAt_ofText, if_neg (by rwa [List.isPrefixOf_iff_prefix])]

/-! ## Searching -/

/-- A search from the end of a first part goes on with what follows it. -/
theorem findAmong_append (regex : Regex) (before : Option Char) (offset : Nat)
    (front back : List Char) :
    ∃ last, regex.findAmong (offset + Text.byteLength front) before offset (front ++ back) =
      regex.findAmong (offset + Text.byteLength front) last (offset + Text.byteLength front)
        back := by
  induction front generalizing before offset with
  | nil => exact ⟨before, rfl⟩
  | cons c front ih =>
    obtain ⟨last, h⟩ := ih (some c) (offset + c.utf8Size)
    have hpos := c.utf8Size_pos
    rw [List.cons_append, findAmong, if_pos (by rw [Text.byteLength_cons]; omega),
      Text.byteLength_cons, ← Nat.add_assoc]
    exact ⟨last, h⟩

/-- A search ends at the first place behind its cursor that has a match. -/
theorem findAmong_of_matchAt {regex : Regex} {cursor offset : Nat} (hcursor : cursor ≤ offset)
    {last : Option Char} {back : List Char} {found : Match}
    (h : regex.matchAt ⟨last, offset, back⟩ = some found) :
    regex.findAmong cursor last offset back = some found := by
  cases back with
  | nil => rw [findAmong, if_neg (Nat.not_lt.mpr hcursor), h]
  | cons c rest => rw [findAmong, if_neg (Nat.not_lt.mpr hcursor), h]

/-- It goes on from a place that has none. -/
theorem findAmong_of_no_match {regex : Regex} {cursor offset : Nat} (hcursor : cursor ≤ offset)
    {last : Option Char} {c : Char} {rest : List Char}
    (h : regex.matchAt ⟨last, offset, c :: rest⟩ = none) :
    regex.findAmong cursor last offset (c :: rest) =
      regex.findAmong cursor (some c) (offset + c.utf8Size) rest := by
  rw [findAmong, if_neg (Nat.not_lt.mpr hcursor), h]

/-- From a place on, the pattern of a text is found where the text occurs first. -/
theorem findAmong_of_isFirst {text before after : List Char} (h : Text.IsFirst text before after)
    {cursor offset : Nat} (hcursor : cursor ≤ offset) (last : Option Char) :
    (ofExpr (.ofText text) []).findAmong cursor last offset (before ++ (text ++ after)) =
      some ⟨⟨offset + Text.byteLength before,
        offset + Text.byteLength before + Text.byteLength text⟩, []⟩ := by
  induction before generalizing offset last with
  | nil =>
    refine findAmong_of_matchAt hcursor ?_
    rw [matchAt_ofText, if_pos]
    · rfl
    · exact List.isPrefixOf_iff_prefix.mpr (List.prefix_append text after)
  | cons c before ih =>
    rw [List.cons_append, findAmong_of_no_match hcursor (matchAt_ofText_eq_none h.not_isPrefix),
      ih h.tail (by omega), Text.byteLength_cons, Nat.add_assoc offset]

/-- Without an occurrence no place has a match. -/
theorem findAmong_of_not_isInfix {text back : List Char} (h : ¬ text <:+: back)
    {cursor offset : Nat} (hcursor : cursor ≤ offset) (last : Option Char) :
    (ofExpr (.ofText text) []).findAmong cursor last offset back = none := by
  induction back generalizing offset last with
  | nil =>
    rw [findAmong, if_neg (Nat.not_lt.mpr hcursor)]
    exact matchAt_ofText_eq_none fun hstart => h hstart.isInfix
  | cons c rest ih =>
    have hrest : ¬ text <:+: rest := fun hrest => h (List.infix_cons hrest)
    rw [findAmong_of_no_match hcursor (matchAt_ofText_eq_none fun hstart => h hstart.isInfix),
      ih hrest (by omega)]

/-- A search for a text from the end of a first part finds its first occurrence
behind that part. -/
theorem findFrom_of_isFirst (front : List Char) {text before after : List Char}
    (h : Text.IsFirst text before after) :
    (ofExpr (.ofText text) []).findFrom (front ++ (before ++ (text ++ after)))
        (Text.byteLength front) =
      some ⟨⟨Text.byteLength (front ++ before), Text.byteLength (front ++ before ++ text)⟩,
        []⟩ := by
  obtain ⟨last, hskip⟩ :=
    findAmong_append (ofExpr (.ofText text) []) none 0 front (before ++ (text ++ after))
  rw [Nat.zero_add] at hskip
  rw [findFrom, hskip, findAmong_of_isFirst h (Nat.le_refl _), Text.byteLength_append,
    Text.byteLength_append, Text.byteLength_append]

/-- A search for a text from the end of a first part finds nothing if the text
does not occur behind that part. -/
theorem findFrom_of_not_isInfix (front : List Char) {text back : List Char} (h : ¬ text <:+: back) :
    (ofExpr (.ofText text) []).findFrom (front ++ back) (Text.byteLength front) = none := by
  obtain ⟨last, hskip⟩ := findAmong_append (ofExpr (.ofText text) []) none 0 front back
  rw [Nat.zero_add] at hskip
  rw [findFrom, hskip, findAmong_of_not_isInfix h (Nat.le_refl _)]

end Regex

/-- The pattern that a literal text stands for. -/
def Pattern.ofLiteral (text : String) : Pattern :=
  ⟨String.ofList (Regex.escape text.toList), Regex.ofExpr (.ofText text.toList) [], true⟩

/-- A literal text is a pattern, unless it is too long. -/
theorem Pattern.literal?_eq (text : String) :
    literal? text = if Text.byteLength text.toList ≤ Regex.maxTextBytes then some (ofLiteral text)
      else none := by
  rw [literal?, ofText?, String.toList_ofList, Regex.ofText?_escape]
  split <;> rfl

end Graft
