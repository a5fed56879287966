import Graft.Proofs.Json.Spelling
import Graft.Proofs.Tree.Document

/-!
# Trees in text

What is written for a tree (`to_string` or `to_string_pretty` of a node) is read
as a text again (`from_str`), and the reader does not read a value first and
then the tree: it judges the kind of the outermost node while it goes through
the text, and takes the other members one after the other. The text of a tree
begins with the kind, so the reader finds it at once, and everything behind it
is plain spelling, which the reader of values gives back.

So the tree comes back (but for null as data) unless its text is nested too
deep. Then the reader refuses it before it looks at any field. The same is shown
of the other form of a node, a sequence that begins with the kind; there it lets
a tree be read that is not written in this form.

Main statements:
- `Document.nodeOfChars_spell`: the written text of a tree is accepted exactly
  if it lies within 127 levels, and gives back the tree;
- `Document.nodeOfChars_spell_array`: the text of a sequence is accepted if the
  node can be read from the sequence.
-/

namespace Graft

/-- The JSON form of a tree begins with its kind, which is not repeated. -/
theorem Node.exists_members (tree : Node) :
    ∃ members, "type" ∉ members.map Prod.fst ∧
      tree.toJson = .object (("type", .string tree.kind.name) :: members) := by
  cases tree with
  | root children info =>
    refine ⟨_, ?_, by rw [toJson]; rfl⟩
    exact type_not_mem_cons _ (by decide) (type_not_mem_toMembers info)
  | element tag properties children info =>
    refine ⟨_, ?_, by rw [toJson]; rfl⟩
    exact type_not_mem_cons _ (by decide) (type_not_mem_cons _ (by decide)
      (type_not_mem_cons _ (by decide) (type_not_mem_toMembers info)))
  | text value info =>
    refine ⟨_, ?_, by rw [toJson]; rfl⟩
    exact type_not_mem_cons _ (by decide) (type_not_mem_toMembers info)
  | comment value info =>
    refine ⟨_, ?_, by rw [toJson]; rfl⟩
    exact type_not_mem_cons _ (by decide) (type_not_mem_toMembers info)
  | doctype name info =>
    refine ⟨_, ?_, by rw [toJson, List.singleton_append, List.cons_append]; rfl⟩
    exact type_not_mem_optionalMember _ (by decide) (type_not_mem_toMembers info)

namespace Document

open Json (Within Layout IsBlank spell spellMembers quote)
open Json.Reader

variable (L : Layout)

/-! ## What is written is accepted -/

/-- A member of the outermost node is its key, a colon and its value; the key
tells what to do with it. -/
theorem members?_key {blanks : List Char} (hblanks : ∀ c ∈ blanks, IsBlank c) (fuel : Nat)
    (found : Option Kind) (before : Members) (key : String) (rest : List Char) :
    members? (fuel + 1) found before (blanks ++ (quote key ++ ':' :: rest)) =
      if key = "type" ∧ found.isSome then .error (.data (.duplicateField "type"))
      else if key = "type" then
        match kind? rest with
        | .error e => .error e
        | .ok (kind, rest) => goOn fuel (some kind) before rest
      else
        match value? (valueFuel rest) (maxDepth - 1) rest with
        | none => .error .notJson
        | some (v, rest) => goOn fuel found ((key, v) :: before) rest := by
  have hquote : ¬ IsBlank '"' := by unfold IsBlank; decide
  have hcolon : ¬ IsBlank ':' := by unfold IsBlank; decide
  obtain ⟨cs, hcs, hstring⟩ := string?_quote key (':' :: rest)
  rw [members?_succ, skipBlanks_append hblanks, hcs, skipBlanks_cons hquote]
  split
  next more heq =>
    obtain rfl := (List.cons.inj heq).2
    rewrite [hstring]
    dsimp only
    rewrite [skipBlanks_cons hcolon]
    rfl
  next hnot => exact absurd rfl (hnot cs)

/-- Reads the members of the outermost node after its opening brace. -/
def openObject (cs : List Char) : Except DocumentError (Option Kind × Members × List Char) :=
  match skipBlanks cs with
  | '}' :: rest => .ok (none, [], rest)
  | rest => members? (rest.length + 1) none [] rest

/-- Where the brace is not closed at once, the members are read. -/
theorem openObject_of_ne {cs inner : List Char} (hinner : skipBlanks cs = inner)
    (hbegins : ∀ rest, inner ≠ '}' :: rest) :
    openObject cs = members? (inner.length + 1) none [] inner := by
  rw [openObject, hinner]
  split
  next => exact absurd rfl (hbegins _)
  next => rfl

/-- A text that opens with a brace is read member by member, and the node is
made when all of them are there. -/
theorem nodeOfChars_object (cs : List Char) :
    nodeOfChars ('{' :: cs) =
      match openObject cs with
      | .error e => .error e
      | .ok (none, _, _) => .error (.data (.missingField "type"))
      | .ok (some kind, members, rest) =>
        finish ((Node.fieldsOfMembers kind {} members).bind fun fields =>
          fields.finish kind .missingField) rest := by
  have hbrace : ¬ IsBlank '{' := by unfold IsBlank; decide
  rw [nodeOfChars, skipBlanks_cons hbrace]
  rfl

/-- The members of a written node are read back, if none is nested too deep. -/
theorem goOn_spellMembers (members : List (String × Json)) (kind : Kind) (before : Members)
    {fuel : Nat} {rest : List Char} (hlegible : ∀ n ∈ Json.numbersOfMembers members, n.IsLegible)
    (htype : "type" ∉ members.map Prod.fst)
    (hfuel : (spellMembers L 0 members).length ≤ fuel) :
    goOn fuel (some kind) before (spellMembers L 0 members ++ rest) =
      if Json.nestMembers members ≤ maxDepth - 1 then
        .ok (some kind, before.reverse ++ members, rest)
      else .error .notJson := by
  induction members generalizing fuel before with
  | nil =>
    have hbrace : ¬ IsBlank '}' := by unfold IsBlank; decide
    rw [spellMembers, List.append_assoc, List.singleton_append, goOn,
      skipBlanks_append (L.line_isBlank 0), skipBlanks_cons hbrace, List.append_nil]
    rfl
  | cons m members ih =>
    obtain ⟨key, v⟩ := m
    rw [Json.numbersOfMembers] at hlegible
    obtain ⟨hv, hlegible⟩ := List.forall_mem_append.mp hlegible
    rw [List.map_cons, List.mem_cons, not_or] at htype
    have hcomma : ¬ IsBlank ',' := by unfold IsBlank; decide
    have hassoc : spellMembers L 0 ((key, v) :: members) ++ rest =
        ',' :: (L.line 1 ++ (quote key ++ ':' :: (L.gap ++ (spell L 1 v ++
          (spellMembers L 0 members ++ rest))))) := by
      rw [spellMembers]
      simp only [List.cons_append, List.append_assoc]
    rw [spellMembers] at hfuel
    simp only [List.length_cons, List.length_append] at hfuel
    obtain ⟨fuel, rfl⟩ := Nat.exists_eq_succ_of_ne_zero (n := fuel) (by omega)
    rw [hassoc, goOn, skipBlanks_cons hcomma]
    show members? (fuel + 1) (some kind) before _ = _
    rw [members?_key (L.line_isBlank 1), if_neg fun h => htype.1 h.1.symm,
      if_neg (Ne.symm htype.1)]
    have hvalueFuel : (spell L 1 v).length ≤
        valueFuel (L.gap ++ (spell L 1 v ++ (spellMembers L 0 members ++ rest))) := by
      simp only [valueFuel, List.length_append]
      omega
    rw [value?_blanks L.gap_isBlank,
      value?_spell L _ v 1 hv (stops_spellMembers L 0 members rest) hvalueFuel, Json.nestMembers]
    by_cases hnest : v.nest ≤ maxDepth - 1
    · rw [if_pos hnest]
      dsimp only
      rw [ih _ hlegible htype.2 (by omega), List.reverse_cons, List.append_assoc,
        List.singleton_append]
      by_cases hrest : Json.nestMembers members ≤ maxDepth - 1
      · rw [if_pos hrest, if_pos (Nat.max_le.mpr ⟨hnest, hrest⟩)]
      · rw [if_neg hrest, if_neg fun h => hrest (Nat.max_le.mp h).2]
    · rw [if_neg hnest, if_neg fun h => hnest (Nat.max_le.mp h).1]

/-- The kind of a written node is read back. -/
theorem kind?_quote {blanks : List Char} (hblanks : ∀ c ∈ blanks, IsBlank c) (kind : Kind)
    (rest : List Char) : kind? (blanks ++ (quote kind.name ++ rest)) = .ok (kind, rest) := by
  have hquote : ¬ IsBlank '"' := by unfold IsBlank; decide
  obtain ⟨cs, hcs, hstring⟩ := string?_quote kind.name rest
  have hscalar : scalar? ('"' :: cs) = some (.string kind.name, rest) := by
    rw [scalar?, hstring]
    rfl
  rw [kind?, skipBlanks_append hblanks, hcs, skipBlanks_cons hquote]
  split
  next heq => exact absurd (List.cons.inj heq).1 (by decide)
  next heq => exact absurd (List.cons.inj heq).1 (by decide)
  next =>
    rw [hscalar]
    dsimp only
    rw [Kind.ofJson_name]

/-- The text of a tree, with a line end, is accepted exactly if the tree is not
nested too deep, and then the tree comes back, but for null as data. -/
theorem nodeOfChars_spell {tree : Node} (hkeyed : tree.Everywhere Node.IsKeyed)
    (hfree : tree.Everywhere Node.IsRawFree)
    (hlegible : ∀ n ∈ tree.toJson.numbers, n.IsLegible) :
    nodeOfChars (spell L 0 tree.toJson ++ ['\n']) =
      if tree.toJson.nest ≤ maxDepth then .ok tree.withoutNullData else .error .notJson := by
  obtain ⟨members, htype, hjson⟩ := tree.exists_members
  have hread := Node.ofJson_toJson .outer tree hkeyed hfree
  rw [hjson, Node.ofJson_object .outer tree.kind htype] at hread
  rw [hjson, Json.numbers, Json.numbersOfMembers] at hlegible
  have hmembers := (List.forall_mem_append.mp hlegible).2
  have hassoc : spell L 0 tree.toJson ++ ['\n'] =
      '{' :: (L.line 1 ++ (quote "type" ++ ':' :: (L.gap ++ (quote tree.kind.name ++
        (spellMembers L 0 members ++ ['\n']))))) := by
    rw [hjson, spell, spell]
    simp only [List.cons_append, List.append_assoc]
  obtain ⟨cs, hcs, -⟩ := string?_quote "type"
    (':' :: (L.gap ++ (quote tree.kind.name ++ (spellMembers L 0 members ++ ['\n']))))
  have hinner : skipBlanks (L.line 1 ++ (quote "type" ++ ':' :: (L.gap ++
      (quote tree.kind.name ++ (spellMembers L 0 members ++ ['\n']))))) =
      quote "type" ++ ':' :: (L.gap ++ (quote tree.kind.name ++
        (spellMembers L 0 members ++ ['\n']))) := by
    have hquote : ¬ IsBlank '"' := by unfold IsBlank; decide
    rw [skipBlanks_append (L.line_isBlank 1), hcs, skipBlanks_cons hquote]
  have hbegins : ∀ rest, quote "type" ++ ':' :: (L.gap ++ (quote tree.kind.name ++
      (spellMembers L 0 members ++ ['\n']))) ≠ '}' :: rest := by
    intro rest heq
    rw [hcs] at heq
    exact absurd (List.cons.inj heq).1 (by decide)
  -- the kind stands first, and then the other members are read
  have hnoBlanks : ∀ c ∈ ([] : List Char), IsBlank c := fun _ hmem => absurd hmem List.not_mem_nil
  have hbody : ∀ fuel, (spellMembers L 0 members).length ≤ fuel →
      members? (fuel + 1) none [] (quote "type" ++ ':' :: (L.gap ++ (quote tree.kind.name ++
        (spellMembers L 0 members ++ ['\n'])))) =
      if Json.nestMembers members ≤ maxDepth - 1 then .ok (some tree.kind, members, ['\n'])
      else .error .notJson := by
    intro fuel hfuel
    refine (members?_key hnoBlanks fuel none [] "type" _).trans ?_
    rw [if_neg (fun h => nomatch h.2), if_pos rfl, kind?_quote L.gap_isBlank]
    exact goOn_spellMembers L members tree.kind [] hmembers htype hfuel
  have hnest : tree.toJson.nest ≤ maxDepth ↔ Json.nestMembers members ≤ maxDepth - 1 := by
    rw [hjson, Json.nest, Json.nestMembers, Json.nest, Nat.zero_max]
    show _ + 1 ≤ 127 ↔ _ ≤ 126
    omega
  have hfuel : (spellMembers L 0 members).length ≤ (quote "type" ++ ':' :: (L.gap ++
      (quote tree.kind.name ++ (spellMembers L 0 members ++ ['\n'])))).length := by
    simp only [List.length_append, List.length_cons]
    omega
  rw [hassoc, nodeOfChars_object, openObject_of_ne hinner hbegins, hbody _ hfuel]
  by_cases hdeep : Json.nestMembers members ≤ maxDepth - 1
  · rw [if_pos hdeep, if_pos (hnest.mpr hdeep)]
    dsimp only
    rw [hread]
    rfl
  · rw [if_neg hdeep, if_neg fun h => hdeep (hnest.mp h)]

/-! ## Sequences -/

/-- The items behind the kind of a node are read back, if none is nested too
deep. -/
theorem items?_spellItems (items : List Json) {rest : List Char}
    (hlegible : ∀ n ∈ Json.numbersOfItems items, n.IsLegible) :
    items? (Json.spellItems L 0 items ++ rest) =
      if Json.nestItems items ≤ maxDepth - 1 then .ok (items, rest) else .error .notJson := by
  -- The kind has been read, so what follows is the closing bracket or a comma.
  cases items with
  | nil =>
    have hbracket : ¬ IsBlank ']' := by unfold IsBlank; decide
    rw [Json.spellItems, List.append_assoc, List.singleton_append, items?,
      skipBlanks_append (L.line_isBlank 0), skipBlanks_cons hbracket]
    rfl
  | cons v items =>
    rw [Json.numbersOfItems] at hlegible
    obtain ⟨hv, hitems⟩ := List.forall_mem_append.mp hlegible
    have hcomma : ¬ IsBlank ',' := by unfold IsBlank; decide
    rw [Json.spellItems, List.cons_append, List.append_assoc, List.append_assoc, items?,
      skipBlanks_cons hcomma]
    have hread : Json.Reader.items? (valueFuel (L.line 1 ++ (spell L 1 v ++
        (Json.spellItems L 0 items ++ rest)))) (maxDepth - 1) (L.line 1 ++ (spell L 1 v ++
          (Json.spellItems L 0 items ++ rest))) =
        if max v.nest (Json.nestItems items) ≤ maxDepth - 1 then some (v :: items, rest)
        else none := by
      rw [items?_blanks (L.line_isBlank 1)]
      refine items?_spell L _ items v 0 hv hitems ?_
      show (spell L 1 v).length + (Json.spellItems L 0 items).length ≤ _
      simp only [valueFuel, List.length_append]
      omega
    split
    next heq => exact absurd (List.cons.inj heq).1 (by decide)
    next more heq =>
      obtain rfl := (List.cons.inj heq).2
      rw [hread, Json.nestItems]
      split
      next found hfound =>
        split at hfound
        next hnest =>
          obtain rfl := Option.some.inj hfound
          rw [if_pos hnest]
        next => exact absurd hfound.symm (Option.some_ne_none _)
      next hnone =>
        split at hnone
        next => exact absurd hnone (Option.some_ne_none _)
        next hnest => rw [if_neg hnest]
    next _ hnot => exact absurd rfl (hnot _)

/-- The text of a sequence that begins with a kind is accepted exactly if it is
not nested too deep and the node can be read from the sequence. -/
theorem nodeOfChars_spell_array (kind : Kind) (items : List Json)
    (hlegible : ∀ n ∈ Json.numbersOfItems items, n.IsLegible) {tree : Node}
    (hread : Node.ofJson .outer (.array (.string kind.name :: items)) = .ok tree)
    (hnest : Json.nestItems items ≤ maxDepth - 1) :
    nodeOfChars (spell L 0 (.array (.string kind.name :: items)) ++ ['\n']) = .ok tree := by
  have hbracket : ¬ IsBlank '[' := by unfold IsBlank; decide
  have hquote : ¬ IsBlank '"' := by unfold IsBlank; decide
  obtain ⟨cs, hcs, -⟩ := string?_quote kind.name (Json.spellItems L 0 items ++ ['\n'])
  have hinner : skipBlanks
    (L.line 1 ++ (quote kind.name ++ (Json.spellItems L 0 items ++ ['\n']))) =
      quote kind.name ++ (Json.spellItems L 0 items ++ ['\n']) := by
    rw [skipBlanks_append (L.line_isBlank 1), hcs, skipBlanks_cons hquote]
  have hnoBlanks : ∀ c ∈ ([] : List Char), IsBlank c := fun _ hmem => absurd hmem List.not_mem_nil
  have hkind := kind?_quote hnoBlanks kind (Json.spellItems L 0 items ++ ['\n'])
  rw [List.nil_append] at hkind
  rw [spell, spell, List.cons_append, List.append_assoc, List.append_assoc, nodeOfChars,
    skipBlanks_cons hbracket]
  split
  next heq => exact absurd (List.cons.inj heq).1 (by decide)
  next rest heq =>
    obtain rfl := (List.cons.inj heq).2
    rw [hinner]
    split
    next heq =>
      rw [hcs] at heq
      exact absurd (List.cons.inj heq).1 (by decide)
    next =>
      rw [hkind]
      dsimp only
      rw [items?_spellItems L items hlegible, if_pos hnest]
      dsimp only
      rw [hread]
      rfl
  next _ hnot => exact absurd rfl (hnot _)

end Document

end Graft
