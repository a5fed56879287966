import Graft.Proofs.Rule.Grammar

/-!
# Which rules in JSON are accepted

Rules are taken in two steps. They are read first (`from_value`), and then made
ready to be applied (`into_pairs`). The first step reads exactly the values that
denote pairs, one for each item or member, and the error for any other value is
that of its first fault. Reading compiles the regular expressions it meets, but
a literal text is taken as it is.

The second step makes a pattern of every literal text, in order, and the first
that is too long is the error. It is found only here, when all items have been
read, so any fault of the first kind comes before it, even one that stands
behind the text.

Pairs (`tuple_from_value`) and members are judged on their own, so each of them
has three lemmas: which values are accepted and as what, which are accepted at
all, and with which error the others are refused. The three are not redundant.
Acceptance says what the rules are, the errors say which fault is the first, and
the middle one is what has to hold of the items before a fault. For values with
many of them the lemmas on lists that are read item by item
(`readAll_eq_ok_iff`, `readAll_eq_error_iff`) do the rest.

`literals` collects the literal texts of a value in the order in which they
become patterns, from the value and not from what has been read of it. So the
final statement speaks of the value alone: it can be made ready exactly if it
denotes pairs and all its literal texts fit, and the error is either its first
fault, or, if it has none, the first literal text that is too long.

Main statements:
- `RuleSet.pairOfJson_eq_ok_iff`, `RuleSet.pairOfJson_eq_error_iff`: pairs of
  what to look for and a replacement;
- `RuleSet.pairsOfRules_eq_ok_iff`, `RuleSet.pairsOfRules_eq_error_iff`: the
  first step;
- `RuleSet.rules_list_eq_error_iff_firstTooLong`: the second;
- `RuleSet.readyOfJson_eq_ok_iff`, `RuleSet.readyOfJson_eq_error_iff`: both of
  them, for every value.
-/

namespace Graft

variable {σ : Type}

namespace RuleSet

/-! ## Pairs and members -/

/-- A pair without a replacement deletes what it finds. -/
theorem pairOfJson_one (index : Nat) (v : Json) :
    (pairOfJson index (.array [v]) : Except RuleError (Find × Replacer σ)) =
      (Find.ofJson v).map fun find => (find, .constant .delete) := by
  rw [pairOfJson]
  cases Find.ofJson v <;> rfl

/-- What to look for is read before the replacement, and its fault comes first. -/
theorem pairOfJson_two (index : Nat) (v w : Json) :
    (pairOfJson index (.array [v, w]) : Except RuleError (Find × Replacer σ)) =
      (Find.ofJson v).bind fun find =>
        (Replacement.ofJson w).map fun replacement => (find, .constant replacement) := by
  rw [pairOfJson]
  cases Find.ofJson v with
  | error cause => rfl
  | ok found => cases Replacement.ofJson w <;> rfl

/-- Anything but an array of one or two items is no pair, and the error names
the item. -/
theorem pairOfJson_of_not_pair (index : Nat) {v : Json} (hone : ∀ find, v ≠ .array [find])
    (htwo : ∀ find replacement, v ≠ .array [find, replacement]) :
    (pairOfJson index v : Except RuleError (Find × Replacer σ)) = .error (.notAPair index) := by
  rw [pairOfJson]
  · exact hone
  · exact htwo

/-- A value is read as a pair exactly if it denotes this pair, whatever its
index. -/
theorem pairOfJson_eq_ok_iff {index : Nat} {v : Json} {pair : Find × Replacer σ} :
    pairOfJson index v = .ok pair ↔ v.DenotesPair pair := by
  constructor
  · intro h
    -- an array of one item, of two, or neither
    by_cases hone : ∃ find, v = .array [find]
    · obtain ⟨find, rfl⟩ := hone
      rw [pairOfJson_one] at h
      obtain ⟨found, hfound, rfl⟩ := map_eq_ok h
      exact .deletes (Find.ofJson_eq_ok_iff.mp hfound)
    by_cases htwo : ∃ find replacement, v = .array [find, replacement]
    · obtain ⟨find, w, rfl⟩ := htwo
      rw [pairOfJson_two] at h
      obtain ⟨found, hfound, h⟩ := bind_eq_ok h
      obtain ⟨replacement, hreplacement, rfl⟩ := map_eq_ok h
      exact .replaces (Find.ofJson_eq_ok_iff.mp hfound)
        (Replacement.ofJson_eq_ok_iff.mp hreplacement)
    · rw [pairOfJson_of_not_pair index (not_exists.mp hone) fun find w hv =>
        htwo ⟨find, w, hv⟩] at h
      exact absurd h error_ne_ok
  · intro h
    cases h with
    | deletes hfind =>
      rw [pairOfJson_one, Find.ofJson_eq_ok_iff.mpr hfind]
      rfl
    | replaces hfind hreplacement =>
      rw [pairOfJson_two, Find.ofJson_eq_ok_iff.mpr hfind]
      show (Replacement.ofJson _).map _ = _
      rw [Replacement.ofJson_eq_ok_iff.mpr hreplacement]
      rfl

/-- A value is accepted as a pair exactly if its parts are accepted. -/
theorem exists_pairOfJson_iff {index : Nat} {v : Json} :
    (∃ pair : Find × Replacer σ, pairOfJson index v = .ok pair) ↔ v.IsPair := by
  unfold Json.IsPair
  split
  next find => rw [pairOfJson_one, exists_map_iff, Find.exists_ofJson_iff]
  next find w =>
    rw [pairOfJson_two, ← Find.exists_ofJson_iff, ← Replacement.exists_ofJson_iff]
    constructor
    · rintro ⟨pair, h⟩
      obtain ⟨found, hfound, h⟩ := bind_eq_ok h
      exact ⟨⟨found, hfound⟩, exists_map_iff.mp ⟨pair, h⟩⟩
    · rintro ⟨⟨found, hfound⟩, replacement, hreplacement⟩
      rw [hfound, hreplacement]
      exact ⟨_, rfl⟩
  next hone htwo =>
    refine iff_of_false ?_ id
    rintro ⟨pair, h⟩
    rw [pairOfJson_of_not_pair index hone htwo] at h
    exact error_ne_ok h

/-- A value that is no pair is refused for its shape, its find or its
replacement, in this order. -/
theorem pairOfJson_eq_error_iff {index : Nat} {v : Json} {cause : RuleError} :
    (pairOfJson index v : Except RuleError (Find × Replacer σ)) = .error cause ↔
      v.PairFault index cause := by
  constructor
  · intro h
    by_cases hone : ∃ find, v = .array [find]
    · obtain ⟨find, rfl⟩ := hone
      rw [pairOfJson_one, map_eq_error_iff] at h
      exact .find (Nat.zero_le 1) (Find.ofJson_eq_error_iff.mp h)
    by_cases htwo : ∃ find replacement, v = .array [find, replacement]
    · obtain ⟨find, w, rfl⟩ := htwo
      rw [pairOfJson_two, bind_map_eq_error_iff] at h
      rcases h with h | ⟨hfind, h⟩
      · exact .find (Nat.le_refl 1) (Find.ofJson_eq_error_iff.mp h)
      · exact .replacement (Find.exists_ofJson_iff.mp hfind) (Replacement.ofJson_eq_error_iff.mp h)
    · have hpair : ∀ find w, v ≠ .array [find, w] := fun find w hv => htwo ⟨find, w, hv⟩
      rw [pairOfJson_of_not_pair index (not_exists.mp hone) hpair] at h
      obtain rfl := Except.error.inj h
      exact .shape (not_exists.mp hone) hpair
  · intro h
    cases h with
    | shape hone htwo => exact pairOfJson_of_not_pair index hone htwo
    | @find find rest _ hrest hfault =>
      have hfind := Find.ofJson_eq_error_iff.mpr hfault
      match rest, hrest with
      | [], _ => rw [pairOfJson_one, map_eq_error_iff, hfind]
      | [w], _ => rw [pairOfJson_two, hfind]; rfl
    | replacement hfind hfault =>
      rw [pairOfJson_two, bind_map_eq_error_iff]
      exact .inr ⟨Find.exists_ofJson_iff.mpr hfind, Replacement.ofJson_eq_error_iff.mpr hfault⟩

/-- Reads a member of an object as a pair. -/
def pairOfMember (m : String × Json) : Except RuleError (Find × Replacer σ) :=
  (Replacement.ofJson m.2).map fun replacement => (.literal m.1, .constant replacement)

/-- A member of an object denotes a literal text and what to put in its place. -/
theorem pairOfMember_eq_ok_iff {m : String × Json} {pair : Find × Replacer σ} :
    pairOfMember m = .ok pair ↔ Json.MemberDenotes m pair := by
  rw [pairOfMember, map_eq_ok_iff]
  exact exists_congr fun replacement => and_congr Replacement.ofJson_eq_ok_iff eq_comm

theorem exists_pairOfMember_iff {m : String × Json} :
    (∃ pair : Find × Replacer σ, pairOfMember m = .ok pair) ↔ m.2.IsReplacement :=
  exists_map_iff.trans Replacement.exists_ofJson_iff

theorem pairOfMember_eq_error_iff {m : String × Json} {cause : RuleError} :
    (pairOfMember m : Except RuleError (Find × Replacer σ)) = .error cause ↔
      m.2.ReplacementFault cause :=
  map_eq_error_iff.trans Replacement.ofJson_eq_error_iff

/-! ## Rules as they are read -/

/-- Reads the pairs of rules. -/
def pairsOfRules (v : Json) : Except RuleError (List (Find × Replacer σ)) :=
  (ofJson v).map pairs

/-- The pairs of an array are those of its items. -/
theorem pairsOfRules_array (items : List Json) :
    (pairsOfRules (.array items) : Except RuleError (List (Find × Replacer σ))) =
      readAll pairOfJson 0 items := by
  have hpairs : ∀ index, (pairsOfJson index items : Except RuleError (List (Find × Replacer σ))) =
      readAll pairOfJson index items := by
    induction items with
    | nil => intro index; rfl
    | cons item rest ih => intro index; rw [pairsOfJson, readAll, ih]
  rw [pairsOfRules, ofJson, hpairs]
  cases (readAll pairOfJson 0 items : Except RuleError (List (Find × Replacer σ))) <;> rfl

/-- The pairs of an object are those of its members. -/
theorem pairsOfRules_object (members : Members) :
    (pairsOfRules (.object members) : Except RuleError (List (Find × Replacer σ))) =
      readAll (fun _ => pairOfMember) 0 members := by
  -- the reader gathers entries with their keys; making pairs of them afterwards or on the way is
  -- the same
  have hentries : ∀ index,
    (entriesOfJson members : Except RuleError (List (String × Replacer σ))).map
      (List.map fun entry => (Find.literal entry.1, entry.2)) =
        readAll (fun _ => pairOfMember) index members := by
    induction members with
    | nil => intro index; rfl
    | cons m rest ih =>
      intro index
      rw [entriesOfJson, readAll, ← ih (index + 1), pairOfMember]
      cases Replacement.ofJson m.2 with
      | error cause => rfl
      | ok replacement =>
        cases (entriesOfJson rest : Except RuleError (List (String × Replacer σ))) <;> rfl
  rw [← hentries 0, pairsOfRules, ofJson]
  cases (entriesOfJson members : Except RuleError (List (String × Replacer σ))) <;> rfl

theorem pairsOfRules_of_not_rules {v : Json} (hstring : ∀ text, v ≠ .string text)
    (harray : ∀ items, v ≠ .array items) (hobject : ∀ members, v ≠ .object members) :
    (pairsOfRules v : Except RuleError (List (Find × Replacer σ))) = .error .notRules := by
  cases v with
  | string text => exact absurd rfl (hstring text)
  | array items => exact absurd rfl (harray items)
  | object members => exact absurd rfl (hobject members)
  | _ => rfl

/-- The first step: a value is read as pairs exactly if it denotes them. -/
theorem pairsOfRules_eq_ok_iff {v : Json} {pairs : List (Find × Replacer σ)} :
    pairsOfRules v = .ok pairs ↔ v.DenotesPairs pairs := by
  constructor
  · intro h
    cases v with
    | string text =>
      obtain rfl := Except.ok.inj h
      exact .text text
    | array items =>
      rw [pairsOfRules_array] at h
      exact .list ((readAll_eq_ok_iff fun _ v _ => pairOfJson_eq_ok_iff (v := v)).mp h)
    | object members =>
      rw [pairsOfRules_object] at h
      exact .table ((readAll_eq_ok_iff fun _ m _ => pairOfMember_eq_ok_iff (m := m)).mp h)
    | _ => exact absurd h error_ne_ok
  · intro h
    cases h with
    | text text => rfl
    | list hitems =>
      rw [pairsOfRules_array]
      exact (readAll_eq_ok_iff fun _ v _ => pairOfJson_eq_ok_iff (v := v)).mpr hitems
    | table hmembers =>
      rw [pairsOfRules_object]
      exact (readAll_eq_ok_iff fun _ m _ => pairOfMember_eq_ok_iff (m := m)).mpr hmembers

/-- It is read at all exactly if all of its items or members are accepted. -/
theorem exists_pairsOfRules_iff {v : Json} :
    (∃ pairs : List (Find × Replacer σ), pairsOfRules v = .ok pairs) ↔ v.IsRules := by
  unfold Json.IsRules
  split
  next text => exact iff_of_true ⟨_, rfl⟩ trivial
  next items =>
    rw [pairsOfRules_array]
    exact exists_readAll_iff fun _ v => exists_pairOfJson_iff (v := v)
  next members =>
    rw [pairsOfRules_object]
    exact exists_readAll_iff fun _ m => exists_pairOfMember_iff (m := m)
  next hstring harray hobject =>
    refine iff_of_false ?_ id
    rintro ⟨pairs, h⟩
    rw [pairsOfRules_of_not_rules hstring harray hobject] at h
    exact error_ne_ok h

/-- Any other value is refused for the first of them that is not. -/
theorem pairsOfRules_eq_error_iff {v : Json} {cause : RuleError} :
    (pairsOfRules v : Except RuleError (List (Find × Replacer σ))) = .error cause ↔
      v.RulesFault cause := by
  constructor
  · intro h
    -- texts are never refused, arrays and objects for one of their parts, all else for what it is
    cases v with
    | string text => exact absurd h.symm error_ne_ok
    | array items =>
      rw [pairsOfRules_array, readAll_eq_error_iff fun _ v => exists_pairOfJson_iff (v := v)] at h
      obtain ⟨before, item, after, rfl, hbefore, hitem⟩ := h
      rw [Nat.zero_add] at hitem
      exact .item hbefore (pairOfJson_eq_error_iff.mp hitem)
    | object members =>
      rw [pairsOfRules_object, readAll_eq_error_iff fun _ m =>
        exists_pairOfMember_iff (m := m)] at h
      obtain ⟨before, ⟨key, v⟩, after, rfl, hbefore, hv⟩ := h
      exact .member hbefore (pairOfMember_eq_error_iff.mp hv)
    | _ =>
      obtain rfl := Except.error.inj h
      exact .kind (fun _ h => by cases h) (fun _ h => by cases h) fun _ h => by cases h
  · intro h
    cases h with
    | kind hstring harray hobject => exact pairsOfRules_of_not_rules hstring harray hobject
    | item hbefore hitem =>
      rw [pairsOfRules_array, readAll_eq_error_iff fun _ v => exists_pairOfJson_iff (v := v)]
      refine ⟨_, _, _, rfl, hbefore, ?_⟩
      rw [Nat.zero_add]
      exact pairOfJson_eq_error_iff.mpr hitem
    | member hbefore hv =>
      rw [pairsOfRules_object, readAll_eq_error_iff fun _ m => exists_pairOfMember_iff (m := m)]
      exact ⟨_, _, _, rfl, hbefore, pairOfMember_eq_error_iff.mpr hv⟩

/-! ## Literal texts -/

/-- The text that a find looks for literally, if it does. -/
def literalOf? : Find → Option String
  | .literal text => some text
  | .pattern _ => none

/-- Only literal texts can be too long; a pattern that has been read has been
compiled. -/
theorem fits_iff {find : Find} :
    find.Fits ↔ ∀ text, literalOf? find = some text → (Find.literal text).Fits := by
  cases find with
  | literal text => exact ⟨fun h _ heq => Option.some.inj heq ▸ h, fun h => h text rfl⟩
  | pattern given => exact iff_of_true trivial fun _ heq => by cases heq

/-- The texts that pairs look for literally are those of the value that denotes
them. -/
theorem literals_of_denotesPairs {v : Json} {pairs : List (Find × Replacer σ)}
    (h : v.DenotesPairs pairs) : v.literals = pairs.filterMap fun pair => literalOf? pair.1 := by
  cases h with
  | text text => rfl
  | list hitems =>
    rw [Json.literals]
    induction hitems with
    | nil => rfl
    | @cons item pair _ _ hitem _ ih =>
      have hfirst : Json.itemLiteral? item = literalOf? pair.1 := by
        cases hitem with
        | deletes hfind => cases hfind <;> rfl
        | replaces hfind _ => cases hfind <;> rfl
      rw [List.filterMap_cons, List.filterMap_cons, hfirst, ih]
  | table hmembers =>
    rw [Json.literals]
    induction hmembers with
    | nil => rfl
    | cons hmember _ ih =>
      obtain ⟨replacement, -, rfl⟩ := hmember
      rw [List.map_cons, ih]
      rfl

/-- All pairs can be made rules exactly if all literal texts are short enough. -/
theorem forall_fits_iff {pairs : List (Find × Replacer σ)} :
    (∀ pair ∈ pairs, pair.1.Fits) ↔
      ∀ text ∈ pairs.filterMap fun pair => literalOf? pair.1, (Find.literal text).Fits := by
  constructor
  · intro h text htext
    obtain ⟨pair, hpair, htext⟩ := List.mem_filterMap.mp htext
    exact fits_iff.mp (h pair hpair) text htext
  · exact fun h pair hpair => fits_iff.mpr fun text htext =>
      h text (List.mem_filterMap.mpr ⟨pair, hpair, htext⟩)

/-- The first of some texts that is too long. -/
def firstTooLong? (texts : List String) : Option String :=
  texts.find? fun text => ¬ (Find.literal text).Fits

/-- Pairs that cannot all be made rules fail at the first literal text that is
too long. -/
theorem rules_list_eq_error_iff_firstTooLong {pairs : List (Find × Replacer σ)}
    {cause : RuleError} :
    (list pairs).rules = .error cause ↔
      ∃ text, firstTooLong? (pairs.filterMap fun pair => literalOf? pair.1) = some text ∧
        cause = .badPattern (Find.literal text).source := by
  -- along the pairs: what is no literal text never fails, and a literal text fails if it does not
  -- fit
  induction pairs with
  | nil => exact ⟨fun h => absurd h.symm error_ne_ok, fun ⟨_, h, _⟩ => by cases h⟩
  | cons pair rest ih =>
    obtain ⟨find, replacer⟩ := pair
    have hrules := rules_list_cons (find, replacer) rest
    cases find with
    | pattern given =>
      rw [hrules.trans (if_pos trivial), map_eq_error_iff, ih]
      rfl
    | literal text =>
      have hliterals : ((Find.literal text, replacer) :: rest).filterMap
          (fun pair => literalOf? pair.1) =
            text :: rest.filterMap fun pair => literalOf? pair.1 := rfl
      rw [hliterals, firstTooLong?]
      by_cases hfits : (Find.literal text).Fits
      · rw [hrules.trans (if_pos hfits), map_eq_error_iff, ih,
          List.find?_cons_of_neg (by simpa using hfits)]
        rfl
      · rw [hrules.trans (if_neg hfits), List.find?_cons_of_pos (by simpa using hfits)]
        simp [eq_comm]

/-! ## Rules that are made ready -/

/-- Reads rules and makes them ready. -/
def readyOfJson (v : Json) : Except RuleError (List (Rule σ)) := (ofJson v).bind rules

/-- Both steps, one after the other. -/
theorem readyOfJson_eq (v : Json) :
    (readyOfJson v : Except RuleError (List (Rule σ))) =
      (pairsOfRules v).bind fun pairs => (list pairs).rules := by
  rw [readyOfJson, pairsOfRules]
  cases (ofJson v : Except RuleError (RuleSet σ)) with
  | error cause => rfl
  | ok set => exact rules_eq_rules_pairs set

/-- Rules in JSON can be made ready exactly if they denote pairs that all become
rules. -/
theorem readyOfJson_eq_ok_iff {v : Json} {ready : List (Rule σ)} :
    readyOfJson v = .ok ready ↔ ∃ pairs, v.DenotesPairs pairs ∧
      List.Forall₂ (fun pair rule => Rule.ofPair pair = .ok rule) pairs ready := by
  rw [readyOfJson_eq, bind_eq_ok_iff]
  refine exists_congr fun pairs => and_congr pairsOfRules_eq_ok_iff ?_
  rw [rules_list_eq_readAll]
  have hpair : ∀ (_ : Nat) (pair : Find × Replacer σ) (rule : Rule σ),
      Rule.ofPair pair = .ok rule ↔ Rule.ofPair pair = .ok rule := fun _ _ _ => Iff.rfl
  exact readAll_eq_ok_iff hpair

theorem exists_readyOfJson_iff {v : Json} :
    (∃ ready : List (Rule σ), readyOfJson v = .ok ready) ↔
      v.IsRules ∧ ∀ text ∈ v.literals, (Find.literal text).Fits := by
  rw [← exists_pairsOfRules_iff (σ := σ)]
  simp only [readyOfJson_eq, bind_eq_ok_iff]
  constructor
  · rintro ⟨ready, pairs, hpairs, hready⟩
    rw [literals_of_denotesPairs (pairsOfRules_eq_ok_iff.mp hpairs), ← forall_fits_iff]
    exact ⟨⟨pairs, hpairs⟩, (rules_list_eq_ok_iff.mp hready).1⟩
  · rintro ⟨⟨pairs, hpairs⟩, hfits⟩
    rw [literals_of_denotesPairs (pairsOfRules_eq_ok_iff.mp hpairs), ← forall_fits_iff] at hfits
    exact ⟨_, pairs, hpairs, rules_list hfits⟩

/-- They are refused for their first fault, or, without one, for the first
literal text that is too long. -/
theorem readyOfJson_eq_error_iff {v : Json} {cause : RuleError} :
    (readyOfJson v : Except RuleError (List (Rule σ))) = .error cause ↔
      v.RulesFault cause ∨ v.IsRules ∧ ∃ text, firstTooLong? v.literals = some text ∧
        cause = .badPattern (Find.literal text).source := by
  rw [readyOfJson_eq, ← pairsOfRules_eq_error_iff (σ := σ), ← exists_pairsOfRules_iff (σ := σ)]
  cases hpairs : (pairsOfRules v : Except RuleError (List (Find × Replacer σ))) with
  | error other =>
    show Except.error other = .error cause ↔ _
    simp
  | ok pairs =>
    rw [literals_of_denotesPairs (pairsOfRules_eq_ok_iff.mp hpairs),
      ← rules_list_eq_error_iff_firstTooLong]
    show (list pairs).rules = .error cause ↔ _
    simp

/-- The second item is no pair, so the third is not looked at. -/
example : (readyOfJson (.array [.array [.string "a"], .null, .bool true]) :
    Except RuleError (List (Rule Unit))) = .error (.notAPair 1) := rfl

end RuleSet

end Graft
