import Graft.Proofs.Reading
import Graft.Proofs.Regex.Literal
import Graft.Rule.RuleSet

/-!
# Rules that can be made ready

Before a set of rules is applied, each of its pairs is made a rule with a
compiled pattern (`into_pairs`). A regular expression has been compiled before,
and nothing can go wrong with it any more. A literal text is escaped and compiled
only now, and this fails exactly if the text is longer than a pattern may be. So
whether a pair can be made ready is a condition on what it looks for
(`Find.Fits`), which can be decided without compiling anything.

Pairs are made ready from the first on, and the first one that does not fit ends
the loop (the `?` in its body). The step is `Rule.ofPair_eq`, and the run is one
of `readAll`, whose two laws say when a list is read and which fault is reported.
A table is read as the list of its entries, with its keys as literal texts
(`rules_eq_rules_pairs`).

Main statements:
- `Find.toPattern?_eq`: what to look for becomes a pattern exactly if it fits;
- `RuleSet.rules_list_eq_ok_iff`, `RuleSet.rules_list_eq_error_iff`: rules can
  be made ready exactly if all of them fit, and else the first one that does not
  is reported.
-/

namespace Graft

/-- The pattern that a find of a rule stands for. -/
def Find.toPattern : Find → Pattern
  | .literal text => .ofLiteral text
  | .pattern given => given

/-- Whether a find can be made a pattern: a literal text must not be too long. -/
def Find.Fits : Find → Prop
  | .literal text => Text.byteLength text.toList ≤ Regex.maxTextBytes
  | .pattern _ => True

instance (find : Find) : Decidable find.Fits :=
  match find with
  | .literal text => inferInstanceAs (Decidable (Text.byteLength text.toList ≤ Regex.maxTextBytes))
  | .pattern _ => inferInstanceAs (Decidable True)

/-- What to look for becomes a pattern exactly if it fits. -/
theorem Find.toPattern?_eq (find : Find) :
    find.toPattern? = if find.Fits then some find.toPattern else none := by
  cases find with
  | literal text => exact Pattern.literal?_eq text
  | pattern given => rfl

namespace Rule

variable {σ : Type}

/-- A pair is a rule, unless it looks for a text that is too long. -/
theorem ofPair_eq (pair : Find × Replacer σ) :
    ofPair pair =
      if pair.1.Fits then .ok ⟨pair.1.toPattern, pair.2⟩
      else .error (.badPattern pair.1.source) := by
  rw [ofPair, Find.toPattern?_eq]
  by_cases h : pair.1.Fits
  · rw [if_pos h, if_pos h]
  · rw [if_neg h, if_neg h]

theorem ofPair_eq_ok_iff {pair : Find × Replacer σ} {rule : Rule σ} :
    ofPair pair = .ok rule ↔ pair.1.Fits ∧ ⟨pair.1.toPattern, pair.2⟩ = rule := by
  rw [ofPair_eq]
  split <;> simp_all

theorem exists_ofPair_iff {pair : Find × Replacer σ} :
    (∃ rule, ofPair pair = .ok rule) ↔ pair.1.Fits :=
  (exists_congr fun _ => ofPair_eq_ok_iff).trans ⟨fun ⟨_, h, _⟩ => h, fun h => ⟨_, h, rfl⟩⟩

/-- A pair that does not fit is reported with the text that it looks for. -/
theorem ofPair_eq_error_iff {pair : Find × Replacer σ} {cause : RuleError} :
    ofPair pair = .error cause ↔ ¬ pair.1.Fits ∧ cause = .badPattern pair.1.source := by
  rw [ofPair_eq]
  split <;> simp_all [eq_comm]

end Rule

namespace RuleSet

variable {σ : Type}

/-- The pairs of rules as they are given. The keys of a table are literal texts. -/
def pairs : RuleSet σ → List (Find × Replacer σ)
  | .list pairs => pairs
  | .table entries => entries.map fun entry => (.literal entry.1, entry.2)

/-- A set of rules is made ready as the list of its pairs is. -/
theorem rules_eq_rules_pairs (set : RuleSet σ) : set.rules = (list set.pairs).rules := by
  cases set with
  | list pairs => rfl
  | table entries => exact rules_table entries

/-- The rules of a list are made ready from the first on. -/
theorem rules_list_cons (pair : Find × Replacer σ) (rest : List (Find × Replacer σ)) :
    (list (pair :: rest)).rules =
      if pair.1.Fits then (list rest).rules.map (⟨pair.1.toPattern, pair.2⟩ :: ·)
      else .error (.badPattern pair.1.source) := by
  rw [rules, List.mapM_cons, Rule.ofPair_eq]
  split <;> rfl

theorem rules_list_eq_readAll (pairs : List (Find × Replacer σ)) :
    (list pairs).rules = readAll (fun _ => Rule.ofPair) 0 pairs :=
      mapM_eq_readAll Rule.ofPair 0 pairs

/-- A list of pairs is a list of rules exactly if no pair looks for a text that
is too long. -/
theorem rules_list_eq_ok_iff {pairs : List (Find × Replacer σ)} {ready : List (Rule σ)} :
    (list pairs).rules = .ok ready ↔
      (∀ pair ∈ pairs, pair.1.Fits) ∧ ready = pairs.map fun pair => ⟨pair.1.toPattern, pair.2⟩ := by
  have hpair : ∀ (_ : Nat) (pair : Find × Replacer σ) (rule : Rule σ),
      Rule.ofPair pair = .ok rule ↔ pair.1.Fits ∧ ⟨pair.1.toPattern, pair.2⟩ = rule :=
    fun _ _ _ => Rule.ofPair_eq_ok_iff
  rw [rules_list_eq_readAll, readAll_eq_ok_iff hpair,
    List.forall₂_and_left, ← List.forall₂_map_left_iff (R := Eq), List.forall₂_eq_eq_eq]
  exact and_congr_right fun _ => eq_comm

/-- The fault of a list of pairs is that of the first one that looks for a text
that is too long. -/
theorem rules_list_eq_error_iff {pairs : List (Find × Replacer σ)} {cause : RuleError} :
    (list pairs).rules = .error cause ↔
      ∃ before pair after, pairs = before ++ pair :: after ∧ (∀ other ∈ before, other.1.Fits) ∧
        ¬ pair.1.Fits ∧ cause = .badPattern pair.1.source := by
  have hpair : ∀ (_ : Nat) (pair : Find × Replacer σ),
      (∃ rule, Rule.ofPair pair = .ok rule) ↔ pair.1.Fits := fun _ _ => Rule.exists_ofPair_iff
  rw [rules_list_eq_readAll, readAll_eq_error_iff hpair]
  simp only [Rule.ofPair_eq_error_iff]

/-- A list of pairs is a list of rules, if no pair looks for a text that is too
long. -/
theorem rules_list {pairs : List (Find × Replacer σ)} (h : ∀ pair ∈ pairs, pair.1.Fits) :
    (list pairs).rules = .ok (pairs.map fun pair => ⟨pair.1.toPattern, pair.2⟩) :=
  rules_list_eq_ok_iff.mpr ⟨h, rfl⟩

end RuleSet

end Graft
