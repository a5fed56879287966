import Graft.Proofs.Json.Keys
import Graft.Proofs.Json.Numeral

/-!
# How deep a value is nested, and its numbers

A reader opens no more arrays and objects inside each other than it is allowed
to, and takes no whole numbers beyond 64 bits. Merging repeated keys makes no
value deeper and adds no numbers.

`nest` counts the arrays and objects around the innermost part of a value, with
the value itself, and `numbers` lists the numbers in it. Both are taken by
recursion over values, items and members. Together with `Number.IsLegible` they
say of a value everything that could keep its text from being read: the limit on
depth (`maxDepth`), and numbers whose texts are not read back.

The bounds are followed in two directions. From a value to what is merged of it:
an insertion adds nothing that was not there, and so a fold of insertions adds
nothing (`nest_mergeKeys`, `mem_numbers_of_mergeKeys`). And from a reader to its
value: the reader carries the number of levels that are left, and what it makes
lies within them (`Within`, by recursion on its fuel).

Main statements:
- `Json.nest_mergeKeys`, `Json.mem_numbers_of_mergeKeys`: what merging repeated
  keys leaves;
- `Json.Reader.within_of_value?`: what a reader makes is no deeper than it may
  be, and its numbers fit.
-/

namespace Graft

namespace Json

mutual

/-- The number of arrays and objects inside each other that a value is made of. -/
def nest : Json → Nat
  | .array items => nestItems items + 1
  | .object members => nestMembers members + 1
  | .null | .bool _ | .number _ | .string _ => 0

/-- The deepest of some values. -/
def nestItems : List Json → Nat
  | [] => 0
  | v :: rest => max v.nest (nestItems rest)

/-- The deepest of the values of some members. -/
def nestMembers : List (String × Json) → Nat
  | [] => 0
  | (_, v) :: rest => max v.nest (nestMembers rest)

end

mutual

/-- The numbers in a value. -/
def numbers : Json → List Number
  | .number n => [n]
  | .array items => numbersOfItems items
  | .object members => numbersOfMembers members
  | .null | .bool _ | .string _ => []

/-- The numbers in some values. -/
def numbersOfItems : List Json → List Number
  | [] => []
  | v :: rest => v.numbers ++ numbersOfItems rest

/-- The numbers in the values of some members. -/
def numbersOfMembers : List (String × Json) → List Number
  | [] => []
  | (_, v) :: rest => v.numbers ++ numbersOfMembers rest

end

/-- Items lie within a number of levels exactly if each of them does. -/
theorem nestItems_le_iff {items : List Json} {bound : Nat} :
    nestItems items ≤ bound ↔ ∀ v ∈ items, v.nest ≤ bound := by
  induction items with
  | nil => exact ⟨fun _ _ hmem => absurd hmem List.not_mem_nil, fun _ => Nat.zero_le _⟩
  | cons v rest ih => rw [nestItems, Nat.max_le, ih, List.forall_mem_cons]

theorem nestMembers_le_iff {members : Members} {bound : Nat} :
    nestMembers members ≤ bound ↔ ∀ m ∈ members, m.2.nest ≤ bound := by
  induction members with
  | nil => exact ⟨fun _ _ hmem => absurd hmem List.not_mem_nil, fun _ => Nat.zero_le _⟩
  | cons m rest ih => rw [nestMembers, Nat.max_le, ih, List.forall_mem_cons]

/-- The numbers in items are those in one of them. -/
theorem mem_numbersOfItems {items : List Json} {n : Number} :
    n ∈ numbersOfItems items ↔ ∃ v ∈ items, n ∈ v.numbers := by
  induction items with
  | nil => exact ⟨fun h => absurd h List.not_mem_nil, fun ⟨_, h, _⟩ => absurd h List.not_mem_nil⟩
  | cons v rest ih =>
    simp only [numbersOfItems, List.mem_append, ih, List.mem_cons, or_and_right, exists_or,
      exists_eq_left]

theorem mem_numbersOfMembers {members : Members} {n : Number} :
    n ∈ numbersOfMembers members ↔ ∃ m ∈ members, n ∈ m.2.numbers := by
  induction members with
  | nil => exact ⟨fun h => absurd h List.not_mem_nil, fun ⟨_, h, _⟩ => absurd h List.not_mem_nil⟩
  | cons m rest ih =>
    simp only [numbersOfMembers, List.mem_append, ih, List.mem_cons, or_and_right, exists_or,
      exists_eq_left]

end Json

/-! ## Merging repeated keys -/

namespace Members

/-- After an insertion there are the members from before and the one that has
been inserted. -/
theorem mem_of_mem_set {members : Members} {key : String} {value : Json} {m : String × Json}
    (h : m ∈ set members key value) : m ∈ members ∨ m = (key, value) := by
  induction members with
  | nil => exact .inr (List.mem_singleton.mp h)
  | cons first rest ih =>
    obtain ⟨k, v⟩ := first
    unfold set at h
    split at h
    next hkey =>
      subst hkey
      rcases List.mem_cons.mp h with heq | hmem
      · exact .inr heq
      · exact .inl (List.mem_cons_of_mem _ hmem)
    next =>
      rcases List.mem_cons.mp h with heq | hmem
      · exact .inl (heq ▸ List.mem_cons_self)
      · exact (ih hmem).imp_left (List.mem_cons_of_mem _)

/-- Merging makes no members. -/
theorem mem_of_mem_merge {members : Members} : ∀ m ∈ merge members, m ∈ members := by
  refine merge_preserves (fun merged => ∀ m ∈ merged, m ∈ members) ?_ members ?_
  · exact fun m hmem => absurd hmem List.not_mem_nil
  · intro merged hmerged m hm other hother
    rcases mem_of_mem_set hother with hold | rfl
    · exact hmerged other hold
    · exact hm

end Members

namespace Json

mutual

/-- Merging repeated keys makes no value deeper. -/
theorem nest_mergeKeys : ∀ v : Json, v.mergeKeys.nest ≤ v.nest
  | .array items => Nat.succ_le_succ (nestItems_mergeItems items)
  | .object members => by
    refine Nat.succ_le_succ (Nat.le_trans ?_ (nestMembers_mergeMembers members))
    refine nestMembers_le_iff.mpr fun m hm => ?_
    exact nestMembers_le_iff.mp (Nat.le_refl _) m (Members.mem_of_mem_merge m hm)
  | .null => Nat.le_refl 0
  | .bool _ => Nat.le_refl 0
  | .number _ => Nat.le_refl 0
  | .string _ => Nat.le_refl 0

/-- Items are merged one by one, and none becomes deeper. -/
theorem nestItems_mergeItems : ∀ items : List Json, nestItems (mergeItems items) ≤ nestItems items
  | [] => Nat.le_refl 0
  | v :: rest => by
    have hv := nest_mergeKeys v
    have hrest := nestItems_mergeItems rest
    rw [mergeItems, nestItems, nestItems]
    omega

theorem nestMembers_mergeMembers : ∀ members : List (String × Json),
    nestMembers (mergeMembers members) ≤ nestMembers members
  | [] => Nat.le_refl 0
  | (_, v) :: rest => by
    have hv := nest_mergeKeys v
    have hrest := nestMembers_mergeMembers rest
    rw [mergeMembers, nestMembers, nestMembers]
    omega

end

mutual

/-- Merging repeated keys adds no numbers. -/
theorem mem_numbers_of_mergeKeys :
    ∀ (v : Json) {n : Number}, n ∈ v.mergeKeys.numbers → n ∈ v.numbers
  | .array items, _, h => mem_numbers_of_mergeItems items h
  | .object members, _, h => by
    refine mem_numbers_of_mergeMembers members ?_
    obtain ⟨m, hm, hn⟩ := mem_numbersOfMembers.mp h
    exact mem_numbersOfMembers.mpr ⟨m, Members.mem_of_mem_merge m hm, hn⟩
  | .null, _, h => h
  | .bool _, _, h => h
  | .number _, _, h => h
  | .string _, _, h => h

/-- Nor does any of them gain a number. -/
theorem mem_numbers_of_mergeItems : ∀ (items : List Json) {n : Number},
    n ∈ numbersOfItems (mergeItems items) → n ∈ numbersOfItems items
  | [], _, h => h
  | v :: rest, _, h => by
    rw [mergeItems, numbersOfItems] at h
    rw [numbersOfItems]
    exact List.mem_append.mpr ((List.mem_append.mp h).imp (mem_numbers_of_mergeKeys v)
      (mem_numbers_of_mergeItems rest))

theorem mem_numbers_of_mergeMembers : ∀ (members : List (String × Json)) {n : Number},
    n ∈ numbersOfMembers (mergeMembers members) → n ∈ numbersOfMembers members
  | [], _, h => h
  | (_, v) :: rest, _, h => by
    rw [mergeMembers, numbersOfMembers] at h
    rw [numbersOfMembers]
    exact List.mem_append.mpr ((List.mem_append.mp h).imp (mem_numbers_of_mergeKeys v)
      (mem_numbers_of_mergeMembers rest))

end

/-! ## What a reader makes -/

/-- Whether a value lies within this many arrays and objects inside each other,
and its whole numbers within 64 bits. -/
structure Within (depth : Nat) (v : Json) : Prop where
  nest : v.nest ≤ depth
  numbers : ∀ n ∈ v.numbers, n.Fits

/-- An array lies one level above its items. -/
theorem within_array {depth : Nat} {items : List Json} (h : ∀ v ∈ items, Within depth v) :
    Within (depth + 1) (.array items) where
  nest := Nat.succ_le_succ (nestItems_le_iff.mpr fun v hv => (h v hv).nest)
  numbers n hn := by
    obtain ⟨v, hv, hmem⟩ := mem_numbersOfItems.mp hn
    exact (h v hv).numbers n hmem

/-- An object lies one level above its values. -/
theorem within_object {depth : Nat} {members : Members} (h : ∀ m ∈ members, Within depth m.2) :
    Within (depth + 1) (.object members) where
  nest := Nat.succ_le_succ (nestMembers_le_iff.mpr fun m hm => (h m hm).nest)
  numbers n hn := by
    obtain ⟨m, hm, hmem⟩ := mem_numbersOfMembers.mp hn
    exact (h m hm).numbers n hmem

namespace Reader

/-- Values without parts lie on no level, and the only one that holds a number
is the number itself. -/
theorem within_of_scalar? {depth : Nat} {cs left : List Char} {v : Json}
    (h : scalar? cs = some (v, left)) : Within depth v := by
  have hplain : v.nest = 0 → v.numbers = [] → Within depth v := by
    intro hnest hnumbers
    refine ⟨hnest ▸ Nat.zero_le depth, fun n hn => ?_⟩
    rw [hnumbers] at hn
    exact absurd hn List.not_mem_nil
  unfold scalar? at h
  split at h
  · obtain ⟨_, -, heq⟩ := Option.map_eq_some_iff.mp h
    obtain ⟨rfl, -⟩ := Prod.mk.inj heq
    exact hplain rfl rfl
  · obtain ⟨_, -, heq⟩ := Option.map_eq_some_iff.mp h
    obtain ⟨rfl, -⟩ := Prod.mk.inj heq
    exact hplain rfl rfl
  · obtain ⟨_, -, heq⟩ := Option.map_eq_some_iff.mp h
    obtain ⟨rfl, -⟩ := Prod.mk.inj heq
    exact hplain rfl rfl
  · obtain ⟨s, -, rfl⟩ := exists_of_map_eq_some h
    exact hplain rfl rfl
  · obtain ⟨n, hread, rfl⟩ := exists_of_map_eq_some h
    refine ⟨Nat.zero_le depth, fun other hother => ?_⟩
    obtain rfl := List.mem_singleton.mp hother
    exact fits_of_number? hread

mutual

/-- A value that is read is no deeper than the reader may go, and its numbers
fit. -/
theorem within_of_value? : ∀ (fuel : Nat) {depth : Nat} {cs left : List Char} {v : Json},
    value? fuel depth cs = some (v, left) → Within depth v
  | 0, _, _, _, _, h => nomatch h
  | fuel + 1, depth, cs, left, v, h => by
    unfold value? at h
    split at h
    next rest _ =>
      split at h
      next => exact nomatch h
      next depth =>
        split at h
        next =>
          obtain ⟨rfl, -⟩ := Prod.mk.inj (Option.some.inj h)
          exact within_array fun _ hmem => absurd hmem List.not_mem_nil
        next =>
          obtain ⟨items, hitems, rfl⟩ := exists_of_map_eq_some h
          exact within_array (within_of_items? fuel hitems)
    next rest _ =>
      split at h
      next => exact nomatch h
      next depth =>
        split at h
        next =>
          obtain ⟨rfl, -⟩ := Prod.mk.inj (Option.some.inj h)
          exact within_object fun _ hmem => absurd hmem List.not_mem_nil
        next =>
          obtain ⟨members, hmembers, rfl⟩ := exists_of_map_eq_some h
          exact within_object (within_of_members? fuel hmembers)
    next => exact within_of_scalar? h

/-- Items lie within the levels that the array had left. -/
theorem within_of_items? : ∀ (fuel : Nat) {depth : Nat} {cs left : List Char} {items : List Json},
    items? fuel depth cs = some (items, left) → ∀ v ∈ items, Within depth v
  | 0, _, _, _, _, h => nomatch h
  | fuel + 1, depth, cs, left, items, h => by
    unfold items? at h
    split at h
    next => exact nomatch h
    next first rest hfirst =>
      have hv := within_of_value? fuel hfirst
      split at h
      next =>
        obtain ⟨others, hothers, rfl⟩ := exists_of_map_eq_some h
        exact List.forall_mem_cons.mpr ⟨hv, within_of_items? fuel hothers⟩
      next =>
        obtain ⟨rfl, -⟩ := Prod.mk.inj (Option.some.inj h)
        exact List.forall_mem_singleton.mpr hv
      next => exact nomatch h

theorem within_of_members? : ∀ (fuel : Nat) {depth : Nat} {cs left : List Char} {members : Members},
    members? fuel depth cs = some (members, left) → ∀ m ∈ members, Within depth m.2
  | 0, _, _, _, _, h => nomatch h
  | fuel + 1, depth, cs, left, members, h => by
    unfold members? at h
    split at h
    next => exact nomatch h
    next key rest hkey =>
      split at h
      next => exact nomatch h
      next first rest hfirst =>
        have hv := within_of_value? fuel hfirst
        split at h
        next =>
          obtain ⟨others, hothers, rfl⟩ := exists_of_map_eq_some h
          exact List.forall_mem_cons.mpr ⟨hv, within_of_members? fuel hothers⟩
        next =>
          obtain ⟨rfl, -⟩ := Prod.mk.inj (Option.some.inj h)
          exact List.forall_mem_singleton.mpr hv
        next => exact nomatch h

end

end Reader

end Json

end Graft
