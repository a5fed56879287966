import Graft.Proofs.Json.Keys
import Mathlib.Data.List.Nodup
import Mathlib.Data.List.Perm.Subperm

/-!
# Canonical values

Values that differ only in the order of members and in the sign of zeros have
one canonical form: the members of every object sorted by their keys, and every
zero without a sign. If no object has a key twice, equality up to these
differences is equality of the canonical forms.

That equality is the one that trees and their data are compared with
(`Json.same`, as maps are compared that keep the order of insertion). It is
computed by looking every member of one object up in the other, and it is not
obvious from this that it is symmetric or transitive, or that it may be replaced
by an equation. The canonical form settles all of it at once: `Json.same` is the
kernel of a function.

The step that needs an argument is the one for objects. Equal numbers of
members, each with an equal among the others, makes a subset into a permutation,
because the keys are unique (`Members.canonical_eq_iff`); and members that are
permutations of each other are sorted to one list, as no two keys are equal
(`Members.sorted_eq_iff`). The rest is recursion over values, items and members
together.

Main statements:
- `Members.sorted_eq_iff`: members with unique keys are sorted to the same if
  they are the same in some order;
- `Members.canonical_eq_iff`: so are their canonical forms, if each has an equal
  among the others;
- `Json.same_iff`: values with unique keys are equal up to order and sign if
  their canonical forms are equal.
-/

namespace Graft

open Decimal (Binary64)

/-! ## Definitions -/

/-- A double without the sign of zero. -/
def Decimal.Binary64.canonical (x : Binary64) : Binary64 :=
  if x.magnitude = 0 then Binary64.zero false else x

/-- A number without the sign of zero. -/
def Number.canonical : Number → Number
  | .whole n => .whole n
  | .real x => .real x.canonical

/-- Members sorted by their keys. -/
def Members.sorted (members : Members) : Members := members.mergeSort fun m n => m.1 ≤ n.1

namespace Json

mutual

/-- A value with the members of every object sorted by their keys, and no sign
of zero. -/
def canonical : Json → Json
  | .null => .null
  | .bool b => .bool b
  | .number n => .number n.canonical
  | .string s => .string s
  | .array items => .array (canonicalItems items)
  | .object members => .object (Members.sorted (canonicalMembers members))

/-- The canonical forms of a list of values. -/
def canonicalItems : List Json → List Json
  | [] => []
  | v :: rest => v.canonical :: canonicalItems rest

/-- Members with the canonical forms of their values, in the order they are in. -/
def canonicalMembers : List (String × Json) → List (String × Json)
  | [] => []
  | (key, v) :: rest => (key, v.canonical) :: canonicalMembers rest

end

end Json

/-- Members in canonical form: sorted by their keys, with values in canonical
form. -/
def Members.canonical (members : Members) : Members :=
    Members.sorted (Json.canonicalMembers members)

/-! ## Numbers -/

/-- Two doubles are the same if they are equal or both zero. The canonical form
drops the sign of a zero and nothing else. -/
theorem Decimal.Binary64.same_iff (x y : Binary64) :
    x.same y = true ↔ x.canonical = y.canonical := by
  unfold Binary64.same Binary64.canonical
  rw [Bool.or_eq_true, Bool.and_eq_true, decide_eq_true_iff, decide_eq_true_iff, decide_eq_true_iff]
  by_cases hx : x.magnitude = 0
  · by_cases hy : y.magnitude = 0
    · rw [if_pos hx, if_pos hy]
      exact ⟨fun _ => rfl, fun _ => .inl ⟨hx, hy⟩⟩
    · rw [if_pos hx, if_neg hy]
      constructor
      · rintro (⟨-, hzero⟩ | rfl)
        · exact absurd hzero hy
        · exact absurd hx hy
      · rintro rfl
        exact absurd rfl hy
  · rw [if_neg hx]
    by_cases hy : y.magnitude = 0
    · rw [if_pos hy]
      constructor
      · rintro (⟨hzero, -⟩ | rfl)
        · exact absurd hzero hx
        · exact absurd hy hx
      · rintro rfl
        exact absurd rfl hx
    · rw [if_neg hy]
      exact ⟨fun h => h.elim (fun hzero => absurd hzero.1 hx) id, .inr⟩

/-- A whole number is never the same as a double, whatever its value. -/
theorem Number.same_iff (m n : Number) : m.same n = true ↔ m.canonical = n.canonical := by
  cases m with
  | whole a =>
    cases n with
    | whole b =>
      show decide (a = b) = true ↔ Number.whole a = Number.whole b
      rw [decide_eq_true_iff, Number.whole.injEq]
    | real y => exact ⟨fun h => absurd h Bool.false_ne_true, fun h => Number.noConfusion h⟩
  | real x =>
    cases n with
    | whole b => exact ⟨fun h => absurd h Bool.false_ne_true, fun h => Number.noConfusion h⟩
    | real y =>
      show x.same y = true ↔ Number.real x.canonical = Number.real y.canonical
      rw [Binary64.same_iff, Number.real.injEq]

/-! ## Members -/

namespace Members

/-- What is found under a key is one of the members. -/
theorem mem_of_get? {members : Members} {key : String} {value : Json}
    (h : get? members key = some value) : (key, value) ∈ members := by
  induction members with
  | nil => exact nomatch h
  | cons m rest ih =>
    obtain ⟨k, v⟩ := m
    rw [get?] at h
    split at h
    next heq =>
      obtain rfl := Option.some.inj h
      exact heq ▸ List.mem_cons_self
    next => exact List.mem_cons_of_mem _ (ih h)

/-- With unique keys every member is the one that is found under its key. -/
theorem get?_of_mem {members : Members} (hkeys : (members.map Prod.fst).Nodup) {key : String}
    {value : Json} (h : (key, value) ∈ members) : get? members key = some value := by
  induction members with
  | nil => exact absurd h List.not_mem_nil
  | cons m rest ih =>
    obtain ⟨k, v⟩ := m
    rw [List.map_cons, List.nodup_cons] at hkeys
    rw [get?]
    rcases List.mem_cons.mp h with heq | h
    · obtain ⟨rfl, rfl⟩ := Prod.mk.inj heq
      exact if_pos rfl
    · rw [if_neg]
      · exact ih hkeys.2 h
      · rintro rfl
        exact hkeys.1 (List.mem_map.mpr ⟨_, h, rfl⟩)

theorem sorted_perm (members : Members) : (sorted members).Perm members :=
  List.mergeSort_perm members _

/-- Sorted members stand in the order of their keys. -/
theorem sorted_pairwise (members : Members) :
    (sorted members).Pairwise fun m n => m.1 ≤ n.1 := by
  -- sorting needs the order as a test that is transitive and total
  have hpairwise : (sorted members).Pairwise fun m n => decide (m.1 ≤ n.1) = true := by
    refine List.pairwise_mergeSort ?_ ?_ members
    · intro a b c hab hbc
      rw [decide_eq_true_iff] at hab hbc ⊢
      exact String.le_trans hab hbc
    · intro a b
      rw [Bool.or_eq_true, decide_eq_true_iff, decide_eq_true_iff]
      exact String.le_total a.1 b.1
  exact hpairwise.imp of_decide_eq_true

/-- Members with unique keys are sorted to the same if they are the same in some
order. -/
theorem sorted_eq_iff {members others : Members} (hkeys : (members.map Prod.fst).Nodup) :
    sorted members = sorted others ↔ members.Perm others := by
  constructor
  · intro h
    exact (sorted_perm members).symm.trans (h ▸ sorted_perm others)
  · intro h
    have hperm : (sorted members).Perm (sorted others) :=
      (sorted_perm members).trans (h.trans (sorted_perm others).symm)
    refine List.Perm.eq_of_pairwise ?_ (sorted_pairwise members) (sorted_pairwise others) hperm
    intro a b ha hb hab hba
    have ha : a ∈ members := (sorted_perm members).mem_iff.mp ha
    have hb : b ∈ members := h.mem_iff.mpr ((sorted_perm others).mem_iff.mp hb)
    exact List.inj_on_of_nodup_map hkeys ha hb (String.le_antisymm hab hba)

end Members

namespace Json

/-- The canonical form of members before they are sorted, as a map over them. -/
theorem canonicalMembers_eq_map (members : Members) :
    canonicalMembers members = members.map fun m => (m.1, m.2.canonical) := by
  induction members with
  | nil => rfl
  | cons m rest ih =>
    obtain ⟨key, v⟩ := m
    rw [canonicalMembers, ih]
    rfl

theorem keys_canonicalMembers (members : Members) :
    (canonicalMembers members).map Prod.fst = members.map Prod.fst := by
  rw [canonicalMembers_eq_map, List.map_map]
  rfl

end Json

/-- As many members, each with an equal among the others, are the others in some
order. -/
theorem Members.canonical_eq_iff {members others : Members}
    (hmembers : (members.map Prod.fst).Nodup) (hothers : (others.map Prod.fst).Nodup) :
    members.canonical = others.canonical ↔ members.length = others.length ∧
      ∀ m ∈ members, ∃ w, get? others m.1 = some w ∧ m.2.canonical = w.canonical := by
  have hkeys : ((Json.canonicalMembers members).map Prod.fst).Nodup :=
    (Json.keys_canonicalMembers members).symm ▸ hmembers
  rw [canonical, canonical, sorted_eq_iff hkeys, Json.canonicalMembers_eq_map,
    Json.canonicalMembers_eq_map]
  -- left to right: a permutation has as many members, and each is found under its key
  constructor
  · intro hperm
    refine ⟨?_, fun m hm => ?_⟩
    · have hlength := hperm.length_eq
      rwa [List.length_map, List.length_map] at hlength
    · have hmem := hperm.mem_iff.mp (List.mem_map.mpr ⟨m, hm, rfl⟩)
      obtain ⟨n, hn, heq⟩ := List.mem_map.mp hmem
      obtain ⟨hkey, hvalue⟩ := Prod.mk.inj heq
      exact ⟨n.2, get?_of_mem hothers (hkey ▸ hn), hvalue.symm⟩
  · rintro ⟨hlength, hagree⟩
    rw [Json.canonicalMembers_eq_map] at hkeys
    refine (List.subperm_of_subset (List.Nodup.of_map _ hkeys) ?_).perm_of_length_le ?_
    · intro m hm
      obtain ⟨n, hn, rfl⟩ := List.mem_map.mp hm
      obtain ⟨w, hw, hvalue⟩ := hagree n hn
      exact List.mem_map.mpr ⟨(n.1, w), mem_of_get? hw, by rw [hvalue]⟩
    · exact Nat.le_of_eq (by rw [List.length_map, List.length_map, hlength])

namespace Json

/-! ## Values -/

mutual

/-- Values with unique keys are equal up to the order of members and the sign of
zero if their canonical forms are equal. -/
theorem same_iff : ∀ {v w : Json}, v.IsKeyed → w.IsKeyed →
    (v.same w = true ↔ v.canonical = w.canonical)
  | .null, w, _, _ => by
    cases w with
    | null => exact ⟨fun _ => rfl, fun _ => rfl⟩
    | _ => exact ⟨fun h => absurd h Bool.false_ne_true, fun h => Json.noConfusion h⟩
  | .bool a, w, _, _ => by
    cases w with
    | bool b =>
      show decide (a = b) = true ↔ Json.bool a = Json.bool b
      rw [decide_eq_true_iff, Json.bool.injEq]
    | _ => exact ⟨fun h => absurd h Bool.false_ne_true, fun h => Json.noConfusion h⟩
  | .number m, w, _, _ => by
    cases w with
    | number n =>
      show m.same n = true ↔ Json.number m.canonical = Json.number n.canonical
      rw [Number.same_iff, Json.number.injEq]
    | _ => exact ⟨fun h => absurd h Bool.false_ne_true, fun h => Json.noConfusion h⟩
  | .string s, w, _, _ => by
    cases w with
    | string t =>
      show decide (s = t) = true ↔ Json.string s = Json.string t
      rw [decide_eq_true_iff, Json.string.injEq]
    | _ => exact ⟨fun h => absurd h Bool.false_ne_true, fun h => Json.noConfusion h⟩
  | .array items, w, hv, hw => by
    cases w with
    | array others =>
      rw [same, sameItems_iff hv hw, canonical, canonical, Json.array.injEq]
    | _ => exact ⟨fun h => absurd h Bool.false_ne_true, fun h => Json.noConfusion h⟩
  | .object members, w, hv, hw => by
    cases w with
    | object others =>
      rw [same, Bool.and_eq_true, decide_eq_true_iff, sameMembers_iff hv.2 hw.2, canonical,
        canonical, Json.object.injEq]
      exact (Members.canonical_eq_iff hv.1 hw.1).symm
    | _ => exact ⟨fun h => absurd h Bool.false_ne_true, fun h => Json.noConfusion h⟩

/-- Items are compared in order, each with its counterpart. -/
theorem sameItems_iff : ∀ {items others : List Json}, AreKeyed items → AreKeyed others →
    (sameItems items others = true ↔ canonicalItems items = canonicalItems others)
  | [], [], _, _ => ⟨fun _ => rfl, fun _ => rfl⟩
  | [], w :: others, _, _ =>
    ⟨fun h => absurd h Bool.false_ne_true, fun h => absurd h.symm (List.cons_ne_nil _ _)⟩
  | v :: items, [], _, _ =>
    ⟨fun h => absurd h Bool.false_ne_true, fun h => absurd h (List.cons_ne_nil _ _)⟩
  | v :: items, w :: others, hv, hw => by
    rw [sameItems, Bool.and_eq_true, same_iff hv.1 hw.1, sameItems_iff hv.2 hw.2, canonicalItems,
      canonicalItems, List.cons.injEq]

/-- Members are looked up by their keys, and what is found is compared. -/
theorem sameMembers_iff : ∀ {members others : List (String × Json)}, Members.AreKeyed members →
    Members.AreKeyed others → (sameMembers members others = true ↔
      ∀ m ∈ members, ∃ w, Members.get? others m.1 = some w ∧ m.2.canonical = w.canonical)
  | [], others, _, _ => ⟨fun _ m hm => absurd hm List.not_mem_nil, fun _ => rfl⟩
  | (key, v) :: members, others, hv, hw => by
    rw [sameMembers, Bool.and_eq_true, sameMembers_iff hv.2 hw, List.forall_mem_cons]
    refine and_congr ?_ Iff.rfl
    cases hget : Members.get? others key with
    | none => exact ⟨fun h => absurd h Bool.false_ne_true, fun ⟨w, h, _⟩ => nomatch h⟩
    | some w =>
      have hkeyed : w.IsKeyed := Members.isKeyed_of_mem hw (Members.mem_of_get? hget)
      refine (same_iff hv.1 hkeyed).trans ⟨fun h => ⟨w, rfl, h⟩, ?_⟩
      rintro ⟨w', hw', h⟩
      exact Option.some.inj hw' ▸ h

end

end Json

end Graft
