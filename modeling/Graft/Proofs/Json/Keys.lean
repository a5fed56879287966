import Graft.Json.Basic

/-!
# Objects with unique keys

An object as a reader makes it has each key once: of members with one key, the
last value stands at the first place (`Members.merge`, the way a map that keeps
the order of insertion takes repeated keys). Values all of whose objects are
like that are left alone when repeated keys are merged, and merging gives no
others.

`Json.IsKeyed` says it of a value at every depth, and is defined by recursion on
values so that it may be opened together with `mergeKeys`. The members are
handled first, for one insertion (`set`) and then for all of them (`merge`, a
fold); values follow by recursion over the three kinds of trees (values, items,
members).

What is written of a tree and read again is compared only up to this merging,
and for trees that have been read it makes no difference. That is why the round
trip of trees asks for `IsKeyed` data where it starts from a tree that nobody
has read.

Main statements:
- `Members.nodup_merge`, `Members.merge_of_nodup`: merged members have unique
  keys, and members with unique keys are merged already;
- `Json.isKeyed_mergeKeys`, `Json.mergeKeys_of_isKeyed`: the same for values.
-/

namespace Graft

mutual

/-- Whether every object in a value has each key once. -/
def Json.IsKeyed : Json → Prop
  | .array items => Json.AreKeyed items
  | .object members => (members.map Prod.fst).Nodup ∧ Members.AreKeyed members
  | _ => True

/-- Whether that holds of all values of a list. -/
def Json.AreKeyed : List Json → Prop
  | [] => True
  | v :: rest => v.IsKeyed ∧ Json.AreKeyed rest

/-- Whether that holds of the values of all members. -/
def Members.AreKeyed : List (String × Json) → Prop
  | [] => True
  | (_, v) :: rest => v.IsKeyed ∧ Members.AreKeyed rest

end

namespace Members

/-- The keys after an insertion: a known key keeps its place, a new one comes
last. -/
theorem keys_set (members : Members) (key : String) (value : Json) :
    (set members key value).map Prod.fst =
      if key ∈ members.map Prod.fst then members.map Prod.fst
      else members.map Prod.fst ++ [key] := by
  induction members with
  | nil => simp [set]
  | cons m rest ih =>
    obtain ⟨k, v⟩ := m
    -- the key stands here, further on, or nowhere
    by_cases hk : k = key
    · simp [set, hk]
    · by_cases hmem : key ∈ rest.map Prod.fst
      · rw [if_pos hmem] at ih
        simp only [set, if_neg hk, List.map_cons, ih]
        rw [if_pos (List.mem_cons_of_mem _ hmem)]
      · rw [if_neg hmem] at ih
        simp only [set, if_neg hk, List.map_cons, ih]
        rw [if_neg (List.not_mem_cons_of_ne_of_not_mem (Ne.symm hk) hmem)]
        rfl

/-- One insertion keeps keys unique. -/
theorem nodup_set {members : Members} (h : (members.map Prod.fst).Nodup) (key : String)
    (value : Json) : ((set members key value).map Prod.fst).Nodup := by
  rw [keys_set]
  split
  next => exact h
  next hnot =>
    refine List.nodup_append.mpr ⟨h, List.pairwise_singleton _ _, ?_⟩
    intro a ha b hb heq
    obtain rfl := List.mem_singleton.mp hb
    exact hnot (heq ▸ ha)

/-- One insertion keeps the values keyed, given that the new one is. -/
theorem areKeyed_set {members : Members} (h : AreKeyed members) (key : String) {value : Json}
    (hvalue : value.IsKeyed) : AreKeyed (set members key value) := by
  induction members with
  | nil => exact ⟨hvalue, trivial⟩
  | cons m rest ih =>
    obtain ⟨k, v⟩ := m
    obtain ⟨hv, hrest⟩ := h
    by_cases hk : k = key
    · rw [set, if_pos hk]
      exact ⟨hvalue, hrest⟩
    · rw [set, if_neg hk]
      exact ⟨hv, ih hrest⟩

/-- A key that is new is put at the end. -/
theorem set_of_not_mem {members : Members} {key : String} (h : key ∉ members.map Prod.fst)
    (value : Json) : set members key value = members ++ [(key, value)] := by
  induction members with
  | nil => rfl
  | cons m rest ih =>
    obtain ⟨k, v⟩ := m
    rw [List.map_cons, List.mem_cons, not_or] at h
    rw [set, if_neg (Ne.symm h.1), ih h.2]
    rfl

/-- What setting each of some members keeps true is true of them merged. -/
theorem merge_preserves (holds : Members → Prop) (hnil : holds []) (members : Members)
    (hset : ∀ merged, holds merged → ∀ m ∈ members, holds (set merged m.1 m.2)) :
    holds (merge members) := by
  have hfold : ∀ (rest merged : Members), (∀ m ∈ rest, m ∈ members) → holds merged →
      holds (rest.foldl (fun merged m => set merged m.1 m.2) merged) := by
    intro rest
    induction rest with
    | nil => intro merged _ hmerged; exact hmerged
    | cons m rest ih =>
      intro merged hmem hmerged
      exact ih _ (fun other hother => hmem other (List.mem_cons_of_mem m hother))
        (hset merged hmerged m (hmem m List.mem_cons_self))
  exact hfold members [] (fun _ hmem => hmem) hnil

/-- Merged members have unique keys. -/
theorem nodup_merge (members : Members) : ((merge members).map Prod.fst).Nodup :=
  merge_preserves (fun merged => (merged.map Prod.fst).Nodup) List.nodup_nil members
    fun _ h m _ => nodup_set h m.1 m.2

theorem isKeyed_of_mem {members : Members} (h : AreKeyed members) {m : String × Json}
    (hmem : m ∈ members) : m.2.IsKeyed := by
  induction members with
  | nil => exact absurd hmem List.not_mem_nil
  | cons first rest ih =>
    rcases List.mem_cons.mp hmem with rfl | hmem
    · exact h.1
    · exact ih h.2 hmem

theorem areKeyed_merge {members : Members} (h : AreKeyed members) : AreKeyed (merge members) :=
  merge_preserves AreKeyed trivial members
    fun _ hmerged m hmem => areKeyed_set hmerged m.1 (isKeyed_of_mem h hmem)

/-- Members with unique keys are merged already. -/
theorem merge_of_nodup {members : Members} (h : (members.map Prod.fst).Nodup) :
    merge members = members := by
  -- those that have been merged stay in front of those that follow
  have hfold : ∀ (rest merged : Members), ((merged ++ rest).map Prod.fst).Nodup →
      rest.foldl (fun merged m => set merged m.1 m.2) merged = merged ++ rest := by
    intro rest
    induction rest with
    | nil => intro merged _; exact (List.append_nil merged).symm
    | cons m rest ih =>
      intro merged hnodup
      have hnot : m.1 ∉ merged.map Prod.fst := by
        intro hmem
        rw [List.map_append, List.nodup_append] at hnodup
        exact hnodup.2.2 m.1 hmem m.1 List.mem_cons_self rfl
      have happend : merged ++ m :: rest = merged ++ [m] ++ rest := List.append_cons merged m rest
      rw [List.foldl_cons, set_of_not_mem hnot, happend]
      exact ih _ (happend ▸ hnodup)
  exact hfold members [] h

end Members

namespace Json

mutual

/-- Merging gives values with unique keys. -/
theorem isKeyed_mergeKeys : ∀ v : Json, v.mergeKeys.IsKeyed
  | .array items => areKeyed_mergeItems items
  | .object members =>
    ⟨Members.nodup_merge _, Members.areKeyed_merge (areKeyed_mergeMembers members)⟩
  | .null => trivial
  | .bool _ => trivial
  | .number _ => trivial
  | .string _ => trivial

/-- The items of an array are merged one by one. -/
theorem areKeyed_mergeItems : ∀ items : List Json, AreKeyed (mergeItems items)
  | [] => trivial
  | v :: rest => ⟨isKeyed_mergeKeys v, areKeyed_mergeItems rest⟩

theorem areKeyed_mergeMembers : ∀ members : List (String × Json),
    Members.AreKeyed (mergeMembers members)
  | [] => trivial
  | (_, v) :: rest => ⟨isKeyed_mergeKeys v, areKeyed_mergeMembers rest⟩

end

mutual

/-- In a value with unique keys nothing is left to merge. -/
theorem mergeKeys_of_isKeyed : ∀ {v : Json}, v.IsKeyed → v.mergeKeys = v
  | .array items, h => congrArg Json.array (mergeItems_of_areKeyed h)
  | .object members, h => by
    rw [mergeKeys, mergeMembers_of_areKeyed h.2, Members.merge_of_nodup h.1]
  | .null, _ => rfl
  | .bool _, _ => rfl
  | .number _, _ => rfl
  | .string _, _ => rfl

/-- Items that are keyed are left as they are. -/
theorem mergeItems_of_areKeyed : ∀ {items : List Json}, AreKeyed items → mergeItems items = items
  | [], _ => rfl
  | v :: rest, h => by
    rw [mergeItems, mergeKeys_of_isKeyed h.1, mergeItems_of_areKeyed h.2]

theorem mergeMembers_of_areKeyed : ∀ {members : List (String × Json)},
    Members.AreKeyed members → mergeMembers members = members
  | [], _ => rfl
  | (k, v) :: rest, h => by
    rw [mergeMembers, mergeKeys_of_isKeyed h.1, mergeMembers_of_areKeyed h.2]

end

end Json

end Graft
