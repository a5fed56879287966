import Graft.Json.Raw
import Graft.Proofs.Json.Keys
import Graft.Proofs.Reading

/-!
# Values without raw texts

A value in which no object begins with the key of raw texts (`Json.RawFree`)
stands for itself, but for repeated keys, of which the last value comes to stand
at the first place. What any other value stands for, if it stands for one, is
such a value again, with each key once. So resolving is done once and for all:
what has been resolved stands for itself, and a tree that has been read holds
nothing else.

Resolving takes what to make of a text as a parameter, and so do the lemmas
here: they go down the value, with one lemma each for values, items and members,
and ask of the reader of texts only what they are to show of values.

Main statements:
- `Json.resolve_of_rawFree`: without the key, only repeated keys are merged;
- `Json.resolve_of_isKeyed`: and if no key is repeated, nothing happens;
- `Json.resolveWith_object`: an object stands for the value of a text, or for an
  object with the same keys;
- `Json.settled_of_resolve`: what comes out begins no object with the key, and
  has no key twice.
-/

namespace Graft

mutual

/-- Whether no object in a value begins with the key of raw texts. -/
def Json.RawFree : Json → Prop
  | .array items => Json.AreRawFree items
  | .object members => Members.raw? members = none ∧ Members.AreRawFree members
  | _ => True

/-- Whether that holds of all values of a list. -/
def Json.AreRawFree : List Json → Prop
  | [] => True
  | v :: rest => v.RawFree ∧ Json.AreRawFree rest

/-- Whether that holds of the values of all members. -/
def Members.AreRawFree : List (String × Json) → Prop
  | [] => True
  | (_, v) :: rest => v.RawFree ∧ Members.AreRawFree rest

end

namespace Members

/-! ## Merged members -/

/-- Only the first key decides whether members hold a text. -/
theorem raw?_eq_none_iff {members : Members} :
    raw? members = none ↔ (members.map Prod.fst).head? ≠ some Json.rawKey := by
  cases members with
  | nil => simp [raw?]
  | cons m rest =>
    obtain ⟨key, v⟩ := m
    by_cases hkey : key = Json.rawKey <;> simp [raw?, hkey]

/-- An object holds a raw text exactly if its first key says so; the key has no
meaning further on. -/
theorem raw?_eq_some_iff {members : Members} {v : Json} :
    raw? members = some v ↔ ∃ rest, members = (Json.rawKey, v) :: rest := by
  cases members with
  | nil => simp [raw?]
  | cons m rest =>
    obtain ⟨key, w⟩ := m
    by_cases hkey : key = Json.rawKey <;> simp [raw?, hkey]

/-- Merging leaves the first key where it is. -/
theorem head?_keys_merge (members : Members) :
    ((merge members).map Prod.fst).head? = (members.map Prod.fst).head? := by
  have hset : ∀ (merged : Members) (key : String) (value : Json), merged ≠ [] →
      set merged key value ≠ [] ∧
        ((set merged key value).map Prod.fst).head? = (merged.map Prod.fst).head? := by
    intro merged key value hmerged
    obtain ⟨m, rest, rfl⟩ := List.exists_cons_of_ne_nil hmerged
    obtain ⟨k, v⟩ := m
    by_cases hk : k = key <;> simp [set, hk]
  -- along the insertions: once there is a first member, none comes before it
  have hfold : ∀ (rest merged : Members), merged ≠ [] →
      ((rest.foldl (fun merged m => set merged m.1 m.2) merged).map Prod.fst).head? =
        (merged.map Prod.fst).head? := by
    intro rest
    induction rest with
    | nil => intro merged _; rfl
    | cons m rest ih =>
      intro merged hmerged
      obtain ⟨hne, hhead⟩ := hset merged m.1 m.2 hmerged
      rw [List.foldl_cons, ih _ hne, hhead]
  cases members with
  | nil => rfl
  | cons m rest => exact hfold rest [m] (List.cons_ne_nil m [])

/-- A value of an object without raw keys has none. -/
theorem rawFree_of_mem {members : Members} (h : AreRawFree members) {m : String × Json}
    (hmem : m ∈ members) : m.2.RawFree := by
  induction members with
  | nil => exact absurd hmem List.not_mem_nil
  | cons first rest ih =>
    rcases List.mem_cons.mp hmem with rfl | hmem
    · exact h.1
    · exact ih h.2 hmem

/-- One insertion keeps values free of raw keys. -/
theorem areRawFree_set {members : Members} (h : AreRawFree members) (key : String) {value : Json}
    (hvalue : value.RawFree) : AreRawFree (set members key value) := by
  induction members with
  | nil => exact ⟨hvalue, trivial⟩
  | cons m rest ih =>
    obtain ⟨k, v⟩ := m
    obtain ⟨hv, hrest⟩ := h
    by_cases hk : k = key
    · rw [set, if_pos hk]
      exact ⟨hvalue, hrest⟩
    · rw [set, if_neg hk]
      exact ⟨hv, ih hrest⟩

theorem areRawFree_merge {members : Members} (h : AreRawFree members) :
    AreRawFree (merge members) :=
  merge_preserves AreRawFree trivial members
    fun _ hmerged m hmem => areRawFree_set hmerged m.1 (rawFree_of_mem h hmem)

end Members

namespace Json

theorem rawFree_of_mem_items {items : List Json} (h : AreRawFree items) {v : Json}
    (hmem : v ∈ items) : v.RawFree := by
  induction items with
  | nil => exact absurd hmem List.not_mem_nil
  | cons first rest ih =>
    rcases List.mem_cons.mp hmem with rfl | hmem
    · exact h.1
    · exact ih h.2 hmem

/-! ## Values without the key -/

section

variable (read : String → Option Json)

mutual

/-- Where no object begins with the key of raw texts, no text is read, and only
repeated keys are merged. -/
theorem resolveWith_of_rawFree : ∀ {v : Json}, v.RawFree → resolveWith read v = .ok v.mergeKeys
  | .array items, h => by
    rw [resolveWith, resolveItemsWith_of_rawFree h]
    rfl
  | .object members, h => by
    rw [resolveWith, h.1]
    dsimp only
    rw [resolveMembersWith_of_rawFree h.2]
    rfl
  | .null, _ => rfl
  | .bool _, _ => rfl
  | .number _, _ => rfl
  | .string _, _ => rfl

/-- The items of an array are resolved one by one. -/
theorem resolveItemsWith_of_rawFree : ∀ {items : List Json}, AreRawFree items →
    resolveItemsWith read items = .ok (mergeItems items)
  | [], _ => rfl
  | v :: rest, h => by
    rw [resolveItemsWith, resolveWith_of_rawFree h.1, resolveItemsWith_of_rawFree h.2]
    rfl

theorem resolveMembersWith_of_rawFree : ∀ {members : List (String × Json)},
    Members.AreRawFree members → resolveMembersWith read members = .ok (mergeMembers members)
  | [], _ => rfl
  | (key, v) :: rest, h => by
    rw [resolveMembersWith, resolveWith_of_rawFree h.1, resolveMembersWith_of_rawFree h.2]
    rfl

end

end

theorem resolve_of_rawFree {v : Json} (h : v.RawFree) : v.resolve = .ok v.mergeKeys :=
  resolveWith_of_rawFree readRaw h

theorem resolveMembers_of_rawFree {members : Members} (h : Members.AreRawFree members) :
    resolveMembers members = .ok (mergeMembers members) :=
  resolveMembersWith_of_rawFree readRaw h

/-- A value with unique keys and without the key of raw texts stands for itself. -/
theorem resolve_of_isKeyed {v : Json} (hkeyed : v.IsKeyed) (hfree : v.RawFree) :
    v.resolve = .ok v := by
  rw [resolve_of_rawFree hfree, mergeKeys_of_isKeyed hkeyed]

/-! ## Values that have been resolved -/

/-- An object stands for what it holds if this is a text alone, and one that can
be read. -/
theorem ofRaw_eq_ok_iff {read : String → Option Json} {count : Nat} {v w : Json} :
    ofRaw read count v = .ok w ↔ ∃ text, v = .string text ∧ read text = some w ∧ count = 1 := by
  cases v with
  | string text =>
    simp only [ofRaw, string.injEq, exists_eq_left']
    cases hread : read text with
    | none => simp
    | some found => by_cases hcount : count = 1 <;> simp [hcount]
  | _ => simp [ofRaw]

section

variable {read : String → Option Json}

/-- Members keep their keys. -/
theorem keys_of_resolveMembersWith : ∀ {members resolved : Members},
    resolveMembersWith read members = .ok resolved → resolved.map Prod.fst = members.map Prod.fst
  | [], _, h => by
    obtain rfl := Except.ok.inj h
    rfl
  | (key, v) :: rest, _, h => by
    rw [resolveMembersWith] at h
    obtain ⟨w, -, h⟩ := bind_eq_ok h
    obtain ⟨others, hothers, rfl⟩ := map_eq_ok h
    rw [List.map_cons, List.map_cons, keys_of_resolveMembersWith hothers]

/-- An object stands for the value of a text, or for an object with the same
keys, merged. -/
theorem resolveWith_object {members : Members} {w : Json} :
    resolveWith read (.object members) = .ok w ↔
      (∃ text, members = [(rawKey, .string text)] ∧ read text = some w) ∨
      (Members.raw? members = none ∧ ∃ resolved, resolveMembersWith read members = .ok resolved ∧
        w = .object (Members.merge resolved)) := by
  rw [resolveWith]
  -- an object with the key is replaced by the value of its text; any other is resolved member by
  -- member
  cases hraw : Members.raw? members with
  | some v =>
    obtain ⟨rest, rfl⟩ := Members.raw?_eq_some_iff.mp hraw
    dsimp only
    rw [ofRaw_eq_ok_iff]
    constructor
    · rintro ⟨text, rfl, hread, hcount⟩
      obtain rfl : rest = [] := List.eq_nil_of_length_eq_zero (Nat.succ.inj hcount)
      exact .inl ⟨text, rfl, hread⟩
    · rintro (⟨text, hmembers, hread⟩ | ⟨hnone, -⟩)
      · obtain ⟨hfirst, rfl⟩ := List.cons.inj hmembers
        obtain ⟨-, rfl⟩ := Prod.mk.inj hfirst
        exact ⟨text, rfl, hread, rfl⟩
      · cases hnone
  | none =>
    have hnot : ¬ ∃ text, members = [(rawKey, .string text)] ∧ read text = some w := by
      rintro ⟨text, rfl, -⟩
      rw [Members.raw?, if_pos rfl] at hraw
      cases hraw
    dsimp only
    rw [map_eq_ok_iff, or_iff_right hnot]
    constructor
    · rintro ⟨resolved, hresolved, rfl⟩
      exact ⟨rfl, resolved, hresolved, rfl⟩
    · rintro ⟨-, resolved, hresolved, rfl⟩
      exact ⟨resolved, hresolved, rfl⟩

mutual

/-- What has been resolved has each key once and begins no object with the key
of raw texts, if the values of texts are such. -/
theorem settled_of_resolveWith (hread : ∀ text w, read text = some w → w.IsKeyed ∧ w.RawFree) :
    ∀ {v w : Json}, resolveWith read v = .ok w → w.IsKeyed ∧ w.RawFree
  | .array _, _, h => by
    rw [resolveWith] at h
    obtain ⟨items, hitems, rfl⟩ := map_eq_ok h
    exact settled_of_resolveItemsWith hread hitems
  | .object members, w, h => by
    rcases resolveWith_object.mp h with ⟨text, -, htext⟩ | ⟨hraw, resolved, hresolved, rfl⟩
    · exact hread text w htext
    · obtain ⟨hkeyed, hfree⟩ := settled_of_resolveMembersWith hread hresolved
      have hfirst : Members.raw? (Members.merge resolved) = none := by
        rw [Members.raw?_eq_none_iff, Members.head?_keys_merge,
          keys_of_resolveMembersWith hresolved]
        exact Members.raw?_eq_none_iff.mp hraw
      exact ⟨⟨Members.nodup_merge resolved, Members.areKeyed_merge hkeyed⟩,
        hfirst, Members.areRawFree_merge hfree⟩
  | .null, _, h | .bool _, _, h | .number _, _, h | .string _, _, h => by
    obtain rfl := Except.ok.inj h
    exact ⟨trivial, trivial⟩

theorem settled_of_resolveItemsWith
    (hread : ∀ text w, read text = some w → w.IsKeyed ∧ w.RawFree) :
    ∀ {items resolved : List Json}, resolveItemsWith read items = .ok resolved →
      AreKeyed resolved ∧ AreRawFree resolved
  | [], _, h => by
    obtain rfl := Except.ok.inj h
    exact ⟨trivial, trivial⟩
  | v :: rest, _, h => by
    rw [resolveItemsWith] at h
    obtain ⟨w, hw, h⟩ := bind_eq_ok h
    obtain ⟨others, hothers, rfl⟩ := map_eq_ok h
    obtain ⟨hkeyed, hfree⟩ := settled_of_resolveWith hread hw
    obtain ⟨hkeyeds, hfrees⟩ := settled_of_resolveItemsWith hread hothers
    exact ⟨⟨hkeyed, hkeyeds⟩, hfree, hfrees⟩

theorem settled_of_resolveMembersWith
    (hread : ∀ text w, read text = some w → w.IsKeyed ∧ w.RawFree) :
    ∀ {members resolved : List (String × Json)}, resolveMembersWith read members = .ok resolved →
      Members.AreKeyed resolved ∧ Members.AreRawFree resolved
  | [], _, h => by
    obtain rfl := Except.ok.inj h
    exact ⟨trivial, trivial⟩
  | (key, v) :: rest, _, h => by
    rw [resolveMembersWith] at h
    obtain ⟨w, hw, h⟩ := bind_eq_ok h
    obtain ⟨others, hothers, rfl⟩ := map_eq_ok h
    obtain ⟨hkeyed, hfree⟩ := settled_of_resolveWith hread hw
    obtain ⟨hkeyeds, hfrees⟩ := settled_of_resolveMembersWith hread hothers
    exact ⟨⟨hkeyed, hkeyeds⟩, hfree, hfrees⟩

end

end

/-- What a text stands for has each key once, and no object of it begins with
the key of raw texts. -/
theorem settled_of_readRawWith {fuel : Nat} {text : String} {w : Json}
    (h : readRawWith fuel text = some w) : w.IsKeyed ∧ w.RawFree := by
  induction fuel generalizing text w with
  | zero => cases h
  | succ fuel ih =>
    obtain ⟨v, -, hw⟩ := Option.bind_eq_some_iff.mp h
    exact settled_of_resolveWith (fun _ _ => ih) (toOption_eq_some_iff.mp hw)

/-- What a value stands for has each key once, and no object of it begins with
the key of raw texts. -/
theorem settled_of_resolve {v w : Json} (h : v.resolve = .ok w) : w.IsKeyed ∧ w.RawFree :=
  settled_of_resolveWith (fun _ _ => settled_of_readRawWith) h

/-- The same of the members of a node, which are resolved without the object
around them. -/
theorem settled_of_resolveMembers {members resolved : Members}
    (h : resolveMembers members = .ok resolved) :
    Members.AreKeyed resolved ∧ Members.AreRawFree resolved :=
  settled_of_resolveMembersWith (fun _ _ => settled_of_readRawWith) h

end Json

end Graft
