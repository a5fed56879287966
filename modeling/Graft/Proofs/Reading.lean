import Mathlib.Data.List.Forall2

/-!
# Readings that may fail

What is read, is read in `Except`: a reading gives what it has read or the fault
it has met. Readings are put together in three ways. Something is done with what
has been read (`Except.map`), one reading is followed by another
(`Except.bind`), and the items of a list are read from the first to the last
(`readAll`). A fault ends all of it: what comes behind the first fault is never
looked at, and no fault behind it is reported.

For each of the three ways there is one lemma on success and one on faults, both
as equivalences, so that a reader built from them can be taken apart from either
side.

The readers of trees, of rules and of settings are all built in this way, so
their proofs have one shape. On success the `bind`s are peeled off from the
outside with `bind_eq_ok_iff`, which leaves one reading for each part. On faults
the place matters: a list is refused for its first item that is not accepted,
and `readAll_eq_error_iff` says so with the list taken apart around this item.
The index of an item goes along with it because faults name the place at which
they were met.

Main statements:
- `map_eq_ok_iff`, `bind_eq_ok_iff`, `map_eq_error_iff`,
  `bind_map_eq_error_iff`: readings one after the other;
- `readAll_eq_ok_iff`: a list is read exactly if all its items are;
- `readAll_eq_error_iff`: the fault of a list is that of its first item that is
  not accepted;
- `mapM_eq_readAll`: reading a list with the same reader for all items.
-/

namespace Graft

/-! ## One reading after the other -/

section

variable {ε α β γ : Type}

theorem error_ne_ok {e : ε} {a : α} : Except.error e ≠ .ok a := fun h => nomatch h

theorem map_eq_ok {f : α → β} {read : Except ε α} {b : β}
    (h : read.map f = .ok b) : ∃ a, read = .ok a ∧ f a = b := by
  cases read with
  | error e => exact absurd h error_ne_ok
  | ok a => exact ⟨a, rfl, Except.ok.inj h⟩

theorem bind_eq_ok {read : Except ε α} {next : α → Except ε β} {b : β}
    (h : read.bind next = .ok b) : ∃ a, read = .ok a ∧ next a = .ok b := by
  cases read with
  | error e => exact absurd h error_ne_ok
  | ok a => exact ⟨a, rfl, h⟩

/-- Two readings succeed together exactly if the first does and then the second
does on what it gave. -/
theorem bind_eq_ok_iff {read : Except ε α} {next : α → Except ε β} {b : β} :
    read.bind next = .ok b ↔ ∃ a, read = .ok a ∧ next a = .ok b :=
  ⟨bind_eq_ok, fun ⟨_, hread, hnext⟩ => hread ▸ hnext⟩

/-- A reading whose outcome is worked on succeeds exactly if the reading does. -/
theorem map_eq_ok_iff {f : α → β} {read : Except ε α} {b : β} :
    read.map f = .ok b ↔ ∃ a, read = .ok a ∧ f a = b :=
  ⟨map_eq_ok, fun ⟨_, hread, ha⟩ => hread ▸ ha ▸ rfl⟩

/-- Where the fault is dropped, what is left is what has been read. -/
theorem toOption_eq_some_iff {read : Except ε α} {a : α} :
    read.toOption = some a ↔ read = .ok a := by
  cases read with
  | error e => exact iff_of_false (fun h => by cases h) error_ne_ok
  | ok b => exact ⟨fun h => congrArg Except.ok (Option.some.inj h), fun h => h ▸ rfl⟩

theorem exists_map_iff {f : α → β} {read : Except ε α} :
    (∃ b, read.map f = .ok b) ↔ ∃ a, read = .ok a := by
  cases read with
  | error fault => exact iff_of_false (fun ⟨_, h⟩ => error_ne_ok h) fun ⟨_, h⟩ => error_ne_ok h
  | ok a => exact iff_of_true ⟨f a, rfl⟩ ⟨a, rfl⟩

/-- Telling a fault in other words changes nothing where there is none. -/
theorem mapError_eq_ok_iff {δ : Type} {f : ε → δ} {read : Except ε α} {a : α} :
    read.mapError f = .ok a ↔ read = .ok a := by
  cases read <;> simp [Except.mapError]

theorem exists_mapError_error_iff {δ : Type} {f : ε → δ} {read : Except ε α} :
    (∃ failure, read.mapError f = .error failure) ↔ ∃ cause, read = .error cause := by
  cases read <;> simp [Except.mapError]

/-- What is done with the outcome never comes into play at a fault. -/
theorem map_eq_error_iff {f : α → β} {read : Except ε α} {fault : ε} :
    read.map f = .error fault ↔ read = .error fault := by
  cases read <;> simp [Except.map]

/-- Of two that are read one after the other, the second is judged only if
nothing is wrong with the first. -/
theorem bind_map_eq_error_iff {f : α → β → γ} {first : Except ε α} {second : Except ε β}
    {fault : ε} :
    (first.bind fun a => second.map (f a)) = .error fault ↔
      first = .error fault ∨ (∃ a, first = .ok a) ∧ second = .error fault := by
  cases first with
  | error other =>
    show Except.error other = .error fault ↔ _
    simp
  | ok a =>
    show second.map (f a) = .error fault ↔ _
    rw [map_eq_error_iff]
    simp

end

/-! ## Lists that are read item by item -/

section

variable {ε α β : Type} {read : Nat → α → Except ε β}

/-- Reads the items of a list from an index on, up to the first fault. -/
def readAll (read : Nat → α → Except ε β) : Nat → List α → Except ε (List β)
  | _, [] => .ok []
  | index, v :: rest => do
    let first ← read index v
    let others ← readAll read (index + 1) rest
    return first :: others

/-- A list is read from its first item on. -/
theorem readAll_cons (index : Nat) (v : α) (rest : List α) :
    readAll read index (v :: rest) =
      (read index v).bind fun first => (readAll read (index + 1) rest).map (first :: ·) := by
  rw [readAll]
  cases read index v with
  | error fault => rfl
  | ok first => cases readAll read (index + 1) rest <;> rfl

theorem readAll_cons_eq_ok_iff {index : Nat} {v : α} {rest : List α} {all : List β} :
    readAll read index (v :: rest) = .ok all ↔
      ∃ first others, read index v = .ok first ∧ readAll read (index + 1) rest = .ok others ∧
        all = first :: others := by
  rw [readAll_cons, bind_eq_ok_iff]
  constructor
  · rintro ⟨first, hfirst, h⟩
    obtain ⟨others, hothers, rfl⟩ := map_eq_ok h
    exact ⟨first, others, hfirst, hothers, rfl⟩
  · rintro ⟨first, others, hfirst, hothers, rfl⟩
    exact ⟨first, hfirst, map_eq_ok_iff.mpr ⟨others, hothers, rfl⟩⟩

/-- A list is refused for its first item, or for the others once this one has
been read. -/
theorem readAll_cons_eq_error_iff {index : Nat} {v : α} {rest : List α} {fault : ε} :
    readAll read index (v :: rest) = .error fault ↔
      read index v = .error fault ∨
        (∃ first, read index v = .ok first) ∧ readAll read (index + 1) rest = .error fault := by
  rw [readAll_cons, bind_map_eq_error_iff]

/-- All items are read exactly if each of them is, and what is read is what each
of them gives. -/
theorem readAll_eq_ok_iff {denotes : α → β → Prop}
    (h : ∀ index v b, read index v = .ok b ↔ denotes v b)
    {index : Nat} {items : List α} {all : List β} :
    readAll read index items = .ok all ↔ List.Forall₂ denotes items all := by
  induction items generalizing index all with
  | nil =>
    rw [readAll, Except.ok.injEq, List.forall₂_nil_left_iff]
    exact eq_comm
  | cons v rest ih =>
    rw [readAll_cons_eq_ok_iff, List.forall₂_cons_left_iff]
    constructor
    · rintro ⟨first, others, hfirst, hothers, rfl⟩
      exact ⟨first, others, (h index v first).mp hfirst, ih.mp hothers, rfl⟩
    · rintro ⟨first, others, hfirst, hothers, rfl⟩
      exact ⟨first, others, (h index v first).mpr hfirst, ih.mpr hothers, rfl⟩

/-- If a condition decides for single items whether they are read, it decides
for lists. -/
theorem exists_readAll_iff {accepted : α → Prop}
    (h : ∀ index v, (∃ b, read index v = .ok b) ↔ accepted v) {index : Nat} {items : List α} :
    (∃ all, readAll read index items = .ok all) ↔ ∀ v ∈ items, accepted v := by
  induction items generalizing index with
  | nil => exact ⟨fun _ v hmem => absurd hmem List.not_mem_nil, fun _ => ⟨[], rfl⟩⟩
  | cons v rest ih =>
    rw [List.forall_mem_cons, ← h index v, ← @ih (index + 1)]
    constructor
    · rintro ⟨all, hall⟩
      obtain ⟨first, others, hfirst, hothers, -⟩ := readAll_cons_eq_ok_iff.mp hall
      exact ⟨⟨first, hfirst⟩, others, hothers⟩
    · rintro ⟨⟨first, hfirst⟩, others, hothers⟩
      exact ⟨_, readAll_cons_eq_ok_iff.mpr ⟨first, others, hfirst, hothers, rfl⟩⟩

/-- A fault is that of the first item that is not accepted, whatever comes
behind it. -/
theorem readAll_eq_error_iff {accepted : α → Prop}
    (h : ∀ index v, (∃ b, read index v = .ok b) ↔ accepted v)
    {index : Nat} {items : List α} {fault : ε} :
    readAll read index items = .error fault ↔
      ∃ before v after, items = before ++ v :: after ∧ (∀ w ∈ before, accepted w) ∧
        read (index + before.length) v = .error fault := by
  -- the item in question is the first, or it stands in the rest behind one that is accepted
  induction items generalizing index with
  | nil =>
    refine ⟨fun hok => absurd hok.symm error_ne_ok, ?_⟩
    rintro ⟨before, v, after, hitems, -⟩
    exact absurd hitems (by simp)
  | cons item rest ih =>
    rw [readAll_cons_eq_error_iff, ih, h]
    constructor
    · rintro (hfault | ⟨haccepted, before, v, after, rfl, hbefore, hfault⟩)
      · exact ⟨[], item, rest, rfl, fun w hmem => absurd hmem List.not_mem_nil, hfault⟩
      · refine ⟨item :: before, v, after, rfl, List.forall_mem_cons.mpr ⟨haccepted, hbefore⟩, ?_⟩
        rw [List.length_cons, ← Nat.add_assoc, Nat.add_right_comm]
        exact hfault
    · rintro ⟨before, v, after, hitems, hbefore, hfault⟩
      cases before with
      | nil =>
        obtain ⟨rfl, rfl⟩ := List.cons.inj hitems
        exact Or.inl hfault
      | cons first before =>
        obtain ⟨rfl, rfl⟩ := List.cons.inj hitems
        obtain ⟨hfirst, hbefore⟩ := List.forall_mem_cons.mp hbefore
        refine Or.inr ⟨hfirst, before, v, after, rfl, hbefore, ?_⟩
        rw [List.length_cons, ← Nat.add_assoc, Nat.add_right_comm] at hfault
        exact hfault

theorem mapM_eq_readAll (read : α → Except ε β) (index : Nat) (items : List α) :
    items.mapM read = readAll (fun _ => read) index items := by
  induction items generalizing index with
  | nil => rfl
  | cons v rest ih =>
    rw [List.mapM_cons, readAll, ih (index + 1)]

end

end Graft
