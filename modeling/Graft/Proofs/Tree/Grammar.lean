import Graft.Proofs.Tree.RoundTrip

/-!
# The grammar of trees in JSON

Which values denote which points, positions and nodes. Each of these is a
record, and a record has two forms: an object gives each field at most once, in
any order and among any other members, and an array gives the first of its
fields in the order of declaration. Two things are left open here: how the kinds
of nodes may be given, and as what a value is taken over into properties and
data (`Json.AsWritten` is the plain answer).

The grammar is a relation, with one rule for each kind of node and none about
how to read. What a rule asks of a field is one of three things: the value
denotes something, it is missing or null or denotes something (`Optionally`:
position, data, name and offset), or it is missing, which stands for a default,
or denotes something (`OrElse`: properties and children, where null is not
allowed). Unknown members are never mentioned, and so are allowed.

Points and positions are read exactly from the values that denote them. Their
readers fold over the members and keep what each field has got so far. The lemma
about the fold says of each field on its own what its values come to (`Fills`:
no value leaves it as it is, one value fills it if it was empty, a second one is
refused), and for an array the same is said of the members that the items would
be under the names of the fields.

Main statements:
- `Json.hasFields_array`: an array gives the fields that an object with the same
  names and items gives;
- `Point.ofJson_eq_ok_iff`, `Position.ofJson_eq_ok_iff`: what is read, on its
  own or inside a node.
-/

namespace Graft

/-- The values of the members with this key, in order. -/
def Members.valuesOf (members : Members) (key : String) : List Json :=
  (members.filter fun m => m.1 = key).map Prod.snd

/-- Whether a value is a record with fields of these names, and gives them these
values. An object gives each field at most once. An array gives the fields in
order and may leave out the last of them. -/
inductive Json.HasFields (names : List String) : Json → List (Option Json) → Prop
  | object {members : Members} {values : List (Option Json)}
      (h : names.map members.valuesOf = values.map Option.toList) :
      HasFields names (.object members) values
  | array {items : List Json} {missing : Nat} (h : items.length + missing = names.length) :
      HasFields names (.array items) (items.map some ++ List.replicate missing none)

/-- Whether a field that may be left out or null denotes an optional value. -/
inductive Optionally {α : Type} (denotes : Json → α → Prop) : Option Json → Option α → Prop
  | absent : Optionally denotes none none
  | null : Optionally denotes (some .null) none
  | given {v : Json} {a : α} (hne : v ≠ .null) (h : denotes v a) :
      Optionally denotes (some v) (some a)

/-- Whether a field that may be left out denotes a value, this one where it is
left out. -/
inductive OrElse {α : Type} (denotes : Json → α → Prop) (default : α) : Option Json → α → Prop
  | absent : OrElse denotes default none default
  | given {v : Json} {a : α} (h : denotes v a) : OrElse denotes default (some v) a

/-! ## Points, positions and nodes -/

/-- Whether a value denotes a point: a line, a column, and an offset that may be
left out or null. All are natural numbers that fit. -/
def Json.DenotesPoint (v : Json) (p : Point) : Prop :=
  ∃ offset, v.HasFields ["line", "column", "offset"]
      [some (natJson p.line.toNat), some (natJson p.column.toNat), offset] ∧
    Optionally (fun w n => w = natJson n.toNat) offset p.offset

/-- Whether a value denotes a position: two points. -/
def Json.DenotesPosition (v : Json) (p : Position) : Prop :=
  ∃ start stop, v.HasFields ["start", "end"] [some start, some stop] ∧
    start.DenotesPoint p.start ∧ stop.DenotesPoint p.stop

/-- Whether a value is taken over as it is written, where of members with one
key the last counts. -/
def Json.AsWritten (v w : Json) : Prop := w = v.mergeKeys

/-- Whether a value denotes properties: an object, each of whose values is taken
over. Of members with one key the last counts. -/
def Json.DenotesProperties (taken : Json → Json → Prop) (v : Json) (properties : Members) : Prop :=
  ∃ members values, v = .object members ∧
    List.Forall₂ (fun m n => m.1 = n.1 ∧ taken m.2 n.2) members values ∧
    properties = Members.merge values

/-- Whether these fields denote position and data of a node. Data is any value
but null. -/
structure Info.DenotedBy (taken : Json → Json → Prop) (info : Info) (position data : Option Json) :
    Prop where
  position : Optionally Json.DenotesPosition position info.position
  data : Optionally taken data info.data

namespace Node

mutual

/-- Whether a value denotes a node, `kinds` telling how kinds are given and
`taken` what values in properties and data are taken over as. -/
inductive Denotes (kinds : Site → Json → Kind → Prop) (taken : Json → Json → Prop) :
    Site → Json → Node → Prop
  | root {site v kind children position data} {nodes : List Node} {info : Info}
      (hv : v.HasFields ["type", "children", "position", "data"]
        [some kind, children, position, data])
      (hkind : kinds site kind .root) (hchildren : ChildrenDenote kinds taken children nodes)
      (hinfo : info.DenotedBy taken position data) :
      Denotes kinds taken site v (.root nodes info)
  | element {site v kind tag properties children position data} {merged : Members}
      {nodes : List Node} {info : Info}
      (hv : v.HasFields ["type", "tagName", "properties", "children", "position", "data"]
        [some kind, some (.string tag), properties, children, position, data])
      (hkind : kinds site kind .element)
      (hproperties : OrElse (Json.DenotesProperties taken) [] properties merged)
      (hchildren : ChildrenDenote kinds taken children nodes)
      (hinfo : info.DenotedBy taken position data) :
      Denotes kinds taken site v (.element tag merged nodes info)
  | text {site v kind value position data} {info : Info}
      (hv : v.HasFields ["type", "value", "position", "data"]
        [some kind, some (.string value), position, data])
      (hkind : kinds site kind .text) (hinfo : info.DenotedBy taken position data) :
      Denotes kinds taken site v (.text value info)
  | comment {site v kind value position data} {info : Info}
      (hv : v.HasFields ["type", "value", "position", "data"]
        [some kind, some (.string value), position, data])
      (hkind : kinds site kind .comment) (hinfo : info.DenotedBy taken position data) :
      Denotes kinds taken site v (.comment value info)
  | doctype {site v kind given position data} {name : Option String} {info : Info}
      (hv : v.HasFields ["type", "name", "position", "data"] [some kind, given, position, data])
      (hkind : kinds site kind .doctype) (hname : Optionally (fun w s => w = .string s) given name)
      (hinfo : info.DenotedBy taken position data) :
      Denotes kinds taken site v (.doctype name info)

/-- Whether a field denotes children: an array of nodes, or nothing. -/
inductive ChildrenDenote (kinds : Site → Json → Kind → Prop) (taken : Json → Json → Prop) :
    Option Json → List Node → Prop
  | absent : ChildrenDenote kinds taken none []
  | given {items : List Json} {nodes : List Node} (h : ItemsDenote kinds taken items nodes) :
      ChildrenDenote kinds taken (some (.array items)) nodes

/-- Whether values denote nodes inside a node, one for one. -/
inductive ItemsDenote (kinds : Site → Json → Kind → Prop) (taken : Json → Json → Prop) :
    List Json → List Node → Prop
  | nil : ItemsDenote kinds taken [] []
  | cons {v : Json} {items : List Json} {node : Node} {nodes : List Node}
      (h : Denotes kinds taken .inner v node) (hrest : ItemsDenote kinds taken items nodes) :
      ItemsDenote kinds taken (v :: items) (node :: nodes)

end

end Node

/-! ## Records -/

/-- A value that may be missing is told by the list that it makes. -/
theorem eq_of_toList_eq {α : Type} {a b : Option α} (h : a.toList = b.toList) : a = b := by
  cases a <;> cases b <;> simp_all

namespace Members

@[simp] theorem valuesOf_nil (key : String) : valuesOf [] key = [] := rfl

@[simp] theorem valuesOf_cons_self (key : String) (v : Json) (rest : Members) :
    valuesOf ((key, v) :: rest) key = v :: valuesOf rest key := by
  simp [valuesOf]

theorem valuesOf_cons_ne {key other : String} (h : key ≠ other) (v : Json) (rest : Members) :
    valuesOf ((key, v) :: rest) other = valuesOf rest other := by
  simp [valuesOf, h]

/-- Names that are not there have no values. -/
theorem valuesOf_zip_of_not_mem {names : List String} {name : String} (h : name ∉ names)
    (items : List Json) :
    valuesOf (names.zip items) name = [] := by
  rw [valuesOf, List.filter_eq_nil_iff.mpr, List.map_nil]
  intro m hmem heq
  exact h (of_decide_eq_true heq ▸ (List.of_mem_zip hmem).1)

end Members

/-- An object gives a field by no member or by one. -/
theorem Json.hasFields_object {names : List String} {members : Members}
    {values : List (Option Json)} :
    HasFields names (.object members) values ↔
      names.map members.valuesOf = values.map Option.toList :=
  ⟨fun h => by cases h; assumption, .object⟩

/-- The values of fields are parts of the record. -/
theorem Json.HasFields.mem_parts {names : List String} {v w : Json} {values : List (Option Json)}
    (h : v.HasFields names values) (hw : some w ∈ values) : w ∈ v.parts := by
  cases h with
  | @object members values h =>
    have hmem : [w] ∈ values.map Option.toList := List.mem_map_of_mem hw
    rw [← h] at hmem
    obtain ⟨name, -, hvalues⟩ := List.mem_map.mp hmem
    have hone : w ∈ members.valuesOf name := hvalues ▸ List.mem_singleton_self w
    obtain ⟨m, hm, rfl⟩ := List.mem_map.mp hone
    exact List.mem_map_of_mem (List.mem_filter.mp hm).1
  | array h =>
    rcases List.mem_append.mp hw with hw | hw
    · obtain ⟨item, hitem, heq⟩ := List.mem_map.mp hw
      exact Option.some.inj heq ▸ hitem
    · exact absurd (List.mem_replicate.mp hw).2 (Option.some_ne_none w)

/-- An array gives the fields that an object with the same names and items gives. -/
theorem Json.hasFields_array {names : List String} (hnodup : names.Nodup) (items : List Json)
    (values : List (Option Json)) :
    HasFields names (.array items) values ↔
      items.length ≤ names.length ∧ HasFields names (.object (names.zip items)) values := by
  -- one name after the other: an item is the value of its name alone
  have hzip : ∀ {names : List String} {items : List Json}, names.Nodup →
    items.length ≤ names.length →
      names.map (Members.valuesOf (names.zip items)) =
        (items.map some ++ List.replicate (names.length - items.length) none).map
          Option.toList := by
    intro names items hnodup hlength
    induction names generalizing items with
    | nil =>
      obtain rfl := List.length_eq_zero_iff.mp (Nat.le_zero.mp hlength)
      rfl
    | cons name names ih =>
      obtain ⟨hnot, hnodup⟩ := List.nodup_cons.mp hnodup
      cases items with
      | nil =>
        have hrest := @ih [] hnodup (Nat.zero_le names.length)
        rw [List.zip_nil_right] at hrest ⊢
        rw [List.map_cons, hrest]
        rfl
      | cons item items =>
        have hrest := ih hnodup (Nat.le_of_succ_le_succ hlength)
        have hothers : ∀ other ∈ names,
            Members.valuesOf ((name, item) :: names.zip items) other =
              Members.valuesOf (names.zip items) other :=
          fun other hmem => Members.valuesOf_cons_ne (fun heq : name = other =>
            hnot (heq ▸ hmem)) item _
        rw [List.zip_cons_cons, List.map_cons, Members.valuesOf_cons_self,
          Members.valuesOf_zip_of_not_mem hnot, List.map_congr_left hothers, hrest,
            List.length_cons, List.length_cons,
          Nat.add_sub_add_right]
        rfl
  constructor
  · intro h
    cases h with
    | array h =>
      have hlength : items.length ≤ names.length := by omega
      have hmissing := Nat.eq_sub_of_add_eq' h
      exact ⟨hlength, .object (hmissing ▸ hzip hnodup hlength)⟩
  · rintro ⟨hlength, h⟩
    cases h with
    | object h =>
      rw [hzip hnodup hlength] at h
      rw [← (List.map_inj_right fun _ _ => eq_of_toList_eq).mp h]
      exact .array (Nat.add_sub_cancel' hlength)

/-! ## Reading points and positions -/

/-- A whole number below a bound is read, and nothing else. -/
theorem natBelow_eq_ok_iff {bound : Nat} {expected : Expected} {v : Json} {n : Nat} :
    natBelow bound expected v = .ok n ↔ n < bound ∧ v = natJson n := by
  constructor
  · intro h
    unfold natBelow at h
    split at h
    next k =>
      split at h
      next hk =>
        obtain rfl := Except.ok.inj h
        refine ⟨by omega, ?_⟩
        rw [natJson, Int.toNat_of_nonneg hk.1]
      next => exact absurd h error_ne_ok
    next => exact absurd h error_ne_ok
  · rintro ⟨hn, rfl⟩
    exact natBelow_natJson expected hn

/-- Where a field may be null, null gives nothing, and any other value has to be
read. -/
theorem optionally_eq_ok_iff {α : Type} {read : Json → Except DataError α} {v : Json}
    {o : Option α} :
    optionally read v = .ok o ↔ Optionally (fun v a => read v = .ok a) (some v) o := by
  constructor
  · intro h
    by_cases hv : v = .null
    · subst hv
      obtain rfl := Except.ok.inj h
      exact .null
    · rw [optionally_of_ne_null hv] at h
      obtain ⟨a, hread, rfl⟩ := map_eq_ok h
      exact .given hv hread
  · intro h
    cases h with
    | null => rfl
    | given hne hread => rw [optionally_of_ne_null hne, hread]; rfl

/-- What a value that may be missing denotes may be passed on. -/
theorem Optionally.map {α β : Type} {denotes : Json → α → Prop} {also : Json → β → Prop} {f : α → β}
    {value : Option Json} {o : Option α} (h : Optionally denotes value o)
    (hf : ∀ v a, denotes v a → also v (f a)) : Optionally also value (o.map f) := by
  cases h with
  | absent => exact .absent
  | null => exact .null
  | given hne h => exact .given hne (hf _ _ h)

/-- And may be taken to denote it in a weaker sense. -/
theorem Optionally.imp {α : Type} {denotes also : Json → α → Prop} {value : Option Json}
    {o : Option α}
    (h : Optionally denotes value o) (hi : ∀ v a, denotes v a → also v a) :
    Optionally also value o := by
  cases h with
  | absent => exact .absent
  | null => exact .null
  | given hne h => exact .given hne (hi _ _ h)

/-- An array is long enough or shorter, never too long. -/
theorem checkLength_eq_ok_iff {site : Site} {shape : Shape} {length : Nat} :
    checkLength site shape length = .ok () ↔ length ≤ shape.nameAndSize.2 := by
  unfold checkLength
  split
  next h => exact ⟨fun _ => h, fun _ => rfl⟩
  next h => cases site <;> exact ⟨fun hok => absurd hok error_ne_ok, fun hle => absurd hle h⟩

/-- A sequence is read if its fields are and it ends with them. -/
theorem bind_checkLength_eq_ok_iff {S β : Type} {read : Except DataError S}
    {finish : S → Except DataError β} {site : Site} {shape : Shape} {length : Nat} {b : β} :
    (read >>= fun fields => finish fields >>= fun b => checkLength site shape length >>= fun _ =>
      pure b) = .ok b ↔
      (∃ fields, read = .ok fields ∧ finish fields = .ok b) ∧ length ≤ shape.nameAndSize.2 := by
  constructor
  · intro h
    obtain ⟨fields, hread, h⟩ := bind_eq_ok h
    obtain ⟨found, hfinish, h⟩ := bind_eq_ok h
    obtain ⟨_, hlength, h⟩ := bind_eq_ok h
    obtain rfl := Except.ok.inj h
    exact ⟨⟨fields, hread, hfinish⟩, checkLength_eq_ok_iff.mp hlength⟩
  · rintro ⟨⟨fields, hread, hfinish⟩, hlength⟩
    rw [hread, ok_bind, hfinish, ok_bind, checkLength_eq_ok_iff.mpr hlength]
    rfl

/-- Whether reading these values of one field, one after the other, fills its
slot. A filled slot takes no other. -/
def Fills {α : Type} (read : Json → Except DataError α) : Option α → List Json → Option α → Prop
  | before, [], after => after = before
  | some _, _ :: _, _ => False
  | none, v :: rest, after => ∃ a, read v = .ok a ∧ Fills read (some a) rest after

section

variable {α S : Type} {read : Json → Except DataError α}

/-- An empty slot is filled from at most one value. -/
theorem fills_iff {values : List Json} {after : Option α} :
    Fills read none values after ↔
      ∃ value, values = Option.toList value ∧
        Option.Rel (fun v a => read v = .ok a) value after := by
  constructor
  · intro h
    match values, h with
    | [], h => exact ⟨none, rfl, (h : after = none) ▸ .none⟩
    | [v], ⟨a, hread, hafter⟩ => exact ⟨some v, rfl, (hafter : after = some a) ▸ .some hread⟩
    | _ :: _ :: _, ⟨_, _, hafter⟩ => exact False.elim hafter
  · rintro ⟨value, rfl, h⟩
    cases h with
    | none => rfl
    | some hread => exact ⟨_, hread, rfl⟩

/-- Reading a value into a slot and going on. -/
theorem fills_cons_iff {before : Option α} {fault : DataError} {v : Json} {put : α → S}
    {next : S → Except DataError S} {after : S} {rest : List Json} {slot : Option α} {others : Prop}
    (hnext : ∀ a, next (put a) = .ok after ↔ Fills read (some a) rest slot ∧ others) :
    ((if before.isSome then .error fault else (read v).map put) >>= next) = .ok after ↔
      Fills read before (v :: rest) slot ∧ others := by
  cases before with
  | some a => exact ⟨fun h => absurd h error_ne_ok, fun h => False.elim h.1⟩
  | none =>
    show ((read v).map put).bind next = .ok after ↔ (∃ a, _) ∧ others
    rw [bind_eq_ok_iff]
    constructor
    · rintro ⟨_, hput, h⟩
      obtain ⟨a, hread, rfl⟩ := map_eq_ok hput
      obtain ⟨hslot, hothers⟩ := (hnext a).mp h
      exact ⟨⟨a, hread, hslot⟩, hothers⟩
    · rintro ⟨⟨a, hread, hslot⟩, hothers⟩
      exact ⟨put a, map_eq_ok_iff.mpr ⟨a, hread, rfl⟩, (hnext a).mpr ⟨hslot, hothers⟩⟩

end

namespace PointFields

/-- Each field of a point is read from the values of the members with its name. -/
theorem foldlM_eq_ok_iff {members : Members} {fields after : PointFields} :
    members.foldlM (fun fields m => fields.read m.1 m.2) fields = .ok after ↔
      Fills (natBelow UInt32.size .lineOrColumn) fields.line (members.valuesOf "line") after.line ∧
      Fills (natBelow UInt32.size .lineOrColumn) fields.column (members.valuesOf "column")
        after.column ∧
      Fills (optionally (natBelow UInt64.size .offset)) fields.offset (members.valuesOf "offset")
        after.offset := by
  induction members generalizing fields with
  | nil =>
    constructor
    · intro h
      obtain rfl := Except.ok.inj h
      exact ⟨rfl, rfl, rfl⟩
    · rintro ⟨hline, hcolumn, hoffset⟩
      obtain ⟨line, column, offset⟩ := after
      obtain rfl : line = fields.line := hline
      obtain rfl : column = fields.column := hcolumn
      obtain rfl : offset = fields.offset := hoffset
      rfl
  | cons m rest ih =>
    obtain ⟨key, v⟩ := m
    rw [List.foldlM_cons]
    by_cases hline : key = "line"
    · subst hline
      rw [Members.valuesOf_cons_self, Members.valuesOf_cons_ne (by decide),
        Members.valuesOf_cons_ne (by decide)]
      exact fills_cons_iff fun n => ih
    by_cases hcolumn : key = "column"
    · subst hcolumn
      rw [Members.valuesOf_cons_self, Members.valuesOf_cons_ne (by decide),
        Members.valuesOf_cons_ne (by decide),
        and_left_comm]
      exact fills_cons_iff fun n => ih.trans and_left_comm
    by_cases hoffset : key = "offset"
    · subst hoffset
      rw [Members.valuesOf_cons_self, Members.valuesOf_cons_ne (by decide),
        Members.valuesOf_cons_ne (by decide),
        ← and_assoc, and_comm]
      exact fills_cons_iff fun n => ih.trans (and_assoc.symm.trans and_comm)
    rw [read, if_neg hline, if_neg hcolumn, if_neg hoffset, Members.valuesOf_cons_ne hline,
      Members.valuesOf_cons_ne hcolumn, Members.valuesOf_cons_ne hoffset]
    exact ih

/-- Members are read as a point if they give the fields of this point. -/
theorem exists_finish_iff {members : Members} {missing : String → DataError} {p : Point} :
    (∃ fields, members.foldlM (fun fields m => fields.read m.1 m.2) ({} : PointFields) =
      .ok fields ∧
      fields.finish missing = .ok p) ↔ (Json.object members).DenotesPoint p := by
  constructor
  · rintro ⟨⟨line?, column?, offset?⟩, hfields, hfinish⟩
    obtain ⟨hline, hcolumn, hoffset⟩ := foldlM_eq_ok_iff.mp hfields
    obtain ⟨line, hlineValue, hline⟩ := fills_iff.mp hline
    obtain ⟨column, hcolumnValue, hcolumn⟩ := fills_iff.mp hcolumn
    obtain ⟨offset, hoffsetValue, hoffset⟩ := fills_iff.mp hoffset
    cases hline with
    | none => exact absurd hfinish error_ne_ok
    | some hlineRead =>
      cases hcolumn with
      | none => exact absurd hfinish error_ne_ok
      | some hcolumnRead =>
        obtain ⟨hlineBelow, rfl⟩ := natBelow_eq_ok_iff.mp hlineRead
        obtain ⟨hcolumnBelow, rfl⟩ := natBelow_eq_ok_iff.mp hcolumnRead
        obtain rfl := Except.ok.inj hfinish
        refine ⟨offset, Json.hasFields_object.mpr ?_, ?_⟩
        · dsimp only
          rw [UInt32.toNat_ofNat_of_lt' hlineBelow, UInt32.toNat_ofNat_of_lt' hcolumnBelow]
          simp only [List.map_cons, List.map_nil, hlineValue, hcolumnValue, hoffsetValue]
        · have hread : Optionally (fun v n => natBelow UInt64.size .offset v = .ok n) offset
              (offset?.getD none) := by
            cases hoffset with
            | none => exact .absent
            | some hoffsetRead => exact optionally_eq_ok_iff.mp hoffsetRead
          refine hread.map fun v n hn => ?_
          obtain ⟨hbelow, rfl⟩ := natBelow_eq_ok_iff.mp hn
          rw [UInt64.toNat_ofNat_of_lt' hbelow]
  · obtain ⟨line, column, known⟩ := p
    rintro ⟨offset, hv, hoffset⟩
    have hvalues := Json.hasFields_object.mp hv
    simp only [List.map_cons, List.map_nil, List.cons.injEq, and_true] at hvalues
    obtain ⟨hline, hcolumn, hoffsetValue⟩ := hvalues
    refine ⟨{ line := some line.toNat, column := some column.toNat,
              offset := offset.map fun _ => known.map UInt64.toNat },
                foldlM_eq_ok_iff.mpr ⟨?_, ?_, ?_⟩, ?_⟩
    · exact fills_iff.mpr ⟨_, hline, .some (natBelow_natJson _ line.toNat_lt)⟩
    · exact fills_iff.mpr ⟨_, hcolumn, .some (natBelow_natJson _ column.toNat_lt)⟩
    · refine fills_iff.mpr ⟨_, hoffsetValue, ?_⟩
      cases hoffset with
      | absent => exact .none
      | null => exact .some rfl
      | given hne h =>
        refine .some (optionally_eq_ok_iff.mpr (.given hne ?_))
        rw [h]
        exact natBelow_natJson _ (UInt64.toNat_lt _)
    · show Except.ok (Point.mk (.ofNat line.toNat) (.ofNat column.toNat) _) = _
      rw [UInt32.ofNat_toNat, UInt32.ofNat_toNat]
      cases hoffset with
      | absent => rfl
      | null => rfl
      | given hne h =>
        show Except.ok (Point.mk line column (some (.ofNat (UInt64.toNat _)))) = _
        rw [UInt64.ofNat_toNat]

end PointFields

/-- An array denotes the point that an object with its items under the names of
the fields does. -/
theorem Json.denotesPoint_array {items : List Json} {p : Point} :
    (Json.array items).DenotesPoint p ↔
      (Json.object (PointFields.names.zip items)).DenotesPoint p ∧ items.length ≤ 3 := by
  have hnames : PointFields.names.Nodup := by decide
  have hfields := Json.hasFields_array hnames items
  constructor
  · rintro ⟨offset, hv, hoffset⟩
    obtain ⟨hlength, hv⟩ := (hfields _).mp hv
    exact ⟨⟨offset, hv, hoffset⟩, hlength⟩
  · rintro ⟨⟨offset, hv, hoffset⟩, hlength⟩
    exact ⟨offset, (hfields _).mpr ⟨hlength, hv⟩, hoffset⟩

/-- A point is read from the values that denote it, wherever they stand. -/
theorem Point.ofJson_eq_ok_iff {site : Site} {v : Json} {p : Point} :
    Point.ofJson site v = .ok p ↔ v.DenotesPoint p := by
  cases v with
  | object members => exact bind_eq_ok_iff.trans PointFields.exists_finish_iff
  | array items =>
    rw [Json.denotesPoint_array, ← PointFields.exists_finish_iff]
    exact bind_checkLength_eq_ok_iff
  | _ => exact ⟨fun h => absurd h error_ne_ok, fun ⟨_, hv, _⟩ => nomatch hv⟩

namespace PositionFields

/-- Each field of a position is read from the values of the members with its
name. -/
theorem foldlM_eq_ok_iff {site : Site} {members : Members} {fields after : PositionFields} :
    members.foldlM (fun fields m => fields.read site m.1 m.2) fields = .ok after ↔
      Fills (Point.ofJson site) fields.start (members.valuesOf "start") after.start ∧
      Fills (Point.ofJson site) fields.stop (members.valuesOf "end") after.stop := by
  induction members generalizing fields with
  | nil =>
    constructor
    · intro h
      obtain rfl := Except.ok.inj h
      exact ⟨rfl, rfl⟩
    · rintro ⟨hstart, hstop⟩
      obtain ⟨start, stop⟩ := after
      obtain rfl : start = fields.start := hstart
      obtain rfl : stop = fields.stop := hstop
      rfl
  | cons m rest ih =>
    obtain ⟨key, v⟩ := m
    rw [List.foldlM_cons]
    by_cases hstart : key = "start"
    · subst hstart
      rw [Members.valuesOf_cons_self, Members.valuesOf_cons_ne (by decide)]
      exact fills_cons_iff fun p => ih
    by_cases hstop : key = "end"
    · subst hstop
      rw [Members.valuesOf_cons_self, Members.valuesOf_cons_ne (by decide), and_comm]
      exact fills_cons_iff fun p => ih.trans and_comm
    rw [read, if_neg hstart, if_neg hstop, Members.valuesOf_cons_ne hstart,
      Members.valuesOf_cons_ne hstop]
    exact ih

/-- Members are read as a position if they give the fields of this position. -/
theorem exists_finish_iff {site : Site} {members : Members} {missing : String → DataError}
    {p : Position} :
    (∃ fields, members.foldlM (fun fields m => fields.read site m.1 m.2) ({} : PositionFields) =
      .ok fields ∧
      fields.finish missing = .ok p) ↔ (Json.object members).DenotesPosition p := by
  constructor
  · rintro ⟨⟨start?, stop?⟩, hfields, hfinish⟩
    obtain ⟨hstart, hstop⟩ := foldlM_eq_ok_iff.mp hfields
    obtain ⟨start, hstartValue, hstart⟩ := fills_iff.mp hstart
    obtain ⟨stop, hstopValue, hstop⟩ := fills_iff.mp hstop
    cases hstart with
    | none => exact absurd hfinish error_ne_ok
    | some hstartRead =>
      cases hstop with
      | none => exact absurd hfinish error_ne_ok
      | some hstopRead =>
        obtain rfl := Except.ok.inj hfinish
        refine ⟨_, _, Json.hasFields_object.mpr ?_, Point.ofJson_eq_ok_iff.mp hstartRead,
          Point.ofJson_eq_ok_iff.mp hstopRead⟩
        simp only [List.map_cons, List.map_nil, hstartValue, hstopValue]
  · rintro ⟨start, stop, hv, hstart, hstop⟩
    have hvalues := Json.hasFields_object.mp hv
    simp only [List.map_cons, List.map_nil, List.cons.injEq, and_true] at hvalues
    obtain ⟨hstartValue, hstopValue⟩ := hvalues
    exact ⟨⟨some p.start, some p.stop⟩, foldlM_eq_ok_iff.mpr
      ⟨fills_iff.mpr ⟨_, hstartValue, .some (Point.ofJson_eq_ok_iff.mpr hstart)⟩,
        fills_iff.mpr ⟨_, hstopValue, .some (Point.ofJson_eq_ok_iff.mpr hstop)⟩⟩, rfl⟩

end PositionFields

/-- So it is with positions. -/
theorem Json.denotesPosition_array {items : List Json} {p : Position} :
    (Json.array items).DenotesPosition p ↔
      (Json.object (PositionFields.names.zip items)).DenotesPosition p ∧ items.length ≤ 2 := by
  have hnames : PositionFields.names.Nodup := by decide
  have hfields := Json.hasFields_array hnames items
  constructor
  · rintro ⟨start, stop, hv, hpoints⟩
    obtain ⟨hlength, hv⟩ := (hfields _).mp hv
    exact ⟨⟨start, stop, hv, hpoints⟩, hlength⟩
  · rintro ⟨⟨start, stop, hv, hpoints⟩, hlength⟩
    exact ⟨start, stop, (hfields _).mpr ⟨hlength, hv⟩, hpoints⟩

/-- A position is read from the values that denote it, wherever they stand. -/
theorem Position.ofJson_eq_ok_iff {site : Site} {v : Json} {p : Position} :
    Position.ofJson site v = .ok p ↔ v.DenotesPosition p := by
  cases v with
  | object members => exact bind_eq_ok_iff.trans PositionFields.exists_finish_iff
  | array items =>
    rw [Json.denotesPosition_array, ← PositionFields.exists_finish_iff]
    exact bind_checkLength_eq_ok_iff
  | _ => exact ⟨fun h => absurd h error_ne_ok, fun ⟨_, _, hv, _⟩ => nomatch hv⟩

end Graft
