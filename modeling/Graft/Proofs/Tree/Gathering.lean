import Graft.Proofs.Json.StandsFor
import Graft.Proofs.Tree.Grammar
import Mathlib.Logic.Function.Basic

/-!
# Gathering the fields of a node

A reader of nodes (`node_from_value`) goes through the members of an object or
the items of an array, puts what it reads into one slot for each field, and makes
the node of the slots when it is through. This module is about the slots: what
the loop leaves in them is what the values of the fields denote, in whatever
order the members stand and whatever unknown keys stand between them.

The invariant of the loop is `NodeFields.Holds`: what has been gathered of a
field is what the values given to this field so far denote. It has a clause for
each way in which fields are declared: required ones (`tagName`, `value`), ones
with a default (`properties`, `children`), and optional ones, where null counts as
absent (`name`, `position`, `data`).

One step, `NodeFields.gather`, preserves the invariant and touches no other field
(`holds_of_gather`), and it can be made exactly if the value denotes something
(`exists_gather`). The run, `fieldsOfMembers`, follows by induction on the
members, in both directions: whatever it gathers is right
(`holds_of_fieldsOfMembers`), and it comes to its end if all values denote
something and no field is given twice (`exists_fieldsOfMembers`).

Arrays need no second run. The items of an array are read as the members of an
object that names them for the fields in order (`fieldsOfItems_eq`).

Main statements:
- `NodeFields.holds_of_gather`, `NodeFields.exists_gather`: one field;
- `Node.holds_of_fieldsOfMembers`, `Node.exists_fieldsOfMembers`: all of them,
  member by member;
- `Node.fieldsOfItems_eq`: the items of an array as members;
- `NodeFields.finish_congr`, `NodeFields.finish_eq_ok`: the node that is made in
  the end depends on the gathered fields of its kind alone.
-/

namespace Graft

/-! ## One field -/

section

variable {α : Type} {denotes : Json → α → Prop} {value : Option Json}

/-- Two readings of one optional field agree if readings of its value do. -/
theorem Optionally.unique {a b : Option α} (ha : Optionally denotes value a)
    (hb : Optionally denotes value b) (h : ∀ v a b, denotes v a → denotes v b → a = b) : a = b := by
  cases ha with
  | absent => cases hb; rfl
  | null =>
    cases hb with
    | null => rfl
    | given hne _ => exact absurd rfl hne
  | given hne ha =>
    cases hb with
    | null => exact absurd rfl hne
    | given _ hb => rw [h _ _ _ ha hb]

/-- The same of a field that has a default: both take it, or both read the value. -/
theorem OrElse.unique {default a b : α} (ha : OrElse denotes default value a)
    (hb : OrElse denotes default value b)
    (h : ∀ v a b, denotes v a → denotes v b → a = b) : a = b := by
  cases ha with
  | absent => cases hb; rfl
  | given ha => cases hb with
    | given hb => exact h _ _ _ ha hb

end

theorem stringOf_eq_ok_iff {v : Json} {s : String} : stringOf v = .ok s ↔ v = .string s := by
  cases v <;> simp [stringOf]

namespace NodeFields

/-- Whether what has been gathered of a field is what its value denotes, or
nothing where there is none. -/
def Holds (fields : NodeFields) (field : Field) (value : Option Json) : Prop :=
  match field with
  | .tagName => Option.Rel (fun v s => v = .string s) value fields.tagName
  | .properties => OrElse (Json.DenotesProperties Json.StandsFor) [] value fields.properties
  | .children => OrElse (fun v nodes => Node.childrenOfJson v = .ok nodes) [] value fields.children
  | .value => Option.Rel (fun v s => v = .string s) value fields.value
  | .name => Optionally (fun v s => v = .string s) value fields.name
  | .position => Optionally Json.DenotesPosition value fields.info.position
  | .data => Optionally Json.StandsFor value fields.info.data

variable {fields after goal : NodeFields} {field : Field} {v : Json}

/-- Before the first member nothing is gathered, and no field has been given a
value. The defaults of `properties` and `children` are what an absent field
stands for. -/
theorem holds_empty (field : Field) : Holds {} field none := by
  cases field with
  | tagName => exact .none
  | value => exact .none
  | properties => exact .absent
  | children => exact .absent
  | name => exact .absent
  | position => exact .absent
  | data => exact .absent

/-- Gathering a field leaves the others as they were. -/
theorem holds_of_gather (h : fields.gather field v = .ok after) :
    after.seen = fields.seen ∧ after.Holds field (some v) ∧
      ∀ other ≠ field, ∀ value, fields.Holds other value → after.Holds other value := by
  -- one case a field: the value is read, and the record is updated at this field alone
  cases field with
  | tagName =>
    obtain ⟨s, hs, rfl⟩ := map_eq_ok h
    refine ⟨rfl, .some (stringOf_eq_ok_iff.mp hs), fun other hne value hvalue => ?_⟩
    cases other <;> first | exact hvalue | exact absurd rfl hne
  | properties =>
    cases v with
    | object members =>
      obtain ⟨resolved, hresolved, rfl⟩ := map_eq_ok h
      have hvalues := Json.resolveMembers_eq_ok_iff.mp (mapError_eq_ok_iff.mp hresolved)
      refine ⟨rfl, .given ⟨members, resolved, rfl, hvalues, rfl⟩, fun other hne value hvalue => ?_⟩
      cases other <;> first | exact hvalue | exact absurd rfl hne
    | _ => exact absurd h error_ne_ok
  | children =>
    obtain ⟨nodes, hnodes, rfl⟩ := map_eq_ok h
    refine ⟨rfl, .given hnodes, fun other hne value hvalue => ?_⟩
    cases other <;> first | exact hvalue | exact absurd rfl hne
  | value =>
    obtain ⟨s, hs, rfl⟩ := map_eq_ok h
    refine ⟨rfl, .some (stringOf_eq_ok_iff.mp hs), fun other hne value hvalue => ?_⟩
    cases other <;> first | exact hvalue | exact absurd rfl hne
  | name =>
    obtain ⟨s, hs, rfl⟩ := map_eq_ok h
    have hname := (optionally_eq_ok_iff.mp hs).imp fun w s hw => stringOf_eq_ok_iff.mp hw
    refine ⟨rfl, hname, fun other hne value hvalue => ?_⟩
    cases other <;> first | exact hvalue | exact absurd rfl hne
  | position =>
    obtain ⟨p, hp, rfl⟩ := map_eq_ok h
    have hposition := (optionally_eq_ok_iff.mp hp).imp fun w p hw => Position.ofJson_eq_ok_iff.mp hw
    refine ⟨rfl, hposition, fun other hne value hvalue => ?_⟩
    cases other <;> first | exact hvalue | exact absurd rfl hne
  | data =>
    obtain ⟨d, hd, rfl⟩ := map_eq_ok h
    have hdata := (optionally_eq_ok_iff.mp hd).imp fun w d hw =>
      Json.resolve_eq_ok_iff.mp (mapError_eq_ok_iff.mp hw)
    refine ⟨rfl, hdata, fun other hne value hvalue => ?_⟩
    cases other <;> first | exact hvalue | exact absurd rfl hne

/-- What denotes something can be gathered. -/
theorem exists_gather (h : goal.Holds field (some v)) (fields : NodeFields) :
    ∃ after, fields.gather field v = .ok after := by
  have hstring : ∀ {o : Option String}, Option.Rel (fun v s => v = .string s) (some v) o → ∃ s,
      stringOf v = .ok s := by
    intro o h
    cases h with
    | some h => exact ⟨_, stringOf_eq_ok_iff.mpr h⟩
  -- what the goal holds of the field is what its reader accepts
  cases field with
  | tagName =>
    obtain ⟨s, hs⟩ := hstring h
    exact ⟨_, map_eq_ok_iff.mpr ⟨s, hs, rfl⟩⟩
  | properties =>
    cases h with
    | given h =>
      obtain ⟨members, values, rfl, hvalues, -⟩ := h
      have hresolved := Json.resolveMembers_eq_ok_iff.mpr hvalues
      exact ⟨_, map_eq_ok_iff.mpr ⟨values, mapError_eq_ok_iff.mpr hresolved, rfl⟩⟩
  | children =>
    cases h with
    | given h => exact ⟨_, map_eq_ok_iff.mpr ⟨_, h, rfl⟩⟩
  | value =>
    obtain ⟨s, hs⟩ := hstring h
    exact ⟨_, map_eq_ok_iff.mpr ⟨s, hs, rfl⟩⟩
  | name =>
    have hread := Optionally.imp h fun w s hw => stringOf_eq_ok_iff.mpr hw
    exact ⟨_, map_eq_ok_iff.mpr ⟨_, optionally_eq_ok_iff.mpr hread, rfl⟩⟩
  | position =>
    have hread : Optionally (fun w p =>
        Position.ofJson .inner w = .ok p) (some v) goal.info.position :=
      Optionally.imp h fun w p hw => Position.ofJson_eq_ok_iff.mpr hw
    exact ⟨_, map_eq_ok_iff.mpr ⟨_, optionally_eq_ok_iff.mpr hread, rfl⟩⟩
  | data =>
    have hread : Optionally (fun w d =>
      w.resolve.mapError (DataError.raw · .inner) = .ok d) (some v)
        goal.info.data :=
      Optionally.imp h fun w d hw => mapError_eq_ok_iff.mpr (Json.resolve_eq_ok_iff.mpr hw)
    exact ⟨_, map_eq_ok_iff.mpr ⟨_, optionally_eq_ok_iff.mpr hread, rfl⟩⟩

/-- The node is made of what the values of the fields denote. -/
theorem finish_congr {kind : Kind} {given : Field → Option Json} {one other : NodeFields}
    (hone : ∀ f ∈ kind.fields, one.Holds f (given f))
    (hother : ∀ f ∈ kind.fields, other.Holds f (given f))
    (missing : String → DataError) : one.finish kind missing = other.finish kind missing := by
  have hstring : ∀ {value : Option Json} {s t : Option String},
    Option.Rel (fun v s => v = .string s) value s →
      Option.Rel (fun v s => v = .string s) value t → s = t := by
    intro value s t hs ht
    cases hs with
    | none => cases ht; rfl
    | some hs => cases ht with
      | some ht => exact congrArg some (Json.string.inj (hs.symm.trans ht))
  -- fields that the kind does not have may differ, so each field is compared under its membership
  have hchildren : .children ∈ kind.fields → one.children = other.children := fun hf =>
    OrElse.unique (hone _ hf) (hother _ hf) fun _ _ _ h h' => Except.ok.inj (h.symm.trans h')
  have hproperties : .properties ∈ kind.fields → one.properties = other.properties := by
    refine fun hf => OrElse.unique (hone _ hf) (hother _ hf) ?_
    rintro _ _ _ ⟨members, values, rfl, hvalues, rfl⟩ ⟨_, others, h, hothers, rfl⟩
    obtain rfl := Json.object.inj h
    have hresolved := Json.resolveMembers_eq_ok_iff.mpr hvalues
    rw [Except.ok.inj (hresolved.symm.trans (Json.resolveMembers_eq_ok_iff.mpr hothers))]
  have hname : .name ∈ kind.fields → one.name = other.name := fun hf =>
    Optionally.unique (hone _ hf) (hother _ hf) fun _ _ _ h h' => Json.string.inj (h.symm.trans h')
  have hinfo : .position ∈ kind.fields → .data ∈ kind.fields → one.info = other.info := by
    intro hposition hdata
    have hp : one.info.position = other.info.position := by
      refine Optionally.unique (hone _ hposition) (hother _ hposition) fun v p q hp hq => ?_
      have hread : Position.ofJson .inner v = .ok p := Position.ofJson_eq_ok_iff.mpr hp
      exact Except.ok.inj (hread.symm.trans (Position.ofJson_eq_ok_iff.mpr hq))
    have hd : one.info.data = other.info.data :=
      Optionally.unique (hone _ hdata) (hother _ hdata) fun _ _ _ h h' =>
        Except.ok.inj (h.resolve_eq.symm.trans h'.resolve_eq)
    calc one.info = ⟨one.info.position, one.info.data⟩ := rfl
      _ = ⟨other.info.position, other.info.data⟩ := by rw [hp, hd]
      _ = other.info := rfl
  cases kind with
  | root => rw [finish, finish, hchildren (by decide), hinfo (by decide) (by decide)]
  | element =>
    rw [finish, finish, hchildren (by decide), hinfo (by decide) (by decide),
      hproperties (by decide),
      hstring (hone .tagName (by decide)) (hother .tagName (by decide))]
  | text =>
    rw [finish, finish, hinfo (by decide) (by decide),
      hstring (hone .value (by decide)) (hother .value (by decide))]
  | comment =>
    rw [finish, finish, hinfo (by decide) (by decide),
      hstring (hone .value (by decide)) (hother .value (by decide))]
  | doctype => rw [finish, finish, hname (by decide), hinfo (by decide) (by decide)]

/-- A node that has been made is of the kind asked for, whatever would have been
said of a missing field. -/
theorem finish_eq_ok {kind : Kind} {missing : String → DataError} {node : Node}
    (h : fields.finish kind missing = .ok node) :
    node.kind = kind ∧ ∀ other, fields.finish kind other = .ok node := by
  obtain ⟨seen, tag, properties, children, value, name, info⟩ := fields
  cases kind with
  | root => exact ⟨Except.ok.inj h ▸ rfl, fun _ => h⟩
  | element =>
    cases tag with
    | none => exact absurd h error_ne_ok
    | some tag => exact ⟨Except.ok.inj h ▸ rfl, fun _ => h⟩
  | text =>
    cases value with
    | none => exact absurd h error_ne_ok
    | some value => exact ⟨Except.ok.inj h ▸ rfl, fun _ => h⟩
  | comment =>
    cases value with
    | none => exact absurd h error_ne_ok
    | some value => exact ⟨Except.ok.inj h ▸ rfl, fun _ => h⟩
  | doctype => exact ⟨Except.ok.inj h ▸ rfl, fun _ => h⟩

end NodeFields

/-! ## The fields of a node -/

namespace Node

open NodeFields (Holds)

variable {kind : Kind} {fields after : NodeFields} {given : Field → Option Json}

/-- The items of a sequence are read as members named for the fields in order. -/
theorem fieldsOfItems_eq {names : List Field} (hnames : ∀ f ∈ names, f ∈ kind.fields)
    (hnodup : names.Nodup) (hseen : ∀ f ∈ names, f ∉ fields.seen) (items : List Json) :
    fieldsOfItems names fields items =
      fieldsOfMembers kind fields ((names.map Field.key).zip items) := by
  -- along the items and the names at once; the names left are those that no item has taken
  induction items generalizing names fields with
  | nil => rw [List.zip_nil_right, fieldsOfItems, fieldsOfMembers]
  | cons v rest ih =>
    cases names with
    | nil => rw [fieldsOfItems, List.map_nil, List.zip_nil_left, fieldsOfMembers]
    | cons field names =>
      obtain ⟨hfield, hnames⟩ := List.forall_mem_cons.mp hnames
      obtain ⟨hnot, hnodup⟩ := List.nodup_cons.mp hnodup
      obtain ⟨hunseen, hseen⟩ := List.forall_mem_cons.mp hseen
      rw [fieldsOfItems_cons, List.map_cons, List.zip_cons_cons, fieldsOfMembers_known hfield,
        if_neg hunseen]
      cases hgather : fields.gather field v with
      | error e => rfl
      | ok after =>
        refine ih hnames hnodup fun f hf => ?_
        have hafter : after.seen = fields.seen := (NodeFields.holds_of_gather hgather).1
        rw [NodeFields.mark, hafter, List.mem_cons, not_or]
        exact ⟨fun heq => hnot (heq ▸ hf), hseen f hf⟩

/-- One more field that has been gathered. -/
theorem holds_update {field : Field} {v : Json} (hgather : fields.gather field v = .ok after)
    (hseen : ∀ f, f ∈ fields.seen ↔ (given f).isSome) :
    (∀ f, f ∈ (after.mark field).seen ↔ (Function.update given field (some v) f).isSome) ∧
      ∀ f, fields.Holds f (given f) →
        (after.mark field).Holds f (Function.update given field (some v) f) := by
  obtain ⟨hafter, hfield, hothers⟩ := NodeFields.holds_of_gather hgather
  constructor
  · intro f
    rw [NodeFields.mark, hafter, List.mem_cons, hseen]
    by_cases hf : f = field
    · subst hf
      simp
    · simp [hf]
  · intro f hf
    by_cases hne : f = field
    · subst hne
      rw [Function.update_self]
      exact hfield
    · rw [Function.update_of_ne hne]
      exact hothers f hne _ hf

/-- The values of a field that has been given once more come before those of the
rest. -/
theorem toList_update_append {field : Field} (hnone : given field = none) (v : Json)
    (rest : Members) (f : Field) :
    (Function.update given field (some v) f).toList ++ rest.valuesOf f.key =
      (given f).toList ++ Members.valuesOf ((field.key, v) :: rest) f.key := by
  by_cases hf : f = field
  · subst hf
    rw [Function.update_self, hnone, Members.valuesOf_cons_self]
    rfl
  · have hkey : field.key ≠ f.key := fun heq => hf (Field.key_injective heq).symm
    rw [Function.update_of_ne hf, Members.valuesOf_cons_ne hkey]

/-- What is gathered from members is what the members with the names of the
fields denote. -/
theorem holds_of_fieldsOfMembers {members : Members}
    (hseen : ∀ f, f ∈ fields.seen ↔ (given f).isSome)
    (hholds : ∀ f ∈ kind.fields, fields.Holds f (given f))
    (hread : fieldsOfMembers kind fields members = .ok after) :
    ∃ known : Field → Option Json, (∀ f ∈ kind.fields, after.Holds f (known f)) ∧
      ∀ f ∈ kind.fields, (given f).toList ++ members.valuesOf f.key = (known f).toList := by
  -- along the members: unknown keys change nothing, known ones add one value to what is given
  induction members generalizing fields given with
  | nil =>
    obtain rfl := Except.ok.inj hread
    exact ⟨given, hholds, fun f _ => List.append_nil _⟩
  | cons m rest ih =>
    obtain ⟨key, v⟩ := m
    cases hkey : kind.field? key with
    | none =>
      rw [fieldsOfMembers_unknown hkey] at hread
      obtain ⟨known, hknown, hvalues⟩ := ih hseen hholds hread
      refine ⟨known, hknown, fun f hf => ?_⟩
      rw [Members.valuesOf_cons_ne (Kind.key_ne_of_field?_eq_none hkey hf)]
      exact hvalues f hf
    | some field =>
      obtain ⟨hfield, rfl⟩ := Kind.field?_eq_some_iff.mp hkey
      rw [fieldsOfMembers_known hfield] at hread
      split at hread
      next => exact absurd hread error_ne_ok
      next hunseen =>
        obtain ⟨gathered, hgather, hread⟩ := bind_eq_ok hread
        obtain ⟨hseen', hholds'⟩ := holds_update hgather hseen
        obtain ⟨known, hknown, hvalues⟩ := ih hseen' (fun f hf => hholds' f (hholds f hf)) hread
        have hnone : given field = none := by
          rwa [hseen, Option.not_isSome_iff_eq_none] at hunseen
        refine ⟨known, hknown, fun f hf => ?_⟩
        rw [← toList_update_append hnone, hvalues f hf]

/-- Members that give each field at most once, and a value that denotes
something, are gathered. -/
theorem exists_fieldsOfMembers {members : Members} {goal : NodeFields} {known : Field → Option Json}
    (hgoal : ∀ f ∈ kind.fields, goal.Holds f (known f))
    (hseen : ∀ f, f ∈ fields.seen ↔ (given f).isSome)
    (hholds : ∀ f ∈ kind.fields, fields.Holds f (given f))
    (hvalues : ∀ f ∈ kind.fields, (given f).toList ++ members.valuesOf f.key = (known f).toList) :
    ∃ after, fieldsOfMembers kind fields members = .ok after ∧ ∀ f ∈ kind.fields,
      after.Holds f (known f) := by
  induction members generalizing fields given with
  | nil =>
    refine ⟨fields, by rw [fieldsOfMembers], fun f hf => ?_⟩
    have hsame := hvalues f hf
    rw [Members.valuesOf_nil, List.append_nil] at hsame
    rw [← eq_of_toList_eq hsame]
    exact hholds f hf
  | cons m rest ih =>
    obtain ⟨key, v⟩ := m
    cases hkey : kind.field? key with
    | none =>
      rw [fieldsOfMembers_unknown hkey]
      refine ih hseen hholds fun f hf => ?_
      rw [← hvalues f hf, Members.valuesOf_cons_ne (Kind.key_ne_of_field?_eq_none hkey hf)]
    | some field =>
      obtain ⟨hfield, rfl⟩ := Kind.field?_eq_some_iff.mp hkey
      have hfirst := hvalues field hfield
      rw [Members.valuesOf_cons_self] at hfirst
      -- a field holds one value at most, so this one is the first and the last
      cases hnone : given field with
      | some w =>
        rw [hnone] at hfirst
        cases hknown : known field <;> simp [hknown] at hfirst
      | none =>
        have hv : known field = some v := by
          rw [hnone] at hfirst
          cases hknown : known field with
          | none => exact absurd (hknown ▸ hfirst) (List.cons_ne_nil v _)
          | some w =>
            rw [hknown] at hfirst
            rw [(List.cons.inj hfirst).1]
        obtain ⟨gathered, hgather⟩ := NodeFields.exists_gather (hv ▸ hgoal field hfield) fields
        obtain ⟨hseen', hholds'⟩ := holds_update hgather hseen
        have hunseen : field ∉ fields.seen := by
          rw [hseen, hnone]
          exact Bool.false_ne_true
        rw [fieldsOfMembers_known hfield, if_neg hunseen, hgather]
        refine ih hseen' (fun f hf => hholds' f (hholds f hf)) fun f hf => ?_
        rw [toList_update_append hnone, hvalues f hf]

end Node

end Graft
