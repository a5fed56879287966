import Graft.Proofs.Tree.Gathering

/-!
# Trees are read exactly by their grammar

This module proves that the reader of nodes (`node_from_value`) accepts exactly
the values that denote a node by the grammar of `Graft.Proofs.Tree.Grammar`, and
gives this node. Nothing is assumed of the value: keys may come in any order,
unknown ones between them, the node may be an array, and the data of a node may
hold raw values at any depth.

First comes the kind, which one member of an object names, or the first item of
an array (`kindOfMembers_eq_ok_iff`). The kind says which fields there are, and
`Graft.Proofs.Tree.Gathering` says what is gathered of them. Both forms of a
record then come down to `Gathers`, one level of the grammar: an array is read as
the object that names its items for the fields in order. `gathers_iff_denotes`
opens this level for each kind of node, and the recursion over the children is
the one of the reader (`ofJson_eq_ok_iff` with `nodesOfItems_eq_ok_iff`).

Within this grammar a node on its own names its kind, and a node inside another
one may also number it: values below the outermost node have been buffered by
then, and a buffered kind may be an index. The last section leads back to values
as they are written: where no raw key occurs a value stands for itself, and the
relation may be weakened from "stands for" to "is".

Main statements:
- `Kind.ofJson_eq_ok_iff`, `kindOfMembers_eq_ok_iff`: which values give a kind,
  and which objects;
- `Node.ofJson_array_eq_ok_iff`: an array is read as the object that names its
  items;
- `Node.ofJson_eq_ok_iff`: a value is read as a node exactly if it denotes this
  node;
- `Node.ofJson_eq_ok_iff_of_sameFields`: the form of a record does not matter.
-/

namespace Graft

/-! ## Kinds -/

/-- Whether a value names a kind. -/
def Kind.Named (_ : Site) (v : Json) (kind : Kind) : Prop := v = .string kind.name

/-- Whether a value gives a kind: by its name, or inside another node by its
number. -/
def Kind.Given (site : Site) (v : Json) (kind : Kind) : Prop :=
  v = .string kind.name ∨ site = .inner ∧ ∃ n, Kind.all[n]? = some kind ∧ v = natJson n

/-- The five names of the kinds are told apart, and no other text is one. -/
theorem Kind.ofName?_eq_some_iff {s : String} {kind : Kind} :
    Kind.ofName? s = some kind ↔ s = kind.name := by
  constructor
  · intro h
    have hname := List.find?_some h
    exact (of_decide_eq_true hname).symm
  · rintro rfl
    exact ofName?_name kind

/-- A value gives a kind exactly if it is the name of it, or, inside another
node, its number. -/
theorem Kind.ofJson_eq_ok_iff {site : Site} {v : Json} {kind : Kind} :
    Kind.ofJson site v = .ok kind ↔ Kind.Given site v kind := by
  constructor
  · intro h
    unfold ofJson at h
    split at h
    next s =>
      split at h
      next found hfound =>
        obtain rfl := Except.ok.inj h
        exact .inl (congrArg Json.string (ofName?_eq_some_iff.mp hfound))
      next => exact absurd h error_ne_ok
    next n =>
      split at h
      next hsite =>
        split at h
        next found hfound =>
          obtain rfl := Except.ok.inj h
          refine .inr ⟨hsite.1, n.toNat, hfound, ?_⟩
          rw [natJson, Int.toNat_of_nonneg hsite.2]
        next => exact absurd h error_ne_ok
      next => exact absurd h error_ne_ok
    next => exact absurd h error_ne_ok
  · rintro (rfl | ⟨rfl, n, hn, rfl⟩)
    · exact ofJson_name site kind
    · rw [natJson, ofJson, if_pos ⟨rfl, Int.natCast_nonneg n⟩, Int.toNat_natCast, hn]

/-- The kind of an object is given by its only member named for it. -/
theorem kindOfMembers_eq_ok_iff {site : Site} {found : Option Kind} {members : Members}
    {kind : Kind} :
    kindOfMembers site found members = .ok kind ↔
      (found = some kind ∧ members.valuesOf "type" = []) ∨
        (found = none ∧ ∃ tag, members.valuesOf "type" = [tag] ∧
          Kind.ofJson site tag = .ok kind) := by
  induction members generalizing found with
  | nil => cases found <;> simp [kindOfMembers]
  | cons m rest ih =>
    obtain ⟨key, v⟩ := m
    by_cases hkey : key = "type"
    · subst hkey
      rw [Members.valuesOf_cons_self]
      cases found with
      | some found => simp [kindOfMembers]
      | none =>
        rw [kindOfMembers, if_pos rfl, bind_eq_ok_iff]
        constructor
        · rintro ⟨found, hfound, hrest⟩
          rcases ih.mp hrest with ⟨heq, hvalues⟩ | ⟨hnone, -⟩
          · obtain rfl := Option.some.inj heq
            exact .inr ⟨rfl, v, by rw [hvalues], hfound⟩
          · exact absurd hnone (Option.some_ne_none found)
        · rintro (⟨hnone, -⟩ | ⟨-, tag, hvalues, htag⟩)
          · exact absurd hnone.symm (Option.some_ne_none kind)
          · obtain ⟨rfl, hnil⟩ := List.cons.inj hvalues
            exact ⟨kind, htag, ih.mpr (.inl ⟨rfl, hnil⟩)⟩
    · rw [kindOfMembers.eq_def]
      dsimp only
      rw [if_neg hkey, Members.valuesOf_cons_ne hkey]
      exact ih

namespace Node

open NodeFields (Holds)

/-! ## Nodes -/

/-- Whether a value gives the kind of a node, and its fields what the node is
made of. -/
def Gathers (site : Site) (v : Json) (node : Node) : Prop :=
  ∃ tag known fields,
    v.HasFields ("type" :: node.kind.fields.map Field.key)
    (some tag :: node.kind.fields.map known) ∧
    Kind.Given site tag node.kind ∧ (∀ f ∈ node.kind.fields, Holds fields f (known f)) ∧
      ∀ missing, fields.finish node.kind missing = .ok node

/-- An object is read as a node exactly if one member names the kind and the
rest can be gathered for it. The order in which they stand does not show in what
is gathered. -/
theorem ofJson_object_eq_ok_iff {site : Site} {members : Members} {node : Node} :
    ofJson site (.object members) = .ok node ↔ Gathers site (.object members) node := by
  have hempty : ∀ f, f ∈ ({} : NodeFields).seen ↔ (none : Option Json).isSome := by simp
  rw [ofJson]
  constructor
  · intro h
    obtain ⟨kind, hkind, h⟩ := bind_eq_ok h
    obtain ⟨fields, hfields, hfinish⟩ := bind_eq_ok h
    obtain ⟨rfl, hnode⟩ := NodeFields.finish_eq_ok hfinish
    obtain ⟨hnone, -⟩ | ⟨-, tag, htag, hkind⟩ := kindOfMembers_eq_ok_iff.mp hkind
    · exact absurd hnone.symm (Option.some_ne_none node.kind)
    · obtain ⟨known, hknown, hvalues⟩ := holds_of_fieldsOfMembers hempty
        (fun f _ => NodeFields.holds_empty f) hfields
      refine ⟨tag, known, fields, Json.hasFields_object.mpr ?_, Kind.ofJson_eq_ok_iff.mp hkind,
        hknown, hnode⟩
      rw [List.map_cons, List.map_cons, htag, List.map_map, List.map_map]
      exact congrArg _ (List.map_congr_left hvalues)
  · rintro ⟨tag, known, goal, hv, hkind, hgoal, hnode⟩
    obtain ⟨htag, hvalues⟩ := List.cons.inj (Json.hasFields_object.mp hv)
    rw [List.map_map, List.map_map, List.map_inj_left] at hvalues
    obtain ⟨fields, hfields, hknown⟩ := exists_fieldsOfMembers hgoal hempty
      (fun f _ => NodeFields.holds_empty f) hvalues
    rw [kindOfMembers_eq_ok_iff.mpr (.inr ⟨rfl, tag, htag, Kind.ofJson_eq_ok_iff.mpr hkind⟩)]
    show (fieldsOfMembers node.kind {} members).bind _ = _
    rw [hfields]
    show fields.finish node.kind _ = _
    rw [NodeFields.finish_congr hknown hgoal]
    exact hnode _

/-- The object that names a tag and the items behind it for the fields of a kind
in order. -/
def named (kind : Kind) (tag : Json) (items : List Json) : Members :=
  ("type", tag) :: (kind.fields.map Field.key).zip items

/-- The tag of an array takes the part of the member that names the kind. -/
theorem kindOfMembers_named (site : Site) (kind : Kind) (tag : Json) (items : List Json) :
    kindOfMembers site none (named kind tag items) = Kind.ofJson site tag := by
  have hnot : "type" ∉ ((kind.fields.map Field.key).zip items).map Prod.fst := by
    intro hmem
    obtain ⟨m, hm, hkey⟩ := List.mem_map.mp hmem
    obtain ⟨f, -, hf⟩ := List.mem_map.mp (List.of_mem_zip (b := m.2) hm).1
    exact f.key_ne_type (hf.trans hkey)
  rw [named, kindOfMembers, if_pos rfl]
  cases Kind.ofJson site tag with
  | error e => rfl
  | ok found => exact kindOfMembers_of_not_mem site found hnot

/-- Named for the fields in order, the items of an array are gathered as the
array would be. -/
theorem fieldsOfMembers_named (kind : Kind) (tag : Json) (items : List Json) :
    fieldsOfMembers kind {} (named kind tag items) = fieldsOfItems kind.fields {} items := by
  rw [named, fieldsOfMembers_unknown kind.field?_type]
  exact (fieldsOfItems_eq (fun _ hf => hf) kind.nodup_fields (fun _ _ =>
    List.not_mem_nil) items).symm

/-- An array is read as the object that names its items. -/
theorem ofJson_array_eq_ok_iff {site : Site} {tag : Json} {items : List Json} {node : Node} :
    ofJson site (.array (tag :: items)) = .ok node ↔
      items.length ≤ node.kind.fields.length ∧
        ofJson site (.object (named node.kind tag items)) = .ok node := by
  have hsize : ∀ kind : Kind, (Shape.node kind).nameAndSize.2 = kind.fields.length := by
    intro kind
    cases kind <;> rfl
  rw [ofJson, ofJson, kindOfMembers_named]
  -- what the array adds is the check on its length, made before and after the items are read
  constructor
  · intro h
    obtain ⟨kind, hkind, h⟩ := bind_eq_ok h
    obtain ⟨fields, hfields, h⟩ := bind_eq_ok h
    obtain ⟨found, hfinish, h⟩ := bind_eq_ok h
    obtain ⟨_, hlength, rfl⟩ := map_eq_ok h
    obtain ⟨rfl, hnode⟩ := NodeFields.finish_eq_ok hfinish
    refine ⟨hsize _ ▸ checkLength_eq_ok_iff.mp hlength, ?_⟩
    rw [hkind]
    show (fieldsOfMembers _ {} _).bind _ = _
    rw [fieldsOfMembers_named, hfields]
    exact hnode _
  · rintro ⟨hlength, h⟩
    obtain ⟨kind, hkind, h⟩ := bind_eq_ok h
    obtain ⟨fields, hfields, hfinish⟩ := bind_eq_ok h
    obtain ⟨rfl, hnode⟩ := NodeFields.finish_eq_ok hfinish
    rw [hkind]
    show (fieldsOfItems _ {} items).bind _ = _
    rw [← fieldsOfMembers_named, hfields]
    show (fields.finish _ _).bind _ = _
    rw [hnode]
    show (checkLength _ _ _).map _ = _
    rw [checkLength_eq_ok_iff.mpr (hsize _ ▸ hlength)]
    rfl

/-- What the reader makes of a value, one level deep. -/
theorem ofJson_eq_ok_iff_gathers {site : Site} {v : Json} {node : Node} :
    ofJson site v = .ok node ↔ Gathers site v node := by
  have hnodup : ("type" :: node.kind.fields.map Field.key).Nodup := by
    cases node.kind <;> decide
  cases v with
  | object members => exact ofJson_object_eq_ok_iff
  | array items =>
    have hfields := Json.hasFields_array hnodup items
    have harray : Gathers site (.array items) node ↔ items.length ≤ node.kind.fields.length + 1 ∧
        Gathers site (.object (("type" :: node.kind.fields.map Field.key).zip items)) node := by
      rw [List.length_cons, List.length_map] at hfields
      constructor
      · rintro ⟨tag, known, fields, hv, hnode⟩
        obtain ⟨hlength, hv⟩ := (hfields _).mp hv
        exact ⟨hlength, tag, known, fields, hv, hnode⟩
      · rintro ⟨hlength, tag, known, fields, hv, hnode⟩
        exact ⟨tag, known, fields, (hfields _).mpr ⟨hlength, hv⟩, hnode⟩
    cases items with
    | nil =>
      refine ⟨fun h => absurd h error_ne_ok, fun h => ?_⟩
      obtain ⟨-, tag, known, fields, hv, -⟩ := harray.mp h
      exact absurd (List.cons.inj (Json.hasFields_object.mp hv)).1 (List.cons_ne_nil tag []).symm
    | cons tag items =>
      rw [ofJson_array_eq_ok_iff, ofJson_object_eq_ok_iff, harray, List.length_cons,
        Nat.add_le_add_iff_right]
      rfl
  | _ => exact ⟨fun h => absurd h error_ne_ok, fun ⟨_, _, _, hv, _⟩ => nomatch hv⟩

/-- The form of a record does not matter: values that give the fields of a node
alike are read alike. -/
theorem ofJson_eq_ok_iff_of_sameFields {site : Site} {v w : Json} {node : Node}
    (hfields : ∀ values, v.HasFields ("type" :: node.kind.fields.map Field.key) values ↔
      w.HasFields ("type" :: node.kind.fields.map Field.key) values) :
    ofJson site v = .ok node ↔ ofJson site w = .ok node := by
  rw [ofJson_eq_ok_iff_gathers, ofJson_eq_ok_iff_gathers]
  simp only [Gathers, hfields]

/-! ## The grammar -/

section

variable {kinds : Site → Json → Kind → Prop} {taken : Json → Json → Prop} {site : Site} {v : Json}
  {node : Node}

/-- The children of a node are read from the items of an array; an absent field
is none. -/
theorem childrenDenote_iff {value : Option Json} {nodes : List Node}
    (hitems : ∀ items, nodesOfItems items = .ok nodes ↔ ItemsDenote kinds taken items nodes) :
    OrElse (fun v nodes => childrenOfJson v = .ok nodes) [] value nodes ↔
      ChildrenDenote kinds taken value nodes := by
  constructor
  · intro h
    cases h with
    | absent => exact .absent
    | @given v _ h =>
      cases v with
      | array items => exact .given ((hitems items).mp h)
      | _ => exact absurd h error_ne_ok
  · intro h
    cases h with
    | absent => exact .absent
    | given h => exact .given ((hitems _).mpr h)

theorem eq_of_rel_string {value : Option Json} {s : String}
    (h : Option.Rel (fun v s => v = .string s) value (some s)) : value = some (.string s) := by
  cases h with
  | some h => rw [h]

/-- The base of the recursion over the children: no nodes are read from no items
alone. -/
theorem nodesOfItems_eq_ok_nil_iff (items : List Json) :
    nodesOfItems items = .ok [] ↔ ItemsDenote kinds taken items [] := by
  cases items with
  | nil => exact ⟨fun _ => .nil, fun _ => rfl⟩
  | cons v rest =>
    refine ⟨fun h => ?_, nofun⟩
    obtain ⟨node, -, h⟩ := bind_eq_ok h
    obtain ⟨nodes, -, h⟩ := map_eq_ok h
    exact absurd h (List.cons_ne_nil node nodes)

/-- The values of fields, where they are given. -/
structure FieldValues where
  tagName : Option Json := none
  properties : Option Json := none
  children : Option Json := none
  value : Option Json := none
  name : Option Json := none
  position : Option Json := none
  data : Option Json := none

/-- The value of a field. -/
def FieldValues.of (values : FieldValues) : Field → Option Json
  | .tagName => values.tagName
  | .properties => values.properties
  | .children => values.children
  | .value => values.value
  | .name => values.name
  | .position => values.position
  | .data => values.data

/-- What the grammar says of one kind of node is what is gathered for it. -/
theorem gathers_iff_denotes
    (hitems : ∀ items, nodesOfItems items = .ok node.children ↔
      ItemsDenote Kind.Given Json.StandsFor items node.children) :
    Gathers site v node ↔ Denotes Kind.Given Json.StandsFor site v node := by
  have hchildren : ∀ value,
    OrElse (fun v nodes => childrenOfJson v = .ok nodes) [] value node.children ↔
      ChildrenDenote Kind.Given Json.StandsFor value node.children :=
        fun _ => childrenDenote_iff hitems
  constructor
  · rintro ⟨tag, known, ⟨seen, name, properties, children, value, doctype, info⟩, hv, hkind,
      hholds, hnode⟩
    have hnode := hnode .missingField
    -- for each kind, what is gathered of a field is taken apart and put together as the grammar
    -- says it
    cases node with
    | root nodes info =>
      obtain ⟨rfl, rfl⟩ := root.inj (Except.ok.inj hnode)
      simp only [kind, Kind.fields, List.forall_mem_cons] at hholds
      obtain ⟨hnodes, hposition, hdata, -⟩ := hholds
      exact .root hv hkind ((hchildren _).mp hnodes) ⟨hposition, hdata⟩
    | element tagName merged nodes info =>
      simp only [kind, Kind.fields, List.forall_mem_cons] at hholds
      obtain ⟨hname, hproperties, hnodes, hposition, hdata, -⟩ := hholds
      cases name with
      | none => exact absurd hnode error_ne_ok
      | some name =>
        obtain ⟨rfl, rfl, rfl, rfl⟩ := element.inj (Except.ok.inj hnode)
        refine .element ?_ hkind hproperties ((hchildren _).mp hnodes) ⟨hposition, hdata⟩
        rw [← eq_of_rel_string hname]
        exact hv
    | text text info =>
      simp only [kind, Kind.fields, List.forall_mem_cons] at hholds
      obtain ⟨hvalue, hposition, hdata, -⟩ := hholds
      cases value with
      | none => exact absurd hnode error_ne_ok
      | some value =>
        obtain ⟨rfl, rfl⟩ := Node.text.inj (Except.ok.inj hnode)
        refine .text ?_ hkind ⟨hposition, hdata⟩
        rw [← eq_of_rel_string hvalue]
        exact hv
    | comment text info =>
      simp only [kind, Kind.fields, List.forall_mem_cons] at hholds
      obtain ⟨hvalue, hposition, hdata, -⟩ := hholds
      cases value with
      | none => exact absurd hnode error_ne_ok
      | some value =>
        obtain ⟨rfl, rfl⟩ := comment.inj (Except.ok.inj hnode)
        refine .comment ?_ hkind ⟨hposition, hdata⟩
        rw [← eq_of_rel_string hvalue]
        exact hv
    | doctype name info =>
      obtain ⟨rfl, rfl⟩ := Node.doctype.inj (Except.ok.inj hnode)
      simp only [kind, Kind.fields, List.forall_mem_cons] at hholds
      obtain ⟨hname, hposition, hdata, -⟩ := hholds
      exact .doctype hv hkind hname ⟨hposition, hdata⟩
  · intro h
    cases h with
    | @root _ _ tag children position data nodes info hv hkind hnodes hinfo =>
      refine ⟨tag, FieldValues.of { children, position, data }, { children := nodes, info },
        hv, hkind, ?_, fun _ => rfl⟩
      simp only [kind, Kind.fields, List.forall_mem_cons, List.not_mem_nil, false_implies,
        implies_true, and_true]
      exact ⟨(hchildren _).mpr hnodes, hinfo.position, hinfo.data⟩
    | @element _ _ tag name properties children position data merged nodes info hv hkind hproperties
      hnodes hinfo =>
      refine ⟨tag,
        FieldValues.of { tagName := some (.string name), properties, children, position, data },
        { tagName := some name, properties := merged, children := nodes, info },
        hv, hkind, ?_, fun _ => rfl⟩
      simp only [kind, Kind.fields, List.forall_mem_cons, List.not_mem_nil, false_implies,
        implies_true, and_true]
      exact ⟨.some rfl, hproperties, (hchildren _).mpr hnodes, hinfo.position, hinfo.data⟩
    | @text _ _ tag value position data info hv hkind hinfo =>
      refine ⟨tag, FieldValues.of { value := some (.string value), position, data },
        { value := some value, info },
        hv, hkind, ?_, fun _ => rfl⟩
      simp only [kind, Kind.fields, List.forall_mem_cons, List.not_mem_nil, false_implies,
        implies_true, and_true]
      exact ⟨.some rfl, hinfo.position, hinfo.data⟩
    | @comment _ _ tag value position data info hv hkind hinfo =>
      refine ⟨tag, FieldValues.of { value := some (.string value), position, data },
        { value := some value, info },
        hv, hkind, ?_, fun _ => rfl⟩
      simp only [kind, Kind.fields, List.forall_mem_cons, List.not_mem_nil, false_implies,
        implies_true, and_true]
      exact ⟨.some rfl, hinfo.position, hinfo.data⟩
    | @doctype _ _ tag named position data name info hv hkind hname hinfo =>
      refine ⟨tag, FieldValues.of { name := named, position, data }, { name, info }, hv, hkind, ?_,
        fun _ => rfl⟩
      simp only [kind, Kind.fields, List.forall_mem_cons, List.not_mem_nil, false_implies,
        implies_true, and_true]
      exact ⟨hname, hinfo.position, hinfo.data⟩

end

mutual

/-- A value is read as a node exactly if it denotes this node, on its own or
inside another node. -/
theorem ofJson_eq_ok_iff (site : Site) (v : Json) :
    ∀ node : Node, ofJson site v = .ok node ↔ Denotes Kind.Given Json.StandsFor site v node
  | .root nodes info =>
    ofJson_eq_ok_iff_gathers.trans (gathers_iff_denotes fun items =>
      nodesOfItems_eq_ok_iff items nodes)
  | .element tag properties nodes info =>
    ofJson_eq_ok_iff_gathers.trans (gathers_iff_denotes fun items =>
      nodesOfItems_eq_ok_iff items nodes)
  | .text value info =>
    ofJson_eq_ok_iff_gathers.trans (gathers_iff_denotes nodesOfItems_eq_ok_nil_iff)
  | .comment value info =>
    ofJson_eq_ok_iff_gathers.trans (gathers_iff_denotes nodesOfItems_eq_ok_nil_iff)
  | .doctype name info =>
    ofJson_eq_ok_iff_gathers.trans (gathers_iff_denotes nodesOfItems_eq_ok_nil_iff)

/-- Items are read as nodes exactly if they denote these nodes. -/
theorem nodesOfItems_eq_ok_iff (items : List Json) :
    ∀ nodes : List Node, nodesOfItems items = .ok nodes ↔
      ItemsDenote Kind.Given Json.StandsFor items nodes
  | [] => nodesOfItems_eq_ok_nil_iff items
  | node :: nodes => by
    cases items with
    | nil => exact ⟨nofun, nofun⟩
    | cons v rest =>
      rw [nodesOfItems]
      constructor
      · intro h
        obtain ⟨found, hfound, h⟩ := bind_eq_ok h
        obtain ⟨others, hothers, h⟩ := map_eq_ok h
        obtain ⟨rfl, rfl⟩ := List.cons.inj h
        exact .cons ((ofJson_eq_ok_iff .inner v found).mp hfound)
          ((nodesOfItems_eq_ok_iff rest others).mp hothers)
      · intro h
        cases h with
        | cons hnode hnodes =>
          rw [(ofJson_eq_ok_iff .inner v node).mpr hnode,
            (nodesOfItems_eq_ok_iff rest nodes).mpr hnodes]
          rfl

end

/-! ## Kinds by name, and values as they are written -/

section

variable {kinds more : Site → Json → Kind → Prop}

/-- Where no object begins with the key of raw texts, a value stands for what it
is written as. -/
theorem standsFor_of_asWritten {v w : Json} (hfree : v.RawFree) (h : v.AsWritten w) :
    v.StandsFor w :=
  (Json.standsFor_iff_of_rawFree hfree).mpr h

/-- Without raw keys inside, the values of the properties stand for themselves. -/
theorem denotesProperties_of_rawFree {v : Json} {properties : Members} (hfree : v.RawFree)
    (h : v.DenotesProperties Json.AsWritten properties) :
    v.DenotesProperties Json.StandsFor properties := by
  obtain ⟨members, values, rfl, hvalues, rfl⟩ := h
  refine ⟨members, values, rfl, ?_, rfl⟩
  obtain ⟨-, hfree⟩ := hfree
  induction hvalues with
  | nil => exact .nil
  | cons hm _ ih =>
    obtain ⟨hfirst, hrest⟩ := hfree
    exact .cons ⟨hm.1, standsFor_of_asWritten hfirst hm.2⟩ (ih hrest)

theorem rawFree_of_hasFields {names : List String} {v : Json} {values : List (Option Json)}
    (hfree : v.RawFree) (hv : v.HasFields names values) {value : Option Json}
    (hmem : value ∈ values) : ∀ w, value = some w → w.RawFree :=
  fun _ heq => hfree.of_mem_parts (hv.mem_parts (heq ▸ hmem))

/-- The same of the data of a node. Positions hold numbers only and are not
concerned. -/
theorem denotedBy_of_rawFree {info : Info} {position data : Option Json}
    (hfree : ∀ w, data = some w → w.RawFree) (h : info.DenotedBy Json.AsWritten position data) :
    info.DenotedBy Json.StandsFor position data := by
  obtain ⟨given, taken⟩ := info
  obtain ⟨hposition, hdata⟩ := h
  cases hdata with
  | absent => exact ⟨hposition, .absent⟩
  | null => exact ⟨hposition, .null⟩
  | given hne hd => exact ⟨hposition, .given hne (standsFor_of_asWritten (hfree _ rfl) hd)⟩

mutual

/-- Where no object begins with the key of raw texts, a value that denotes a
node as it is written denotes this node, also where more may give the kind. -/
theorem Denotes.of_asWritten (hi : ∀ site v kind, kinds site v kind → more site v kind)
    {site : Site} {v : Json} (hfree : v.RawFree) : ∀ {node : Node},
      Denotes kinds Json.AsWritten site v node → Denotes more Json.StandsFor site v node
  | _, .root hv hkind hchildren hinfo =>
    .root hv (hi _ _ _ hkind) (hchildren.of_asWritten hi (rawFree_of_hasFields hfree hv (by simp)))
      (denotedBy_of_rawFree (rawFree_of_hasFields hfree hv (by simp)) hinfo)
  | _, .element hv hkind hproperties hchildren hinfo => by
    refine .element hv (hi _ _ _ hkind) ?_
      (hchildren.of_asWritten hi (rawFree_of_hasFields hfree hv (by simp)))
      (denotedBy_of_rawFree (rawFree_of_hasFields hfree hv (by simp)) hinfo)
    cases hproperties with
    | absent => exact .absent
    | @given w _ h =>
      have hw : w.RawFree := hfree.of_mem_parts (hv.mem_parts (by simp))
      exact .given (denotesProperties_of_rawFree hw h)
  | _, .text hv hkind hinfo =>
    .text hv (hi _ _ _ hkind)
      (denotedBy_of_rawFree (rawFree_of_hasFields hfree hv (by simp)) hinfo)
  | _, .comment hv hkind hinfo =>
    .comment hv (hi _ _ _ hkind)
      (denotedBy_of_rawFree (rawFree_of_hasFields hfree hv (by simp)) hinfo)
  | _, .doctype hv hkind hname hinfo =>
    .doctype hv (hi _ _ _ hkind) hname
      (denotedBy_of_rawFree (rawFree_of_hasFields hfree hv (by simp)) hinfo)

theorem ChildrenDenote.of_asWritten (hi : ∀ site v kind, kinds site v kind → more site v kind)
    {value : Option Json} (hfree : ∀ w, value = some w → w.RawFree) {nodes : List Node} :
    ChildrenDenote kinds Json.AsWritten value nodes → ChildrenDenote more Json.StandsFor value nodes
  | .absent => .absent
  | .given hitems => .given (hitems.of_asWritten hi (hfree _ rfl))

theorem ItemsDenote.of_asWritten (hi : ∀ site v kind, kinds site v kind → more site v kind)
    {items : List Json} (hfree : Json.AreRawFree items) {nodes : List Node} :
    ItemsDenote kinds Json.AsWritten items nodes → ItemsDenote more Json.StandsFor items nodes
  | .nil => .nil
  | .cons h hrest => .cons (h.of_asWritten hi hfree.1) (hrest.of_asWritten hi hfree.2)

end

end

/-- A value is read as a node exactly if it denotes this node, where a node
inside another one may number its kind, and a value in properties or data is
taken over as what it stands for. So every value that denotes a node by the
names of kinds alone, with properties and data as they are written, is read as
this node, if no object in it begins with the key of raw texts. -/
theorem reads_grammar (site : Site) (v : Json) (node : Node) :
    (ofJson site v = .ok node ↔ Denotes Kind.Given Json.StandsFor site v node) ∧
      (v.RawFree → Denotes Kind.Named Json.AsWritten site v node → ofJson site v = .ok node) := by
  have hread := ofJson_eq_ok_iff site v node
  exact ⟨hread, fun hfree h => hread.mpr (h.of_asWritten (fun _ _ _ hnamed => .inl hnamed) hfree)⟩

/-- An element in an array, inside a root in an object that gives its kind last. -/
theorem reads_grammar_mixed :
    let v : Json := .object [("lang", .null),
      ("children", .array [.array [.string "element", .string "p"]]), ("type", .string "root")]
    v.RawFree ∧ Denotes Kind.Named Json.AsWritten .outer v (ofChildren [ofTag "p" []]) ∧
      ofJson .outer v = .ok (ofChildren [ofTag "p" []]) := by
  intro v
  have hfree : v.RawFree := by
    simp [v, Json.RawFree, Json.AreRawFree, Members.AreRawFree, Members.raw?, Json.rawKey]
  have hinner : Denotes Kind.Named Json.AsWritten .inner (.array [.string "element", .string "p"])
      (ofTag "p" []) :=
    .element (@Json.HasFields.array _ _ 4 rfl) rfl .absent .absent ⟨.absent, .absent⟩
  have houter : Denotes Kind.Named Json.AsWritten .outer v (ofChildren [ofTag "p" []]) :=
    .root (.object rfl) rfl (.given (.cons hinner .nil)) ⟨.absent, .absent⟩
  exact ⟨hfree, houter, (reads_grammar .outer v _).2 hfree houter⟩

/-- A text inside a root that gives its kind by number is read, though it
denotes no node by the names of kinds. -/
theorem reads_numbered_kind :
    let v : Json := .object [("type", .string "root"),
      ("children", .array [.object [("type", natJson 2), ("value", .string "x")]])]
    ofJson .outer v = .ok (ofChildren [ofText "x"]) ∧
      ¬ Denotes Kind.Named Json.AsWritten .outer v (ofChildren [ofText "x"]) := by
  refine ⟨rfl, fun h => ?_⟩
  cases h with
  | root hv hkind hchildren hinfo =>
    cases hchildren with
    | given hitems =>
      cases hitems with
      | cons hnode hrest =>
        cases hnode with
        | text hw hnamed hinner =>
          -- the fields of both objects are there once, so the kind of the text is the number
          obtain ⟨-, houter⟩ := List.cons.inj (Json.hasFields_object.mp hv)
          obtain ⟨hitems, -⟩ := List.cons.inj houter
          obtain rfl := (List.cons.inj (Json.array.inj (List.cons.inj hitems).1)).1
          obtain ⟨hnumber, -⟩ := List.cons.inj (Json.hasFields_object.mp hw)
          exact Json.noConfusion ((List.cons.inj hnumber).1.trans hnamed)

end Node

end Graft
