import Graft.Proofs.Json.Raw
import Graft.Proofs.Tree.Reading
import Graft.Tree.Encode

/-!
# Writing a tree as JSON and reading it back

The JSON form of a tree (`to_value` of a node) spells out what belongs to each
node, and leaves out what the node lacks. A reader (`from_value`) takes both for
what they are, with two exceptions, both in the data of a node.

One is null. It is written like any other data, and reads as no data at all;
whatever else the tree holds comes back (`Node.withoutNullData`). Of a value in
which no object begins with the key of raw texts nothing is read that has such
data, so what has been read of it once is not changed by being written and read
again.

The other is the key of raw texts. An object that begins with it is written as
it stands, but is read as what its text stands for. Trees that have been read
hold no such object, for what a value stands for has none; but a tree that is
put together in memory may, and does not come back. And the text may well stand
for null: then a tree with null as data has been read, which is gone after the
next reading.

Main statements:
- `Position.ofJson_toJson`: positions come back as they were;
- `Node.ofJson_toJson`: so do trees, on their own or inside another, but for
  null as data;
- `Node.everywhere_isKeyed_of_ofJson`,
  `Node.everywhere_hasNoNullData_of_ofJson`: what is known of trees that have
  been read;
- `Node.reads_back`: what writing and reading does to every tree in memory, and
  to every tree that was read.
-/

namespace Graft

/-- A reader that has succeeded goes on with what it has read. -/
theorem ok_bind {ε α β : Type} (a : α) (next : α → Except ε β) :
    (Except.ok a >>= next) = next a := rfl

/-! ## Points and positions -/

/-- A number that was written for a field is read by this field, for it lies in
the range of the field. -/
theorem natBelow_natJson {bound n : Nat} (expected : Expected) (h : n < bound) :
    natBelow bound expected (natJson n) = .ok n := by
  rw [natJson, natBelow, if_pos ⟨Int.natCast_nonneg n, Int.ofNat_lt.mpr h⟩, Int.toNat_natCast]

namespace PointFields

theorem read_line (fields : PointFields) (line : UInt32) (h : fields.line = none) :
    fields.read "line" (natJson line.toNat) = .ok { fields with line := some line.toNat } := by
  rw [read, if_pos rfl, h, natBelow_natJson .lineOrColumn line.toNat_lt]
  rfl

theorem read_column (fields : PointFields) (column : UInt32) (h : fields.column = none) :
    fields.read "column" (natJson column.toNat) =
      .ok { fields with column := some column.toNat } := by
  rw [read, if_neg (by decide), if_pos rfl, h, natBelow_natJson .lineOrColumn column.toNat_lt]
  rfl

theorem read_offset (fields : PointFields) (offset : UInt64) (h : fields.offset = none) :
    fields.read "offset" (natJson offset.toNat) =
      .ok { fields with offset := some (some offset.toNat) } := by
  have hread : optionally (natBelow UInt64.size .offset) (natJson offset.toNat) =
      .ok (some offset.toNat) := by
    show (natBelow UInt64.size .offset (natJson offset.toNat)).map some = _
    rw [natBelow_natJson .offset offset.toNat_lt]
    rfl
  rw [read, if_neg (by decide), if_neg (by decide), if_pos rfl, h, hread]
  rfl

end PointFields

/-- A point comes back as it was. -/
theorem Point.ofJson_toJson (site : Site) (p : Point) : Point.ofJson site p.toJson = .ok p := by
  obtain ⟨line, column, offset⟩ := p
  have hfields : ([("line", natJson line.toNat), ("column", natJson column.toNat)] ++
      optionalMember "offset" (offset.map fun n => natJson n.toNat)).foldlM
        (fun fields m => fields.read m.1 m.2) ({} : PointFields) =
      .ok { line := some line.toNat, column := some column.toNat,
            offset := offset.map fun n => some n.toNat } := by
    rw [List.foldlM_append, List.foldlM_cons, PointFields.read_line _ line rfl, ok_bind,
      List.foldlM_cons, PointFields.read_column _ column rfl, ok_bind, List.foldlM_nil]
    cases offset with
    | none => rfl
    | some offset =>
      rw [Option.map_some, optionalMember, pure_bind, List.foldlM_cons,
        PointFields.read_offset _ offset rfl]
      rfl
  rw [toJson, ofJson, hfields]
  show Except.ok (Point.mk _ _ _) = _
  rw [UInt32.ofNat_toNat, UInt32.ofNat_toNat]
  cases offset with
  | none => rfl
  | some offset =>
    show Except.ok (Point.mk line column (some (.ofNat offset.toNat))) = _
    rw [UInt64.ofNat_toNat]

/-- A position comes back as it was. -/
theorem Position.ofJson_toJson (site : Site) (p : Position) :
    Position.ofJson site p.toJson = .ok p := by
  obtain ⟨start, stop⟩ := p
  have hstart : ({} : PositionFields).read site "start" start.toJson = .ok { start } := by
    rw [PositionFields.read, if_pos rfl, Point.ofJson_toJson]
    rfl
  have hstop : ({ start } : PositionFields).read site "end" stop.toJson =
      .ok { start, stop } := by
    rw [PositionFields.read, if_neg (by decide), if_pos rfl, Point.ofJson_toJson]
    rfl
  rw [toJson, ofJson, List.foldlM_cons, hstart, ok_bind, List.foldlM_cons, hstop]
  rfl

/-! ## Nodes -/

/-- The name of a kind is read as this kind, in every place. -/
theorem Kind.ofJson_name (site : Site) (kind : Kind) :
    Kind.ofJson site (.string kind.name) = .ok kind := by
  rw [Kind.ofJson, ofName?_name]

/-- After the kind has been met, members that do not name another do not change
it. -/
theorem kindOfMembers_of_not_mem (site : Site) (kind : Kind) {members : Members}
    (h : "type" ∉ members.map Prod.fst) : kindOfMembers site (some kind) members = .ok kind := by
  induction members with
  | nil => rfl
  | cons m rest ih =>
    obtain ⟨key, v⟩ := m
    rw [List.map_cons, List.mem_cons, not_or] at h
    rw [kindOfMembers, if_neg (Ne.symm h.1), ih h.2]

/-- Without an object that begins with the key of raw texts, there is none in a
part either. -/
theorem Json.RawFree.of_mem_parts {v part : Json} (h : v.RawFree) (hpart : part ∈ v.parts) :
    part.RawFree := by
  cases v with
  | array items => exact rawFree_of_mem_items h hpart
  | object members =>
    obtain ⟨m, hm, rfl⟩ := List.mem_map.mp hpart
    exact Members.rawFree_of_mem h.2 hm
  | _ => exact absurd hpart List.not_mem_nil

/-- Merging keys makes no null. -/
theorem Json.mergeKeys_ne_null {v : Json} (h : v ≠ .null) : v.mergeKeys ≠ .null := by
  cases v with
  | null => exact absurd rfl h
  | _ => exact fun h => Json.noConfusion h

namespace Node

/-- Whether properties and data of a node have each key once, in all their
objects. -/
def IsKeyed (node : Node) : Prop :=
  (Json.object node.properties).IsKeyed ∧ ∀ data, node.info.data = some data → data.IsKeyed

/-- Whether no object in the values of the properties and in the data of a node
begins with the key of raw texts. -/
def IsRawFree (node : Node) : Prop :=
  Members.AreRawFree node.properties ∧ ∀ data, node.info.data = some data → data.RawFree

/-- Whether a node has no null as data. -/
def HasNoNullData (node : Node) : Prop := node.info.data ≠ some .null

end Node

/-- Without data where it is null. -/
def Info.withoutNull (info : Info) : Info :=
  match info.data with
  | some .null => { info with data := none }
  | _ => info

/-- Data that are not null stay. -/
theorem Info.withoutNull_of_ne {info : Info} (h : info.data ≠ some .null) :
    info.withoutNull = info := by
  unfold withoutNull
  split
  next hnull => exact absurd hnull h
  next => rfl

namespace Node

mutual

/-- The tree without data where it is null. -/
def withoutNullData : Node → Node
  | .root children info => .root (withoutNullDataList children) info.withoutNull
  | .element tag properties children info =>
    .element tag properties (withoutNullDataList children) info.withoutNull
  | .text value info => .text value info.withoutNull
  | .comment value info => .comment value info.withoutNull
  | .doctype name info => .doctype name info.withoutNull

/-- Trees without data where it is null. -/
def withoutNullDataList : List Node → List Node
  | [] => []
  | node :: rest => node.withoutNullData :: withoutNullDataList rest

end

mutual

/-- Where no data is null, nothing is left out. -/
theorem withoutNullData_eq_self : ∀ {tree : Node}, tree.Everywhere HasNoNullData →
    tree.withoutNullData = tree
  | .root children info, h => by
    obtain ⟨hown, hbelow⟩ := everywhere_iff.mp h
    have hinfo : info.withoutNull = info := Info.withoutNull_of_ne hown
    have hchildren : withoutNullDataList children = children := withoutNullDataList_eq_self hbelow
    rw [withoutNullData, hchildren, hinfo]
  | .element tag properties children info, h => by
    obtain ⟨hown, hbelow⟩ := everywhere_iff.mp h
    have hinfo : info.withoutNull = info := Info.withoutNull_of_ne hown
    have hchildren : withoutNullDataList children = children := withoutNullDataList_eq_self hbelow
    rw [withoutNullData, hchildren, hinfo]
  | .text value info, h =>
    congrArg (Node.text value) (Info.withoutNull_of_ne (everywhere_iff.mp h).1)
  | .comment value info, h =>
    congrArg (Node.comment value) (Info.withoutNull_of_ne (everywhere_iff.mp h).1)
  | .doctype name info, h =>
    congrArg (Node.doctype name) (Info.withoutNull_of_ne (everywhere_iff.mp h).1)

/-- The same of siblings. -/
theorem withoutNullDataList_eq_self : ∀ {nodes : List Node},
    (∀ node ∈ nodes, node.Everywhere HasNoNullData) → withoutNullDataList nodes = nodes
  | [], _ => rfl
  | node :: rest, h => by
    rw [withoutNullDataList, withoutNullData_eq_self (h node List.mem_cons_self),
      withoutNullDataList_eq_self fun other hmem => h other (List.mem_cons_of_mem node hmem)]

end

/-- An object that begins with a kind is read as a node of this kind. -/
theorem ofJson_object (site : Site) (kind : Kind) {members : Members}
    (h : "type" ∉ members.map Prod.fst) :
    ofJson site (.object (("type", .string kind.name) :: members)) =
      (fieldsOfMembers kind {} members).bind fun fields => fields.finish kind .missingField := by
  have hkind : kindOfMembers site none (("type", .string kind.name) :: members) = .ok kind := by
    rw [kindOfMembers, if_pos rfl, Kind.ofJson_name]
    exact kindOfMembers_of_not_mem site kind h
  rw [ofJson, hkind]
  show (fieldsOfMembers kind {} (("type", .string kind.name) :: members)).bind _ = _
  rw [fieldsOfMembers_unknown kind.field?_type]

/-- Data is gathered as it was written, unless it is null. -/
theorem gather_data (fields : NodeFields) {data : Json} (hkeyed : data.IsKeyed)
    (hfree : data.RawFree) :
    fields.gather .data data =
      .ok { fields with info := Info.withoutNull { fields.info with data := some data } } := by
  rw [NodeFields.gather_of_ne (by decide), NodeFields.read]
  by_cases hnull : data = .null
  · subst hnull
    rfl
  · rw [optionally_of_ne_null hnull, Json.resolve_of_isKeyed hkeyed hfree,
      Info.withoutNull_of_ne fun h => hnull (Option.some.inj h)]
    rfl

/-- Position and data are read from the members that are written for them. -/
theorem fieldsOfMembers_info (kind : Kind) {fields : NodeFields} {info : Info}
    (hinfo : fields.info = {}) (hposition : fields.seen.contains .position = false)
    (hdata : fields.seen.contains .data = false)
    (hkeyed : ∀ data, info.data = some data → data.IsKeyed)
    (hfree : ∀ data, info.data = some data → data.RawFree) :
    ∃ seen, fieldsOfMembers kind fields info.toMembers =
      .ok { fields with seen, info := info.withoutNull } := by
  obtain ⟨position, data⟩ := info
  -- the data, whatever has been read before of position
  have hrest : ∀ before : NodeFields, before.info = { position } →
      before.seen.contains .data = false →
      ∃ seen, fieldsOfMembers kind before (optionalMember "data" data) =
        .ok { before with seen, info := Info.withoutNull { position, data } } := by
    intro before hbefore hseen
    cases data with
    | none =>
      refine ⟨before.seen, ?_⟩
      rw [optionalMember, fieldsOfMembers, Info.withoutNull_of_ne (fun h => by cases h), ← hbefore]
    | some data =>
      have hgather := gather_data before (hkeyed data rfl) (hfree data rfl)
      rw [hbefore] at hgather
      rw [optionalMember, fieldsOfMembers_of_gather .data (Kind.field?_data kind) hseen hgather,
        fieldsOfMembers]
      exact ⟨_, rfl⟩
  cases position with
  | none => exact hrest fields hinfo hdata
  | some position =>
    have hgather : fields.gather .position position.toJson =
        .ok { fields with info := { position := some position } } := by
      have hne : position.toJson ≠ .null := fun h => Json.noConfusion h
      rw [NodeFields.gather_of_ne (by decide), NodeFields.read, optionally_of_ne_null hne,
        Position.ofJson_toJson, hinfo]
      rfl
    rw [Info.toMembers, Option.map_some, optionalMember, List.singleton_append,
      fieldsOfMembers_of_gather .position (Kind.field?_position kind) hposition hgather]
    have hseen : (NodeFields.mark { fields with info := { position := some position } }
        .position).seen.contains .data = false := by
      rw [NodeFields.mark, List.contains_cons, hdata]
      rfl
    exact hrest _ rfl hseen

/-- A node is made of what is written for it, once position and data are all
that is left. -/
theorem finish_info {kind : Kind} {fields : NodeFields} {node : Node} (hinfo : fields.info = {})
    (hposition : fields.seen.contains .position = false)
    (hdata : fields.seen.contains .data = false) (hkeyed : node.IsKeyed) (hfree : node.IsRawFree)
    (hfinish : ∀ seen, NodeFields.finish { fields with seen, info := node.info.withoutNull } kind
      .missingField = .ok node.withoutNullData) :
    ((fieldsOfMembers kind fields node.info.toMembers).bind fun fields =>
      fields.finish kind .missingField) = .ok node.withoutNullData := by
  obtain ⟨seen, hfields⟩ := fieldsOfMembers_info kind hinfo hposition hdata hkeyed.2 hfree.2
  rw [hfields]
  exact hfinish seen

/-! ### Trees -/

theorem type_not_mem_cons {key : String} {members : Members} (value : Json) (hkey : "type" ≠ key)
    (h : "type" ∉ members.map Prod.fst) : "type" ∉ ((key, value) :: members).map Prod.fst := by
  rw [List.map_cons, List.mem_cons, not_or]
  exact ⟨hkey, h⟩

theorem type_not_mem_optionalMember {key : String} {members : Members} (value : Option Json)
    (hkey : "type" ≠ key) (h : "type" ∉ members.map Prod.fst) :
    "type" ∉ (optionalMember key value ++ members).map Prod.fst := by
  cases value with
  | none => exact h
  | some value => exact type_not_mem_cons value hkey h

/-- Neither position nor data are written under the key of the kind. -/
theorem type_not_mem_toMembers (info : Info) : "type" ∉ info.toMembers.map Prod.fst := by
  refine type_not_mem_optionalMember _ (by decide) ?_
  rw [← List.append_nil (optionalMember _ _)]
  exact type_not_mem_optionalMember _ (by decide) List.not_mem_nil

mutual

/-- A tree comes back as it was, but for null as data. -/
theorem ofJson_toJson (site : Site) : ∀ tree : Node, tree.Everywhere IsKeyed →
    tree.Everywhere IsRawFree → ofJson site tree.toJson = .ok tree.withoutNullData
  | .root children info, hkeyed, hfree => by
    rw [everywhere_iff] at hkeyed hfree
    have hread : childrenOfJson (.array (toJsonList children)) =
        .ok (withoutNullDataList children) :=
      nodesOfItems_toJsonList children hkeyed.2 hfree.2
    rw [toJson, List.cons_append, List.singleton_append]
    refine (ofJson_object site .root
      (type_not_mem_cons _ (by decide) (type_not_mem_toMembers info))).trans ?_
    rw [fieldsOfMembers_of_gather .children (by decide) rfl
      (NodeFields.gather_children_of_ok hread _)]
    exact finish_info rfl rfl rfl hkeyed.1 hfree.1 fun _ => rfl
  | .element tag properties children info, hkeyed, hfree => by
    rw [everywhere_iff] at hkeyed hfree
    have hread : childrenOfJson (.array (toJsonList children)) =
        .ok (withoutNullDataList children) :=
      nodesOfItems_toJsonList children hkeyed.2 hfree.2
    have hmerge : Members.merge (Json.mergeMembers properties) = properties :=
      Json.object.inj (Json.mergeKeys_of_isKeyed hkeyed.1.1)
    have hproperties : NodeFields.gather (NodeFields.mark { tagName := some tag } .tagName)
        .properties (.object properties) =
        .ok (NodeFields.mark { tagName := some tag, properties } .tagName) := by
      have hresolve : Json.resolveMembers properties = .ok (Json.mergeMembers properties) :=
        Json.resolveMembers_of_rawFree hfree.1.1
      rw [NodeFields.gather_of_ne (by decide), NodeFields.read, hresolve]
      show Except.ok { NodeFields.mark { tagName := some tag } .tagName with
        properties := Members.merge (Json.mergeMembers properties) } = _
      rw [hmerge]
      rfl
    rw [toJson, List.cons_append, List.cons_append, List.cons_append, List.singleton_append]
    refine (ofJson_object site .element (type_not_mem_cons _ (by decide)
      (type_not_mem_cons _ (by decide) (type_not_mem_cons _ (by decide)
        (type_not_mem_toMembers info))))).trans ?_
    rw [fieldsOfMembers_of_gather .tagName (by decide) rfl rfl,
      fieldsOfMembers_of_gather .properties (by decide) rfl hproperties,
      fieldsOfMembers_of_gather .children (by decide) rfl
        (NodeFields.gather_children_of_ok hread _)]
    exact finish_info rfl rfl rfl hkeyed.1 hfree.1 fun _ => rfl
  | .text value info, hkeyed, hfree => by
    rw [everywhere_iff] at hkeyed hfree
    rw [toJson, List.cons_append, List.singleton_append]
    refine (ofJson_object site .text
      (type_not_mem_cons _ (by decide) (type_not_mem_toMembers info))).trans ?_
    rw [fieldsOfMembers_of_gather .value (by decide) rfl rfl]
    exact finish_info rfl rfl rfl hkeyed.1 hfree.1 fun _ => rfl
  | .comment value info, hkeyed, hfree => by
    rw [everywhere_iff] at hkeyed hfree
    rw [toJson, List.cons_append, List.singleton_append]
    refine (ofJson_object site .comment
      (type_not_mem_cons _ (by decide) (type_not_mem_toMembers info))).trans ?_
    rw [fieldsOfMembers_of_gather .value (by decide) rfl rfl]
    exact finish_info rfl rfl rfl hkeyed.1 hfree.1 fun _ => rfl
  | .doctype name info, hkeyed, hfree => by
    rw [everywhere_iff] at hkeyed hfree
    rw [toJson, List.singleton_append, List.cons_append]
    refine (ofJson_object site .doctype (type_not_mem_optionalMember _ (by decide)
      (type_not_mem_toMembers info))).trans ?_
    cases name with
    | none => exact finish_info rfl rfl rfl hkeyed.1 hfree.1 fun _ => rfl
    | some name =>
      rw [Option.map_some, optionalMember, List.singleton_append,
        fieldsOfMembers_of_gather .name (by decide) rfl rfl]
      exact finish_info rfl rfl rfl hkeyed.1 hfree.1 fun _ => rfl

/-- The same of siblings, which are all read inside a node. -/
theorem nodesOfItems_toJsonList : ∀ nodes : List Node, (∀ node ∈ nodes, node.Everywhere IsKeyed) →
    (∀ node ∈ nodes, node.Everywhere IsRawFree) →
      nodesOfItems (toJsonList nodes) = .ok (withoutNullDataList nodes)
  | [], _, _ => rfl
  | node :: rest, hkeyed, hfree => by
    rw [toJsonList, nodesOfItems, ofJson_toJson .inner node (hkeyed node List.mem_cons_self)
      (hfree node List.mem_cons_self)]
    show (nodesOfItems (toJsonList rest)).map _ = _
    rw [nodesOfItems_toJsonList rest
      (fun other hmem => hkeyed other (List.mem_cons_of_mem node hmem))
      (fun other hmem => hfree other (List.mem_cons_of_mem node hmem))]
    rfl

end

/-! ### Reading, writing and reading again -/

/-- A tree that has been read has unique keys, and no object in it begins with
the key of raw texts. -/
theorem everywhere_isKeyed_of_ofJson {site : Site} {v : Json} {tree : Node}
    (h : ofJson site v = .ok tree) : tree.Everywhere IsKeyed ∧ tree.Everywhere IsRawFree := by
  have hnode : ∀ path found, tree.get? path = some found → found.IsKeyed ∧ found.IsRawFree := by
    intro path found hfound
    obtain ⟨_, _, -, hread⟩ :=
      exists_source (fun _ _ => True) (fun _ _ _ _ _ => trivial) h 0 trivial hfound
    have hparts := drawnFrom_of_ofJson hread
    have hdata : ∀ data, found.info.data = some data → data.IsKeyed ∧ data.RawFree := by
      intro data hdata
      obtain ⟨v, -, -, hv⟩ := hparts.data data hdata
      exact Json.settled_of_resolve hv
    have hproperties : (Json.object found.properties).IsKeyed ∧
        Members.AreRawFree found.properties := by
      rcases hparts.properties with hnil | ⟨members, resolved, -, hresolved, hmerged⟩
      · rw [hnil]
        exact ⟨⟨List.nodup_nil, trivial⟩, trivial⟩
      · obtain ⟨hkeyed, hfree⟩ := Json.settled_of_resolveMembers hresolved
        rw [hmerged]
        exact ⟨⟨Members.nodup_merge resolved, Members.areKeyed_merge hkeyed⟩,
          Members.areRawFree_merge hfree⟩
    exact ⟨⟨hproperties.1, fun data h => (hdata data h).1⟩,
      hproperties.2, fun data h => (hdata data h).2⟩
  exact ⟨fun path found hfound => (hnode path found hfound).1,
    fun path found hfound => (hnode path found hfound).2⟩

/-- Of a value in which no object begins with the key of raw texts, no null is
read as data. -/
theorem everywhere_hasNoNullData_of_ofJson {site : Site} {v : Json} {tree : Node}
    (h : ofJson site v = .ok tree) (hfree : v.RawFree) : tree.Everywhere HasNoNullData := by
  intro path found hfound hnull
  obtain ⟨_, source, hsource, hread⟩ := exists_source (fun _ => Json.RawFree)
    (fun _ _ hv _ hpart => hv.of_mem_parts hpart) h 0 hfree hfound
  obtain ⟨part, hpart, hne, hresolved⟩ := (drawnFrom_of_ofJson hread).data .null hnull
  rw [Json.resolve_of_rawFree (hsource.of_mem_parts hpart)] at hresolved
  exact Json.mergeKeys_ne_null hne (Except.ok.inj hresolved)

/-- A tree in memory comes back from the value that is written for it, if no
data is null and no object in it begins with the key of raw texts; the unique
keys are those of an object in memory, where a key has one value. A tree that
has been read always meets the second condition, so that reading it once more
loses nothing but null as data, and it meets the first one too if the value it
was read from has no such object. -/
theorem reads_back (site : Site) (tree : Node) :
    (tree.Everywhere IsKeyed → tree.Everywhere IsRawFree → tree.Everywhere HasNoNullData →
      ofJson site tree.toJson = .ok tree) ∧
    ∀ (first : Site) (v : Json), ofJson first v = .ok tree →
      tree.Everywhere IsKeyed ∧ tree.Everywhere IsRawFree ∧
        ofJson site tree.toJson = .ok tree.withoutNullData ∧
        (v.RawFree → tree.Everywhere HasNoNullData ∧ ofJson site tree.toJson = .ok tree) := by
  refine ⟨?_, ?_⟩
  · intro hkeyed hfree hnull
    rw [ofJson_toJson site tree hkeyed hfree, withoutNullData_eq_self hnull]
  · intro first v h
    obtain ⟨hkeyed, hfree⟩ := everywhere_isKeyed_of_ofJson h
    have hback := ofJson_toJson site tree hkeyed hfree
    refine ⟨hkeyed, hfree, hback, fun hraw => ?_⟩
    have hnull := everywhere_hasNoNullData_of_ofJson h hraw
    rw [withoutNullData_eq_self hnull] at hback
    exact ⟨hnull, hback⟩

/-- A paragraph whose text has data with a null inside, and a text in the form
of a sequence. -/
theorem reads_back_paragraph :
    let data : Json := .object [("y", .null), ("x", .number (.whole 1))]
    let tree : Node := .element "p" [("id", .string "a"), ("class", .null)]
      [.text "b" { data := some data }] { position := some ⟨⟨1, 1, some 0⟩, ⟨1, 9, none⟩⟩ }
    let sequence : Json := .array [.string "text", .string "b", .null, .null]
    tree.Everywhere IsKeyed ∧ tree.Everywhere IsRawFree ∧ tree.Everywhere HasNoNullData ∧
      ofJson .outer tree.toJson = .ok tree ∧ sequence.RawFree ∧
      ofJson .outer sequence = .ok (ofText "b") ∧
      ofJson .inner (ofText "b").toJson = .ok (ofText "b") := by
  intro data tree sequence
  have hdata : data.IsKeyed := ⟨by decide, trivial, trivial, trivial⟩
  have hplain : data.RawFree := ⟨by simp [Members.raw?, Json.rawKey], trivial, trivial, trivial⟩
  have hleaf : ∀ {holds : Node → Prop} {leaf : Node}, leaf.children = [] → holds leaf →
      leaf.Everywhere holds := by
    intro holds leaf hchildren hholds
    rw [everywhere_iff, hchildren]
    exact ⟨hholds, fun _ hmem => absurd hmem List.not_mem_nil⟩
  have htree : ∀ {holds : Node → Prop}, holds tree → holds (.text "b" { data := some data }) →
      tree.Everywhere holds := by
    intro holds hroot htext
    refine everywhere_iff.mpr ⟨hroot, fun child hmem => ?_⟩
    obtain rfl := List.mem_singleton.mp hmem
    exact hleaf rfl htext
  have hkeyed : tree.Everywhere IsKeyed :=
    htree ⟨⟨by decide, trivial, trivial, trivial⟩, fun _ h => by cases h⟩
      ⟨⟨List.nodup_nil, trivial⟩, fun _ h => Option.some.inj h ▸ hdata⟩
  have hfree : tree.Everywhere IsRawFree :=
    htree ⟨⟨trivial, trivial, trivial⟩, fun _ h => by cases h⟩
      ⟨trivial, fun _ h => Option.some.inj h ▸ hplain⟩
  have hnull : tree.Everywhere HasNoNullData :=
    htree (fun h => by cases h) fun h => Json.noConfusion (Option.some.inj h)
  have hsequence : sequence.RawFree := ⟨trivial, trivial, trivial, trivial, trivial⟩
  have hread : ofJson .outer sequence = .ok (ofText "b") := rfl
  obtain ⟨-, -, -, hagain⟩ := (reads_back .inner (ofText "b")).2 .outer sequence hread
  exact ⟨hkeyed, hfree, hnull, (reads_back .outer tree).1 hkeyed hfree hnull, hsequence, hread,
    (hagain hsequence).2⟩

/-- Data that holds the text of a null is read as null, and is gone when the
tree is written and read again. In a tree in memory it is data like any other,
not null, and this tree is not what is read back of it. -/
theorem reads_back_rawNull :
    let held : Node := .root [] { data := some (.object [(Json.rawKey, .string "null")]) }
    let tree : Node := .root [] { data := some .null }
    ¬ tree.HasNoNullData ∧ ofJson .outer held.toJson = .ok tree ∧
      ofJson .outer tree.toJson = .ok (.root [] {}) ∧
      held.Everywhere IsKeyed ∧ held.Everywhere HasNoNullData ∧ held ≠ tree := by
  intro held tree
  have hleaf : ∀ {holds : Node → Prop}, holds held → held.Everywhere holds := fun h =>
    everywhere_iff.mpr ⟨h, fun _ hmem => absurd hmem List.not_mem_nil⟩
  refine ⟨fun h => h rfl, rfl, rfl, hleaf ⟨⟨List.nodup_nil, trivial⟩, ?_⟩, hleaf ?_, ?_⟩
  · intro data hdata
    obtain rfl := Option.some.inj hdata
    exact ⟨List.pairwise_singleton _ _, trivial, trivial⟩
  · exact fun h => Json.noConfusion (Option.some.inj h)
  · intro h
    exact Json.noConfusion (Option.some.inj (congrArg (fun node => node.info.data) h))

end Node

end Graft
