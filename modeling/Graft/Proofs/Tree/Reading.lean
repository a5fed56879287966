import Graft.Proofs.Tree.Everywhere
import Graft.Proofs.Tree.Fields

/-!
# Where the parts of a tree are read from

A node is read from the items of an array or from the members of an object
(`Json.parts`): properties, data and position each from one of these parts, and
every child from an item of the array that is the part of the children. So every
node of a tree is read from a value that lies twice as deep in the value of the
tree as its path is long.

What is shown here says where a node comes from and leaves out which field was
given by which part. That is enough for all that holds of a value as a whole and
passes on to its parts: how deep it is nested, which numbers it has, whether an
object in it begins with the key of raw texts. The exact account, field by
field, is that of the grammar of trees.

A property of values that passes on to parts is carried down the tree with the
level it has come to (`Node.exists_source`), by induction on the path. The step
is the one node: its children are read from items of one of its parts.

Main statements:
- `Node.drawnFrom_of_ofJson`: what belongs to a node comes from the parts of its
  value;
- `Node.exists_source`: each node of a tree is read from a value inside that of
  the tree.
-/

namespace Graft

/-- The values directly in an array or object. -/
def Json.parts : Json → List Json
  | .array items => items
  | .object members => members.map Prod.snd
  | _ => []

/-! ## Readers that succeed -/

/-- Where a field may be null, any other value is read as ever. -/
theorem optionally_of_ne_null {α : Type} {read : Json → Except DataError α} {v : Json}
    (h : v ≠ .null) : optionally read v = (read v).map some := by
  cases v with
  | null => exact absurd rfl h
  | _ => rfl

/-- What has been read of a value that may be absent is read of a value that is
not null. -/
theorem optionally_eq_some {α : Type} {read : Json → Except DataError α} {v : Json} {a : α}
    (h : optionally read v = .ok (some a)) : v ≠ .null ∧ read v = .ok a := by
  by_cases hv : v = .null
  · subst hv
    exact absurd (Except.ok.inj h) (fun h => nomatch h)
  · rw [optionally_of_ne_null hv] at h
    obtain ⟨found, hread, ha⟩ := map_eq_ok h
    exact ⟨hv, Option.some.inj ha ▸ hread⟩

/-! ## The parts of one node -/

/-- Whether properties, position, data and children are read from some of these
values. -/
structure DrawnFrom (parts : List Json) (properties : Members) (info : Info)
    (children : List Node) :
    Prop where
  /-- The properties are what the members of an object stand for, with keys
  merged. -/
  properties : properties = [] ∨ ∃ members resolved, Json.object members ∈ parts ∧
    Json.resolveMembers members = .ok resolved ∧ properties = Members.merge resolved
  /-- The position is read from a part. -/
  position : ∀ p, info.position = some p → ∃ v ∈ parts, Position.ofJson .inner v = .ok p
  /-- The data is what a part that is not null stands for. -/
  data : ∀ data, info.data = some data → ∃ v ∈ parts, v ≠ .null ∧ v.resolve = .ok data
  /-- The children are read from the items of an array. -/
  children : ∀ child ∈ children, ∃ items, Json.array items ∈ parts ∧
    ∃ v ∈ items, Node.ofJson .inner v = .ok child

/-- Whether what has been read so far of a node comes from some of these values. -/
def NodeFields.AreFrom (parts : List Json) (fields : NodeFields) : Prop :=
  DrawnFrom parts fields.properties fields.info fields.children

namespace NodeFields

variable {parts : List Json} {fields after : NodeFields}

/-- Before anything has been read, nothing has to come from anywhere. -/
theorem areFrom_empty (parts : List Json) : AreFrom parts {} where
  properties := .inl rfl
  position _ hnone := nomatch hnone
  data _ hnone := nomatch hnone
  children _ hmem := absurd hmem List.not_mem_nil

/-- One more field is read from its value. -/
theorem areFrom_read (h : AreFrom parts fields) {field : Field} {v : Json} (hv : v ∈ parts)
    (hread : fields.read field v = .ok after) : AreFrom parts after := by
  cases field with
  | tagName =>
    obtain ⟨s, -, rfl⟩ := map_eq_ok hread
    exact ⟨h.properties, h.position, h.data, h.children⟩
  | properties =>
    cases v with
    | object members =>
      obtain ⟨resolved, hresolved, rfl⟩ := map_eq_ok hread
      exact ⟨.inr ⟨members, resolved, hv, mapError_eq_ok_iff.mp hresolved, rfl⟩, h.position,
        h.data, h.children⟩
    | _ => exact absurd hread error_ne_ok
  | children =>
    obtain rfl := Except.ok.inj hread
    exact h
  | value =>
    obtain ⟨s, -, rfl⟩ := map_eq_ok hread
    exact ⟨h.properties, h.position, h.data, h.children⟩
  | name =>
    obtain ⟨s, -, rfl⟩ := map_eq_ok hread
    exact ⟨h.properties, h.position, h.data, h.children⟩
  | position =>
    obtain ⟨found, hfound, rfl⟩ := map_eq_ok hread
    refine ⟨h.properties, fun p hp => ?_, h.data, h.children⟩
    obtain rfl : found = some p := hp
    exact ⟨v, hv, (optionally_eq_some hfound).2⟩
  | data =>
    obtain ⟨found, hfound, rfl⟩ := map_eq_ok hread
    refine ⟨h.properties, h.position, fun data hdata => ?_, h.children⟩
    obtain rfl : found = some data := hdata
    obtain ⟨hne, hdata⟩ := optionally_eq_some hfound
    exact ⟨v, hv, hne, mapError_eq_ok_iff.mp hdata⟩

/-- To note that a field has been seen adds nothing to the node. -/
theorem areFrom_mark (h : AreFrom parts fields) (field : Field) :
    AreFrom parts (fields.mark field) :=
  ⟨h.properties, h.position, h.data, h.children⟩

end NodeFields

namespace Node

/-- The properties of a node; only an element has some. -/
def properties : Node → Members
  | .element _ properties _ _ => properties
  | _ => []

/-- Nodes inside a node are read one by one. -/
theorem mem_of_nodesOfItems {items : List Json} {nodes : List Node}
    (hread : nodesOfItems items = .ok nodes) :
    ∀ node ∈ nodes, ∃ v ∈ items, ofJson .inner v = .ok node := by
  induction items generalizing nodes with
  | nil =>
    obtain rfl := Except.ok.inj hread
    exact fun _ hmem => absurd hmem List.not_mem_nil
  | cons v rest ih =>
    rw [nodesOfItems] at hread
    obtain ⟨first, hfirst, hread⟩ := bind_eq_ok hread
    obtain ⟨others, hothers, rfl⟩ := map_eq_ok hread
    intro node hmem
    rcases List.mem_cons.mp hmem with rfl | hmem
    · exact ⟨v, List.mem_cons_self, hfirst⟩
    · obtain ⟨w, hw, hnode⟩ := ih hothers node hmem
      exact ⟨w, List.mem_cons_of_mem v hw, hnode⟩

section

variable {parts : List Json} {fields after : NodeFields}

/-- Children that have been read take nothing but the place of the children. -/
theorem areFrom_children (h : fields.AreFrom parts) {v : Json} (hv : v ∈ parts) {nodes : List Node}
    (hread : childrenOfJson v = .ok nodes) :
    NodeFields.AreFrom parts { fields with children := nodes } := by
  refine ⟨h.properties, h.position, h.data, fun child hmem => ?_⟩
  cases v with
  | array items => exact ⟨items, hv, mem_of_nodesOfItems hread child hmem⟩
  | _ => exact absurd hread error_ne_ok

/-- One more field is gathered from its value, whichever reader it has. -/
theorem areFrom_gather (h : fields.AreFrom parts) {field : Field} {v : Json} (hv : v ∈ parts)
    (hgather : fields.gather field v = .ok after) : after.AreFrom parts := by
  by_cases hfield : field = .children
  · subst hfield
    rw [NodeFields.gather_children] at hgather
    obtain ⟨nodes, hnodes, rfl⟩ := map_eq_ok hgather
    exact areFrom_children h hv hnodes
  · rw [NodeFields.gather_of_ne hfield] at hgather
    exact NodeFields.areFrom_read h hv hgather

/-- The fields of an object are read from its members. -/
theorem areFrom_fieldsOfMembers {kind : Kind} {members : Members}
    (hmem : ∀ m ∈ members, m.2 ∈ parts)
    (h : fields.AreFrom parts) (hread : fieldsOfMembers kind fields members = .ok after) :
    after.AreFrom parts := by
  induction members generalizing fields with
  | nil =>
    obtain rfl := Except.ok.inj hread
    exact h
  | cons m rest ih =>
    obtain ⟨key, v⟩ := m
    obtain ⟨hv, hrest⟩ := List.forall_mem_cons.mp hmem
    cases hkey : kind.field? key with
    | none =>
      rw [fieldsOfMembers_unknown hkey] at hread
      exact ih hrest h hread
    | some field =>
      obtain ⟨hfield, rfl⟩ := Kind.field?_eq_some_iff.mp hkey
      rw [fieldsOfMembers_known hfield] at hread
      split at hread
      next => exact absurd hread error_ne_ok
      next =>
        obtain ⟨gathered, hgather, hread⟩ := bind_eq_ok hread
        exact ih hrest (NodeFields.areFrom_mark (areFrom_gather h hv hgather) field) hread

/-- The fields of a sequence are read from its items. -/
theorem areFrom_fieldsOfItems {names : List Field} {items : List Json}
    (hmem : ∀ v ∈ items, v ∈ parts)
    (h : fields.AreFrom parts) (hread : fieldsOfItems names fields items = .ok after) :
    after.AreFrom parts := by
  induction items generalizing names fields with
  | nil =>
    rw [fieldsOfItems] at hread
    obtain rfl := Except.ok.inj hread
    exact h
  | cons v rest ih =>
    obtain ⟨hv, hrest⟩ := List.forall_mem_cons.mp hmem
    cases names with
    | nil =>
      rw [fieldsOfItems] at hread
      obtain rfl := Except.ok.inj hread
      exact h
    | cons field names =>
      rw [fieldsOfItems_cons] at hread
      obtain ⟨gathered, hgather, hread⟩ := bind_eq_ok hread
      exact ih hrest (NodeFields.areFrom_mark (areFrom_gather h hv hgather) field) hread

/-- A node has nothing but the fields it is made of. -/
theorem drawnFrom_finish (h : fields.AreFrom parts) {kind : Kind} {missing : String → DataError}
    {node : Node} (hfinish : fields.finish kind missing = .ok node) :
    DrawnFrom parts node.properties node.info node.children := by
  have hnone : ∀ child : Node, child ∈ [] → ∃ items, Json.array items ∈ parts ∧
      ∃ v ∈ items, ofJson .inner v = .ok child := fun _ hmem => absurd hmem List.not_mem_nil
  unfold NodeFields.finish at hfinish
  cases kind with
  | root =>
    obtain rfl := Except.ok.inj hfinish
    exact ⟨.inl rfl, h.position, h.data, h.children⟩
  | element =>
    dsimp only at hfinish
    split at hfinish
    next =>
      obtain rfl := Except.ok.inj hfinish
      exact ⟨h.properties, h.position, h.data, h.children⟩
    next => exact absurd hfinish error_ne_ok
  | text =>
    dsimp only at hfinish
    split at hfinish
    next =>
      obtain rfl := Except.ok.inj hfinish
      exact ⟨.inl rfl, h.position, h.data, hnone⟩
    next => exact absurd hfinish error_ne_ok
  | comment =>
    dsimp only at hfinish
    split at hfinish
    next =>
      obtain rfl := Except.ok.inj hfinish
      exact ⟨.inl rfl, h.position, h.data, hnone⟩
    next => exact absurd hfinish error_ne_ok
  | doctype =>
    obtain rfl := Except.ok.inj hfinish
    exact ⟨.inl rfl, h.position, h.data, hnone⟩

end

/-- What belongs to a node comes from the parts of the value that it is read
from. -/
theorem drawnFrom_of_ofJson {site : Site} {v : Json} {node : Node} (h : ofJson site v = .ok node) :
    DrawnFrom v.parts node.properties node.info node.children := by
  cases v with
  | object members =>
    rw [ofJson] at h
    obtain ⟨kind, -, h⟩ := bind_eq_ok h
    obtain ⟨fields, hfields, h⟩ := bind_eq_ok h
    have hparts : ∀ m ∈ members, m.2 ∈ (Json.object members).parts :=
      fun m hmem => List.mem_map_of_mem hmem
    have hfrom := areFrom_fieldsOfMembers hparts (NodeFields.areFrom_empty _) hfields
    exact drawnFrom_finish hfrom h
  | array items =>
    cases items with
    | nil => exact absurd h error_ne_ok
    | cons tag items =>
      rw [ofJson] at h
      obtain ⟨kind, -, h⟩ := bind_eq_ok h
      obtain ⟨fields, hfields, h⟩ := bind_eq_ok h
      obtain ⟨found, hfound, h⟩ := bind_eq_ok h
      obtain ⟨-, -, rfl⟩ := map_eq_ok h
      have hparts : ∀ v ∈ items, v ∈ (Json.array (tag :: items)).parts :=
        fun v hmem => List.mem_cons_of_mem tag hmem
      have hfrom := areFrom_fieldsOfItems hparts (NodeFields.areFrom_empty _) hfields
      exact drawnFrom_finish hfrom hfound
  | _ => exact absurd h error_ne_ok

/-! ## The nodes of a tree -/

/-- Each node of a tree is read from a value inside that of the tree, two levels
deeper for each step of its path. What values pass on to their parts, level by
level, holds of this value. -/
theorem exists_source (given : Nat → Json → Prop)
    (hgiven : ∀ level v, given level v → ∀ part ∈ v.parts, given (level + 1) part) {site : Site}
    {v : Json} {tree : Node} (hread : ofJson site v = .ok tree) (level : Nat) (hv : given level v)
    {path : Path} {found : Node} (hfound : tree.get? path = some found) :
    ∃ place source, given (level + 2 * path.length) source ∧ ofJson place source = .ok found := by
  -- a child is an item of an array that is a part of the value: two levels for each step
  induction path generalizing site v tree level with
  | nil =>
    rw [get?_nil] at hfound
    obtain rfl := Option.some.inj hfound
    exact ⟨site, v, hv, hread⟩
  | cons i path ih =>
    rw [get?_cons] at hfound
    obtain ⟨child, hchild, hbelow⟩ := Option.bind_eq_some_iff.mp hfound
    obtain ⟨items, hitems, w, hw, hchildRead⟩ :=
      (drawnFrom_of_ofJson hread).children child (List.mem_of_getElem? hchild)
    have hinner : given (level + 1 + 1) w := hgiven _ _ (hgiven _ _ hv _ hitems) w hw
    obtain ⟨place, source, hsource, hplace⟩ := ih hchildRead (level + 1 + 1) hinner hbelow
    refine ⟨place, source, ?_, hplace⟩
    rw [List.length_cons]
    have hlevel : level + 2 * (path.length + 1) = level + 1 + 1 + 2 * path.length := by omega
    rwa [hlevel]

end Node

end Graft
