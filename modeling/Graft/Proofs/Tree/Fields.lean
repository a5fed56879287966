import Graft.Proofs.Reading
import Graft.Tree.Decode

/-!
# What one step of the reader of nodes does

The fields of a node are read in two loops, one over the members of an object
(`visit_map`) and one over the items of an array (`visit_seq`). Both take the
same step: the value of a field is put into the slot of this field. Children are
read by the reader of nodes itself, all other fields by a reader of their own.

This step is `NodeFields.gather`, and the lemmas here say once what each loop
does with one more member or item in terms of it. Whatever holds of the fields
after a whole run is then shown of `gather` first and carried through the loops
by induction: where the parts of a node come from, what has been written is read
back, and which values denote a node.

Main statements:
- `Kind.field?_eq_some_iff`: which keys a kind knows;
- `Node.fieldsOfMembers_unknown`, `Node.fieldsOfMembers_known`: one member more,
  with `Node.fieldsOfMembers_of_gather` for the case that nothing is wrong with
  it;
- `Node.fieldsOfItems_cons`: one item more.
-/

namespace Graft

/-! ## Keys -/

/-- A field is told by its key. -/
theorem Field.key_injective {one other : Field} (h : one.key = other.key) : one = other := by
  cases one <;> cases other <;> first | rfl | exact absurd h (by decide)

theorem Field.key_ne_type (field : Field) : field.key ≠ "type" := by
  cases field <;> decide

theorem Kind.nodup_fields (kind : Kind) : kind.fields.Nodup := by
  cases kind <;> decide

/-- A key is known to a kind exactly if it is the key of one of its fields, and
then it is the key of this one alone. -/
theorem Kind.field?_eq_some_iff {kind : Kind} {key : String} {field : Field} :
    kind.field? key = some field ↔ field ∈ kind.fields ∧ field.key = key := by
  constructor
  · intro h
    have hkey := List.find?_some h
    exact ⟨List.mem_of_find?_eq_some h, of_decide_eq_true hkey⟩
  · rintro ⟨hmem, rfl⟩
    cases hfound : kind.field? field.key with
    | none =>
      have hnot := List.find?_eq_none.mp hfound field hmem
      exact absurd (decide_eq_true rfl) hnot
    | some found =>
      have hkey := List.find?_some hfound
      rw [Field.key_injective (of_decide_eq_true hkey)]

/-- A key that the kind does not know is the key of none of its fields. -/
theorem Kind.key_ne_of_field?_eq_none {kind : Kind} {key : String} {field : Field}
    (h : kind.field? key = none) (hfield : field ∈ kind.fields) : key ≠ field.key := by
  rintro rfl
  rw [Kind.field?_eq_some_iff.mpr ⟨hfield, rfl⟩] at h
  exact absurd h (Option.some_ne_none field)

/-- The key of the kind is no field of any kind. -/
theorem Kind.field?_type (kind : Kind) : kind.field? "type" = none := by
  cases kind <;> decide

/-- All kinds have a position. -/
theorem Kind.field?_position (kind : Kind) : kind.field? "position" = some .position := by
  cases kind <;> decide

/-- All kinds have data. -/
theorem Kind.field?_data (kind : Kind) : kind.field? "data" = some .data := by
  cases kind <;> decide

/-! ## One field -/

namespace NodeFields

/-- Gathers one field, the children among them. -/
def gather (fields : NodeFields) (field : Field) (v : Json) : Except DataError NodeFields :=
  if field = .children then (Node.childrenOfJson v).map fun nodes =>
    { fields with children := nodes }
  else fields.read field v

/-- All fields but the children are gathered by their own reader. -/
theorem gather_of_ne {field : Field} (h : field ≠ .children) (fields : NodeFields) (v : Json) :
    fields.gather field v = fields.read field v :=
  if_neg h

/-- The children are gathered by the reader of nodes. -/
theorem gather_children (fields : NodeFields) (v : Json) :
    fields.gather .children v =
      (Node.childrenOfJson v).map fun nodes => { fields with children := nodes } :=
  if_pos rfl

/-- Once all children are read they take the place of those gathered before. -/
theorem gather_children_of_ok {v : Json} {nodes : List Node}
    (hread : Node.childrenOfJson v = .ok nodes) (fields : NodeFields) :
    fields.gather .children v = .ok { fields with children := nodes } := by
  rw [gather_children, hread]
  rfl

end NodeFields

namespace Node

variable {kind : Kind} {fields after : NodeFields} {field : Field}

/-- Members with keys that the kind does not know are passed over. -/
theorem fieldsOfMembers_unknown {key : String} (h : kind.field? key = none) (v : Json)
    (rest : Members) :
    fieldsOfMembers kind fields ((key, v) :: rest) = fieldsOfMembers kind fields rest := by
  rw [fieldsOfMembers, h]

/-- A member of a known field is gathered, unless the field has been met before:
repeated fields are refused, not overwritten. -/
theorem fieldsOfMembers_known (h : field ∈ kind.fields) (v : Json) (rest : Members) :
    fieldsOfMembers kind fields ((field.key, v) :: rest) =
      if field ∈ fields.seen then .error (.duplicateField field.key)
      else (fields.gather field v).bind fun fields =>
        fieldsOfMembers kind (fields.mark field) rest := by
  rw [fieldsOfMembers, Kind.field?_eq_some_iff.mpr ⟨h, rfl⟩, NodeFields.gather]
  simp only [List.contains_iff_mem]
  by_cases hfield : field = .children
  · rw [if_pos hfield, if_pos hfield]
    cases childrenOfJson v <;> rfl
  · rw [if_neg hfield, if_neg hfield]

variable (field) in
/-- A field that has not been met before, with a value that can be gathered, takes
the reader on to the next member. -/
theorem fieldsOfMembers_of_gather {key : String} {v : Json} (hkey : kind.field? key = some field)
    (hseen : fields.seen.contains field = false) (hgather : fields.gather field v = .ok after)
    (rest : Members) :
    fieldsOfMembers kind fields ((key, v) :: rest) =
      fieldsOfMembers kind (after.mark field) rest := by
  obtain ⟨hfield, rfl⟩ := Kind.field?_eq_some_iff.mp hkey
  have hunseen : field ∉ fields.seen := fun hmem =>
    Bool.false_ne_true (hseen.symm.trans (List.contains_iff_mem.mpr hmem))
  rw [fieldsOfMembers_known hfield, if_neg hunseen, hgather]
  rfl

/-- An item is gathered for the first of the fields that are left. -/
theorem fieldsOfItems_cons {names : List Field} (field : Field) (v : Json) (rest : List Json) :
    fieldsOfItems (field :: names) fields (v :: rest) =
      (fields.gather field v).bind fun fields => fieldsOfItems names (fields.mark field) rest := by
  rw [fieldsOfItems, NodeFields.gather]
  by_cases hfield : field = .children
  · rw [if_pos hfield, if_pos hfield]
    cases childrenOfJson v <;> rfl
  · rw [if_neg hfield, if_neg hfield]

end Node

end Graft
