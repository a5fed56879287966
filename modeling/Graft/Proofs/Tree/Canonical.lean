import Graft.Proofs.Json.Canonical
import Graft.Proofs.Json.Distinct
import Graft.Proofs.Tree.Rereading

/-!
# Canonical trees

Different trees have different values and so different texts. Trees that differ
only in the order of members in properties and data and in the sign of zeros
have one canonical form, and if no object in them has a key twice, equality up
to these differences is equality of the canonical forms, or of their texts.

Trees in memory are compared by `==` of nodes, which takes the maps in
properties and data for what they hold, whatever the order, and zeros for equal.
`Node.same` is this comparison, a function that goes through two trees at once;
here it gets its meaning. That no key stands twice is what makes the order of
members immaterial: looking up each key of one object in the other compares all
members then.

Main statements:
- `Node.toJson_injective`, `Node.compact_injective`: no two trees have the same
  value or the same text;
- `Node.same_iff`: trees with unique keys are equal up to order and sign if
  their canonical forms are equal.
-/

namespace Graft

/-! ## Different trees have different values -/

/-- A member that may be missing can be told from those behind it by its key. -/
theorem optionalMember_append_inj {key : String} {a b : Option Json} {members others : Members}
    (hmembers : key ∉ members.map Prod.fst) (hothers : key ∉ others.map Prod.fst)
    (h : optionalMember key a ++ members = optionalMember key b ++ others) :
    a = b ∧ members = others := by
  cases a with
  | none =>
    cases b with
    | none => exact ⟨rfl, h⟩
    | some v =>
      obtain rfl : members = (key, v) :: others := h
      exact absurd List.mem_cons_self hmembers
  | some v =>
    cases b with
    | none =>
      obtain rfl : (key, v) :: members = others := h
      exact absurd List.mem_cons_self hothers
    | some w =>
      obtain ⟨hmember, htail⟩ := List.cons.inj h
      exact ⟨congrArg some (Prod.mk.inj hmember).2, htail⟩

theorem Position.toJson_injective {p q : Position} (h : p.toJson = q.toJson) : p = q := by
  have hread := Position.ofJson_toJson .inner p
  rw [h, Position.ofJson_toJson] at hread
  exact (Except.ok.inj hread).symm

/-- Position and data are written under their own keys. -/
theorem Info.keys_toMembers (info : Info) {key : String}
    (h : key ∈ info.toMembers.map Prod.fst) : key = "position" ∨ key = "data" := by
  obtain ⟨position, data⟩ := info
  rw [toMembers, List.map_append] at h
  rcases List.mem_append.mp h with h | h
  · cases position with
    | none => exact absurd h List.not_mem_nil
    | some p => exact .inl (List.mem_singleton.mp h)
  · cases data with
    | none => exact absurd h List.not_mem_nil
    | some v => exact .inr (List.mem_singleton.mp h)

theorem Info.toMembers_injective {a b : Info} (h : a.toMembers = b.toMembers) : a = b := by
  obtain ⟨position, data⟩ := a
  obtain ⟨otherPosition, otherData⟩ := b
  have hnot : ∀ data : Option Json, "position" ∉ (optionalMember "data" data).map Prod.fst := by
    intro data hmem
    cases data with
    | none => exact absurd hmem List.not_mem_nil
    | some v => exact absurd (show "position" = "data" from List.mem_singleton.mp hmem) (by decide)
  obtain ⟨hposition, hdata⟩ := optionalMember_append_inj (hnot data) (hnot otherData) h
  have hpositions : position = otherPosition :=
    Option.map_injective (fun _ _ => Position.toJson_injective) hposition
  have hends : "data" ∉ ([] : Members).map Prod.fst := List.not_mem_nil
  have hvalues : data = otherData :=
    (optionalMember_append_inj hends hends (congrArg (· ++ []) hdata)).1
  rw [hpositions, hvalues]

/-- No two kinds have one name. -/
theorem Kind.name_injective {a b : Kind} (h : a.name = b.name) : a = b := by
  have hkind := Kind.ofName?_name a
  rw [h, Kind.ofName?_name] at hkind
  exact (Option.some.inj hkind).symm

namespace Node

/-- The kind stands first in what is written for a node. -/
theorem kind_eq_of_toJson {a b : Node} (h : a.toJson = b.toJson) : a.kind = b.kind := by
  obtain ⟨members, -, ha⟩ := a.exists_members
  obtain ⟨others, -, hb⟩ := b.exists_members
  rw [ha, hb] at h
  have hname := (Prod.mk.inj (List.cons.inj (Json.object.inj h)).1).2
  exact Kind.name_injective (Json.string.inj hname)

mutual

/-- No two trees have the same value. -/
theorem toJson_injective : ∀ {a b : Node}, a.toJson = b.toJson → a = b
  | .root children info, b, h => by
    have hkind := kind_eq_of_toJson h
    cases b with
    | root others otherInfo =>
      rw [toJson, toJson] at h
      obtain ⟨-, h⟩ := List.cons.inj (Json.object.inj h)
      obtain ⟨hchildren, hinfo⟩ := List.cons.inj h
      rw [toJsonList_injective (Json.array.inj (Prod.mk.inj hchildren).2),
        Info.toMembers_injective hinfo]
    | _ => exact nomatch hkind
  | .element tag properties children info, b, h => by
    have hkind := kind_eq_of_toJson h
    cases b with
    | element otherTag otherProperties others otherInfo =>
      rw [toJson, toJson] at h
      obtain ⟨-, h⟩ := List.cons.inj (Json.object.inj h)
      obtain ⟨htag, h⟩ := List.cons.inj h
      obtain ⟨hproperties, h⟩ := List.cons.inj h
      obtain ⟨hchildren, hinfo⟩ := List.cons.inj h
      rw [Json.string.inj (Prod.mk.inj htag).2, Json.object.inj (Prod.mk.inj hproperties).2,
        toJsonList_injective (Json.array.inj (Prod.mk.inj hchildren).2),
        Info.toMembers_injective hinfo]
    | _ => exact nomatch hkind
  | .text value info, b, h => by
    have hkind := kind_eq_of_toJson h
    cases b with
    | text otherValue otherInfo =>
      rw [toJson, toJson] at h
      obtain ⟨-, h⟩ := List.cons.inj (Json.object.inj h)
      obtain ⟨hvalue, hinfo⟩ := List.cons.inj h
      rw [Json.string.inj (Prod.mk.inj hvalue).2, Info.toMembers_injective hinfo]
    | _ => exact nomatch hkind
  | .comment value info, b, h => by
    have hkind := kind_eq_of_toJson h
    cases b with
    | comment otherValue otherInfo =>
      rw [toJson, toJson] at h
      obtain ⟨-, h⟩ := List.cons.inj (Json.object.inj h)
      obtain ⟨hvalue, hinfo⟩ := List.cons.inj h
      rw [Json.string.inj (Prod.mk.inj hvalue).2, Info.toMembers_injective hinfo]
    | _ => exact nomatch hkind
  | .doctype name info, b, h => by
    have hkind := kind_eq_of_toJson h
    cases b with
    | doctype otherName otherInfo =>
      have hnot : ∀ info : Info, "name" ∉ info.toMembers.map Prod.fst := by
        intro info hmem
        rcases info.keys_toMembers hmem with heq | heq <;> exact absurd heq (by decide)
      rw [toJson, toJson, List.append_assoc, List.append_assoc] at h
      obtain ⟨-, h⟩ := List.cons.inj (Json.object.inj h)
      obtain ⟨hname, hinfo⟩ := optionalMember_append_inj (hnot info) (hnot otherInfo) h
      rw [Option.map_injective (fun _ _ => Json.string.inj) hname, Info.toMembers_injective hinfo]
    | _ => exact nomatch hkind

/-- The same of siblings. -/
theorem toJsonList_injective : ∀ {nodes others : List Node},
    toJsonList nodes = toJsonList others → nodes = others
  | [], [], _ => rfl
  | [], other :: others, h => absurd h.symm (List.cons_ne_nil _ _)
  | node :: nodes, [], h => absurd h (List.cons_ne_nil _ _)
  | node :: nodes, other :: others, h => by
    rw [toJsonList, toJsonList] at h
    obtain ⟨hnode, hnodes⟩ := List.cons.inj h
    rw [toJson_injective hnode, toJsonList_injective hnodes]

end

/-- No two trees have the same text. -/
theorem compact_injective {a b : Node} (h : a.compact = b.compact) : a = b :=
  toJson_injective (Json.compact_injective h)

end Node

/-! ## Canonical form -/

/-- Position and data with the data in canonical form. -/
def Info.canonical (info : Info) : Info := { info with data := info.data.map Json.canonical }

namespace Node

mutual

/-- A tree with all properties and data in canonical form. -/
def canonical : Node → Node
  | .root children info => .root (canonicals children) info.canonical
  | .element tag properties children info =>
    .element tag properties.canonical (canonicals children) info.canonical
  | .text value info => .text value info.canonical
  | .comment value info => .comment value info.canonical
  | .doctype name info => .doctype name info.canonical

/-- The canonical forms of a list of trees. -/
def canonicals : List Node → List Node
  | [] => []
  | node :: rest => node.canonical :: canonicals rest

end

/-- Data that may be missing are equal up to order and sign if both are missing,
or have one canonical form. -/
theorem sameData_iff {a b : Option Json} (ha : ∀ v, a = some v → v.IsKeyed)
    (hb : ∀ v, b = some v → v.IsKeyed) :
    sameData a b = true ↔ a.map Json.canonical = b.map Json.canonical := by
  cases a with
  | none =>
    cases b with
    | none => exact ⟨fun _ => rfl, fun _ => rfl⟩
    | some w => exact ⟨fun h => absurd h Bool.false_ne_true, fun h => nomatch h⟩
  | some v =>
    cases b with
    | none => exact ⟨fun h => absurd h Bool.false_ne_true, fun h => nomatch h⟩
    | some w =>
      show v.same w = true ↔ some v.canonical = some w.canonical
      rw [Json.same_iff (ha v rfl) (hb w rfl), Option.some.injEq]

/-- Positions are compared as they are, data up to order and sign. -/
theorem sameInfo_iff {a b : Info} (ha : ∀ v, a.data = some v → v.IsKeyed)
    (hb : ∀ v, b.data = some v → v.IsKeyed) :
    sameInfo a b = true ↔ a.canonical = b.canonical := by
  rw [sameInfo, Bool.and_eq_true, decide_eq_true_iff, sameData_iff ha hb, Info.canonical,
    Info.canonical, Info.mk.injEq]

theorem sameInfo_iff_of_everywhere {a b : Node} (ha : a.Everywhere IsKeyed)
    (hb : b.Everywhere IsKeyed) :
    sameInfo a.info b.info = true ↔ a.info.canonical = b.info.canonical :=
  sameInfo_iff (everywhere_iff.mp ha).1.2 (everywhere_iff.mp hb).1.2

mutual

/-- Trees with unique keys are equal up to the order of members and the sign of
zero if their canonical forms are equal. -/
theorem same_iff : ∀ {a b : Node}, a.Everywhere IsKeyed → b.Everywhere IsKeyed →
    (a.same b = true ↔ a.canonical = b.canonical)
  | .root children info, b, ha, hb => by
    have hinfo := sameInfo_iff_of_everywhere ha hb
    cases b with
    | root others otherInfo =>
      have hnodes : sameNodes children others = true ↔ canonicals children = canonicals others :=
        sameNodes_iff (everywhere_iff.mp ha).2 (everywhere_iff.mp hb).2
      simp only [Node.info] at hinfo
      simp only [same, canonical, Bool.and_eq_true, hnodes, hinfo, Node.root.injEq]
    | _ => exact ⟨fun h => absurd h Bool.false_ne_true, fun h => Node.noConfusion h⟩
  | .element tag properties children info, b, ha, hb => by
    have hinfo := sameInfo_iff_of_everywhere ha hb
    cases b with
    | element otherTag otherProperties others otherInfo =>
      have hnodes : sameNodes children others = true ↔ canonicals children = canonicals others :=
        sameNodes_iff (everywhere_iff.mp ha).2 (everywhere_iff.mp hb).2
      have hproperties : (Json.object properties).same (Json.object otherProperties) = true ↔
          (Json.object properties).canonical = (Json.object otherProperties).canonical :=
        Json.same_iff (everywhere_iff.mp ha).1.1 (everywhere_iff.mp hb).1.1
      simp only [Json.canonical, Json.object.injEq] at hproperties
      simp only [Node.info] at hinfo
      simp only [same, canonical, Members.canonical, Bool.and_eq_true, decide_eq_true_eq, hnodes,
        hproperties, hinfo, Node.element.injEq, and_assoc]
    | _ => exact ⟨fun h => absurd h Bool.false_ne_true, fun h => Node.noConfusion h⟩
  | .text value info, b, ha, hb => by
    have hinfo := sameInfo_iff_of_everywhere ha hb
    cases b with
    | text otherValue otherInfo =>
      simp only [Node.info] at hinfo
      simp only [same, canonical, Bool.and_eq_true, decide_eq_true_eq, hinfo, Node.text.injEq]
    | _ => exact ⟨fun h => absurd h Bool.false_ne_true, fun h => Node.noConfusion h⟩
  | .comment value info, b, ha, hb => by
    have hinfo := sameInfo_iff_of_everywhere ha hb
    cases b with
    | comment otherValue otherInfo =>
      simp only [Node.info] at hinfo
      simp only [same, canonical, Bool.and_eq_true, decide_eq_true_eq, hinfo, Node.comment.injEq]
    | _ => exact ⟨fun h => absurd h Bool.false_ne_true, fun h => Node.noConfusion h⟩
  | .doctype name info, b, ha, hb => by
    have hinfo := sameInfo_iff_of_everywhere ha hb
    cases b with
    | doctype otherName otherInfo =>
      simp only [Node.info] at hinfo
      simp only [same, canonical, Bool.and_eq_true, decide_eq_true_eq, hinfo, Node.doctype.injEq]
    | _ => exact ⟨fun h => absurd h Bool.false_ne_true, fun h => Node.noConfusion h⟩

/-- The same of siblings, place by place. -/
theorem sameNodes_iff : ∀ {nodes others : List Node}, (∀ node ∈ nodes, node.Everywhere IsKeyed) →
    (∀ node ∈ others, node.Everywhere IsKeyed) →
    (sameNodes nodes others = true ↔ canonicals nodes = canonicals others)
  | [], [], _, _ => ⟨fun _ => rfl, fun _ => rfl⟩
  | [], other :: others, _, _ =>
    ⟨fun h => absurd h Bool.false_ne_true, fun h => absurd h.symm (List.cons_ne_nil _ _)⟩
  | node :: nodes, [], _, _ =>
    ⟨fun h => absurd h Bool.false_ne_true, fun h => absurd h (List.cons_ne_nil _ _)⟩
  | node :: nodes, other :: others, hnodes, hothers => by
    obtain ⟨hnode, hnodes⟩ := List.forall_mem_cons.mp hnodes
    obtain ⟨hother, hothers⟩ := List.forall_mem_cons.mp hothers
    rw [sameNodes, Bool.and_eq_true, same_iff hnode hother, sameNodes_iff hnodes hothers,
      canonicals,
      canonicals, List.cons.injEq]

end

end Node

end Graft
