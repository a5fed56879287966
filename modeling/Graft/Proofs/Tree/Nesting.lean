import Graft.Proofs.Json.Nesting
import Graft.Proofs.Tree.RoundTrip

/-!
# How deep the JSON form of a tree is nested

A node inside another one lies two levels deeper, in the array of the children
and in the object around it. The form that is written spells out the children
and the properties also where there are none, so a node that can hold children
takes two levels, even if it was read from a value of one. Apart from that, a
tree is written no deeper than what it was read from.

There are three steps. The levels of a tree are told by its nodes, each taken
without its children (`Node.nest_toJson_le_iff`). Of one node, each thing that
is written is compared with the part of the value that it was read from: data
and position are written as deep as they were, properties likewise or on a level
of their own. And a node at some path was read from a value that lies two levels
deeper for each step of the path, so there is room for it unless it is a root or
element that was given without children.

Numbers are treated in the same way at the end: each number of a tree was read
from a number of its value, or is that of a position, and so fits the range of
whole numbers.

Main statements:
- `Node.nest_toJson_le_iff`: the levels of a tree are those of its nodes, two
  more for each step of a path;
- `Node.nest_withChildren_le`: a node on its own is written no deeper than it
  was read, but for the levels of its children and properties;
- `Node.nest_toJson_le_iff_of_ofJson`: so what counts is how deep the roots and
  elements lie.
-/

namespace Graft

/-- Members lie as deep as the deepest of them. -/
theorem Json.nestMembers_append (first second : Members) :
    Json.nestMembers (first ++ second) =
      max (Json.nestMembers first) (Json.nestMembers second) := by
  induction first with
  | nil => exact (Nat.zero_max _).symm
  | cons m rest ih => rw [List.cons_append, Json.nestMembers, Json.nestMembers, ih, Nat.max_assoc]

/-! ## Positions -/

/-- A point is an object of numbers. -/
theorem Point.nest_toJson (p : Point) : p.toJson.nest = 1 := by
  obtain ⟨line, column, offset⟩ := p
  cases offset <;> rfl

/-- A position is an object of two points. -/
theorem Position.nest_toJson (p : Position) : p.toJson.nest = 2 := by
  obtain ⟨start, stop⟩ := p
  rw [toJson, Json.nest, Json.nestMembers, Json.nestMembers, Json.nestMembers, start.nest_toJson,
    stop.nest_toJson]
  rfl

/-- Arrays and objects take a level, empty ones too. -/
theorem Json.one_le_nest {v : Json}
    (h : (∃ items, v = .array items) ∨ ∃ members, v = .object members) :
    1 ≤ v.nest := by
  rcases h with ⟨items, rfl⟩ | ⟨members, rfl⟩ <;> exact Nat.succ_le_succ (Nat.zero_le _)

/-- A point is read from an array or object. -/
theorem Point.one_le_nest {site : Site} {v : Json} {p : Point} (h : Point.ofJson site v = .ok p) :
    1 ≤ v.nest := by
  cases v with
  | array items => exact Json.one_le_nest (.inl ⟨items, rfl⟩)
  | object members => exact Json.one_le_nest (.inr ⟨members, rfl⟩)
  | _ => exact absurd h error_ne_ok

/-- The start of a position is read from an array or object among the members. -/
theorem PositionFields.exists_start {site : Site} {members : Members}
    {fields after : PositionFields}
    (h : members.foldlM (fun fields m => fields.read site m.1 m.2) fields = .ok after)
    (hstart : after.start ≠ none) : fields.start ≠ none ∨ ∃ m ∈ members, 1 ≤ m.2.nest := by
  induction members generalizing fields with
  | nil =>
    obtain rfl := Except.ok.inj h
    exact .inl hstart
  | cons m rest ih =>
    rw [List.foldlM_cons] at h
    obtain ⟨next, hnext, h⟩ := bind_eq_ok h
    rcases ih h with hfields | ⟨other, hmem, hnest⟩
    · unfold PositionFields.read at hnext
      split at hnext
      next =>
        split at hnext
        next => exact absurd hnext error_ne_ok
        next =>
          obtain ⟨p, hp, -⟩ := map_eq_ok hnext
          exact .inr ⟨m, List.mem_cons_self, Point.one_le_nest hp⟩
      next =>
        split at hnext
        next =>
          split at hnext
          next => exact absurd hnext error_ne_ok
          next =>
            obtain ⟨p, -, rfl⟩ := map_eq_ok hnext
            exact .inl hfields
        next =>
          obtain rfl := Except.ok.inj hnext
          exact .inl hfields
    · exact .inr ⟨other, List.mem_cons_of_mem m hmem, hnest⟩

/-- A position that has been read has a start. -/
theorem PositionFields.start_of_finish {fields : PositionFields} {missing : String → DataError}
    {p : Position} (h : fields.finish missing = .ok p) : fields.start ≠ none := by
  intro hnone
  rw [finish, hnone] at h
  exact absurd h error_ne_ok

/-- A position is read from two levels at least. -/
theorem Position.two_le_nest {site : Site} {v : Json} {p : Position}
    (h : Position.ofJson site v = .ok p) : 2 ≤ v.nest := by
  cases v with
  | object members =>
    obtain ⟨fields, hfields, h⟩ := bind_eq_ok h
    rcases PositionFields.exists_start hfields (PositionFields.start_of_finish h) with
      hnone | ⟨m, hm, hnest⟩
    · exact absurd rfl hnone
    · exact Nat.succ_le_succ (Nat.le_trans hnest (Json.nestMembers_le_iff.mp (Nat.le_refl _) m hm))
  | array items =>
    obtain ⟨fields, hfields, h⟩ := bind_eq_ok h
    obtain ⟨position, hposition, -⟩ := bind_eq_ok h
    rcases PositionFields.exists_start hfields (PositionFields.start_of_finish hposition) with
      hnone | ⟨m, hm, hnest⟩
    · exact absurd rfl hnone
    · have hmem : m.2 ∈ items := (List.of_mem_zip hm).2
      exact Nat.succ_le_succ (Nat.le_trans hnest (Json.nestItems_le_iff.mp (Nat.le_refl _) _ hmem))
  | _ => exact absurd h error_ne_ok

/-! ## Nodes -/

namespace Node

/-- The children lie within a bound if each of them does. -/
theorem nestItems_toJsonList (nodes : List Node) (bound : Nat) :
    Json.nestItems (toJsonList nodes) ≤ bound ↔ ∀ node ∈ nodes, node.toJson.nest ≤ bound := by
  induction nodes with
  | nil => exact ⟨fun _ _ hmem => absurd hmem List.not_mem_nil, fun _ => Nat.zero_le _⟩
  | cons node rest ih => rw [toJsonList, Json.nestItems, Nat.max_le, ih, List.forall_mem_cons]

/-- The children of a node lie two levels deeper than the node; what else there
is does not depend on them. -/
theorem nest_toJson_le_iff (node : Node) {bound : Nat} :
    node.toJson.nest ≤ bound ↔ (node.withChildren []).toJson.nest ≤ bound ∧
      ∀ child ∈ node.children, child.toJson.nest + 2 ≤ bound := by
  have hleaf : node.children = [] → node.withChildren [] = node →
      (node.toJson.nest ≤ bound ↔ (node.withChildren []).toJson.nest ≤ bound ∧
        ∀ child ∈ node.children, child.toJson.nest + 2 ≤ bound) := by
    intro hchildren hwith
    rw [hwith, hchildren]
    exact ⟨fun h => ⟨h, fun _ hmem => absurd hmem List.not_mem_nil⟩, And.left⟩
  cases node with
  | root children info =>
    have hlist := nestItems_toJsonList children (bound - 2)
    simp only [withChildren, toJson, Json.nest, Json.nestMembers_append, Json.nestMembers,
      toJsonList,
      Json.nestItems, Node.children]
    constructor
    · intro h
      refine ⟨by omega, fun child hmem => ?_⟩
      have := hlist.mp (by omega) child hmem
      omega
    · rintro ⟨hown, hchildren⟩
      have := hlist.mpr fun child hmem => by
        have := hchildren child hmem
        omega
      omega
  | element tag properties children info =>
    have hlist := nestItems_toJsonList children (bound - 2)
    simp only [withChildren, toJson, Json.nest, Json.nestMembers_append, Json.nestMembers,
      toJsonList,
      Json.nestItems, Node.children]
    constructor
    · intro h
      refine ⟨by omega, fun child hmem => ?_⟩
      have := hlist.mp (by omega) child hmem
      omega
    · rintro ⟨hown, hchildren⟩
      have := hlist.mpr fun child hmem => by
        have := hchildren child hmem
        omega
      omega
  | text value info => exact hleaf rfl rfl
  | comment value info => exact hleaf rfl rfl
  | doctype name info => exact hleaf rfl rfl

/-- A node that can hold children takes two levels. -/
theorem two_le_nest {node : Node} (h : node.isParent = true) : 2 ≤ node.toJson.nest := by
  cases node with
  | root children info =>
    simp only [toJson, Json.nest, Json.nestMembers_append, Json.nestMembers]
    omega
  | element tag properties children info =>
    simp only [toJson, Json.nest, Json.nestMembers_append, Json.nestMembers]
    omega
  | _ => exact absurd h Bool.false_ne_true

/-- Each step of a path costs two levels. -/
theorem nest_get?_le {tree found : Node} {bound : Nat} (h : tree.toJson.nest ≤ bound) {path : Path}
    (hfound : tree.get? path = some found) : found.toJson.nest + 2 * path.length ≤ bound := by
  induction path generalizing tree bound with
  | nil =>
    rw [get?_nil] at hfound
    obtain rfl := Option.some.inj hfound
    exact h
  | cons i path ih =>
    rw [get?_cons] at hfound
    obtain ⟨child, hchild, hbelow⟩ := Option.bind_eq_some_iff.mp hfound
    have hnest := ((nest_toJson_le_iff tree).mp h).2 child (List.mem_of_getElem? hchild)
    have hpath : found.toJson.nest + 2 * path.length ≤ bound - 2 := ih (by omega) hbelow
    rw [List.length_cons]
    omega

/-- The levels of a tree are those of its nodes on their own, two more for each
step of a path. -/
theorem nest_toJson_le_of_get? {tree : Node} {bound : Nat}
    (h : ∀ path found, tree.get? path = some found →
      (found.withChildren []).toJson.nest + 2 * path.length ≤ bound) :
    tree.toJson.nest ≤ bound := by
  induction bound using Nat.strongRecOn generalizing tree with
  | ind bound ih =>
    have hroot := h [] tree (get?_nil tree)
    refine (nest_toJson_le_iff tree).mpr ⟨hroot, fun child hmem => ?_⟩
    obtain ⟨i, hi⟩ := List.mem_iff_getElem?.mp hmem
    have hbelow : ∀ path found, child.get? path = some found →
        (found.withChildren []).toJson.nest + 2 * (path.length + 1) ≤ bound := by
      intro path found hfound
      refine h (i :: path) found ?_
      rw [get?_cons, hi]
      exact hfound
    have hchild := hbelow [] child (get?_nil child)
    rw [List.length_nil] at hchild
    have hnest : child.toJson.nest ≤ bound - 2 := by
      refine ih (bound - 2) (by omega) fun path found hfound => ?_
      have := hbelow path found hfound
      omega
    omega

/-- What is written of position and data is no deeper than what they were read
from. -/
theorem nestMembers_toMembers_le {parts : List Json} {properties : Members} {info : Info}
    {children : List Node} (h : DrawnFrom parts properties info children)
    (hfree : ∀ v ∈ parts, v.RawFree) : Json.nestMembers info.toMembers ≤ Json.nestItems parts := by
  have hle : ∀ v ∈ parts, v.nest ≤ Json.nestItems parts :=
    Json.nestItems_le_iff.mp (Nat.le_refl _)
  rw [Info.toMembers, Json.nestMembers_append, Nat.max_le]
  constructor
  · cases hposition : info.position with
    | none => exact Nat.zero_le _
    | some p =>
      obtain ⟨v, hv, hread⟩ := h.position p hposition
      have htwo := Position.two_le_nest hread
      have hmem := hle v hv
      rw [Option.map_some, optionalMember, Json.nestMembers, Json.nestMembers, p.nest_toJson]
      omega
  · cases hdata : info.data with
    | none => exact Nat.zero_le _
    | some data =>
      obtain ⟨v, hv, -, hresolved⟩ := h.data data hdata
      rw [Json.resolve_of_rawFree (hfree v hv)] at hresolved
      obtain rfl := Except.ok.inj hresolved
      have hmerge := Json.nest_mergeKeys v
      have hmem := hle v hv
      rw [optionalMember, Json.nestMembers, Json.nestMembers]
      omega

/-- A value that is read as a node takes one level more than its parts. -/
theorem nest_eq_parts {site : Site} {v : Json} {node : Node} (h : ofJson site v = .ok node) :
    v.nest = Json.nestItems v.parts + 1 := by
  cases v with
  | array items => rfl
  | object members =>
    show Json.nestMembers members + 1 = Json.nestItems (members.map Prod.snd) + 1
    congr 1
    clear h
    induction members with
    | nil => rfl
    | cons m rest ih => rw [Json.nestMembers, List.map_cons, Json.nestItems, ih]
  | _ => exact absurd h error_ne_ok

/-- A node without its children is written no deeper than it was read, or takes
the two levels that are spelled out for children and properties. -/
theorem nest_withChildren_le {site : Site} {v : Json} {node : Node} (h : ofJson site v = .ok node)
    (hfree : v.RawFree) :
    (node.withChildren []).toJson.nest ≤ max v.nest (if node.isParent then 2 else 1) := by
  have hdrawn := drawnFrom_of_ofJson h
  have hparts : ∀ part ∈ v.parts, part.RawFree := fun _ => hfree.of_mem_parts
  have hinfo := nestMembers_toMembers_le hdrawn hparts
  have hnest := nest_eq_parts h
  -- Only roots and elements spell out children; a leaf has no more than its data and position.
  cases node with
  | root children info =>
    simp only [withChildren, toJson, Json.nest, Json.nestMembers_append, Json.nestMembers,
      toJsonList,
      Json.nestItems, isParent, if_true] at hinfo ⊢
    have hinfo : Json.nestMembers info.toMembers ≤ Json.nestItems v.parts := hinfo
    omega
  | element tag properties children info =>
    have hproperties : (Json.object properties).nest ≤ max 1 (Json.nestItems v.parts) := by
      rcases hdrawn.properties with hnil | ⟨members, resolved, hmem, hresolved, hmerged⟩
      · have hnil : properties = [] := hnil
        rw [hnil]
        exact Nat.le_max_left 1 _
      · have hmerged : Json.object properties = (Json.object members).mergeKeys := by
          rw [Json.resolveMembers_of_rawFree (hparts _ hmem).2] at hresolved
          obtain rfl := Except.ok.inj hresolved
          exact congrArg Json.object hmerged
        have hle := Json.nest_mergeKeys (.object members)
        have hpart := Json.nestItems_le_iff.mp (Nat.le_refl _) _ hmem
        rw [hmerged]
        omega
    have hinfo : Json.nestMembers info.toMembers ≤ Json.nestItems v.parts := hinfo
    simp only [Json.nest] at hproperties
    simp only [withChildren, toJson, Json.nest, Json.nestMembers_append, Json.nestMembers,
      toJsonList,
      Json.nestItems, isParent, if_true]
    omega
  | text value info =>
    have hinfo : Json.nestMembers info.toMembers ≤ Json.nestItems v.parts := hinfo
    simp only [withChildren, toJson, Json.nest, Json.nestMembers_append, Json.nestMembers]
    omega
  | comment value info =>
    have hinfo : Json.nestMembers info.toMembers ≤ Json.nestItems v.parts := hinfo
    simp only [withChildren, toJson, Json.nest, Json.nestMembers_append, Json.nestMembers]
    omega
  | doctype name info =>
    have hinfo : Json.nestMembers info.toMembers ≤ Json.nestItems v.parts := hinfo
    have hname : Json.nestMembers (optionalMember "name" (name.map .string)) = 0 := by
      cases name <;> rfl
    simp only [withChildren, toJson, Json.nest, Json.nestMembers_append, Json.nestMembers, hname]
    omega

/-- A tree that has been read from values of so many levels is written within as
many, unless a node that can hold children lies so deep that there is no level
left for them. -/
theorem nest_toJson_le_iff_of_ofJson {site : Site} {v : Json} {tree : Node}
    (h : ofJson site v = .ok tree) (hfree : v.RawFree) {bound : Nat} (hv : v.nest ≤ bound) :
    tree.toJson.nest ≤ bound ↔ ∀ path found, tree.get? path = some found → found.isParent = true →
      2 * path.length + 2 ≤ bound := by
  constructor
  · intro hnest path found hfound hparent
    have hpath := nest_get?_le hnest hfound
    have htwo := two_le_nest hparent
    omega
  · intro hparents
    refine nest_toJson_le_of_get? fun path found hfound => ?_
    -- a part of a value at a level leaves as many levels fewer
    have hlevels : ∀ level w, level + Json.nest w ≤ bound ∧ w.RawFree → ∀ part ∈ w.parts,
        level + 1 + part.nest ≤ bound ∧ part.RawFree := by
      rintro level w ⟨hw, hwfree⟩ part hpart
      refine ⟨?_, hwfree.of_mem_parts hpart⟩
      have hlt : part.nest < w.nest := by
        cases w with
        | array items =>
          exact Nat.lt_succ_of_le (Json.nestItems_le_iff.mp (Nat.le_refl _) part hpart)
        | object members =>
          obtain ⟨m, hm, rfl⟩ := List.mem_map.mp hpart
          exact Nat.lt_succ_of_le (Json.nestMembers_le_iff.mp (Nat.le_refl _) m hm)
        | _ => exact absurd hpart List.not_mem_nil
      omega
    obtain ⟨place, source, ⟨hsource, hsourceFree⟩, hread⟩ :=
      exists_source (fun level w => level + Json.nest w ≤ bound ∧ w.RawFree) hlevels h 0
        ⟨by omega, hfree⟩ hfound
    have hown := nest_withChildren_le hread hsourceFree
    have hpos := nest_eq_parts hread
    cases hparent : found.isParent with
    | true =>
      have htwo := hparents path found hfound hparent
      rw [hparent, if_pos rfl] at hown
      omega
    | false =>
      rw [hparent, if_neg Bool.false_ne_true] at hown
      omega

/-! ## Numbers -/

/-- The numbers of members are listed member by member. -/
theorem numbersOfMembers_append (first second : Members) :
    Json.numbersOfMembers (first ++ second) =
      Json.numbersOfMembers first ++ Json.numbersOfMembers second := by
  induction first with
  | nil => rfl
  | cons m rest ih =>
    rw [List.cons_append, Json.numbersOfMembers, Json.numbersOfMembers, ih, List.append_assoc]

mutual

/-- A number in the JSON form of a tree belongs to one of its nodes. -/
theorem exists_of_mem_numbers : ∀ (tree : Node) {n : Number}, n ∈ tree.toJson.numbers →
    ∃ path found, tree.get? path = some found ∧ n ∈ (found.withChildren []).toJson.numbers
  | .root children info, n, h => by
    simp only [toJson, Json.numbers, numbersOfMembers_append, Json.numbersOfMembers,
      List.nil_append, List.append_nil] at h
    rcases List.mem_append.mp h with hchildren | hinfo
    · obtain ⟨i, child, hchild, path, found, hfound, hn⟩ :=
        exists_of_mem_numbersOfItems children hchildren
      refine ⟨i :: path, found, ?_, hn⟩
      rw [get?_cons, show (Node.root children info).children[i]? = some child from hchild]
      exact hfound
    · refine ⟨[], .root children info, get?_nil _, ?_⟩
      simp only [withChildren, toJson, Json.numbers, numbersOfMembers_append, Json.numbersOfMembers,
        toJsonList, Json.numbersOfItems, List.nil_append]
      exact hinfo
  | .element tag properties children info, n, h => by
    simp only [toJson, Json.numbers, numbersOfMembers_append, Json.numbersOfMembers,
      List.nil_append, List.append_nil] at h
    have hown : n ∈ Json.numbersOfMembers properties ∨ n ∈ Json.numbersOfMembers info.toMembers →
        ∃ path found, (Node.element tag properties children info).get? path = some found ∧
          n ∈ (found.withChildren []).toJson.numbers := by
      intro hn
      refine ⟨[], .element tag properties children info, get?_nil _, ?_⟩
      simp only [withChildren, toJson, Json.numbers, numbersOfMembers_append, Json.numbersOfMembers,
        toJsonList, Json.numbersOfItems, List.nil_append, List.append_nil]
      exact List.mem_append.mpr hn
    rcases List.mem_append.mp h with h | hinfo
    · rcases List.mem_append.mp h with hproperties | hchildren
      · exact hown (.inl hproperties)
      · obtain ⟨i, child, hchild, path, found, hfound, hn⟩ :=
          exists_of_mem_numbersOfItems children hchildren
        refine ⟨i :: path, found, ?_, hn⟩
        rw [get?_cons,
          show (Node.element tag properties children info).children[i]? = some child from hchild]
        exact hfound
    · exact hown (.inr hinfo)
  | .text value info, _, h => ⟨[], _, get?_nil _, h⟩
  | .comment value info, _, h => ⟨[], _, get?_nil _, h⟩
  | .doctype name info, _, h => ⟨[], _, get?_nil _, h⟩

/-- The same of siblings: the number belongs to a node in one of them. -/
theorem exists_of_mem_numbersOfItems : ∀ (nodes : List Node) {n : Number},
    n ∈ Json.numbersOfItems (toJsonList nodes) → ∃ (i : Nat)
      (child : Node), nodes[i]? = some child ∧
      ∃ path found, child.get? path = some found ∧ n ∈ (found.withChildren []).toJson.numbers
  | [], _, h => absurd h List.not_mem_nil
  | node :: rest, _, h => by
    rw [toJsonList, Json.numbersOfItems] at h
    rcases List.mem_append.mp h with hnode | hrest
    · exact ⟨0, node, rfl, exists_of_mem_numbers node hnode⟩
    · obtain ⟨i, child, hchild, hfound⟩ := exists_of_mem_numbersOfItems rest hrest
      exact ⟨i + 1, child, hchild, hfound⟩

end

end Node

/-- Lines, columns and offsets are numbers of at most 64 bits without a sign. -/
theorem Point.fits_of_mem_numbers (p : Point) {n : Number} (h : n ∈ p.toJson.numbers) : n.Fits := by
  have hnat : ∀ m : Nat, m < UInt64.size → (Number.whole m).Fits := by
    intro m hm
    have hmax : m ≤ Numeral.maxDigits := Nat.le_of_lt_succ hm
    exact ⟨Int.le_trans (Int.neg_nonpos_of_nonneg (Int.natCast_nonneg _)) (Int.natCast_nonneg m),
      Int.ofNat_le.mpr hmax⟩
  have hshort : ∀ m : UInt32, m.toNat < UInt64.size :=
    fun m => Nat.lt_trans m.toNat_lt (by decide)
  obtain ⟨line, column, offset⟩ := p
  rw [toJson, Json.numbers, Node.numbersOfMembers_append] at h
  rcases List.mem_append.mp h with h | h
  · rcases List.mem_cons.mp h with rfl | h
    · exact hnat _ (hshort line)
    · obtain rfl := List.mem_singleton.mp h
      exact hnat _ (hshort column)
  · cases offset with
    | none => exact absurd h List.not_mem_nil
    | some offset =>
      obtain rfl := List.mem_singleton.mp h
      exact hnat _ offset.toNat_lt

/-- So are all numbers of a position. -/
theorem Position.fits_of_mem_numbers (p : Position) {n : Number} (h : n ∈ p.toJson.numbers) :
    n.Fits := by
  rw [toJson, Json.numbers, Json.numbersOfMembers, Json.numbersOfMembers, Json.numbersOfMembers,
    List.append_nil] at h
  rcases List.mem_append.mp h with h | h
  · exact p.start.fits_of_mem_numbers h
  · exact p.stop.fits_of_mem_numbers h

/-- The numbers in positions always fit. -/
theorem Info.fits_of_mem_numbers {info : Info} {n : Number}
    (h : n ∈ Json.numbersOfMembers info.toMembers)
    (hdata : ∀ data, info.data = some data → n ∈ data.numbers → n.Fits) : n.Fits := by
  rw [toMembers, Node.numbersOfMembers_append] at h
  rcases List.mem_append.mp h with h | h
  · cases hposition : info.position with
    | none =>
      rw [hposition] at h
      exact absurd h List.not_mem_nil
    | some p =>
      rw [hposition, Option.map_some, optionalMember, Json.numbersOfMembers, Json.numbersOfMembers,
        List.append_nil] at h
      exact p.fits_of_mem_numbers h
  · cases hfound : info.data with
    | none =>
      rw [hfound] at h
      exact absurd h List.not_mem_nil
    | some data =>
      rw [hfound, optionalMember, Json.numbersOfMembers, Json.numbersOfMembers,
        List.append_nil] at h
      exact hdata data hfound h

/-- The numbers of a part are numbers of the value. -/
theorem Json.mem_numbers_of_mem_parts {v part : Json} (hpart : part ∈ v.parts) {n : Number}
    (h : n ∈ part.numbers) : n ∈ v.numbers := by
  cases v with
  | array items => exact mem_numbersOfItems.mpr ⟨part, hpart, h⟩
  | object members =>
    obtain ⟨m, hm, rfl⟩ := List.mem_map.mp hpart
    exact mem_numbersOfMembers.mpr ⟨m, hm, h⟩
  | _ => exact absurd hpart List.not_mem_nil

namespace Node

/-- The numbers of a node without its children are those of its properties,
position and data. -/
theorem mem_numbers_withChildren_nil {node : Node} {n : Number}
    (h : n ∈ (node.withChildren []).toJson.numbers) :
    n ∈ (Json.object node.properties).numbers ∨ n ∈ Json.numbersOfMembers node.info.toMembers := by
  cases node with
  | root children info =>
    simp only [withChildren, toJson, Json.numbers, numbersOfMembers_append, Json.numbersOfMembers,
      toJsonList, Json.numbersOfItems, List.nil_append] at h
    exact .inr h
  | element tag properties children info =>
    simp only [withChildren, toJson, Json.numbers, numbersOfMembers_append, Json.numbersOfMembers,
      toJsonList, Json.numbersOfItems, List.nil_append, List.append_nil] at h
    exact List.mem_append.mp h
  | text value info =>
    simp only [withChildren, toJson, Json.numbers, numbersOfMembers_append, Json.numbersOfMembers,
      List.nil_append] at h
    exact .inr h
  | comment value info =>
    simp only [withChildren, toJson, Json.numbers, numbersOfMembers_append, Json.numbersOfMembers,
      List.nil_append] at h
    exact .inr h
  | doctype name info =>
    have hname : Json.numbersOfMembers (optionalMember "name" (name.map .string)) = [] := by
      cases name <;> rfl
    simp only [withChildren, toJson, Json.numbers, numbersOfMembers_append, Json.numbersOfMembers,
      hname, List.nil_append] at h
    exact .inr h

/-- The numbers of a tree that has been read fit into 64 bits if those of its
value do. -/
theorem fits_of_ofJson {site : Site} {v : Json} {tree : Node} (h : ofJson site v = .ok tree)
    (hfree : v.RawFree) (hv : ∀ n ∈ v.numbers, n.Fits) : ∀ n ∈ tree.toJson.numbers, n.Fits := by
  intro n hn
  -- the number belongs to a node, and the node has been read from a value inside the given one
  obtain ⟨path, found, hfound, hn⟩ := exists_of_mem_numbers tree hn
  obtain ⟨place, source, ⟨hsource, hsourceFree⟩, hread⟩ :=
    exists_source (fun _ w => (∀ n ∈ Json.numbers w, n.Fits) ∧ w.RawFree)
      (fun _ w hw part hpart => ⟨fun n hn => hw.1 n (Json.mem_numbers_of_mem_parts hpart hn),
        hw.2.of_mem_parts hpart⟩) h 0 ⟨hv, hfree⟩ hfound
  have hdrawn := drawnFrom_of_ofJson hread
  have hpart : ∀ part ∈ source.parts, n ∈ part.mergeKeys.numbers → n.Fits := fun part hpart hn =>
    hsource n (Json.mem_numbers_of_mem_parts hpart (Json.mem_numbers_of_mergeKeys part hn))
  rcases mem_numbers_withChildren_nil hn with hproperties | hinfo
  · rcases hdrawn.properties with hnil | ⟨members, resolved, hmem, hresolved, hmerged⟩
    · rw [hnil] at hproperties
      exact absurd hproperties List.not_mem_nil
    · rw [Json.resolveMembers_of_rawFree (hsourceFree.of_mem_parts hmem).2] at hresolved
      obtain rfl := Except.ok.inj hresolved
      rw [hmerged] at hproperties
      exact hpart _ hmem hproperties
  · refine Info.fits_of_mem_numbers hinfo fun data hdata hn => ?_
    obtain ⟨w, hw, -, hresolved⟩ := hdrawn.data data hdata
    rw [Json.resolve_of_rawFree (hsourceFree.of_mem_parts hw)] at hresolved
    obtain rfl := Except.ok.inj hresolved
    exact hpart w hw hn

end Node

end Graft
