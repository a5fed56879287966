import Graft.Proofs.Rule.Fitting
import Graft.Proofs.Splice.Inserted
import Graft.Proofs.Tree.RoundTrip
import Graft.Rule.Decode

/-!
# Nodes of rules that have been read

The replacers of rules that have been read answer with deletions, texts,
rejections and nodes that have been read (`replacement_from_value`). So what
holds of plain texts and of every node that is read, whatever its children are,
holds of every node that such rules put into a tree: no object in it has a key
twice, no raw key is left in it, and none has null as its data.

`Node.HoldsOfRead` is the property that is carried along, with a condition on
the values that are read (`given`), since not everything that holds of a node
that is read holds whatever it is read from: data that is null is kept out by
the reader unless it stands in a raw value. The property has to pass from a
value to its parts, and has to hold of a plain text, because texts in rules
become nodes without being read.

From single nodes it is carried to replacements, to pairs and members, and to
sets, one lemma for each reader. What the rules put into a tree then satisfies
it, and the run of all passes keeps it everywhere
(`Graft.Proofs.Splice.Inserted`).

Main statements:
- `Node.HoldsOfRead.puts_of_ofJson`: it holds of the nodes of a replacement that
  has been read;
- `Node.HoldsOfRead.gives_of_ofJson`: so it does of those of all rules that have
  been read;
- `Node.HoldsOfRead.everywhere_outcome`: such rules keep it everywhere in a
  tree.
-/

namespace Graft

variable {σ : Type}

/-- Whether something holds of plain texts and of all nodes that are read from
given values, and does not depend on children. What is given passes on to the
parts of a value. -/
structure Node.HoldsOfRead (given : Json → Prop) (holds : Node → Prop) : Prop where
  parts : ∀ {v part}, given v → part ∈ v.parts → given part
  ofText : ∀ value, holds (Node.ofText value)
  withChildren : ∀ node children, holds node → holds (node.withChildren children)
  ofJson : ∀ {site v node}, given v → Node.ofJson site v = .ok node → node.Everywhere holds

/-- Keys are unique in what is read, from whatever value. -/
theorem Node.holdsOfRead_isKeyed : HoldsOfRead (fun _ => True) IsKeyed where
  parts _ _ := trivial
  ofText _ := ⟨⟨List.nodup_nil, trivial⟩, fun _ h => by cases h⟩
  withChildren node children h := by cases node <;> exact h
  ofJson _ h := (everywhere_isKeyed_of_ofJson h).1

/-- No raw key is left in what is read: its text has been read in its place. -/
theorem Node.holdsOfRead_isRawFree : HoldsOfRead (fun _ => True) IsRawFree where
  parts _ _ := trivial
  ofText _ := ⟨trivial, fun _ h => by cases h⟩
  withChildren node children h := by cases node <;> exact h
  ofJson _ h := (everywhere_isKeyed_of_ofJson h).2

/-- No data is null if no object of the rules begins with the key of raw texts. -/
theorem Node.holdsOfRead_hasNoNullData : HoldsOfRead Json.RawFree HasNoNullData where
  parts hfree hpart := hfree.of_mem_parts hpart
  ofText _ h := by cases h
  withChildren node children h := by cases node <;> exact h
  ofJson hfree h := everywhere_hasNoNullData_of_ofJson h hfree

/-- The replacers of rules as they are given. -/
def RuleSet.replacers (rules : RuleSet σ) : List (Replacer σ) := rules.pairs.map Prod.snd

/-- Whether the replacers of rules answer with nothing but nodes of which
something holds everywhere. -/
def RuleSet.Give (rules : RuleSet σ) (holds : Node → Prop) : Prop :=
  ∀ replacer ∈ rules.replacers, replacer.Gives holds

/-- Rules that have been made ready have the replacers that were given. -/
theorem RuleSet.replacer_mem {rules : RuleSet σ} {ready : List (Rule σ)}
    (hready : rules.rules = .ok ready) {rule : Rule σ} (hrule : rule ∈ ready) :
    rule.replacer ∈ rules.replacers := by
  rw [rules_eq_rules_pairs] at hready
  obtain ⟨-, rfl⟩ := rules_list_eq_ok_iff.mp hready
  obtain ⟨pair, hpair, rfl⟩ := List.mem_map.mp hrule
  exact List.mem_map_of_mem hpair

theorem RuleSet.give_single {holds : Node → Prop} {find : Find} {replacement : Replacement}
    (h : replacement.Puts holds) :
    (single find (some (.constant replacement)) : RuleSet σ).Give holds := by
  intro replacer hmem
  obtain rfl := List.mem_singleton.mp hmem
  exact Replacer.gives_constant h

namespace Node.HoldsOfRead

open RuleSet (pairOfJson pairsOfJson entriesOfJson)

variable {given : Json → Prop} {holds : Node → Prop}

/-- A text of a rule becomes a plain text node, or nothing if it is empty. -/
theorem puts_ofText (hread : HoldsOfRead given holds) (value : String) :
    (Replacement.ofText value).Puts holds := by
  intro nodes hnodes node hmem
  rw [Replacement.toNodes_ofText] at hnodes
  obtain rfl := Option.some.inj hnodes
  split at hmem
  next => exact absurd hmem List.not_mem_nil
  next =>
    obtain rfl := List.mem_singleton.mp hmem
    exact everywhere_iff.mpr ⟨hread.ofText value, fun child hchild =>
      absurd hchild List.not_mem_nil⟩

theorem of_nodeOfJson (hread : HoldsOfRead given holds) {v : Json} (hv : given v) {node : Node}
    (h : RuleError.nodeOfJson v = .ok node) : node.Everywhere holds := by
  unfold RuleError.nodeOfJson at h
  split at h
  next found hfound =>
    obtain rfl := Except.ok.inj h
    exact hread.ofJson hv hfound
  next => exact absurd h error_ne_ok

/-- What holds of each node that is read holds of all nodes of a replacement. -/
theorem of_mapM (hread : HoldsOfRead given holds) {items : List Json}
    (hitems : ∀ v ∈ items, given v)
    {nodes : List Node} (h : items.mapM RuleError.nodeOfJson = .ok nodes) :
    ∀ node ∈ nodes, node.Everywhere holds := by
  induction items generalizing nodes with
  | nil =>
    obtain rfl := Except.ok.inj h
    exact fun node hmem => absurd hmem List.not_mem_nil
  | cons v rest ih =>
    rw [List.mapM_cons] at h
    obtain ⟨first, hfirst, h⟩ := bind_eq_ok h
    obtain ⟨others, hothers, h⟩ := bind_eq_ok h
    obtain rfl := Except.ok.inj h
    obtain ⟨hv, hrest⟩ := List.forall_mem_cons.mp hitems
    exact List.forall_mem_cons.mpr ⟨hread.of_nodeOfJson hv hfirst, ih hrest hothers⟩

/-- It holds everywhere in the nodes of a replacement that has been read. -/
theorem puts_of_ofJson (hread : HoldsOfRead given holds) {v : Json} (hv : given v)
    {replacement : Replacement} (h : Replacement.ofJson v = .ok replacement) :
    replacement.Puts holds := by
  unfold Replacement.ofJson at h
  -- one case for each form of a replacement; only objects and arrays put nodes that were read
  split at h
  next =>
    obtain rfl := Except.ok.inj h
    intro nodes hnodes
    obtain rfl := Option.some.inj hnodes
    exact fun node hmem => absurd hmem List.not_mem_nil
  next =>
    obtain rfl := Except.ok.inj h
    exact fun nodes hnodes => nomatch hnodes
  next value =>
    obtain rfl := Except.ok.inj h
    exact hread.puts_ofText value
  next members =>
    obtain ⟨node, hnode, rfl⟩ := map_eq_ok h
    intro nodes hnodes
    obtain rfl := Option.some.inj hnodes
    intro other hmem
    obtain rfl := List.mem_singleton.mp hmem
    exact hread.of_nodeOfJson hv hnode
  next items =>
    obtain ⟨found, hfound, rfl⟩ := map_eq_ok h
    intro nodes hnodes
    obtain rfl := Option.some.inj hnodes
    exact hread.of_mapM (fun _ hmem => hread.parts hv hmem) hfound
  next => exact absurd h error_ne_ok

/-- Replacements that have been read are the answers of replacers that give
nothing else. -/
theorem gives_of_ofJson_replacement (hread : HoldsOfRead given holds) {v : Json} (hv : given v)
    {replacement : Replacement} (h : Replacement.ofJson v = .ok replacement) :
    (Replacer.constant replacement : Replacer σ).Gives holds :=
  Replacer.gives_constant (hread.puts_of_ofJson hv h)

/-- A deletion puts in nothing. -/
theorem gives_delete : (Replacer.constant .delete : Replacer σ).Gives holds := by
  refine Replacer.gives_constant fun nodes hnodes => ?_
  obtain rfl := Option.some.inj hnodes
  exact fun node hmem => absurd hmem List.not_mem_nil

theorem gives_pairOfJson (hread : HoldsOfRead given holds) {index : Nat} {v : Json} (hv : given v)
    {pair : Find × Replacer σ} (h : pairOfJson index v = .ok pair) : pair.2.Gives holds := by
  unfold pairOfJson at h
  split at h
  next =>
    obtain ⟨find, -, h⟩ := bind_eq_ok h
    obtain rfl := Except.ok.inj h
    exact gives_delete
  next =>
    obtain ⟨find, -, h⟩ := bind_eq_ok h
    obtain ⟨replacement, hreplacement, h⟩ := bind_eq_ok h
    obtain rfl := Except.ok.inj h
    exact hread.gives_of_ofJson_replacement (hread.parts hv (by simp [Json.parts])) hreplacement
  next => exact absurd h error_ne_ok

/-- What the replacement of every pair keeps is kept by the pairs of an array. -/
theorem gives_pairsOfJson (hread : HoldsOfRead given holds) {items : List Json}
    (hitems : ∀ v ∈ items, given v) :
    ∀ {index : Nat} {pairs : List (Find × Replacer σ)}, pairsOfJson index items = .ok pairs →
      ∀ pair ∈ pairs, pair.2.Gives holds := by
  induction items with
  | nil =>
    intro index pairs h
    obtain rfl := Except.ok.inj h
    exact fun pair hmem => absurd hmem List.not_mem_nil
  | cons v rest ih =>
    intro index pairs h
    obtain ⟨pair, hpair, h⟩ := bind_eq_ok h
    obtain ⟨others, hothers, h⟩ := bind_eq_ok h
    obtain rfl := Except.ok.inj h
    obtain ⟨hv, hrest⟩ := List.forall_mem_cons.mp hitems
    exact List.forall_mem_cons.mpr ⟨hread.gives_pairOfJson hv hpair, ih hrest hothers⟩

/-- The same of the members of an object. -/
theorem gives_entriesOfJson (hread : HoldsOfRead given holds) {members : Members}
    (hmembers : ∀ m ∈ members, given m.2) :
    ∀ {entries : List (String × Replacer σ)}, entriesOfJson members = .ok entries →
      ∀ entry ∈ entries, entry.2.Gives holds := by
  induction members with
  | nil =>
    intro entries h
    obtain rfl := Except.ok.inj h
    exact fun entry hmem => absurd hmem List.not_mem_nil
  | cons m rest ih =>
    intro entries h
    obtain ⟨replacement, hreplacement, h⟩ := bind_eq_ok h
    obtain ⟨others, hothers, h⟩ := bind_eq_ok h
    obtain rfl := Except.ok.inj h
    obtain ⟨hv, hrest⟩ := List.forall_mem_cons.mp hmembers
    exact List.forall_mem_cons.mpr
      ⟨hread.gives_of_ofJson_replacement hv hreplacement, ih hrest hothers⟩

/-- It holds everywhere in the nodes that rules put in, if the rules have been
read. -/
theorem gives_of_ofJson (hread : HoldsOfRead given holds) {v : Json} (hv : given v)
    {rules : RuleSet σ} (h : RuleSet.ofJson v = .ok rules) : rules.Give holds := by
  intro replacer hmem
  unfold RuleSet.ofJson at h
  -- a text deletes, and arrays and objects are read part by part
  split at h
  next text =>
    obtain rfl := Except.ok.inj h
    obtain rfl := List.mem_singleton.mp hmem
    exact gives_delete
  next items =>
    obtain ⟨pairs, hpairs, rfl⟩ := map_eq_ok h
    obtain ⟨pair, hpair, rfl⟩ := List.mem_map.mp hmem
    exact hread.gives_pairsOfJson (fun _ hitem => hread.parts hv hitem) hpairs pair hpair
  next members =>
    obtain ⟨entries, hentries, rfl⟩ := map_eq_ok h
    rw [RuleSet.replacers, RuleSet.pairs, List.map_map] at hmem
    obtain ⟨entry, hentry, rfl⟩ := List.mem_map.mp hmem
    have hmembers : ∀ m ∈ members, given m.2 := fun m hm =>
      hread.parts hv (List.mem_map_of_mem hm)
    exact hread.gives_entriesOfJson hmembers hentries entry hentry
  next => exact absurd h error_ne_ok

/-- Rules that put in nothing else keep it everywhere in a tree. -/
theorem everywhere_outcome (hread : HoldsOfRead given holds) {rules : RuleSet σ}
    (hrules : rules.Give holds) {tree : Node}
    (htree : tree.Everywhere holds) {ignore : Ignore} {state : σ} {outcome : Outcome σ}
    (hrun : findAndReplace tree rules ignore state = .ok outcome) :
    outcome.tree.Everywhere holds := by
  refine findAndReplace_everywhere
    (fun value _ => hread.ofText value) hread.withChildren ?_ htree hrun
  intro ready hready rule hrule
  exact hrules rule.replacer (RuleSet.replacer_mem hready hrule)

end Node.HoldsOfRead

end Graft
