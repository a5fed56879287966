import Graft.Proofs.Rule.Reading
import Mathlib.Data.List.Forall2

/-!
# Rules one at a time

A search with several rules can be handed on: each rule gets a search of its
own, and the tree is written as a JSON value after one search and read from it
before the next. Nothing is lost on the way, but for null as data. A rule read
on its own is the rule that is read among the others (`from_value` on a
singleton), a pass leaves nothing behind but the tree, and a tree between two
passes comes back from its JSON as it was, since nothing but plain texts and
nodes that were read has been put into it. Only null as data, which is not read
back, must be kept out; neither a tree nor rules have any if no object in their
JSON begins with the key of raw texts.

Two invariants carry the induction over the rules. `ComesBack` says of the tree
between two searches that reading what is written of it gives it back, and
`GivesBack` says of a replacer that it puts in nothing that would break this.
Both are made of the same three conditions on nodes: keys that are unique, no
raw keys, and no null as data.

A literal text that is too long to be made a pattern stops both: the search with
all rules before its first pass (`into_pairs`), the searches handed on when its
turn comes. The statement therefore speaks of the outcomes as a whole, with
failure as one of them, and not only of trees.

That the condition on null is needed is shown by an example: data that holds the
text of a null as a raw value is read as null, survives one search, and is lost
between two.

Main statements:
- `RuleSet.readsOne_singles`: rules in JSON are taken apart into rules that can
  be read on their own;
- `RuleSet.relay_eq`: such rules do one after the other what they do in one
  search;
- `RuleSet.relay_singles`: so the searches with one rule each lead to the tree
  of the search with all of them.
-/

namespace Graft

namespace RuleSet

/-- Rules in JSON, each of them as rules on their own. -/
def singles : Json → List Json
  | .array items => items.map fun item => .array [item]
  | .object members => members.map fun member => .object [member]
  | rules => [rules]

/-- The tree after a search with rules in JSON. -/
def search (ignore : Ignore) (rules : Json) (tree : Node) : Except RuleError Node := do
  let read : RuleSet Unit ← ofJson rules
  let outcome ← findAndReplace tree read ignore ()
  return outcome.tree

/-- The tree after several searches. After each but the last, the tree is
written and read again. None if a search or a reading fails. -/
def relay (ignore : Ignore) : List Json → Node → Option Node
  | [], tree => some tree
  | [rules], tree => (search ignore rules tree).toOption
  | rules :: next :: rest, tree => do
    let found ← (search ignore rules tree).toOption
    let read ← (Node.ofJson .outer found.toJson).toOption
    relay ignore (next :: rest) read

/-- Whether rules in JSON are read, and are this one pair. -/
def ReadsOne (rules : Json) (pair : Find × Replacer Unit) : Prop :=
  ∃ read : RuleSet Unit, ofJson rules = .ok read ∧ read.pairs = [pair]

/-! ## Rules taken apart -/

/-- A pair is read in the same way wherever it stands in a list. -/
theorem pairOfJson_of_ok {σ : Type} {index : Nat} {v : Json} {pair : Find × Replacer σ}
    (h : pairOfJson index v = .ok pair) (other : Nat) : pairOfJson other v = .ok pair := by
  unfold pairOfJson at h ⊢
  split at h
  next => exact h
  next => exact h
  next => exact absurd h error_ne_ok

/-- A pair on its own, in an array around it, is read as it is among others. Its
index is another, but only errors name it. -/
theorem readsOne_array {index : Nat} {v : Json} {pair : Find × Replacer Unit}
    (h : pairOfJson index v = .ok pair) : ReadsOne (.array [v]) pair := by
  refine ⟨.list [pair], ?_, rfl⟩
  rw [ofJson, pairsOfJson, pairOfJson_of_ok h 0]
  rfl

/-- So is a member on its own. -/
theorem readsOne_object {key : String} {v : Json} {replacement : Replacement}
    (h : Replacement.ofJson v = .ok replacement) :
    ReadsOne (.object [(key, v)]) (.literal key, .constant replacement) := by
  refine ⟨.table [(key, .constant replacement)], ?_, rfl⟩
  rw [ofJson, entriesOfJson, h]
  rfl

theorem readsOne_items {items : List Json} :
    ∀ {index : Nat} {pairs : List (Find × Replacer Unit)}, pairsOfJson index items = .ok pairs →
      List.Forall₂ ReadsOne (items.map fun item => .array [item]) pairs := by
  induction items with
  | nil =>
    intro index pairs h
    obtain rfl := Except.ok.inj h
    exact .nil
  | cons item rest ih =>
    intro index pairs h
    obtain ⟨pair, hpair, h⟩ := bind_eq_ok h
    obtain ⟨others, hothers, h⟩ := bind_eq_ok h
    obtain rfl := Except.ok.inj h
    exact .cons (readsOne_array hpair) (ih hothers)

theorem readsOne_members {members : Members} :
    ∀ {entries : List (String × Replacer Unit)}, entriesOfJson members = .ok entries →
      List.Forall₂ ReadsOne (members.map fun member => .object [member])
        (entries.map fun entry => (.literal entry.1, entry.2)) := by
  induction members with
  | nil =>
    intro entries h
    obtain rfl := Except.ok.inj h
    exact .nil
  | cons member rest ih =>
    intro entries h
    obtain ⟨replacement, hreplacement, h⟩ := bind_eq_ok h
    obtain ⟨others, hothers, h⟩ := bind_eq_ok h
    obtain rfl := Except.ok.inj h
    exact .cons (readsOne_object hreplacement) (ih hothers)

/-- Rules that are read are the pairs, one by one, that they are taken apart
into. -/
theorem readsOne_singles {v : Json} {rules : RuleSet Unit} (h : ofJson v = .ok rules) :
    List.Forall₂ ReadsOne (singles v) rules.pairs := by
  have hread := h
  unfold ofJson at h
  split at h
  next text =>
    obtain rfl := Except.ok.inj h
    exact .cons ⟨_, hread, rfl⟩ .nil
  next items =>
    obtain ⟨pairs, hpairs, rfl⟩ := map_eq_ok h
    exact readsOne_items hpairs
  next members =>
    obtain ⟨entries, hentries, rfl⟩ := map_eq_ok h
    exact readsOne_members hentries
  next => exact absurd h error_ne_ok

/-! ## Searches handed on -/

/-- A search with rules that have been read makes them ready and applies them. -/
theorem search_eq (ignore : Ignore) {v : Json} {rules : RuleSet Unit}
    (hrules : ofJson v = .ok rules) (tree : Node) :
    search ignore v tree =
      (list rules.pairs).rules.map fun ready => (Rule.applyAll ignore ready tree ()).tree := by
  rw [search, hrules, ← rules_eq_rules_pairs]
  show (findAndReplace tree rules ignore ()).bind (fun outcome => .ok outcome.tree) = _
  rw [findAndReplace]
  cases rules.rules <;> rfl

/-- A search with one pair is one pass, if the pair can be made a rule. -/
theorem search_of_readsOne (ignore : Ignore) {v : Json} {pair : Find × Replacer Unit}
    (h : ReadsOne v pair) (tree : Node) :
    search ignore v tree =
      if pair.1.Fits then .ok ((⟨pair.1.toPattern, pair.2⟩ : Rule Unit).apply ignore tree ()).tree
      else .error (.badPattern pair.1.source) := by
  obtain ⟨rules, hrules, hpairs⟩ := h
  rw [search_eq ignore hrules, hpairs, rules_list_cons]
  split <;> rfl

/-- A pass with a replacer that gives nothing else keeps what holds of all that
is read. -/
theorem everywhere_apply {given : Json → Prop} {holds : Node → Prop}
    (hread : Node.HoldsOfRead given holds) {rule : Rule Unit} (hgives : rule.replacer.Gives holds)
    (ignore : Ignore) {tree : Node} (htree : tree.Everywhere holds) :
    (rule.apply ignore tree ()).tree.Everywhere holds := by
  let rules : RuleSet Unit := .list [(.pattern rule.pattern, rule.replacer)]
  have hready : rules.rules = .ok [rule] := rfl
  have hrun : findAndReplace tree rules ignore () = .ok (Rule.applyAll ignore [rule] tree ()) := by
    rw [findAndReplace, hready]
    rfl
  have hrules : rules.Give holds := by
    intro replacer hmem
    obtain rfl := List.mem_singleton.mp hmem
    exact hgives
  exact hread.everywhere_outcome hrules htree hrun

/-- What a tree has to be to come back from its JSON. -/
structure ComesBack (tree : Node) : Prop where
  keyed : tree.Everywhere Node.IsKeyed
  rawFree : tree.Everywhere Node.IsRawFree
  noNull : tree.Everywhere Node.HasNoNullData

/-- A tree that comes back is read as itself from what is written of it. -/
theorem ComesBack.ofJson_toJson {tree : Node} (h : ComesBack tree) :
    Node.ofJson .outer tree.toJson = .ok tree := by
  rw [Node.ofJson_toJson .outer tree h.keyed h.rawFree, Node.withoutNullData_eq_self h.noNull]

/-- What a replacer may put into such trees. -/
structure GivesBack (replacer : Replacer Unit) : Prop where
  keyed : replacer.Gives Node.IsKeyed
  rawFree : replacer.Gives Node.IsRawFree
  noNull : replacer.Gives Node.HasNoNullData

theorem ComesBack.apply {tree : Node} (h : ComesBack tree) {rule : Rule Unit}
    (hgives : GivesBack rule.replacer) (ignore : Ignore) :
    ComesBack (rule.apply ignore tree ()).tree where
  keyed := everywhere_apply Node.holdsOfRead_isKeyed hgives.keyed ignore h.keyed
  rawFree := everywhere_apply Node.holdsOfRead_isRawFree hgives.rawFree ignore h.rawFree
  noNull := everywhere_apply Node.holdsOfRead_hasNoNullData hgives.noNull ignore h.noNull

/-- Pairs that are read one by one do in searches of their own what they do in
one. Between two of them the tree is one that is read as it was written. -/
theorem relay_eq (ignore : Ignore) {given : List Json} {pairs : List (Find × Replacer Unit)}
    (h : List.Forall₂ ReadsOne given pairs) (hgives : ∀ pair ∈ pairs, GivesBack pair.2)
    {tree : Node} (htree : ComesBack tree) :
    relay ignore given tree = ((list pairs).rules.map fun ready =>
      (Rule.applyAll ignore ready tree ()).tree).toOption := by
  -- along the pairs, the tree before each of them being one that comes back
  induction h generalizing tree with
  | nil => rfl
  | @cons v pair rest others hfirst hrest ih =>
    obtain ⟨hgive, hgives⟩ := List.forall_mem_cons.mp hgives
    have hsearch := search_of_readsOne ignore hfirst tree
    rw [rules_list_cons]
    by_cases hfits : pair.1.Fits
    · rw [if_pos hfits] at hsearch ⊢
      have hback : ComesBack ((⟨pair.1.toPattern, pair.2⟩ : Rule Unit).apply ignore tree ()).tree :=
        htree.apply hgive ignore
      have hrelay := ih hgives hback
      cases rest with
      | nil =>
        cases hrest
        rw [relay, hsearch]
        rfl
      | cons next rest =>
        rw [relay, hsearch]
        show (Node.ofJson .outer _).toOption.bind _ = _
        rw [hback.ofJson_toJson]
        refine hrelay.trans ?_
        cases (list others).rules <;> rfl
    · rw [if_neg hfits] at hsearch ⊢
      cases rest with
      | nil => rw [relay, hsearch]; rfl
      | cons next rest => rw [relay, hsearch]; rfl

/-- Searches compose through JSON. Rules that can be read are taken apart into
as many that can be read on their own, each of them the pair at its place among
all. Then the searches with one rule each, where the tree is written as a JSON
value and read back between any two, lead from a tree that has been read to the
tree that one search with all rules gives, or end without one if this does; and
if all rules can be made ready, all these searches and readings succeed. Of the
tree and of the nodes that the rules put in it is asked that no data is null. -/
theorem relay_singles {site : Site} {v rules : Json} {tree : Node} {read : RuleSet Unit}
    (htree : Node.ofJson site v = .ok tree) (hnull : tree.Everywhere Node.HasNoNullData)
    (hrules : ofJson rules = .ok read) (hgive : read.Give Node.HasNoNullData) (ignore : Ignore) :
    List.Forall₂ ReadsOne (singles rules) read.pairs ∧
      relay ignore (singles rules) tree = (search ignore rules tree).toOption ∧
      ((∃ ready, read.rules = .ok ready) → ∃ result, search ignore rules tree = .ok result) := by
  have hsingles := readsOne_singles hrules
  obtain ⟨hkeyed, hfree⟩ := Node.everywhere_isKeyed_of_ofJson htree
  have hgives : ∀ pair ∈ read.pairs, GivesBack pair.2 := fun pair hpair =>
    have hmem : pair.2 ∈ read.replacers := List.mem_map_of_mem hpair
    ⟨Node.holdsOfRead_isKeyed.gives_of_ofJson trivial hrules _ hmem,
      Node.holdsOfRead_isRawFree.gives_of_ofJson trivial hrules _ hmem, hgive _ hmem⟩
  have hsearch := search_eq ignore hrules tree
  refine ⟨hsingles, ?_, ?_⟩
  · rw [hsearch]
    exact relay_eq ignore hsingles hgives ⟨hkeyed, hfree, hnull⟩
  · rintro ⟨ready, hready⟩
    rw [rules_eq_rules_pairs] at hready
    rw [hsearch, hready]
    exact ⟨_, rfl⟩

/-- The second rule finds what the first has put in, in the tree that was read
back. -/
theorem relay_singles_emphasis :
    let emphasis : Json := .object [("type", .string "element"), ("tagName", .string "em"),
      ("children", .array [.array [.string "text", .string "b"]])]
    let rules : Json := .array [.array [.string "a", emphasis], .array [.string "b", .string "c"]]
    let tree := Node.ofChildren [.ofText "ab"]
    Node.ofJson .outer tree.toJson = .ok tree ∧ tree.Everywhere Node.HasNoNullData ∧
      (∃ read : RuleSet Unit, ofJson rules = .ok read ∧ read.Give Node.HasNoNullData) ∧
      relay .default (singles rules) tree = (search .default rules tree).toOption := by
  intro emphasis rules tree
  have htree : Node.ofJson .outer tree.toJson = .ok tree := rfl
  have htreeFree : tree.toJson.RawFree := by
    simp [tree, Node.ofChildren, Node.ofText, Node.toJson, Node.toJsonList, Info.toMembers,
      optionalMember, Json.RawFree, Json.AreRawFree, Members.AreRawFree, Members.raw?, Json.rawKey]
  have hrulesFree : rules.RawFree := by
    simp [rules, emphasis, Json.RawFree, Json.AreRawFree, Members.AreRawFree, Members.raw?,
      Json.rawKey]
  have hnull := Node.everywhere_hasNoNullData_of_ofJson htree htreeFree
  obtain ⟨read, hread⟩ : ∃ read : RuleSet Unit, ofJson rules = .ok read := ⟨_, rfl⟩
  have hgive := Node.holdsOfRead_hasNoNullData.gives_of_ofJson hrulesFree hread
  exact ⟨htree, hnull, ⟨read, hread, hgive⟩,
    (relay_singles htree hnull hread hgive .default).2.1⟩

/-- Data that holds the text of a null is read as null. One search with two
rules that find nothing keeps it, but between two searches it is written and not
read back. -/
theorem relay_losesNull :
    let v : Json := .object [("type", .string "root"), ("children", .array []),
      ("data", .object [(Json.rawKey, .string "null")])]
    let rules : Json :=
      .array [.array [.string "a", .string "b"], .array [.string "c", .string "d"]]
    let tree : Node := .root [] { data := some .null }
    Node.ofJson .outer v = .ok tree ∧ search .default rules tree = .ok tree ∧
      relay .default (singles rules) tree = some (.root [] {}) := by
  intro v rules tree
  have hone : ∀ find put : String, (Find.literal find).Fits → ∀ info,
      search .default (.array [.array [.string find, .string put]]) (.root [] info) =
        .ok (.root [] info) := by
    intro find put hfits info
    have hpair : ReadsOne (.array [.array [.string find, .string put]])
        (.literal find, .constant (.ofText put)) := @readsOne_array 0 _ _ rfl
    exact (search_of_readsOne .default hpair _).trans (if_pos hfits)
  refine ⟨rfl, ?_, ?_⟩
  · let given : List (Find × Replacer Unit) := [(.literal "a", .constant (.ofText "b")),
      (.literal "c", .constant (.ofText "d"))]
    have hread : ofJson rules = .ok (.list given) := rfl
    have hfits : ∀ pair ∈ given, pair.1.Fits := by decide
    have hready := rules_list hfits
    rw [search_eq .default hread]
    show (list given).rules.map _ = _
    rw [hready]
    rfl
  · have hfirst := hone "a" "b" (by decide) { data := some .null }
    have hsecond := hone "c" "d" (by decide) {}
    show relay .default [.array [.array [.string "a", .string "b"]],
      .array [.array [.string "c", .string "d"]]] tree = _
    rw [relay, hfirst]
    exact congrArg Except.toOption hsecond

end RuleSet

end Graft
