import Graft.Proofs.Rule.Fitting
import Graft.Proofs.Tree.Grammar
import Graft.Rule.Decode

/-!
# The grammar of rules in JSON

Which values are rules, which rules they denote, and what is wrong with those
that are none. A text is one rule; an array holds one rule in each item and an
object one in each member, and every one of them is judged on its own. A fault
is that of the first item that is no rule, and within an item that of its find
before that of its replacement; what comes behind the fault is not looked at.

For each form there is a triple of predicates, defined by the form alone. `Is…`
says that a value is accepted, `Denotes…` what it is accepted as, and `…Fault`
with which error it is refused. They mirror the layout of the readers
(`from_value`, `tuple_from_value`, `find_from_value`, `replacement_from_value`,
`node_from_value`) but none of their code: the faults, for example, are
inductive predicates with a rule for each message, and say of the parts before a
fault that they are accepted.

The proofs here are about the leaves of that grammar, replacements and what to
look for. Flags of a pattern are taken from the members beside its source, where
only a value of the right type counts and any other leaves the default
(`Members.flag`). Nodes of a replacement are read one by one up to the first
that is none (`readAll`). Pairs, members and whole sets follow in
`Graft.Proofs.Rule.Accepting`.

Main statements:
- `Replacement.ofJson_eq_ok_iff`, `Replacement.ofJson_eq_error_iff`:
  replacements, and what is wrong with one;
- `Find.ofJson_eq_ok_iff`, `Find.ofJson_eq_error_iff`: what to look for, and
  what is wrong with it.
-/

namespace Graft

variable {σ : Type}

/-! ## The grammar -/

/-- The truth value that a field gives to a flag, if it is one. -/
def Members.flag (fields : Members) (name : String) (default : Bool) : Bool :=
  match get? fields name with
  | some (.bool given) => given
  | _ => default

namespace Json

/-- Whether a value reads as a node. -/
def IsNode (v : Json) : Prop := ∃ node, Node.ofJson .outer v = .ok node

/-- Whether a value is a replacement. -/
def IsReplacement : Json → Prop
  | .null | .bool false | .string _ => True
  | .object members => IsNode (.object members)
  | .array items => ∀ v ∈ items, v.IsNode
  | _ => False

/-- Whether a value says what to look for: a text, or a regular expression that
is well formed under its flags. -/
def IsFind : Json → Prop
  | .string _ => True
  | .object fields => ∃ source regex, Members.get? fields "regex" = some (.string source) ∧
      Regex.ofText? (Members.flag fields "ignoreCase" false) source.toList = some regex
  | _ => False

/-- Whether a value is a pair of what to look for and a replacement, which may
be left out. -/
def IsPair : Json → Prop
  | .array [find] => find.IsFind
  | .array [find, replacement] => find.IsFind ∧ replacement.IsReplacement
  | _ => False

/-- Whether a value is rules: a text, an array of pairs, or an object of
replacements. -/
def IsRules : Json → Prop
  | .string _ => True
  | .array items => ∀ item ∈ items, item.IsPair
  | .object members => ∀ member ∈ members, member.2.IsReplacement
  | _ => False

/-- Which replacement a value denotes. -/
inductive DenotesReplacement : Json → Replacement → Prop
  | null : DenotesReplacement .null .delete
  | reject : DenotesReplacement (.bool false) .reject
  | empty : DenotesReplacement (.string "") .delete
  | text {value : String} (h : value ≠ "") : DenotesReplacement (.string value) (.text value)
  | node {members : Members} {node : Node} (h : Node.ofJson .outer (.object members) = .ok node) :
      DenotesReplacement (.object members) (.nodes [node])
  | nodes {items : List Json} {nodes : List Node}
      (h : List.Forall₂ (fun v node => Node.ofJson .outer v = .ok node) items nodes) :
      DenotesReplacement (.array items) (.nodes nodes)

/-- What a value denotes as what to look for. -/
inductive DenotesFind : Json → Find → Prop
  | literal (text : String) : DenotesFind (.string text) (.literal text)
  | regex {fields : Members} {source : String} {pattern : Pattern}
      (hsource : Members.get? fields "regex" = some (.string source))
      (h : Pattern.ofText? source (Members.flag fields "global" true)
        (Members.flag fields "ignoreCase" false) = some pattern) :
      DenotesFind (.object fields) (.pattern pattern)

/-- Which pair an item of an array denotes. -/
inductive DenotesPair : Json → Find × Replacer σ → Prop
  | deletes {v : Json} {find : Find} (h : v.DenotesFind find) :
      DenotesPair (.array [v]) (find, .constant .delete)
  | replaces {v w : Json} {find : Find} {replacement : Replacement} (h : v.DenotesFind find)
      (hw : w.DenotesReplacement replacement) :
      DenotesPair (.array [v, w]) (find, .constant replacement)

/-- Which pair a member of an object denotes. -/
def MemberDenotes (member : String × Json) (pair : Find × Replacer σ) : Prop :=
  ∃ replacement, member.2.DenotesReplacement replacement ∧
    pair = (.literal member.1, .constant replacement)

/-- Which pairs a value denotes as rules, each of them denoted by one item or
member alone. -/
inductive DenotesPairs : Json → List (Find × Replacer σ) → Prop
  | text (text : String) : DenotesPairs (.string text) [(.literal text, .constant .delete)]
  | list {items : List Json} {pairs : List (Find × Replacer σ)}
      (h : List.Forall₂ DenotesPair items pairs) : DenotesPairs (.array items) pairs
  | table {members : Members} {pairs : List (Find × Replacer σ)}
      (h : List.Forall₂ MemberDenotes members pairs) : DenotesPairs (.object members) pairs

/-- The text that an item of an array looks for literally, if it does. -/
def itemLiteral? : Json → Option String
  | .array (.string text :: _) => some text
  | _ => none

/-- The texts that rules look for literally, in order. -/
def literals : Json → List String
  | .string text => [text]
  | .array items => items.filterMap itemLiteral?
  | .object members => members.map Prod.fst
  | _ => []

/-- What is wrong with a value as a replacement. Of several nodes it is the
first that cannot be read. -/
inductive ReplacementFault : Json → RuleError → Prop
  | true : ReplacementFault (.bool true) (.notAReplacement (.bool true))
  | number (n : Number) : ReplacementFault (.number n) (.notAReplacement (.number n))
  | node {members : Members} {cause : DataError}
      (h : Node.ofJson .outer (.object members) = .error cause) :
      ReplacementFault (.object members) (.badNode cause)
  | nodes {before after : List Json} {v : Json} {cause : DataError}
      (hbefore : ∀ w ∈ before, w.IsNode)
      (h : Node.ofJson .outer v = .error cause) :
      ReplacementFault (.array (before ++ v :: after)) (.badNode cause)

/-- What is wrong with a value as what to look for. -/
inductive FindFault : Json → RuleError → Prop
  | kind {v : Json} (hstring : ∀ text, v ≠ .string text) (hobject : ∀ fields, v ≠ .object fields) :
      FindFault v (.notAFind v)
  | noRegex {fields : Members} (h : ∀ source, Members.get? fields "regex" ≠ some (.string source)) :
      FindFault (.object fields) .noRegex
  | badPattern {fields : Members} {source : String}
      (hsource : Members.get? fields "regex" = some (.string source))
      (h : Regex.ofText? (Members.flag fields "ignoreCase" false) source.toList = none) :
      FindFault (.object fields) (.badPattern source)

/-- What is wrong with the item at an index as a pair. What to look for is
judged before the replacement. -/
inductive PairFault (index : Nat) : Json → RuleError → Prop
  | shape {v : Json} (hone : ∀ find, v ≠ .array [find])
      (htwo : ∀ find replacement, v ≠ .array [find, replacement]) :
      PairFault index v (.notAPair index)
  | find {find : Json} {rest : List Json} {cause : RuleError} (hrest : rest.length ≤ 1)
      (h : find.FindFault cause) :
      PairFault index (.array (find :: rest)) cause
  | replacement {find v : Json} {cause : RuleError} (hfind : find.IsFind)
      (h : v.ReplacementFault cause) :
      PairFault index (.array [find, v]) cause

/-- What is wrong with a value as rules: the fault of the first item or member
that is none, whatever comes behind it. -/
inductive RulesFault : Json → RuleError → Prop
  | kind {v : Json} (hstring : ∀ text, v ≠ .string text) (harray : ∀ items, v ≠ .array items)
      (hobject : ∀ members, v ≠ .object members) : RulesFault v .notRules
  | item {before after : List Json} {item : Json} {cause : RuleError}
      (hbefore : ∀ w ∈ before, w.IsPair)
      (h : item.PairFault before.length cause) : RulesFault (.array (before ++ item :: after)) cause
  | member {before after : Members} {key : String} {v : Json} {cause : RuleError}
      (hbefore : ∀ m ∈ before, m.2.IsReplacement) (h : v.ReplacementFault cause) :
      RulesFault (.object (before ++ (key, v) :: after)) cause

end Json

/-! ## Replacements -/

namespace RuleError

theorem nodeOfJson_eq_ok_iff {v : Json} {node : Node} :
    nodeOfJson v = .ok node ↔ Node.ofJson .outer v = .ok node := by
  rw [nodeOfJson]
  cases Node.ofJson .outer v <;> simp

theorem exists_nodeOfJson_iff {v : Json} : (∃ node, nodeOfJson v = .ok node) ↔ v.IsNode :=
  exists_congr fun _ => nodeOfJson_eq_ok_iff

/-- A value that is no node is refused with what is wrong with it as a node. -/
theorem nodeOfJson_eq_error_iff {v : Json} {cause : RuleError} :
    nodeOfJson v = .error cause ↔ ∃ why, Node.ofJson .outer v = .error why ∧
      cause = .badNode why := by
  rw [nodeOfJson]
  cases Node.ofJson .outer v <;> simp [eq_comm]

/-- The nodes of a replacement are read one by one. -/
theorem nodesOfJson_eq_ok_iff {items : List Json} {nodes : List Node} :
    items.mapM nodeOfJson = .ok nodes ↔
      List.Forall₂ (fun v node => Node.ofJson .outer v = .ok node) items nodes := by
  rw [mapM_eq_readAll _ 0]
  exact readAll_eq_ok_iff fun _ v _ => nodeOfJson_eq_ok_iff (v := v)

theorem exists_nodesOfJson_iff {items : List Json} :
    (∃ nodes, items.mapM nodeOfJson = .ok nodes) ↔ ∀ v ∈ items, v.IsNode := by
  rw [mapM_eq_readAll _ 0]
  exact exists_readAll_iff fun _ v => exists_nodeOfJson_iff (v := v)

/-- The first value that is no node is the fault, whatever comes behind it. -/
theorem nodesOfJson_eq_error_iff {items : List Json} {cause : RuleError} :
    items.mapM nodeOfJson = .error cause ↔
      ∃ before v after, items = before ++ v :: after ∧ (∀ w ∈ before, w.IsNode) ∧
        nodeOfJson v = .error cause := by
  rw [mapM_eq_readAll _ 0]
  exact readAll_eq_error_iff fun _ v => exists_nodeOfJson_iff (v := v)

end RuleError

namespace Replacement

open RuleError

theorem ofText_of_ne {value : String} (h : value ≠ "") : ofText value = .text value :=
  if_neg fun hempty => h (String.isEmpty_iff.mp hempty)

/-- A value is read as a replacement exactly if it denotes it: null and the
empty text delete, false rejects, an object is one node and an array several. -/
theorem ofJson_eq_ok_iff {v : Json} {replacement : Replacement} :
    ofJson v = .ok replacement ↔ v.DenotesReplacement replacement := by
  -- the reader has one branch for each form, and the relation one rule
  constructor
  · intro h
    unfold ofJson at h
    split at h
    next =>
      obtain rfl := Except.ok.inj h
      exact .null
    next =>
      obtain rfl := Except.ok.inj h
      exact .reject
    next value =>
      obtain rfl := Except.ok.inj h
      by_cases hempty : value = ""
      · subst hempty
        exact .empty
      · rw [ofText_of_ne hempty]
        exact .text hempty
    next members =>
      obtain ⟨node, hnode, rfl⟩ := map_eq_ok h
      exact .node (nodeOfJson_eq_ok_iff.mp hnode)
    next items =>
      obtain ⟨nodes, hnodes, rfl⟩ := map_eq_ok h
      exact .nodes (nodesOfJson_eq_ok_iff.mp hnodes)
    next => exact absurd h error_ne_ok
  · intro h
    cases h with
    | null => rfl
    | reject => rfl
    | empty => rfl
    | text hne => rw [ofJson, ofText_of_ne hne]
    | node hnode =>
      rw [ofJson, nodeOfJson_eq_ok_iff.mpr hnode]
      rfl
    | nodes hnodes =>
      rw [ofJson, nodesOfJson_eq_ok_iff.mpr hnodes]
      rfl

/-- Of replacements only those with nodes can fail. -/
theorem exists_ofJson_iff {v : Json} :
    (∃ replacement, ofJson v = .ok replacement) ↔ v.IsReplacement := by
  unfold Json.IsReplacement
  split
  next => exact iff_of_true ⟨_, rfl⟩ trivial
  next => exact iff_of_true ⟨_, rfl⟩ trivial
  next => exact iff_of_true ⟨_, rfl⟩ trivial
  next members => exact exists_map_iff.trans exists_nodeOfJson_iff
  next items => exact exists_map_iff.trans exists_nodesOfJson_iff
  next hnull hreject hstring hobject harray =>
    refine iff_of_false ?_ id
    rintro ⟨replacement, h⟩
    cases ofJson_eq_ok_iff.mp h with
    | null => exact hnull rfl
    | reject => exact hreject rfl
    | empty => exact hstring _ rfl
    | text _ => exact hstring _ rfl
    | node _ => exact hobject _ rfl
    | nodes _ => exact harray _ rfl

/-- A value is refused as a replacement for its type, or for the first node in
it that is none. -/
theorem ofJson_eq_error_iff {v : Json} {cause : RuleError} :
    ofJson v = .error cause ↔ v.ReplacementFault cause := by
  constructor
  · intro h
    cases v with
    | null => exact absurd h.symm error_ne_ok
    | bool b =>
      cases b with
      | false => exact absurd h.symm error_ne_ok
      | true =>
        obtain rfl := Except.error.inj h
        exact .true
    | number n =>
      obtain rfl := Except.error.inj h
      exact .number n
    | string text => exact absurd h.symm error_ne_ok
    | array items =>
      obtain ⟨before, v, after, rfl, hbefore, hv⟩ :=
        nodesOfJson_eq_error_iff.mp (map_eq_error_iff.mp h)
      obtain ⟨why, hwhy, rfl⟩ := nodeOfJson_eq_error_iff.mp hv
      exact .nodes hbefore hwhy
    | object members =>
      obtain ⟨why, hwhy, rfl⟩ := nodeOfJson_eq_error_iff.mp (map_eq_error_iff.mp h)
      exact .node hwhy
  · intro h
    cases h with
    | true => rfl
    | number n => rfl
    | node hwhy =>
      rw [ofJson, map_eq_error_iff]
      exact nodeOfJson_eq_error_iff.mpr ⟨_, hwhy, rfl⟩
    | nodes hbefore hwhy =>
      rw [ofJson, map_eq_error_iff]
      exact nodesOfJson_eq_error_iff.mpr
        ⟨_, _, _, rfl, hbefore, nodeOfJson_eq_error_iff.mpr ⟨_, hwhy, rfl⟩⟩

end Replacement

/-! ## What to look for -/

theorem Members.string_eq_some_iff {fields : Members} {name value : String} :
    (get? fields name).bind Json.string? = some value ↔
      get? fields name = some (.string value) := by
  cases get? fields name with
  | none => exact iff_of_false (fun h => nomatch h) fun h => nomatch h
  | some v => cases v <;> simp [Json.string?]

/-- A flag of the wrong type is as good as none. -/
theorem Members.flag_eq (fields : Members) (name : String) (default : Bool) :
    ((get? fields name).bind Json.bool?).getD default = fields.flag name default := by
  rw [flag]
  cases get? fields name with
  | none => rfl
  | some v => cases v <;> rfl

namespace Find

/-- The pattern of an object is read from its source, under the flags it gives. -/
theorem ofJson_object {fields : Members} {source : String}
    (hsource : Members.get? fields "regex" = some (.string source)) :
    ofJson (.object fields) =
      match Pattern.ofText? source (fields.flag "global" true) (fields.flag "ignoreCase" false) with
      | some given => .ok (.pattern given)
      | none => .error (.badPattern source) := by
  rw [ofJson]
  dsimp only
  rewrite [Members.string_eq_some_iff.mpr hsource, Members.flag_eq, Members.flag_eq]
  rfl

/-- An object without a source in it is nothing to look for. -/
theorem ofJson_noRegex {fields : Members}
    (h : ∀ source, Members.get? fields "regex" ≠ some (.string source)) :
    ofJson (.object fields) = .error .noRegex := by
  have hnone : (Members.get? fields "regex").bind Json.string? = none :=
    Option.eq_none_iff_forall_ne_some.mpr fun source hsome =>
      h source (Members.string_eq_some_iff.mp hsome)
  rw [ofJson]
  dsimp only
  rw [hnone]

/-- A value is read as what to look for exactly if it denotes it: a literal
text, or a source that is a regular expression with the flags beside it. -/
theorem ofJson_eq_ok_iff {v : Json} {find : Find} : ofJson v = .ok find ↔ v.DenotesFind find := by
  constructor
  · intro h
    cases v with
    | string text =>
      obtain rfl := Except.ok.inj h
      exact .literal text
    | object fields =>
      -- an object counts by its source; its flags matter only where there is one
      by_cases hsource : ∃ source, Members.get? fields "regex" = some (.string source)
      · obtain ⟨source, hsource⟩ := hsource
        rw [ofJson_object hsource] at h
        split at h
        next found hfound =>
          obtain rfl := Except.ok.inj h
          exact .regex hsource hfound
        next => exact absurd h error_ne_ok
      · rw [ofJson_noRegex (not_exists.mp hsource)] at h
        exact absurd h error_ne_ok
    | _ => exact absurd h error_ne_ok
  · intro h
    cases h with
    | literal text => rfl
    | regex hsource hregex => rw [ofJson_object hsource, hregex]

/-- The faults of what to look for: no source, or a source that is no regular
expression with its flags. -/
theorem ofJson_eq_error_iff {v : Json} {cause : RuleError} :
    ofJson v = .error cause ↔ v.FindFault cause := by
  constructor
  · intro h
    cases v with
    | string text => exact absurd h.symm error_ne_ok
    | object fields =>
      by_cases hsource : ∃ source, Members.get? fields "regex" = some (.string source)
      · obtain ⟨source, hsource⟩ := hsource
        rw [ofJson_object hsource] at h
        split at h
        next => exact absurd h.symm error_ne_ok
        next hnone =>
          obtain rfl := Except.error.inj h
          exact .badPattern hsource (Option.map_eq_none_iff.mp hnone)
      · rw [ofJson_noRegex (not_exists.mp hsource)] at h
        obtain rfl := Except.error.inj h
        exact .noRegex (not_exists.mp hsource)
    | _ =>
      obtain rfl := Except.error.inj h
      exact .kind (fun _ h => by cases h) fun _ h => by cases h
  · intro h
    cases h with
    | kind hstring hobject =>
      cases v with
      | string text => exact absurd rfl (hstring text)
      | object fields => exact absurd rfl (hobject fields)
      | _ => rfl
    | noRegex hnone => exact ofJson_noRegex hnone
    | badPattern hsource hnone =>
      rw [ofJson_object hsource, Pattern.ofText?, hnone]
      rfl

theorem exists_ofJson_iff {v : Json} : (∃ find, ofJson v = .ok find) ↔ v.IsFind := by
  constructor
  · rintro ⟨find, h⟩
    cases ofJson_eq_ok_iff.mp h with
    | literal _ => exact trivial
    | regex hsource hregex =>
      obtain ⟨regex, hregex, -⟩ := Option.map_eq_some_iff.mp hregex
      exact ⟨_, regex, hsource, hregex⟩
  · intro h
    unfold Json.IsFind at h
    split at h
    next text => exact ⟨_, rfl⟩
    next fields =>
      obtain ⟨source, regex, hsource, hregex⟩ := h
      have hpattern : Pattern.ofText? source (Members.flag fields "global" true)
          (Members.flag fields "ignoreCase" false) =
            some ⟨source, regex, Members.flag fields "global" true⟩ := by
        rw [Pattern.ofText?, hregex]
        rfl
      exact ⟨_, ofJson_eq_ok_iff.mpr (.regex hsource hpattern)⟩
    next => exact h.elim

end Find

end Graft
