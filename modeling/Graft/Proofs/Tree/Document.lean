import Graft.Proofs.Json.Remainder
import Graft.Proofs.Tree.RoundTrip
import Graft.Tree.Document

/-!
# A text is accepted as what its value is read as

The reader of texts (`from_str` of a node) judges the outermost node while it is
still reading: it refuses a kind as soon as it has met one that is none, and
sets the kind apart from the other members, which it reads one after the other.
Where it accepts a text in the end, none of this shows. The text spells a value,
and the tree is the one that is read from this value (`from_value` of a node).
What is proved of reading values so holds of the trees of texts.

Both readers run on fuel, and the reader of nodes counts one unit a member where
the reader of values counts characters. The comparison therefore goes member by
member, with lemmas that more fuel does no harm (`Json.Reader.value?_mono`):
what the reader of nodes has read of a member is what the reader of values reads
with any more fuel.

The converse is left out: of a text that is refused, the two may report
different faults.

Main statements:
- `Document.exists_members?`: the members of the outermost node are the members
  of an object that is read from the same characters, the kind apart;
- `Document.exists_value`, `Node.exists_parse?_of_ofDocument`: an accepted tree
  is read from the value of its text.
-/

namespace Graft

namespace Document

open Json.Reader

/-- Goes on behind a member of the outermost node: to the next one, or out of
the node. -/
def goOn (fuel : Nat) (found : Option Kind) (before : Members) (cs : List Char) :
    Except DocumentError (Option Kind × Members × List Char) :=
  match skipBlanks cs with
  | ',' :: rest => members? fuel found before rest
  | '}' :: rest => .ok (found, before.reverse, rest)
  | _ => .error .notJson

/-- One member more: its key is read, and what is done with its value depends on
the key. -/
theorem members?_succ (fuel : Nat) (found : Option Kind) (before : Members) (cs : List Char) :
    members? (fuel + 1) found before cs =
      match skipBlanks cs with
      | '"' :: rest =>
        match string? rest with
        | none => .error .notJson
        | some (key, rest) =>
          if key = "type" ∧ found.isSome then .error (.data (.duplicateField "type"))
          else
            match skipBlanks rest with
            | ':' :: rest =>
              if key = "type" then
                match kind? rest with
                | .error e => .error e
                | .ok (kind, rest) => goOn fuel (some kind) before rest
              else
                match value? (valueFuel rest) (maxDepth - 1) rest with
                | none => .error .notJson
                | some (v, rest) => goOn fuel found ((key, v) :: before) rest
            | _ => .error .notJson
      | _ => .error .notJson := by
  rw [members?]
  rfl

/-! ## Readers of values on the same characters -/

/-- The kind is read from a value that gives it by its name. -/
theorem exists_of_kind? {cs left : List Char} {kind : Kind} (h : kind? cs = .ok (kind, left)) :
    ∃ v, Kind.ofJson .outer v = .ok kind ∧ left.length ≤ cs.length ∧
      ∀ fuel depth, value? (fuel + 1) depth cs = some (v, left) := by
  have hblanks := length_skipBlanks_le cs
  unfold kind? at h
  split at h
  next => exact absurd h error_ne_ok
  next => exact absurd h error_ne_ok
  next hbracket hbrace =>
    split at h
    next => exact absurd h error_ne_ok
    next v rest hscalar =>
      split at h
      next found hkind =>
        obtain ⟨rfl, rfl⟩ := Prod.mk.inj (Except.ok.inj h)
        have hle := (length_le_of_scalar? hscalar).1
        refine ⟨v, hkind, by omega, fun fuel depth => ?_⟩
        unfold value?
        split
        next heq => exact absurd heq (hbracket _)
        next heq => exact absurd heq (hbrace _)
        next => exact hscalar
      next => exact absurd h error_ne_ok

/-- The members of an object without its kind. -/
def otherMembers (members : Members) : Members := members.filter fun m => m.1 ≠ "type"

/-- The kind is set apart. -/
theorem otherMembers_cons_type (v : Json) (rest : Members) :
    otherMembers (("type", v) :: rest) = otherMembers rest :=
  List.filter_cons_of_neg (by simp)

/-- All other members are kept in their order. -/
theorem otherMembers_cons {key : String} (h : key ≠ "type") (v : Json) (rest : Members) :
    otherMembers ((key, v) :: rest) = (key, v) :: otherMembers rest :=
  List.filter_cons_of_pos (by simp [h])

/-- The kind is no field of a node. -/
theorem fieldsOfMembers_otherMembers (kind : Kind) (members : Members) (fields : NodeFields) :
    Node.fieldsOfMembers kind fields (otherMembers members) =
      Node.fieldsOfMembers kind fields members := by
  induction members generalizing fields with
  | nil => rfl
  | cons m rest ih =>
    obtain ⟨key, v⟩ := m
    by_cases hkey : key = "type"
    · subst hkey
      rw [otherMembers_cons_type, ih, Node.fieldsOfMembers_unknown kind.field?_type]
    · rw [otherMembers_cons hkey, Node.fieldsOfMembers, Node.fieldsOfMembers]
      simp only [ih]

/-- A member and what the reader finds behind it. -/
theorem exists_goOn {fuel : Nat} {found after : Option Kind} {before members : Members}
    {cs behind rest left : List Char} {key : String} {v : Json}
    (hkey : key? (skipBlanks cs) = some (key, behind)) (hshort : behind.length < cs.length)
    (hv : value? (2 * cs.length) (maxDepth - 1) behind = some (v, rest))
    (hgo : goOn fuel found before rest = .ok (after, members, left))
    (ih : ∀ {more : List Char}, members? fuel found before more = .ok (after, members, left) →
      ∃ read, Json.Reader.members? (2 * more.length + 1) (maxDepth - 1) more = some (read, left) ∧
        members = before.reverse ++ otherMembers read ∧
        ∀ kind, after = some kind → kindOfMembers .outer found read = .ok kind) :
    ∃ read, Json.Reader.members? (2 * cs.length + 1) (maxDepth - 1) cs =
        some ((key, v) :: read, left) ∧
      members = before.reverse ++ otherMembers read ∧
      ∀ kind, after = some kind → kindOfMembers .outer found read = .ok kind := by
  have hrest := (length_le_of_value? _ hv).1
  unfold goOn at hgo
  split at hgo
  next more hcomma =>
    have hlt := length_lt_of_skipBlanks hcomma
    obtain ⟨read, hread, hmembers, hkind⟩ := ih hgo
    refine ⟨read, ?_, hmembers, hkind⟩
    -- what is left is shorter, so the fuel of the whole is enough for it
    have hfuel : 2 * more.length + 1 ≤ 2 * cs.length := by omega
    have hmore := members?_mono hfuel hread
    rw [Json.Reader.members?, hkey]
    dsimp only
    rw [hv]
    dsimp only
    rw [hcomma]
    show (Json.Reader.members? _ _ more).map _ = _
    rw [hmore]
    rfl
  next more hclose =>
    obtain ⟨hafter, heq⟩ := Prod.mk.inj (Except.ok.inj hgo)
    obtain ⟨rfl, rfl⟩ := Prod.mk.inj heq
    refine ⟨[], ?_, (List.append_nil _).symm, fun kind hkind => ?_⟩
    · rw [Json.Reader.members?, hkey]
      dsimp only
      rw [hv]
      dsimp only
      rw [hclose]
      rfl
    · rw [hafter, hkind]
      rfl
  next => exact absurd hgo error_ne_ok

/-- The members that are read up to the end of the outermost node are those of
an object that is read from the same characters: the kind is that of this
object, and the others are left. -/
theorem exists_members? {fuel : Nat} {found after : Option Kind} {before members : Members}
    {cs left : List Char} (h : members? fuel found before cs = .ok (after, members, left)) :
    ∃ read, Json.Reader.members? (2 * cs.length + 1) (maxDepth - 1) cs = some (read, left) ∧
      members = before.reverse ++ otherMembers read ∧
      ∀ kind, after = some kind → kindOfMembers .outer found read = .ok kind := by
  induction fuel generalizing found before cs with
  | zero => exact absurd h error_ne_ok
  | succ fuel ih =>
    rw [members?_succ] at h
    split at h
    next rest hquote =>
      split at h
      next => exact absurd h error_ne_ok
      next key rest hstring =>
        split at h
        next => exact absurd h error_ne_ok
        next htwice =>
          split at h
          next behind hcolon =>
            have hread : key? (skipBlanks cs) = some (key, behind) := by
              rw [hquote, key?, hstring]
              dsimp only
              rw [hcolon]
              rfl
            have hopen := length_lt_of_skipBlanks hquote
            have hbehind := length_lt_of_skipBlanks hcolon
            have hlength := length_lt_of_string? hstring
            have hshort : behind.length < cs.length := by omega
            have hfuel : 0 < cs.length := by omega
            split at h
            next hkey =>
              -- the kind: it is the first, or it would have been refused
              subst hkey
              split at h
              next => exact absurd h error_ne_ok
              next kind rest hkind =>
                obtain ⟨v, hv, -, hvalue⟩ := exists_of_kind? hkind
                obtain ⟨fuel', hfuel'⟩ :=
                  Nat.exists_eq_succ_of_ne_zero (n := 2 * cs.length) (by omega)
                have hvalue := hvalue fuel' (maxDepth - 1)
                rw [← Nat.succ_eq_add_one, ← hfuel'] at hvalue
                obtain ⟨read, hmembers, hothers, hafter⟩ := exists_goOn hread hshort hvalue h ih
                refine ⟨_, hmembers, ?_, fun kind' hkind' => ?_⟩
                · rw [otherMembers_cons_type]
                  exact hothers
                · have hnone : found = none := by
                    cases found with
                    | none => rfl
                    | some => exact absurd ⟨rfl, rfl⟩ htwice
                  rw [hnone, kindOfMembers, if_pos rfl, hv]
                  exact hafter kind' hkind'
            next hkey =>
              split at h
              next => exact absurd h error_ne_ok
              next v rest hvalue =>
                have hle : valueFuel behind ≤ 2 * cs.length := by unfold valueFuel; omega
                have hvalue := value?_mono hle hvalue
                obtain ⟨read, hmembers, hothers, hafter⟩ := exists_goOn hread hshort hvalue h ih
                refine ⟨_, hmembers, ?_, fun kind' hkind' => ?_⟩
                · rw [otherMembers_cons hkey, hothers, List.reverse_cons, List.append_assoc]
                  rfl
                · rw [kindOfMembers.eq_def]
                  dsimp only
                  rw [if_neg hkey]
                  exact hafter kind' hkind'
          next => exact absurd h error_ne_ok
    next => exact absurd h error_ne_ok

/-- The items behind the kind of an array are read with it. -/
theorem exists_items? {cs rest left : List Char} {kind : Kind} {items : List Json}
    (hkind : kind? cs = .ok (kind, rest)) (hitems : items? rest = .ok (items, left)) :
    ∃ v, Kind.ofJson .outer v = .ok kind ∧
      Json.Reader.items? (2 * cs.length + 3) (maxDepth - 1) cs = some (v :: items, left) := by
  obtain ⟨v, hv, hle, hvalue⟩ := exists_of_kind? hkind
  refine ⟨v, hv, ?_⟩
  rw [Json.Reader.items?, hvalue]
  dsimp only
  unfold items? at hitems
  split at hitems
  next more hclose =>
    obtain ⟨rfl, rfl⟩ := Prod.mk.inj (Except.ok.inj hitems)
    rw [hclose]
    rfl
  next more hcomma =>
    have hlt := length_lt_of_skipBlanks hcomma
    split at hitems
    next found hfound =>
      obtain rfl := Except.ok.inj hitems
      have hfuel : valueFuel more ≤ 2 * cs.length + 2 := by unfold valueFuel; omega
      have hmore := items?_mono hfuel hfound
      rw [hcomma]
      show (Json.Reader.items? _ _ more).map _ = _
      rw [hmore]
      rfl
    next => exact absurd hitems error_ne_ok
  next => exact absurd hitems error_ne_ok

/-! ## Trees of texts -/

/-- A node that is accepted has been read, and nothing but blanks follows it. -/
theorem finish_eq_ok {node : Except DataError Node} {rest : List Char} {tree : Node}
    (h : finish node rest = .ok tree) : node = .ok tree ∧ skipBlanks rest = [] := by
  unfold finish at h
  cases node with
  | error e => exact absurd h error_ne_ok
  | ok node =>
    dsimp only at h
    split at h
    next hblanks => exact ⟨congrArg Except.ok (Except.ok.inj h), List.isEmpty_iff.mp hblanks⟩
    next => exact absurd h error_ne_ok

/-- A tree that is accepted is read from the value that the characters spell. -/
theorem exists_value {cs : List Char} {tree : Node} (h : nodeOfChars cs = .ok tree) :
    ∃ v left, value? (valueFuel cs) maxDepth cs = some (v, left) ∧ skipBlanks left = [] ∧
      Node.ofJson .outer v = .ok tree := by
  unfold nodeOfChars at h
  split at h
  next rest hopen =>
    -- an object whose kind has been found
    have hshort := length_lt_of_skipBlanks hopen
    dsimp only at h
    split at h
    next => exact absurd h error_ne_ok
    next => exact absurd h error_ne_ok
    next kind members left hbody =>
      obtain ⟨hnode, hblanks⟩ := finish_eq_ok h
      split at hbody
      next => exact absurd (Prod.mk.inj (Except.ok.inj hbody)).1.symm (Option.some_ne_none _)
      next hnotEmpty =>
        obtain ⟨read, hread, hmembers, hkind⟩ := exists_members? hbody
        obtain rfl : members = otherMembers read := hmembers
        have hinner := length_skipBlanks_le rest
        have hfuel : 2 * (skipBlanks rest).length + 1 ≤ 2 * cs.length + 1 := by omega
        have hmore := members?_mono hfuel hread
        refine ⟨.object read, left, ?_, hblanks, ?_⟩
        · rw [valueFuel, value?_open_object hopen rfl hnotEmpty, hmore]
          rfl
        · rw [Node.ofJson, hkind kind rfl]
          rw [fieldsOfMembers_otherMembers] at hnode
          exact hnode
  next rest hopen =>
    -- an array that begins with a kind
    have hshort := length_lt_of_skipBlanks hopen
    split at h
    next => exact absurd h error_ne_ok
    next hnotEmpty =>
      split at h
      next => exact absurd h error_ne_ok
      next kind behind hkind =>
        split at h
        next => exact absurd h error_ne_ok
        next items left hitems =>
          obtain ⟨hnode, hblanks⟩ := finish_eq_ok h
          obtain ⟨v, hv, hread⟩ := exists_items? hkind hitems
          have hinner := length_skipBlanks_le rest
          refine ⟨.array (v :: items), left, ?_, hblanks, ?_⟩
          · have hfuel : 2 * (skipBlanks rest).length + 3 ≤ 2 * cs.length + 1 := by omega
            have hmore := items?_mono hfuel hread
            rw [valueFuel, value?_open_array hopen rfl hnotEmpty, hmore]
            rfl
          · rw [Node.ofJson] at hnode ⊢
            rw [hv]
            rw [Kind.ofJson_name] at hnode
            exact hnode
  next =>
    split at h
    next => exact absurd h error_ne_ok
    next => exact absurd h error_ne_ok

end Document

/-- A tree that is read from a text is read from the value of this text. -/
theorem Node.exists_parse?_of_ofDocument {text : String} {tree : Node}
    (h : Node.ofDocument text = .ok tree) :
    ∃ v, Json.parse? text = some v ∧ Node.ofJson .outer v = .ok tree := by
  obtain ⟨v, left, hvalue, hblanks, hread⟩ := Document.exists_value h
  exact ⟨v, Json.parse?_eq_some_iff.mpr ⟨left, hvalue, hblanks⟩, hread⟩

end Graft
