import Graft.Proofs.Json.Raw
import Graft.Proofs.Json.Remainder

/-!
# What a value stands for

What a value stands for is told here by a relation (`Json.StandsFor`), with one
rule for each form of a value. It knows of no fuel: an object that holds a text
stands for what the value of this text stands for, and what texts may lie in
that text is no concern of the rule.

Resolving gives exactly this relation. That what is resolved is stood for needs
no more than an induction on the fuel of `Json.readRawWith`. The other way, the
fuel has to be enough, and it is, since a text that lies inside another is
shorter (`Json.stringBound_le_of_parse?`): any fuel beyond the length of a text
gives the same, so with the fuel of `Json.readRaw` a text is read for what its
value stands for, without an exception.

Main statements:
- `Json.readRawWith_of_lt`: any fuel beyond the length of a text does;
- `Json.readRaw_eq`: a text stands for what its value stands for, however deep
  texts lie in it;
- `Json.resolve_eq_ok_iff`: a value is resolved to what it stands for, and to
  nothing else;
- `Json.standsFor_iff_of_rawFree`: without the key of raw texts that is the
  value itself, with its keys merged.
-/

namespace Graft

namespace Json

/-! ## Texts inside texts -/

section

variable {read other : String → Option Json} {bound : Nat}

mutual

/-- Only the values of texts that are held by a value matter to what it stands
for. -/
theorem resolveWith_congr (h : ∀ text : String, text.length < bound → read text = other text) :
    ∀ {v : Json}, v.stringBound ≤ bound → resolveWith read v = resolveWith other v
  | .array items, hv => by
    rw [resolveWith, resolveWith, resolveItemsWith_congr h hv]
  | .object members, hv => by
    rw [resolveWith, resolveWith, resolveMembersWith_congr h hv]
    cases hraw : Members.raw? members with
    | none => rfl
    | some v =>
      obtain ⟨rest, rfl⟩ := Members.raw?_eq_some_iff.mp hraw
      cases v with
      | string text =>
        rw [stringBound, stringBoundOfMembers, stringBound, Nat.max_le] at hv
        dsimp only
        rw [ofRaw, ofRaw, h text hv.1]
      | _ => rfl
  | .null, _ => rfl
  | .bool _, _ => rfl
  | .number _, _ => rfl
  | .string _, _ => rfl

/-- Two readers that agree on short texts resolve items with short strings alike. -/
theorem resolveItemsWith_congr (h : ∀ text : String, text.length < bound → read text = other text) :
    ∀ {items : List Json}, stringBoundOfItems items ≤ bound →
      resolveItemsWith read items = resolveItemsWith other items
  | [], _ => rfl
  | v :: rest, hitems => by
    obtain ⟨hv, hrest⟩ := Nat.max_le.mp hitems
    rw [resolveItemsWith, resolveItemsWith, resolveWith_congr h hv, resolveItemsWith_congr h hrest]

theorem resolveMembersWith_congr
    (h : ∀ text : String, text.length < bound → read text = other text) :
    ∀ {members : List (String × Json)}, stringBoundOfMembers members ≤ bound →
      resolveMembersWith read members = resolveMembersWith other members
  | [], _ => rfl
  | (key, v) :: rest, hmembers => by
    obtain ⟨hv, hrest⟩ := Nat.max_le.mp hmembers
    rw [resolveMembersWith, resolveMembersWith, resolveWith_congr h hv,
      resolveMembersWith_congr h hrest]

end

end

/-- Any fuel beyond the length of a text does: what it holds is shorter. -/
theorem readRawWith_of_lt {fuel more : Nat} {text : String} (hfuel : text.length < fuel)
    (hmore : text.length < more) : readRawWith fuel text = readRawWith more text := by
  -- on one fuel, with the other and the text free: what the text holds is read with one unit less
  -- of both
  induction fuel generalizing more text with
  | zero => exact absurd hfuel (Nat.not_lt_zero _)
  | succ fuel ih =>
    cases more with
    | zero => exact absurd hmore (Nat.not_lt_zero _)
    | succ more =>
      rw [readRawWith, readRawWith]
      cases hparse : parse? text with
      | none => rfl
      | some v =>
        have hinner : ∀ inner : String, inner.length < text.length →
            readRawWith fuel inner = readRawWith more inner :=
          fun inner hlt => ih (by omega) (by omega)
        rw [Option.bind_some, Option.bind_some,
          resolveWith_congr hinner (stringBound_le_of_parse? hparse)]

/-- A text stands for what the value that it spells stands for. -/
theorem readRaw_eq (text : String) :
    readRaw text = (parse? text).bind fun v => v.resolve.toOption := by
  rw [readRaw, readRawWith]
  cases hparse : parse? text with
  | none => rfl
  | some v =>
    have hinner : ∀ inner : String, inner.length < text.length →
        readRawWith text.length inner = readRaw inner :=
      fun inner hlt => readRawWith_of_lt hlt (Nat.lt_succ_self _)
    rw [Option.bind_some, Option.bind_some,
      resolveWith_congr hinner (stringBound_le_of_parse? hparse)]
    rfl

/-! ## What a value stands for -/

mutual

/-- Whether a value stands for another: a scalar for itself, an array for an
array and an object for an object, place by place, unless the object begins with
the key of raw texts. Then the text alone stands in it, and it stands for what
the value of the text stands for. Of members with one key the last counts. -/
inductive StandsFor : Json → Json → Prop
  | null : StandsFor .null .null
  | bool (b : Bool) : StandsFor (.bool b) (.bool b)
  | number (n : Number) : StandsFor (.number n) (.number n)
  | string (s : String) : StandsFor (.string s) (.string s)
  | array {items values : List Json} (h : AllStandFor items values) :
      StandsFor (.array items) (.array values)
  | object {members values : List (String × Json)} (hraw : Members.raw? members = none)
      (h : MembersStandFor members values) :
      StandsFor (.object members) (.object (Members.merge values))
  | raw {text : String} {v w : Json} (hparse : parse? text = some v) (h : StandsFor v w) :
      StandsFor (.object [(rawKey, .string text)]) w

/-- Whether values stand for other values, one for one. -/
inductive AllStandFor : List Json → List Json → Prop
  | nil : AllStandFor [] []
  | cons {v w : Json} {items values : List Json} (h : StandsFor v w)
      (hrest : AllStandFor items values) : AllStandFor (v :: items) (w :: values)

/-- Whether members stand for others with the same keys, one for one. -/
inductive MembersStandFor : List (String × Json) → List (String × Json) → Prop
  | nil : MembersStandFor [] []
  | cons {key : String} {v w : Json} {members values : List (String × Json)} (h : StandsFor v w)
      (hrest : MembersStandFor members values) :
      MembersStandFor ((key, v) :: members) ((key, w) :: values)

end

mutual

/-- A value is resolved to what it stands for. -/
theorem StandsFor.resolve_eq : ∀ {v w : Json}, StandsFor v w → v.resolve = .ok w
  | _, _, .null | _, _, .bool _ | _, _, .number _ | _, _, .string _ => rfl
  | _, _, .array h => by
    show (resolveItemsWith readRaw _).map Json.array = _
    rw [h.resolve_eq]
    rfl
  | _, _, .object hraw h =>
    resolveWith_object.mpr (.inr ⟨hraw, _, h.resolve_eq, rfl⟩)
  | _, _, @StandsFor.raw text v w hparse h => by
    refine resolveWith_object.mpr (.inl ⟨text, rfl, ?_⟩)
    rw [readRaw_eq, hparse, Option.bind_some, h.resolve_eq]
    rfl

/-- Items are resolved to what they stand for, one by one. -/
theorem AllStandFor.resolve_eq : ∀ {items values : List Json}, AllStandFor items values →
    resolveItemsWith readRaw items = .ok values
  | _, _, .nil => rfl
  | _, _, .cons h hrest => by
    have hv : resolveWith readRaw _ = .ok _ := h.resolve_eq
    rw [resolveItemsWith, hv, hrest.resolve_eq]
    rfl

theorem MembersStandFor.resolve_eq : ∀ {members values : List (String × Json)},
    MembersStandFor members values → resolveMembersWith readRaw members = .ok values
  | _, _, .nil => rfl
  | _, _, .cons h hrest => by
    have hv : resolveWith readRaw _ = .ok _ := h.resolve_eq
    rw [resolveMembersWith, hv, hrest.resolve_eq]
    rfl

end

section

variable {read : String → Option Json}

mutual

/-- What a value is resolved to is what it stands for, if texts are read for
what their values stand for. -/
theorem standsFor_of_resolveWith
    (hread : ∀ text w, read text = some w → ∃ v, parse? text = some v ∧ StandsFor v w) :
    ∀ {v w : Json}, resolveWith read v = .ok w → StandsFor v w
  | .array _, _, h => by
    rw [resolveWith] at h
    obtain ⟨values, hvalues, rfl⟩ := map_eq_ok h
    exact .array (allStandFor_of_resolveItemsWith hread hvalues)
  | .object members, w, h => by
    rcases resolveWith_object.mp h with ⟨text, rfl, htext⟩ | ⟨hraw, values, hvalues, rfl⟩
    · obtain ⟨v, hparse, hv⟩ := hread text w htext
      exact .raw hparse hv
    · exact .object hraw (membersStandFor_of_resolveMembersWith hread hvalues)
  | .null, _, h => Except.ok.inj h ▸ .null
  | .bool b, _, h => Except.ok.inj h ▸ .bool b
  | .number n, _, h => Except.ok.inj h ▸ .number n
  | .string s, _, h => Except.ok.inj h ▸ .string s

theorem allStandFor_of_resolveItemsWith
    (hread : ∀ text w, read text = some w → ∃ v, parse? text = some v ∧ StandsFor v w) :
    ∀ {items values : List Json}, resolveItemsWith read items = .ok values →
      AllStandFor items values
  | [], _, h => Except.ok.inj h ▸ .nil
  | v :: rest, _, h => by
    rw [resolveItemsWith] at h
    obtain ⟨w, hw, h⟩ := bind_eq_ok h
    obtain ⟨others, hothers, rfl⟩ := map_eq_ok h
    exact .cons (standsFor_of_resolveWith hread hw) (allStandFor_of_resolveItemsWith hread hothers)

theorem membersStandFor_of_resolveMembersWith
    (hread : ∀ text w, read text = some w → ∃ v, parse? text = some v ∧ StandsFor v w) :
    ∀ {members values : List (String × Json)}, resolveMembersWith read members = .ok values →
      MembersStandFor members values
  | [], _, h => Except.ok.inj h ▸ .nil
  | (key, v) :: rest, _, h => by
    rw [resolveMembersWith] at h
    obtain ⟨w, hw, h⟩ := bind_eq_ok h
    obtain ⟨others, hothers, rfl⟩ := map_eq_ok h
    exact .cons (standsFor_of_resolveWith hread hw)
      (membersStandFor_of_resolveMembersWith hread hothers)

end

end

/-- A text is read for what its value stands for, with any fuel. -/
theorem standsFor_of_readRawWith {fuel : Nat} {text : String} {w : Json}
    (h : readRawWith fuel text = some w) : ∃ v, parse? text = some v ∧ StandsFor v w := by
  induction fuel generalizing text w with
  | zero => cases h
  | succ fuel ih =>
    obtain ⟨v, hparse, hw⟩ := Option.bind_eq_some_iff.mp h
    exact ⟨v, hparse, standsFor_of_resolveWith (fun _ _ => ih) (toOption_eq_some_iff.mp hw)⟩

/-- A value is resolved to what it stands for, and to nothing else. -/
theorem resolve_eq_ok_iff {v w : Json} : v.resolve = .ok w ↔ StandsFor v w :=
  ⟨standsFor_of_resolveWith fun _ _ => standsFor_of_readRawWith, StandsFor.resolve_eq⟩

/-- Members keep their keys, and each value stands for its counterpart. -/
theorem membersStandFor_iff {members values : Members} :
    MembersStandFor members values ↔
      List.Forall₂ (fun m n => m.1 = n.1 ∧ StandsFor m.2 n.2) members values := by
  constructor
  · intro h
    induction members generalizing values with
    | nil =>
      cases h
      exact .nil
    | cons m rest ih =>
      cases h with
      | cons h hrest => exact .cons ⟨rfl, h⟩ (ih hrest)
  · intro h
    induction h with
    | nil => exact .nil
    | @cons m n _ _ h _ ih =>
      obtain ⟨key, v⟩ := m
      obtain ⟨other, w⟩ := n
      obtain ⟨rfl, hvalue⟩ : key = other ∧ StandsFor v w := h
      exact .cons hvalue ih

/-- The values of members are resolved to what they stand for, and keep their
keys. -/
theorem resolveMembers_eq_ok_iff {members values : Members} :
    resolveMembers members = .ok values ↔
      List.Forall₂ (fun m n => m.1 = n.1 ∧ StandsFor m.2 n.2) members values := by
  rw [← membersStandFor_iff]
  exact ⟨membersStandFor_of_resolveMembersWith fun _ _ => standsFor_of_readRawWith,
    MembersStandFor.resolve_eq⟩

/-- Without the key of raw texts, a value stands for itself, but for repeated
keys. -/
theorem standsFor_iff_of_rawFree {v w : Json} (h : v.RawFree) :
    StandsFor v w ↔ w = v.mergeKeys := by
  rw [← resolve_eq_ok_iff, resolve_of_rawFree h]
  exact ⟨fun heq => (Except.ok.inj heq).symm, fun heq => heq ▸ rfl⟩

end Json

end Graft
