import Graft.Command.Apply
import Graft.Rule.Decode

/-!
# Notations of rules

The same rules can be written in several ways: as a table or as the list of its
entries, a text that is deleted with or without a replacement, and one rule
alone as flags of a command line. Each notation is read by a way of its own,
with defaults of its own (`from_value` and `find_from_value` for rules in JSON,
`build_schema` and `build_options` for flags). They make the same of every tree,
and what is wrong with them is reported as the same fault.

`RuleSet.outcome` goes all the way, from the value to the outcome on a tree,
faults included, and `ApplyArgs.outcome` does so from flags. So agreement is one
equation for each pair of notations, and says nothing about the sets of rules in
between, which are not the same: a table becomes a set of entries, a text a
single rule, a list a list. What makes the outcomes equal is that each of them
becomes the same pairs (`RuleSet.pairs`), in the same order, with the first
fault at the same place.

For flags the statement starts with the words of a command line.
`Request.parse_flags` parses them, with a text that begins with a hyphen or
holds an equals sign among them, since the value of a flag stands behind the
first equals sign of its word.

Main statements:
- `RuleSet.outcome_object`: a table does what the list of its entries does, also
  where an entry cannot be read;
- `ApplyArgs.outcome_find`, `ApplyArgs.outcome_regex`: flags do what a list with
  one pair does;
- `Request.parse_flags`: how these flags are written on a command line;
- `notations_agree`: all notations of the same rules agree.
-/

namespace Graft

namespace RuleSet

/-- What a search with rules in JSON makes of a tree, or the first fault. -/
def outcome (ignore : Ignore) (rules : Json) (tree : Node) : Except RuleError (Outcome Unit) :=
  (ofJson rules).bind fun read => findAndReplace tree read ignore ()

/-- The list of the entries of a table. -/
def listing (entries : Members) : Json :=
  .array (entries.map fun entry => .array [.string entry.1, entry.2])

/-- The pairs of a list are read as the entries of the table are, up to the same
first fault. -/
theorem pairsOfJson_listing {σ : Type} (index : Nat) (entries : Members) :
    pairsOfJson index (entries.map fun entry => .array [.string entry.1, entry.2]) =
      (entriesOfJson entries).map fun (read : List (String × Replacer σ)) =>
        read.map fun entry => (.literal entry.1, entry.2) := by
  induction entries generalizing index with
  | nil => rfl
  | cons entry rest ih =>
    obtain ⟨text, v⟩ := entry
    rw [List.map_cons, pairsOfJson, entriesOfJson, pairOfJson, Find.ofJson, ih]
    -- a text can always be looked for, so the only faults are those of the replacements
    cases Replacement.ofJson v with
    | error cause => rfl
    | ok replacement =>
      cases (entriesOfJson rest : Except RuleError (List (String × Replacer σ))) <;> rfl

/-- A table does what the list of its entries does. -/
theorem outcome_object (ignore : Ignore) (entries : Members) (tree : Node) :
    outcome ignore (.object entries) tree = outcome ignore (listing entries) tree := by
  rw [outcome, outcome, listing, ofJson, ofJson, pairsOfJson_listing]
  cases (entriesOfJson entries : Except RuleError (List (String × Replacer Unit))) with
  | error cause => rfl
  | ok read =>
    show findAndReplace tree (table read) ignore () = findAndReplace tree (list _) ignore ()
    rw [findAndReplace, findAndReplace, rules_table]

end RuleSet

namespace Command

/-! ## Flags -/

/-- What the rules of a command line, or else of the configuration, make of a
tree. -/
def ApplyArgs.outcome (args : ApplyArgs) (config : Option Config) (ignore : Ignore) (tree : Node) :
    Except Failure (Outcome Unit) :=
  (rulesOf args config).bind fun rules => (findAndReplace tree rules ignore ()).mapError .badRules

section

variable (args : ApplyArgs) (config : Option Config) (ignore : Ignore) (tree : Node)

/-- A text to find does what a list with one pair does. A replacement that is
left out is empty. -/
theorem ApplyArgs.outcome_find (text : String) (replace : Option String) :
    ApplyArgs.outcome { args with find := some text, replace, regex := false } config ignore tree =
      (RuleSet.outcome ignore (.array [.array [.string text, .string (replace.getD "")]])
        tree).mapError
        .badRules := by
  let rules : RuleSet Unit :=
    .single (.literal text) (some (.constant (Replacement.ofText (replace.getD ""))))
  have hflags : rulesOf { args with find := some text, replace, regex := false } config =
    .ok rules := rfl
  have hread : RuleSet.ofJson (.array [.array [.string text, .string (replace.getD "")]]) =
      (.ok rules : Except RuleError (RuleSet Unit)) := rfl
  rw [outcome, RuleSet.outcome, hflags, hread, Except.bind, Except.bind]

/-- A regular expression to find does what a list with one pair does, and is
refused where the pair is. -/
theorem ApplyArgs.outcome_regex (source replacement : String) (ignoreCase : Bool) :
    ApplyArgs.outcome
        { args with
          find := some source, replace := some replacement, regex := true, ignoreCase }
        config ignore tree =
      (RuleSet.outcome ignore (.array [.array [.object [("regex", .string source),
        ("ignoreCase", .bool ignoreCase)], .string replacement]]) tree).mapError .badRules := by
  have hfind : Find.ofJson (.object [("regex", .string source), ("ignoreCase", .bool ignoreCase)]) =
      (Pattern.ofText? source true ignoreCase).elim (.error (.badPattern source))
        fun given => .ok (.pattern given) := by
    have hsource : (Members.get? [("regex", .string source),
      ("ignoreCase", .bool ignoreCase)] "regex").bind
        Json.string? = some source := rfl
    have hglobal : ((Members.get? [("regex", .string source),
      ("ignoreCase", .bool ignoreCase)] "global").bind
        Json.bool?).getD true = true := rfl
    have hcase : ((Members.get? [("regex", .string source),
      ("ignoreCase", .bool ignoreCase)] "ignoreCase").bind
        Json.bool?).getD false = ignoreCase := rfl
    rw [Find.ofJson, hsource]
    dsimp only
    rw [hglobal, hcase]
    cases Pattern.ofText? source true ignoreCase <;> rfl
  unfold outcome rulesOf RuleSet.outcome
  dsimp only
  rw [if_pos rfl, RuleSet.ofJson, RuleSet.pairsOfJson, RuleSet.pairOfJson, hfind]
  cases Pattern.ofText? source true ignoreCase <;> rfl

end

theorem Opt.ofWord?_word {level : Level} {o : Opt} (h : o.fits level = true) :
    Opt.ofWord? level o.word = some o := by
  cases level <;> cases o <;> first | rfl | exact absurd h Bool.false_ne_true

/-- A word with a value attached is the option with that value, whatever
characters the value has. -/
theorem Piece.ofArgument_value {level : Level} {o : Opt} (hfits : o.fits level = true)
    (hvalue : o.hasValue = true) (value : String) :
    Piece.ofArgument level ("--" ++ o.word ++ "=" ++ value) = [.option o value] := by
  have hlist : ("--" ++ o.word ++ "=" ++ value).toList =
      '-' :: '-' :: (o.word.toList ++ '=' :: value.toList) := by
    simp [String.toList_append]
  -- no word of an option has an equals sign, so the first one ends the word
  have hplain : (o.word.toList.all fun c => c ≠ '=') = true := by
    cases o <;> rfl
  have hword : (o.word.toList ++ '=' :: value.toList).takeWhile (· ≠ '=') = o.word.toList := by
    rw [List.takeWhile_append_of_pos (List.all_eq_true.mp hplain)]
    simp
  rw [Piece.ofArgument, hlist]
  show [ofWord level (o.word.toList ++ '=' :: value.toList)] = _
  rw [ofWord, hword, String.ofList_toList, Opt.ofWord?_word hfits, List.drop_left]
  dsimp only
  rw [hvalue, String.ofList_toList]
  rfl

/-- An option with its value attached is taken in. -/
theorem readLevel_value (level : Level) (o : Opt) (hlevel : level ≠ .program)
    (hfits : o.fits level = true)
    (hvalue : o.hasValue = true) (given : Given) (value : String) {after : Given}
    (hadd : given.add? o value = some after) (rest : List String) :
    readLevel level given none (("--" ++ o.word ++ "=" ++ value) :: rest) =
      readLevel level after none rest := by
  have hne : "--" ++ o.word ++ "=" ++ value ≠ "--" := by
    intro h
    have hlength := congrArg String.length h
    simp only [String.length_append] at hlength
    have hequals : "=".length = 1 := rfl
    omega
  have htaken : takeIn given [.option o value] = .ok (after, none) := by
    cases o with
    | help => exact absurd hvalue Bool.false_ne_true
    | version => exact absurd hvalue Bool.false_ne_true
    | _ => simp only [takeIn, hadd]
  rw [readLevel, if_neg hne, Piece.ofArgument_value hfits hvalue, htaken]
  exact if_neg fun h => hlevel h.1

/-- How flags for a text to find, with or without a replacement, and for a
regular expression are written. -/
theorem Request.parse_flags (text replacement : String) :
    Request.parse ["apply", "-", "--find=" ++ text] =
      .run { task := .apply { input := "-", find := some text } } ∧
    Request.parse ["apply", "-", "--find=" ++ text, "--replace=" ++ replacement] =
      .run { task := .apply { input := "-", find := some text, replace := some replacement } } ∧
    ∀ ignoreCase, Request.parse
      (["apply", "-", "--find=" ++ text, "--replace=" ++ replacement, "--regex"] ++
        if ignoreCase then ["-i"] else []) =
      .run { task := .apply {
        input := "-", find := some text, replace := some replacement, regex :=
          true, ignoreCase } } := by
  have happly : ∀ rest,
      Request.parse ("apply" :: rest) = Request.ofCommand .apply { plain := ["apply"] } rest :=
    fun _ => rfl
  have hfind : ∀ rest, readLevel .apply {} none ("-" :: ("--find=" ++ text) :: rest) =
      readLevel .apply { options := [(.find, text)], plain := ["-"] } none rest :=
    readLevel_value .apply .find nofun rfl rfl { plain := ["-"] } text rfl
  have hreplace : ∀ rest, readLevel .apply {} none
      ("-" :: ("--find=" ++ text) :: ("--replace=" ++ replacement) :: rest) =
        readLevel .apply
          { options := [(.find, text), (.replace, replacement)], plain := ["-"] } none rest :=
    fun rest => (hfind _).trans (readLevel_value .apply .replace nofun rfl rfl
      { options := [(.find, text)], plain := ["-"] } replacement rfl rest)
  refine ⟨?_, ?_, fun ignoreCase => ?_⟩
  · rw [happly, ofCommand, hfind]
    rfl
  · rw [happly, ofCommand, hreplace]
    rfl
  · cases ignoreCase with
    | true =>
      show Request.parse ("apply" :: "-" :: _ :: _ :: ["--regex", "-i"]) = _
      rw [happly, ofCommand, hreplace]
      rfl
    | false =>
      show Request.parse ("apply" :: "-" :: _ :: _ :: ["--regex"]) = _
      rw [happly, ofCommand, hreplace]
      rfl

/-! ## All notations -/

/-- All notations of the same rules make the same of a tree, whatever is left
alone, or have the same fault. A table and the list of its entries do, whether
their replacements can be read or not. So do a text alone, a pair that has no
replacement or null, a table that maps the text to null or to the empty text,
and flags that give the text without a replacement or with the empty one,
whatever else is given and configured. So do flags that give a regular
expression and a replacement, and a list with the pair of them. -/
theorem notations_agree (ignore : Ignore) (tree : Node) :
    (∀ entries, RuleSet.outcome ignore (.object entries) tree =
      RuleSet.outcome ignore (RuleSet.listing entries) tree) ∧
    (∀ text,
      let deleted := RuleSet.outcome ignore (.string text) tree
      RuleSet.outcome ignore (.array [.array [.string text]]) tree = deleted ∧
      RuleSet.outcome ignore (.array [.array [.string text, .null]]) tree = deleted ∧
      RuleSet.outcome ignore (.object [(text, .null)]) tree = deleted ∧
      RuleSet.outcome ignore (.object [(text, .string "")]) tree = deleted ∧
      (∀ (args : ApplyArgs) config,
        ApplyArgs.outcome
            { args with find := some text, replace := none, regex := false } config ignore tree =
          deleted.mapError .badRules ∧
        ApplyArgs.outcome
            { args with find := some text, replace := some "", regex := false } config ignore tree =
          deleted.mapError .badRules) ∧
      Request.parse ["apply", "-", "--find=" ++ text] =
        .run { task := .apply { input := "-", find := some text } } ∧
      Request.parse ["apply", "-", "--find=" ++ text, "--replace="] =
        .run { task := .apply { input := "-", find := some text, replace := some "" } }) ∧
    ∀ source replacement ignoreCase,
      (∀ (args : ApplyArgs) config,
        ApplyArgs.outcome
            { args with
              find := some source, replace := some replacement, regex := true, ignoreCase }
            config ignore tree =
          (RuleSet.outcome ignore (.array [.array [.object [("regex", .string source),
            ("ignoreCase", .bool ignoreCase)], .string replacement]]) tree).mapError .badRules) ∧
      Request.parse (["apply", "-", "--find=" ++ source, "--replace=" ++ replacement, "--regex"] ++
          if ignoreCase then ["-i"] else []) =
        .run { task := .apply {
          input := "-", find := some source, replace := some replacement, regex :=
            true, ignoreCase } } := by
  refine ⟨fun entries => RuleSet.outcome_object ignore entries tree, fun text => ?_,
    fun source replacement ignoreCase => ⟨fun args config => ?_, ?_⟩⟩
  · have htable : ∀ v, RuleSet.outcome ignore (.object [(text, v)]) tree =
        RuleSet.outcome ignore (.array [.array [.string text, v]]) tree :=
      fun v => RuleSet.outcome_object ignore [(text, v)] tree
    obtain ⟨hfind, hreplace, -⟩ := Request.parse_flags text ""
    exact ⟨rfl, rfl, htable .null, htable (.string ""), fun args config =>
      ⟨ApplyArgs.outcome_find args config ignore tree text none,
        ApplyArgs.outcome_find args config ignore tree text (some "")⟩, hfind, hreplace⟩
  · exact ApplyArgs.outcome_regex args config ignore tree source replacement ignoreCase
  · obtain ⟨-, -, hregex⟩ := Request.parse_flags source replacement
    exact hregex ignoreCase

end Command

end Graft
