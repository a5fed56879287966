import Graft.FileSystem.Access
import Mathlib.Data.List.Basic

/-!
# Where names lead

Names that do not lead to a directory lead to what the last of them names,
across directories and symbolic links. Only these are met on the way, so names
lead to the same place in every file system that has them, whatever stands at
the place itself.

Following names (`FileSystem.follow`) is a recursion on names and on the links
that may still be followed, and answers with a target or with one of many
errors. `Leads` is the part of it that succeeds, as an inductive relation with
one rule for each kind of step: into a directory, up, staying, across a link,
and finally the place itself. It collects the links that are crossed, which is
what the frame lemmas need. The two are shown to agree in both directions
(`leads_of_follow`, `Leads.follow_eq`), and from then on proofs are inductions
on the relation.

The frame lemmas say what a change elsewhere does to a path. Nothing at all, if
the directories and the crossed links are still there (`transfer`). What stands
at the end itself may be written over or removed; only a path that crosses its
own end is cut off by that (`follow_remove`).

Main statements:
- `FileSystem.leads_of_follow`, `FileSystem.Leads.follow_eq`: what follows from
  names being followed with success, and back;
- `FileSystem.Leads.transfer`: the same directories and links lead to the same
  place;
- `FileSystem.Leads.remove`, `FileSystem.Leads.follow_remove`: where the names
  lead when what stands at their end has been removed.
-/

namespace Graft.FileSystem

/-- Whether a name is to be looked up in a directory, and not one of the dots. -/
def IsPlain (name : String) : Prop :=
    ¬(name = "" ∨ name = ".") ∧ ¬name = ".." ∧ ¬maxNameLength < name.utf8ByteSize

/-- Whether names lead from a directory to the place that the last of them
names, across these symbolic links. `links` and `last` are as for `follow`. -/
inductive Leads (files : FileSystem) (last : Bool) :
    Nat → Location → List String → List Location → Location → Prop where
  /-- The last name. What it names is no directory, and no link that is to be
  followed. -/
  | here {links place name} (hplain : IsPlain name)
      (hdirectory : files.at? (place ++ [name]) ≠ some .directory)
      (hlink : ∀ target, files.at? (place ++ [name]) = some (.symlink target) → last = false) :
      Leads files last links place [name] [] (place ++ [name])
  /-- On from the same directory. -/
  | dot {links place name rest crossed location} (hdot : name = "" ∨ name = ".")
      (hrest : Leads files last links place rest crossed location) :
      Leads files last links place (name :: rest) crossed location
  /-- On from the directory above. -/
  | up {links place rest crossed location}
      (hrest : Leads files last links place.dropLast rest crossed location) :
      Leads files last links place (".." :: rest) crossed location
  /-- Into a directory. -/
  | into {links place name rest crossed location} (hplain : IsPlain name)
      (hdirectory : files.at? (place ++ [name]) = some .directory)
      (hrest : Leads files last links (place ++ [name]) rest crossed location) :
      Leads files last links place (name :: rest) crossed location
  /-- Across a symbolic link. -/
  | across {links place name rest crossed location target} (hplain : IsPlain name)
      (hlink : files.at? (place ++ [name]) =
        some (.symlink target)) (hfollowed : ¬(rest.isEmpty ∧ !last))
      (hrest : Leads files last links (if target.startsWith "/" then []
        else place) (namesOf target ++ rest)
        crossed location) :
      Leads files last (links + 1) place (name :: rest) ((place ++ [name]) :: crossed) location

/-- What is found at a place that is no directory. -/
def found (files : FileSystem) (location : Location) : Target :=
  match files.at? location with
  | none => .free location
  | some entry => .present location entry

theorem at?_of_found_present {files : FileSystem} {there location : Location} {entry : Entry}
    (h : files.found there = .present location entry) :
    there = location ∧ files.at? location = some entry := by
  unfold found at h
  split at h
  next => cases h
  next hat =>
    obtain ⟨rfl, rfl⟩ := Target.present.inj h
    exact ⟨rfl, hat⟩

/-- A place that is found free is one where nothing stands. -/
theorem at?_of_found_free {files : FileSystem} {there location : Location}
    (h : files.found there = .free location) :
    there = location ∧ files.at? location = none := by
  unfold found at h
  split at h
  next hat =>
    obtain rfl := Target.free.inj h
    exact ⟨rfl, hat⟩
  next => cases h

/-- A plain name is looked up in the directory that it is followed from. -/
theorem follow_name (files : FileSystem) (last making : Bool) (links : Nat) (place : Location)
    {name : String}
    {rest : List String} (hplain : IsPlain name)
    (hslashes : making = true → ¬isSlashes rest = true) :
    files.follow last making links place (name :: rest) =
      match files.at? (place ++ [name]) with
      | none => if rest.isEmpty then .ok (.free (place ++ [name])) else .error .notFound
      | some .directory => files.follow last making links (place ++ [name]) rest
      | some (.file content) =>
        if rest.isEmpty then .ok (.present (place ++ [name]) (.file content))
        else .error .notADirectory
      | some (.symlink target) =>
        if rest.isEmpty ∧ !last then .ok (.present (place ++ [name]) (.symlink target))
        else match links with
          | 0 => .error .tooManyLinks
          | links + 1 =>
            files.follow last making links (if target.startsWith "/" then []
              else place) (namesOf target ++ rest) := by
  obtain ⟨hdot, hdots, hshort⟩ := hplain
  rw [follow, if_neg hdot, if_neg hdots, if_neg fun hboth => hslashes hboth.1 hboth.2]
  exact if_neg hshort

/-- Names that are followed with success lead to a directory, or to what the
last of them names. -/
theorem leads_of_follow {files : FileSystem} {last making : Bool} (links : Nat) (place : Location)
    (names : List String) {target : Target}
    (h : files.follow last making links place names = .ok target) :
    (∃ location, target = .present location .directory) ∨
      ∃ crossed location, files.Leads last links place names crossed location ∧
        target = files.found location := by
  fun_induction follow files last making links place names
  next => exact Or.inl ⟨_, (Except.ok.inj h).symm⟩
  next hdot ih =>
    rcases ih h with hdirectory | ⟨crossed, location, hleads, htarget⟩
    · exact Or.inl hdirectory
    · exact Or.inr ⟨crossed, location, .dot hdot hleads, htarget⟩
  next hdot ih =>
    rcases ih h with hdirectory | ⟨crossed, location, hleads, htarget⟩
    · exact Or.inl hdirectory
    · exact Or.inr ⟨crossed, location, .up hleads, htarget⟩
  next => cases h
  next => cases h
  next place name rest hdot hdots _ hshort there hnone hlast =>
    -- nothing stands there, and the names end
    obtain rfl := List.isEmpty_iff.mp hlast
    obtain rfl := Except.ok.inj h
    refine Or.inr ⟨[], there,
      .here ⟨hdot, hdots, hshort⟩ (by simp [there, hnone]) (by simp [there, hnone]), ?_⟩
    rw [found, hnone]
  next => cases h
  next hdot hdots _ hshort there hat ih =>
    rcases ih h with hdirectory | ⟨crossed, location, hleads, htarget⟩
    · exact Or.inl hdirectory
    · exact Or.inr ⟨crossed, location, .into ⟨hdot, hdots, hshort⟩ hat hleads, htarget⟩
  next place name rest hdot hdots _ hshort there content hat hlast =>
    -- a file stands there, and the names end
    obtain rfl := List.isEmpty_iff.mp hlast
    obtain rfl := Except.ok.inj h
    refine Or.inr ⟨[], there,
      .here ⟨hdot, hdots, hshort⟩ (by simp [there, hat]) (by simp [there, hat]), ?_⟩
    rw [found, hat]
  next => cases h
  next place name rest hdot hdots _ hshort there path hat hends =>
    -- a link stands there, and it is not to be followed
    obtain ⟨hlast, hstays⟩ := hends
    obtain rfl := List.isEmpty_iff.mp hlast
    obtain rfl := Except.ok.inj h
    refine Or.inr ⟨[], there,
      .here ⟨hdot, hdots, hshort⟩ (by simp [there, hat]) (fun _ _ => by simpa using hstays), ?_⟩
    rw [found, hat]
  next => cases h
  next hdot hdots _ hshort there path hat hfollowed links ih =>
    rcases ih h with hdirectory | ⟨crossed, location, hleads, htarget⟩
    · exact Or.inl hdirectory
    · exact Or.inr ⟨there :: crossed, location,
        .across ⟨hdot, hdots, hshort⟩ hat hfollowed hleads, htarget⟩

namespace Leads

variable {files : FileSystem} {last : Bool} {links : Nat} {place location : Location}
    {names : List String} {crossed : List Location}

/-- No slash is behind the last of the names. -/
theorem exists_last (h : files.Leads last links place names crossed location) :
    ∃ name, names.getLast? = some name ∧ name ≠ "" := by
  induction h with
  | @here _ _ name hplain => exact ⟨name, rfl, fun hempty => hplain.1 (Or.inl hempty)⟩
  | dot _ _ ih | up _ ih | into _ _ _ ih =>
    obtain ⟨name, hlast, hname⟩ := ih
    exact ⟨name, by rw [List.getLast?_cons, hlast, Option.getD_some], hname⟩
  | @across _ _ name rest _ _ target hplain _ _ _ ih =>
    cases rest with
    | nil => exact ⟨name, rfl, fun hempty => hplain.1 (Or.inl hempty)⟩
    | cons first rest =>
      obtain ⟨other, hlast, hother⟩ := ih
      refine ⟨other, ?_, hother⟩
      rw [List.getLast?_append_cons] at hlast
      rw [List.getLast?_cons_cons, hlast]

/-- Names that go on lead further, so they are not slashes behind the last name. -/
theorem not_isSlashes {name : String} {rest : List String}
    (h : files.Leads last links place (name :: rest) crossed location) :
    ¬isSlashes rest = true := by
  intro hslashes
  obtain ⟨other, hlast, hother⟩ := h.exists_last
  cases rest with
  | nil => exact Bool.false_ne_true hslashes
  | cons first rest =>
    rw [List.getLast?_cons_cons] at hlast
    have hempty := List.all_eq_true.mp hslashes other (List.mem_of_getLast? hlast)
    exact hother (of_decide_eq_true hempty)

/-- Names that lead to a place are followed to what is found there, whether or
not a file is to be made. -/
theorem follow_eq (h : files.Leads last links place names crossed location) (making : Bool) :
    files.follow last making links place names = .ok (files.found location) := by
  -- one case for each kind of step; only the last looks at what stands there
  induction h with
  | @here _ place name hplain hdirectory hlink =>
    have hslashes : ¬isSlashes [] = true := Bool.false_ne_true
    rw [follow_name _ _ _ _ _ hplain (fun _ => hslashes), found]
    split
    next hnone => rw [hnone]; rfl
    next hat => exact absurd hat hdirectory
    next hat => rw [hat]; rfl
    next hat => rw [hat, hlink _ hat]; rfl
  | dot hdot _ ih =>
    rw [follow, if_pos hdot]
    exact ih
  | up _ ih =>
    rw [follow, if_neg (by decide), if_pos rfl]
    exact ih
  | into hplain hdirectory hrest ih =>
    have hslashes := (Leads.into hplain hdirectory hrest).not_isSlashes
    rw [follow_name _ _ _ _ _ hplain (fun _ => hslashes), hdirectory]
    exact ih
  | across hplain hlink hfollowed hrest ih =>
    have hslashes := (Leads.across hplain hlink hfollowed hrest).not_isSlashes
    rw [follow_name _ _ _ _ _ hplain (fun _ => hslashes), hlink]
    dsimp only
    rw [if_neg hfollowed]
    exact ih

theorem ne_nil (h : files.Leads last links place names crossed location) : location ≠ [] := by
  induction h with
  | here => exact List.append_ne_nil_of_right_ne_nil _ (List.cons_ne_nil _ _)
  | dot _ _ ih | up _ ih | into _ _ _ ih | across _ _ _ _ ih => exact ih

/-- The place itself is no directory; such names lead into it and stop there. -/
theorem not_directory (h : files.Leads last links place names crossed location) :
    files.at? location ≠ some .directory := by
  induction h with
  | here _ hdirectory => exact hdirectory
  | dot _ _ ih | up _ ih | into _ _ _ ih | across _ _ _ _ ih => exact ih

/-- So a directory that is met on the way is another place. -/
theorem ne_of_directory (h : files.Leads last links place names crossed location) {there : Location}
    (hat : files.at? there = some .directory) : there ≠ location := by
  intro hsame
  rw [hsame] at hat
  exact h.not_directory hat

/-- What is crossed is a symbolic link. -/
theorem exists_of_mem_crossed (h : files.Leads last links place names crossed location)
    {there : Location}
    (hmem : there ∈ crossed) : ∃ target, files.at? there = some (.symlink target) := by
  induction h with
  | here => exact absurd hmem List.not_mem_nil
  | dot _ _ ih | up _ ih | into _ _ _ ih => exact ih hmem
  | across _ hlink _ _ ih =>
    rcases List.mem_cons.mp hmem with hthere | hmem
    · exact ⟨_, hthere ▸ hlink⟩
    · exact ih hmem

/-- Where the same directories and the links that are crossed are still there,
the names lead to the same place. -/
theorem transfer (h : files.Leads last links place names crossed location) {other : FileSystem}
    {again : Bool} (hagain : last = true → again = true)
    (hdirectories : ∀ there, files.at? there = some .directory → other.at? there = some .directory)
    (hlinks : ∀ there ∈ crossed, other.at? there = files.at? there)
    (hdirectory : other.at? location ≠ some .directory)
    (hlink : ∀ target, other.at? location = some (.symlink target) → again = false) :
    other.Leads again links place names crossed location := by
  -- every step is repeated, as what it depends on is still there
  induction h with
  | here hplain => exact .here hplain hdirectory hlink
  | dot hdot _ ih => exact .dot hdot (ih hlinks hdirectory hlink)
  | up _ ih => exact .up (ih hlinks hdirectory hlink)
  | into hplain hat _ ih => exact .into hplain (hdirectories _ hat) (ih hlinks hdirectory hlink)
  | across hplain hat hfollowed _ ih =>
    obtain ⟨hthere, hrest⟩ := List.forall_mem_cons.mp hlinks
    refine .across hplain (hthere.trans hat) ?_ (ih hrest hdirectory hlink)
    rintro ⟨hempty, hstays⟩
    cases last with
    | true =>
      rw [hagain rfl] at hstays
      exact Bool.false_ne_true hstays
    | false => exact hfollowed ⟨hempty, rfl⟩

/-- When what stands at their end has been removed, names that do not cross it
still lead there. -/
theorem remove (h : files.Leads last links place names crossed location)
    (hcrossed : location ∉ crossed) :
    (files.remove location).Leads last links place names crossed location := by
  have hfree := at?_remove_self files h.ne_nil
  refine h.transfer id ?_ ?_ (by rw [hfree]; simp) (by rw [hfree]; simp)
  · intro there hat
    rw [at?_remove_ne files (h.ne_of_directory hat), hat]
  · intro there hmem
    exact at?_remove_ne files fun hsame => hcrossed (hsame ▸ hmem)

/-- Names that cross it lead nowhere then. -/
theorem follow_remove (h : files.Leads false links place names crossed location)
    (hcrossed : location ∈ crossed) (making : Bool) :
    (files.remove location).follow false making links place names = .error .notFound := by
  -- the step across the removed link fails, and all steps before it are repeated up to there
  induction h with
  | here => exact absurd hcrossed List.not_mem_nil
  | dot hdot _ ih =>
    rw [follow, if_pos hdot]
    exact ih hcrossed
  | up _ ih =>
    rw [follow, if_neg (by decide), if_pos rfl]
    exact ih hcrossed
  | @into _ place name _ _ location hplain hdirectory hrest ih =>
    have hslashes := (Leads.into hplain hdirectory hrest).not_isSlashes
    rw [follow_name _ _ _ _ _ hplain (fun _ => hslashes),
      at?_remove_ne files (hrest.ne_of_directory hdirectory), hdirectory]
    exact ih hcrossed
  | @across links place name rest _ location target hplain hlink hfollowed hrest ih =>
    have hslashes := (Leads.across hplain hlink hfollowed hrest).not_isSlashes
    rw [follow_name _ _ _ _ _ hplain (fun _ => hslashes)]
    by_cases hsame : place ++ [name] = location
    · -- the link that has been removed: more names follow, and nothing is there
      have hrest : ¬rest.isEmpty = true := fun hempty => hfollowed ⟨hempty, rfl⟩
      rw [← hsame, at?_remove_self files
        (List.append_ne_nil_of_right_ne_nil _ (List.cons_ne_nil _ _))]
      exact if_neg hrest
    · rw [at?_remove_ne files hsame, hlink]
      dsimp only
      rw [if_neg hfollowed]
      rcases List.mem_cons.mp hcrossed with hthere | hmem
      · exact absurd hthere.symm hsame
      · exact ih hmem

end Leads

/-! ## Paths -/

/-- Whether a path leads to the place that its last name names, across these
symbolic links. -/
structure Reaches (files : FileSystem) (last : Bool) (path : String) (crossed : List Location)
    (location : Location) : Prop where
  nonempty : path ≠ ""
  short : ¬maxPathLength < path.utf8ByteSize
  leads : files.Leads last maxLinks (if path.startsWith "/" then []
    else files.workingDirectory) (namesOf path)
    crossed location

/-- A path that is followed with success leads to a directory, or to what its
last name names. -/
theorem reaches_of_lead {files : FileSystem} {last making : Bool} {path : String} {target : Target}
    (h : files.lead last making path = .ok target) :
    (∃ location, target = .present location .directory) ∨
      ∃ crossed location, files.Reaches last path crossed location ∧
        target = files.found location := by
  unfold lead at h
  split at h
  next => cases h
  next hnonempty =>
    split at h
    next => cases h
    next hshort =>
      rcases leads_of_follow _ _ _ h with hdirectory | ⟨crossed, location, hleads, htarget⟩
      · exact Or.inl hdirectory
      · exact Or.inr ⟨crossed, location, ⟨hnonempty, hshort, hleads⟩, htarget⟩

/-- A file that a path leads to stands there. -/
theorem at?_of_lead_file {files : FileSystem} {last making : Bool} {path : String}
    {location : Location}
    {content : ByteArray}
    (h : files.lead last making path = .ok (.present location (.file content))) :
    files.at? location = some (.file content) := by
  rcases reaches_of_lead h with ⟨there, htarget⟩ | ⟨crossed, there, -, htarget⟩
  · cases htarget
  · exact (at?_of_found_present htarget.symm).2

namespace Reaches

variable {files : FileSystem} {last : Bool} {path : String} {crossed : List Location}
    {location : Location}

/-- A path that leads to a place is followed to what is found there, whether or
not a file is to be made. -/
theorem lead_eq (h : files.Reaches last path crossed location) (making : Bool) :
    files.lead last making path = .ok (files.found location) := by
  rw [lead, if_neg h.nonempty, if_neg h.short]
  exact h.leads.follow_eq making

/-- When what stands at its end has been removed, a path that does not cross it
still leads there. -/
theorem remove (h : files.Reaches last path crossed location) (hcrossed : location ∉ crossed) :
    (files.remove location).Reaches last path crossed location :=
  ⟨h.nonempty, h.short, h.leads.remove hcrossed⟩

/-- A path that crosses it leads nowhere then. -/
theorem lead_remove (h : files.Reaches false path crossed location) (hcrossed : location ∈ crossed)
    (making : Bool) : (files.remove location).lead false making path = .error .notFound := by
  rw [lead, if_neg h.nonempty, if_neg h.short]
  exact h.leads.follow_remove hcrossed making

end Reaches

end Graft.FileSystem
