import Graft.Proofs.FileSystem.Writing

/-!
# Making a file where nothing is

A new file is made only where nothing is (`open_new`, which asks the system to
create and to fail if something is there), and what is removed to make room for
it is what the path itself names: a file or a symbolic link, but no directory,
and not what the link leads to. One thing can go wrong in between. A path may
lead across the very link that stands at its end, out of it again and back to
it; then it leads nowhere once the link has been removed.

`create_cases` tells all that can happen in one disjunction, with what comes of
removing what is in the way in each case, so that a loop which tries again after
removing (`write_starter`) can be followed without opening the file system.
`CrossesEnd` names the paths of the last kind. For any other path there is room
after one removal (`HasRoom`), and `Makes` says what has changed once a file has
been made: its place, and what stood there before, if it had to be removed.

The lemmas at the beginning are about following names in order to make a file.
It differs from following them as such in one respect only: a slash behind the
last name is refused before that name is looked up.

Main statements:
- `FileSystem.create_cases`: how an attempt to make a file ends, and what then
  comes of removing what is in the way;
- `FileSystem.Makes.of_free`, `FileSystem.Makes.of_removed`: what has changed
  when a file has been made;
- `FileSystem.CrossesEnd.exists_link`: what comes of paths that lead across the
  link at their end.
-/

namespace Graft.FileSystem

variable {files : FileSystem} {path : String} {crossed : List Location} {location : Location}

/-! ## Where a file cannot be made -/

/-- Names that lead somewhere for a file to be made there lead there anyway. -/
theorem follow_of_making {last : Bool} (links : Nat) (place : Location) (names : List String)
    {target : Target} (h : files.follow last true links place names = .ok target) :
    files.follow last false links place names = .ok target := by
  fun_induction follow files last true links place names
  next => rw [follow_nil, ← h]
  next hdot ih => rw [follow, if_pos hdot, ih h]
  next hdot ih => rw [follow, if_neg hdot, if_pos rfl, ih h]
  next => cases h
  next => cases h
  next hdot hdots _ hshort there hnone hends =>
    rw [follow_name _ _ false _ _ ⟨hdot, hdots, hshort⟩ Bool.noConfusion, hnone, ← h]
    exact if_pos hends
  next => cases h
  next hdot hdots _ hshort there hat ih =>
    rw [follow_name _ _ false _ _ ⟨hdot, hdots, hshort⟩ Bool.noConfusion, hat, ← ih h]
  next hdot hdots _ hshort there content hat hends =>
    rw [follow_name _ _ false _ _ ⟨hdot, hdots, hshort⟩ Bool.noConfusion, hat, ← h]
    exact if_pos hends
  next => cases h
  next hdot hdots _ hshort there path hat hends =>
    rw [follow_name _ _ false _ _ ⟨hdot, hdots, hshort⟩ Bool.noConfusion, hat, ← h]
    exact if_pos hends
  next => cases h
  next hdot hdots _ hshort there path hat hfollowed links ih =>
    rw [follow_name _ _ false _ _ ⟨hdot, hdots, hshort⟩ Bool.noConfusion, hat, ← ih h]
    exact if_neg hfollowed

/-- No path fails because something is there already. -/
theorem follow_ne_alreadyExists (last making : Bool) (links : Nat) (place : Location)
    (names : List String) :
    files.follow last making links place names ≠ .error .alreadyExists := by
  fun_induction follow files last making links place names
  next => simp
  next ih => exact ih
  next ih => exact ih
  next => simp
  next => simp
  next => simp
  next => simp
  next ih => exact ih
  next => simp
  next => simp
  next => simp
  next => simp
  next ih => exact ih

/-- A path at which a file could be made leads to the same place as such. -/
theorem lead_of_making {last : Bool} {target : Target}
    (h : files.lead last true path = .ok target) :
    files.lead last false path = .ok target := by
  unfold lead at h ⊢
  split at h
  next => cases h
  next hnonempty =>
    split at h
    next => cases h
    next hshort =>
      rw [if_neg hnonempty, if_neg hshort]
      exact follow_of_making _ _ _ h

theorem lead_ne_alreadyExists (files : FileSystem) (last making : Bool) (path : String) :
    files.lead last making path ≠ .error .alreadyExists := by
  unfold lead
  split
  next => simp
  next =>
    split
    next => simp
    next => exact follow_ne_alreadyExists _ _ _ _ _

/-- A file is made at the end of a path if nothing is there. -/
theorem create_of_free (h : files.Reaches false path crossed location)
    (hfree : files.at? location = none)
    (content : ByteArray) :
    files.create path content = .ok (files.put location (.file content)) := by
  rw [create, place, h.lead_eq true, found, hfree]

/-- How an attempt to make a file ends. It is made if nothing is there. If a
file or a symbolic link is there, it can be removed; if a directory is, it
cannot. Else the path leads nowhere. -/
theorem create_cases (files : FileSystem) (path : String) (content : ByteArray) :
    (∃ crossed location, files.Reaches false path crossed location ∧ files.at? location = none ∧
      files.create path content = .ok (files.put location (.file content))) ∨
    (∃ crossed location entry, files.Reaches false path crossed location ∧
      files.at? location = some entry ∧
      files.create path content = .error .alreadyExists ∧
        files.delete path = .ok (files.remove location)) ∨
    (∃ location, files.place false path = .ok (.present location .directory) ∧
      files.create path content = .error .alreadyExists ∧
        files.delete path = .error .isADirectory) ∨
    ∃ cause, cause ≠ .alreadyExists ∧ files.place false path = .error cause ∧
      files.create path content = .error cause := by
  -- where the path leads decides everything: nowhere, to a free place, or to something that is
  -- there
  cases hplace : files.place false path with
  | error cause =>
    refine Or.inr (Or.inr (Or.inr ⟨cause, ?_, rfl, ?_⟩))
    · intro hexists
      exact files.lead_ne_alreadyExists false true path
        (hplace.trans (congrArg Except.error hexists))
    · rw [create, hplace]
  | ok target =>
    have hresolve : files.resolve false path = .ok target := lead_of_making hplace
    rcases reaches_of_lead hplace with ⟨location, rfl⟩ | ⟨crossed, location, hreaches, rfl⟩
    · refine Or.inr (Or.inr (Or.inl ⟨location, rfl, ?_, ?_⟩))
      · rw [create, hplace]
      · rw [delete, hresolve]
    · cases hat : files.at? location with
      | none => exact Or.inl ⟨crossed, location, hreaches, hat, create_of_free hreaches hat content⟩
      | some entry =>
        refine Or.inr (Or.inl ⟨crossed, location, entry, hreaches, hat, ?_, ?_⟩)
        · rw [create, hplace, found, hat]
        · rw [delete, hresolve, found, hat]
          cases entry with
          | directory => exact absurd hat hreaches.leads.not_directory
          | _ => rfl

/-! ## What has changed -/

/-- Whether a path leads across the symbolic link that stands at its end. -/
def CrossesEnd (files : FileSystem) (path : String) : Prop :=
  ∃ crossed location, files.Reaches false path crossed location ∧ location ∈ crossed

/-- Such a path leads to the link, and when the link has been removed, no file
can be made there. -/
theorem CrossesEnd.exists_link (h : files.CrossesEnd path) : ∃ location target,
    (∀ making, files.lead false making path = .ok (.present location (.symlink target))) ∧
      ∀ content, (files.remove location).create path content = .error .notFound := by
  obtain ⟨crossed, location, hreaches, hcrossed⟩ := h
  obtain ⟨target, hat⟩ := hreaches.leads.exists_of_mem_crossed hcrossed
  refine ⟨location, target, fun making => ?_, fun content => ?_⟩
  · rw [hreaches.lead_eq making, found, hat]
  · rw [create, place, hreaches.lead_remove hcrossed true]

/-- Whether a new file can be made at a path: nothing is there, or else
something that can be removed first, if that is asked for. -/
def HasRoom (files : FileSystem) (path : String) (force : Bool) : Prop :=
  (∃ location, files.place false path = .ok (.free location)) ∨
    force = true ∧ ¬files.CrossesEnd path ∧
      ∃ location entry, files.place false path = .ok (.present location entry) ∧ entry ≠ .directory

/-- Such a path has no room for a file: there is something at its end, and
removing it does not help. -/
theorem CrossesEnd.not_hasRoom (h : files.CrossesEnd path) (force : Bool) :
    ¬files.HasRoom path force := by
  obtain ⟨there, target, hlead, -⟩ := h.exists_link
  rintro (⟨location, hfree⟩ | ⟨-, hcrosses, -⟩)
  · cases hfree.symm.trans (hlead true)
  · exact hcrosses h

/-- Where no file can be put, and nothing is there that can be removed, there is
no room. -/
theorem not_hasRoom_of_place {force : Bool}
    (hfree : ∀ location, files.place false path ≠ .ok (.free location))
    (hother : ∀ location entry, files.place false path = .ok (.present location entry) →
      force = true →
      entry = .directory) : ¬files.HasRoom path force := by
  rintro (⟨location, hplace⟩ | ⟨hforce, -, location, entry, hplace, hentry⟩)
  · exact hfree location hplace
  · exact hentry (hother location entry hplace hforce)

/-- A path that does not lead to a link does not cross the one at its end. -/
theorem not_crossesEnd_of_place
    (h : ∀ location target, files.place false path ≠ .ok (.present location (.symlink target))) :
    ¬files.CrossesEnd path := by
  intro hcrosses
  obtain ⟨location, target, hlead, -⟩ := hcrosses.exists_link
  exact h location target (hlead true)

/-- Whether a new file at a path is all that file systems differ in. -/
structure Makes (before after : FileSystem) (path : String) (content : ByteArray)
    (location : Location) : Prop where
  /-- The path has led to the location, and what was there was no directory. -/
  led : before.resolve false path = .ok (before.found location)
  notDirectory : before.at? location ≠ some .directory
  /-- It leads there still, and now the file is there. -/
  leads : after.resolve false path = .ok (.present location (.file content))
  reads : after.read path = .ok content
  elsewhere : ∀ other, other ≠ location → after.at? other = before.at? other
  workingDirectory : after.workingDirectory = before.workingDirectory

/-- Where nothing was, a file has been made. -/
theorem Makes.of_free (h : files.Reaches false path crossed location)
    (hfree : files.at? location = none)
    (content : ByteArray) :
    files.Makes (files.put location (.file content)) path content location := by
  have htakes : files.TakesFile location := Or.inl hfree
  have hhere := at?_put_self files (.file content) htakes.ne_nil
  have hleads : ∀ last, (files.put location (.file content)).resolve last path =
      .ok (.present location (.file content)) := by
    intro last
    rw [resolve, (h.put htakes content last Bool.noConfusion).lead_eq false, found, hhere]
  exact {
    led := h.lead_eq false
    notDirectory := h.leads.not_directory
    leads := hleads false
    reads := by rw [read, hleads true]
    elsewhere := fun other hne => at?_put_ne files _ hne
    workingDirectory := rfl }

/-- Where something has been removed that the path does not cross, a file has
been made in its place. -/
theorem Makes.of_removed (h : files.Reaches false path crossed location)
    (hcrossed : location ∉ crossed) (content : ByteArray) :
    files.Makes ((files.remove location).put location (.file content)) path content location := by
  have hmade := Makes.of_free (h.remove hcrossed) (at?_remove_self files h.leads.ne_nil) content
  exact {
    led := h.lead_eq false
    notDirectory := h.leads.not_directory
    leads := hmade.leads
    reads := hmade.reads
    elsewhere := fun other hne => (hmade.elsewhere other hne).trans (at?_remove_ne files hne)
    workingDirectory := rfl }

end Graft.FileSystem
