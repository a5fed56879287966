import Graft.Proofs.FileSystem.Leading

/-!
# What a write changes

A path is followed through directories and symbolic links only, and what is
written stands where a file was or where nothing was. So a write (`write_tree`
with an output path) changes nothing that is met on the way to it, and its path
leads to it afterwards.

`Replaces` says of two file systems that they differ at one place, where the
second has a file with the content, and that the path leads there in both. It
holds after every write that succeeds (`replaces_of_write`). The argument is the
frame lemma on names (`Leads.transfer`) with the place of the write as the only
change: the place takes a file (`TakesFile`), so it is neither a directory nor a
link, and whatever the path crosses is one or the other.

What is read at the path afterwards is what was written, and what is read at any
other path is what was read there before, unless it leads to the same place.

Main statements:
- `FileSystem.Reaches.put`: a path that leads to a place for a file leads to
  what is put there;
- `FileSystem.replaces_of_write`: a file that has been written is read at its
  path, and nothing else is changed.
-/

namespace Graft.FileSystem

/-- Whether a file can be put at a location: a file is there, or nothing. -/
def TakesFile (files : FileSystem) (location : Location) : Prop :=
  files.at? location = none ∨ ∃ content, files.at? location = some (.file content)

namespace TakesFile

variable {files : FileSystem} {location other : Location}

/-- A place that takes a file is no directory. -/
theorem ne_of_directory (h : files.TakesFile location)
    (hother : files.at? other = some .directory) :
    other ≠ location := by
  rintro rfl
  rcases h with h | ⟨content, h⟩ <;> cases hother.symm.trans h

/-- Nor is it a link, so no path goes across it. -/
theorem ne_of_symlink {path : String} (h : files.TakesFile location)
    (hother : files.at? other = some (.symlink path)) : other ≠ location := by
  rintro rfl
  rcases h with h | ⟨content, h⟩ <;> cases hother.symm.trans h

theorem ne_nil (h : files.TakesFile location) : location ≠ [] :=
  (h.ne_of_directory (if_pos rfl)).symm

end TakesFile

/-- A path that leads to a place for a file does not cross it, so it leads to
what is put there, and a link at its end makes no difference any more. -/
theorem Reaches.put {files : FileSystem} {last : Bool} {path : String} {crossed : List Location}
    {location : Location} (h : files.Reaches last path crossed location)
    (htakes : files.TakesFile location)
    (content : ByteArray) (again : Bool) (hagain : last = true → again = true) :
    (files.put location (.file content)).Reaches again path crossed location := by
  have hput := at?_put_self files (.file content) htakes.ne_nil
  refine ⟨h.nonempty, h.short,
    h.leads.transfer hagain ?_ ?_ (by rw [hput]; simp) (by rw [hput]; simp)⟩
  · intro there hat
    rw [at?_put_ne files _ (htakes.ne_of_directory hat), hat]
  · intro there hmem
    obtain ⟨target, hat⟩ := h.leads.exists_of_mem_crossed hmem
    exact at?_put_ne files _ (htakes.ne_of_symlink hat)

/-- Whether a file at a path is all that file systems differ in. Whatever stands
anywhere else stands there in both. -/
structure Replaces (before after : FileSystem) (path : String) (content : ByteArray)
    (location : Location) : Prop where
  /-- The path leads to the location. -/
  leads : after.resolve true path = .ok (.present location (.file content))
  reads : after.read path = .ok content
  here : after.at? location = some (.file content)
  /-- It replaces a file or nothing. -/
  takes : before.TakesFile location
  elsewhere : ∀ other, other ≠ location → after.at? other = before.at? other
  workingDirectory : after.workingDirectory = before.workingDirectory

/-- A file that has been written is read at its path, and nothing else is
changed. -/
theorem replaces_of_write {files after : FileSystem} {path : String} {content : ByteArray}
    (h : files.write path content = .ok after) :
    ∃ location, files.Replaces after path content location := by
  obtain ⟨crossed, location, hreaches, htakes, hafter⟩ : ∃ crossed location,
      files.Reaches true path crossed location ∧ files.TakesFile location ∧
        files.put location (.file content) = after := by
    -- the place was free or had a file in it, or the write would have failed
    unfold write place at h
    split at h
    next => cases h
    next location before hlead =>
      rcases reaches_of_lead hlead with ⟨there, htarget⟩ | ⟨crossed, there, hreaches, htarget⟩
      · cases htarget
      · obtain ⟨rfl, hat⟩ := at?_of_found_present htarget.symm
        exact ⟨crossed, there, hreaches, Or.inr ⟨before, hat⟩, Except.ok.inj h⟩
    next location hlead =>
      rcases reaches_of_lead hlead with ⟨there, htarget⟩ | ⟨crossed, there, hreaches, htarget⟩
      · cases htarget
      · obtain ⟨rfl, hat⟩ := at?_of_found_free htarget.symm
        exact ⟨crossed, there, hreaches, Or.inl hat, Except.ok.inj h⟩
    next => cases h
  subst hafter
  have hhere := at?_put_self files (.file content) htakes.ne_nil
  have hleads : (files.put location (.file content)).resolve true path =
      .ok (.present location (.file content)) := by
    rw [resolve, (hreaches.put htakes content true id).lead_eq false, found, hhere]
  exact ⟨location, {
    leads := hleads
    reads := by rw [read, hleads]
    here := hhere
    takes := htakes
    elsewhere := fun other hne => at?_put_ne files _ hne
    workingDirectory := rfl }⟩

end Graft.FileSystem
