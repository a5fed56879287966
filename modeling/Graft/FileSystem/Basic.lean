/-!
# File systems

A file system is a list of what stands at which location: files, directories and
symbolic links. A location is a list of names from the root down; the root
itself is always a directory. What is said of a location later in the list is
hidden by what is said before.

This is what of a file system the commands can tell: bytes in files, where links
lead, and what is a directory. Permissions, times and owners are not modelled;
an operation that they would forbid is beyond what is said here, while
`FileError` has room for errors of any kind.

Main statements:
- `FileSystem.at?_put_self`, `FileSystem.at?_put_ne`: what putting an entry
  changes;
- `FileSystem.at?_remove_self`, `FileSystem.at?_remove_ne`: what removing one
  changes.
-/

namespace Graft

/-- Why an operation on files fails. -/
inductive FileError where
  /-- Nothing is there. -/
  | notFound
  /-- Something is there already. -/
  | alreadyExists
  /-- A file stands where a directory is needed. -/
  | notADirectory
  /-- A directory stands where a file is needed. -/
  | isADirectory
  /-- A name is too long. -/
  | nameTooLong
  /-- Symbolic links lead too far. -/
  | tooManyLinks
  /-- The bytes of a file are no text. -/
  | notText
  /-- Any other reason, in words. -/
  | other (reason : String)
  deriving DecidableEq

/-- A failure in words. -/
def FileError.message : FileError → String
  | .notFound => "No such file or directory (os error 2)"
  | .alreadyExists => "File exists (os error 17)"
  | .notADirectory => "Not a directory (os error 20)"
  | .isADirectory => "Is a directory (os error 21)"
  | .nameTooLong => "File name too long (os error 36)"
  | .tooManyLinks => "Too many levels of symbolic links (os error 40)"
  | .notText => "stream did not contain valid UTF-8"
  | .other reason => reason

/-- What may stand at a location. -/
inductive Entry where
  /-- A file with its bytes. -/
  | file (content : ByteArray)
  | directory
  /-- A symbolic link to a path. -/
  | symlink (target : String)

/-- Names from the root down. -/
abbrev Location := List String

/-- A file system. -/
structure FileSystem where
  /-- What stands where. -/
  entries : List (Location × Entry)
  /-- The directory that relative paths start from. -/
  workingDirectory : Location

namespace FileSystem

/-- What is said of a location. -/
def find? : List (Location × Entry) → Location → Option Entry
  | [], _ => none
  | (place, entry) :: rest, location => if place = location then some entry else find? rest location

/-- What stands at a location. -/
def at? (files : FileSystem) (location : Location) : Option Entry :=
  if location = [] then some .directory else find? files.entries location

/-- Puts an entry at a location, in place of what stands there. -/
def put (files : FileSystem) (location : Location) (entry : Entry) : FileSystem :=
  { files with entries := (location, entry) :: files.entries.filter (·.1 ≠ location) }

/-- Removes what stands at a location. -/
def remove (files : FileSystem) (location : Location) : FileSystem :=
  { files with entries := files.entries.filter (·.1 ≠ location) }

theorem find?_filter_self (entries : List (Location × Entry)) (location : Location) :
    find? (entries.filter (·.1 ≠ location)) location = none := by
  induction entries with
  | nil => rfl
  | cons e rest ih =>
    by_cases h : e.1 = location
    · simpa [List.filter_cons, h] using ih
    · simpa [List.filter_cons, h, find?] using ih

theorem find?_filter_ne (entries : List (Location × Entry)) {location other : Location}
    (h : other ≠ location) :
    find? (entries.filter (·.1 ≠ location)) other = find? entries other := by
  induction entries with
  | nil => rfl
  | cons e rest ih =>
    obtain ⟨place, entry⟩ := e
    by_cases hp : place = location
    · subst hp
      have : ¬ place = other := fun e => h e.symm
      simpa [List.filter_cons, find?, this] using ih
    · by_cases ho : place = other
      · subst ho; simp [find?, hp]
      · simpa [List.filter_cons, find?, hp, ho] using ih

theorem at?_put_self (files : FileSystem) {location : Location} (entry : Entry)
    (h : location ≠ []) : (files.put location entry).at? location = some entry := by
  simp [at?, put, h, find?]

theorem at?_put_ne (files : FileSystem) {location other : Location} (entry : Entry)
    (h : other ≠ location) : (files.put location entry).at? other = files.at? other := by
  simp only [at?, put, find?, if_neg (fun e : location = other => h e.symm),
    find?_filter_ne files.entries h]

theorem at?_remove_self (files : FileSystem) {location : Location} (h : location ≠ []) :
    (files.remove location).at? location = none := by
  rw [at?, if_neg h]
  exact find?_filter_self files.entries location

theorem at?_remove_ne (files : FileSystem) {location other : Location} (h : other ≠ location) :
    (files.remove location).at? other = files.at? other := by
  simp only [at?, remove, find?_filter_ne files.entries h]

end FileSystem

end Graft
