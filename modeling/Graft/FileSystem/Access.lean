import Graft.FileSystem.Basic

/-!
# Paths in a file system

A path is followed name by name from the working directory, or from the root if
it starts with a slash; symbolic links on the way are followed, and the one at
its end where the operation asks for it. Files are then read, written, created
and removed at the location that the path leads to.

`FileSystem.follow` is the resolution that every operation shares. It carries
the location reached so far and the links that may still be followed, forty in
all, and answers with what stands at the end: something present, a free place in
a directory, or the error that the system gives. Names of more than 255 bytes
and paths of more than 4095 are refused.

Two details matter to what the commands do. Making a file where nothing may be
(`create`) looks at the last name without following a link there, so a link that
leads nowhere is in the way like a file; and a slash behind the last name is
refused at once when a file is to be made. Removing takes away what the path
names, the link and not the file that it leads to, and refuses directories.

Main statements:
- `FileSystem.follow_nil`: no more names lead no further.
-/

namespace Graft

namespace FileSystem

/-- Where a path leads. -/
inductive Target where
  /-- To something that is there. -/
  | present (location : Location) (entry : Entry)
  /-- To a free place in a directory. -/
  | free (location : Location)

/-- The names in a path, empty ones included. -/
def namesOf (path : String) : List String :=
  ((path.toList.splitOn '/').map String.ofList)

/-- The greatest number of bytes in a name. -/
def maxNameLength : Nat := 255

/-- The greatest number of bytes in a path. -/
def maxPathLength : Nat := 4095

/-- The number of symbolic links that may be followed on the way. -/
def maxLinks : Nat := 40

/-- Whether nothing but slashes is behind a name. -/
def isSlashes (rest : List String) : Bool := !rest.isEmpty && rest.all (· = "")

/-- Follows names from a directory. `links` more symbolic links may be followed;
`last` tells whether one at the end of the path is. `making` tells whether a
file is to be made there if there is none; then the last name can have no slash
behind it. -/
def follow (files : FileSystem) (last making : Bool) (links : Nat) (place : Location)
    (names : List String) : Except FileError Target :=
  match names with
  | [] => .ok (.present place .directory)
  | name :: rest =>
    if name = "" ∨ name = "." then files.follow last making links place rest
    else if name = ".." then files.follow last making links place.dropLast rest
    else if making ∧ isSlashes rest then .error .isADirectory
    else if maxNameLength < name.utf8ByteSize then .error .nameTooLong
    else
      let location := place ++ [name]
      match files.at? location with
      | none => if rest.isEmpty then .ok (.free location) else .error .notFound
      | some .directory => files.follow last making links location rest
      | some (.file content) =>
        if rest.isEmpty then .ok (.present location (.file content)) else .error .notADirectory
      | some (.symlink target) =>
        if rest.isEmpty ∧ !last then .ok (.present location (.symlink target))
        else match links with
          | 0 => .error .tooManyLinks
          | links + 1 =>
            files.follow last making links (if target.startsWith "/" then [] else place)
              (namesOf target ++ rest)
  termination_by (links, names.length)

/-- Where a path leads. `making` tells whether a file is to be made there if
there is none. -/
def lead (files : FileSystem) (last making : Bool) (path : String) : Except FileError Target :=
  if path = "" then .error .notFound
  else if maxPathLength < path.utf8ByteSize then .error .nameTooLong
  else
    files.follow last making maxLinks (if path.startsWith "/" then [] else files.workingDirectory)
      (namesOf path)

/-- Where a path leads to what is there already. -/
def resolve (files : FileSystem) (last : Bool) (path : String) : Except FileError Target :=
  files.lead last false path

/-- Where a file can be put for a path. -/
def place (files : FileSystem) (last : Bool) (path : String) : Except FileError Target :=
  files.lead last true path

/-- The bytes of the file at a path. -/
def read (files : FileSystem) (path : String) : Except FileError ByteArray :=
  match files.resolve true path with
  | .error e => .error e
  | .ok (.present _ (.file content)) => .ok content
  | .ok (.present _ _) => .error .isADirectory
  | .ok (.free _) => .error .notFound

/-- Whether a path leads to a file. -/
def isFile (files : FileSystem) (path : String) : Bool :=
  match files.resolve true path with
  | .ok (.present _ (.file _)) => true
  | _ => false

/-- Writes the file at a path, in place of what is in it, or as a new file. -/
def write (files : FileSystem) (path : String) (content : ByteArray) :
    Except FileError FileSystem :=
  match files.place true path with
  | .error e => .error e
  | .ok (.present location (.file _)) | .ok (.free location) =>
    .ok (files.put location (.file content))
  | .ok (.present _ _) => .error .isADirectory

/-- Makes a new file at a path where nothing is, not even a symbolic link. -/
def create (files : FileSystem) (path : String) (content : ByteArray) :
    Except FileError FileSystem :=
  match files.place false path with
  | .error e => .error e
  | .ok (.free location) => .ok (files.put location (.file content))
  | .ok (.present _ _) => .error .alreadyExists

/-- Removes the file or symbolic link at a path. -/
def delete (files : FileSystem) (path : String) : Except FileError FileSystem :=
  match files.resolve false path with
  | .error e => .error e
  | .ok (.free _) => .error .notFound
  | .ok (.present _ .directory) => .error .isADirectory
  | .ok (.present location _) => .ok (files.remove location)

theorem follow_nil (files : FileSystem) (last making : Bool) (links : Nat) (place : Location) :
    files.follow last making links place [] = .ok (.present place .directory) := by
  rw [follow]

end FileSystem

end Graft
