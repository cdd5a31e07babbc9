import Cardfile.Fault
import Cardfile.Text.Utf8

/-!
# Directories

A directory holds the files that a run can see, under the names that lead to
them: from the working directory, or from the root if the first name is a
slash.  Folders are there as far as files lie in them or as they are listed.
-/

namespace Cardfile

/-- Files by the names that lead to them, and folders that may be empty. -/
structure Directory where
  files : List (List String × List UInt8) := []
  folders : List (List String) := []

namespace Directory

/-- A path taken apart: where it leads, and whether it has to lead to a
folder. -/
structure Place where
  names : List String
  isFolder : Bool

/-- The names between the slashes of a path. -/
def splitPath : List Char → List (List Char)
  | [] => [[]]
  | '/' :: rest => [] :: splitPath rest
  | c :: rest =>
      match splitPath rest with
      | name :: names => (c :: name) :: names
      | [] => [[c]]

/-- The bytes of the file at a place. -/
def file? (directory : Directory) (names : List String) :
    Option (List UInt8) :=
  directory.files.lookup names

/-- Whether there is a folder at a place.  The working directory, those that
it lies in, and the root are folders in any case. -/
def isFolder (directory : Directory) (names : List String) : Bool :=
  names.all (· == "..") || names == ["/"] ||
    directory.folders.contains names ||
    directory.files.any fun (other, _) =>
      names.length < other.length && names.isPrefixOf other

/-- The folder that a folder lies in. -/
def parentOf (names : List String) : List String :=
  if names.all (· == "..") then names ++ [".."]
  else if names == ["/"] then names
  else names.dropLast

/-- Goes on from a folder, name by name. -/
def walk (directory : Directory) (place : List String) :
    List String → Except FileFault Place
  | [] => .ok ⟨place, true⟩
  | name :: rest =>
      if name = "" ∨ name = "." then walk directory place rest
      else if name = ".." then walk directory (parentOf place) rest
      else if 255 < name.utf8ByteSize then .error .nameTooLong
      else
        let next := place ++ [name]
        if rest.isEmpty then .ok ⟨next, false⟩
        else if directory.isFolder next then walk directory next rest
        else if rest.all (· == "") then .ok ⟨next, true⟩
        else if (directory.file? next).isSome then .error .notADirectory
        else .error .notFound

/-- The names that lead to the start of a path, and the names of the path. -/
def namesOf (path : String) : List String × List String :=
  let names := (splitPath path.toList).map String.ofList
  (if path.toList.head? == some '/' then ["/"] else [], names)

/-- Finds where a path leads. -/
def locate (directory : Directory) (path : String) :
    Except FileFault Place :=
  if path.toList.contains '\x00' then .error .badName
  else if path.isEmpty then .error .notFound
  else
    let (start, names) := namesOf path
    directory.walk start names

/-- Reads the file that a path leads to. -/
def read (directory : Directory) (path : String) :
    Except FileFault (List UInt8) := do
  let place ← directory.locate path
  match directory.file? place.names with
  | some bytes => if place.isFolder then throw .notADirectory else pure bytes
  | none =>
      if directory.isFolder place.names then throw .isDirectory
      else throw .notFound

/-- The directory with a file of the given bytes at a place. -/
def put (directory : Directory) (names : List String) (bytes : List UInt8) :
    Directory :=
  { directory with
    files := directory.files.filter (·.1 != names) ++ [(names, bytes)] }

/-- Finds the place of a file to be written, and makes an empty file if there
is none. -/
def openOrCreate (directory : Directory) (path : String) :
    Except FileFault (List String) × Directory :=
  match directory.locate path with
  | .error fault => (.error fault, directory)
  | .ok place =>
      if directory.isFolder place.names then (.error .isDirectory, directory)
      else if (directory.file? place.names).isSome then
        (if place.isFolder then .error .notADirectory else .ok place.names,
          directory)
      else if place.isFolder then (.error .isDirectory, directory)
      else (.ok place.names, directory.put place.names [])

/-- Reads the text of the file that a path leads to. -/
def readText (directory : Directory) (path : String) :
    Except FileFault String := do
  match Text.Utf8.decode? (← directory.read path) with
  | some text => pure text
  | none => throw .notText

end Directory

end Cardfile
