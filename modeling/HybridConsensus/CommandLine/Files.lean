import HybridConsensus.Text

/-!
# Files

What reading a path gives, and a system of files in memory to read from. A path leads from a folder,
or from the root if it starts with a slash, from one place to the next: `.` stays and `..` goes up.
What is above the folder is unknown, and of the root only what every system has there.
-/

namespace HybridConsensus.CommandLine

inductive FileError
  | notFound
  | permissionDenied
  | notDirectory
  | isDirectory
  | nameTooLong
  | notText
  | other (reason : String)
deriving DecidableEq, Repr

def FileError.message : FileError → String
  | .notFound => "No such file or directory (os error 2)"
  | .permissionDenied => "Permission denied (os error 13)"
  | .notDirectory => "Not a directory (os error 20)"
  | .isDirectory => "Is a directory (os error 21)"
  | .nameTooLong => "File name too long (os error 36)"
  | .notText => "stream did not contain valid UTF-8"
  | .other reason => reason

/-- How many bytes a name may have. -/
def longestName : Nat := 255

/-- How many bytes a path may have. -/
def longestPath : Nat := 4095

abbrev FileReader := (path : String) → Except FileError String

/-- Where names are counted from: the root, or so many directories above the folder. -/
inductive Origin
  | root
  | folder (levels : Nat)
deriving DecidableEq, Repr

/-- The names that lead to a file or a directory. There is no `..` among them. -/
structure Place where
  origin : Origin
  names : List String
deriving DecidableEq, Repr

namespace Place

def root : Place := ⟨.root, []⟩

def folder : Place := ⟨.folder 0, []⟩

/-- Nothing is above the root, so going up stays there. -/
def parent (place : Place) : Place :=
  match place.names, place.origin with
  | [], .root => root
  | [], .folder levels => ⟨.folder (levels + 1), []⟩
  | names, origin => ⟨origin, names.dropLast⟩

def step (place : Place) (name : String) : Place :=
  if name.isEmpty ∨ name = "." then place
  else if name = ".." then place.parent
  else { place with names := place.names ++ [name] }

/-- The directories that a path from `place` leaves by going up, and where it ends. -/
def follow (place : Place) : List String → List Place × Place
  | [] => ([], place)
  | name :: names =>
    let (left, last) := (place.step name).follow names
    (if name = ".." then place :: left else left, last)

/-- Whether `inner` is `place` or lies below it. -/
def holds (place inner : Place) : Bool :=
  place.origin = inner.origin && place.names.isPrefixOf inner.names

def start (path : String) : Place :=
  if path.front = '/' then root else folder

end Place

def namesOf (path : String) : List String :=
  (cutAt '/' path.toList).map String.ofList

inductive Entry
  | file (content : String)
  | directory
deriving DecidableEq, Repr

/-- What has been written last stands first. Whatever holds a file is a directory as well. -/
structure FileSystem where
  files : List (Place × String)
  directories : List Place
deriving DecidableEq, Repr

namespace FileSystem

/-- What every system has: some directories, and the device that reads as an empty file. -/
def bare : FileSystem where
  files := [(⟨.root, ["dev", "null"]⟩, "")]
  directories :=
    ["bin", "etc", "home", "lib", "proc", "sbin", "sys", "tmp", "usr", "var"].map
      fun name => ⟨.root, [name]⟩

/-- Writes a file, with the directories that its path passes. -/
def write (system : FileSystem) (path content : String) : FileSystem :=
  let (left, place) := (Place.start path).follow (namesOf path)
  { files := (place, content) :: system.files, directories := left ++ system.directories }

def ofFiles (files : List (String × String)) : FileSystem :=
  files.foldl (fun system (path, content) => system.write path content) bare

/-- A place without a name is the root, the folder or above it. -/
def isDirectory (system : FileSystem) (place : Place) : Bool :=
  place.names.isEmpty || system.directories.any place.holds ||
    system.files.any fun (file, _) => place.holds file

def find? (system : FileSystem) (place : Place) : Option Entry :=
  match system.files.lookup place with
  | some content => some (.file content)
  | none => if system.isDirectory place then some .directory else none

/-- Reads from the directory at `place`. -/
def readFrom (system : FileSystem) (place : Place) : List String → Except FileError String
  | [] => .error .isDirectory
  | name :: rest =>
    if longestName < name.utf8ByteSize then .error .nameTooLong
    else match system.find? (place.step name) with
      | some .directory => system.readFrom (place.step name) rest
      | some (.file content) => if rest.isEmpty then .ok content else .error .notDirectory
      | none => .error .notFound

def read (system : FileSystem) (path : String) : Except FileError String :=
  if path.isEmpty then .error .notFound
  else if longestPath < path.utf8ByteSize then .error .nameTooLong
  else system.readFrom (Place.start path) (namesOf path)

end FileSystem

end HybridConsensus.CommandLine
