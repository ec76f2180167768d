import Relay.Path

/-!
# Files and directories

A file system is a finite map from places to files and directories.  A place is
the list of names from the root.  A path is followed name by name: two dots
lead to the directory above, a missing name or one below a plain file leads
nowhere.  A name of more than 255 bytes in a directory that exists is not
looked up at all; that is an error and not an absence.
-/

namespace Relay

/-- What stands at a place. -/
inductive Entry where
  | directory
  | file (bytes : ByteArray) (modified : Int)

/-- Files and directories by their place, and the directory that relative paths
start from. -/
structure Files where
  entries : List (List String × Entry)
  current : List String

/-- A name on a path is too long to be looked up. -/
structure NameTooLong where
  path : Path
deriving DecidableEq

namespace Files

/-- The greatest length of a name, in bytes. -/
def longestName : Nat := 255

/-- What stands at a place.  The root and the present directory always exist. -/
def entryAt? (fs : Files) (place : List String) : Option Entry :=
  if place.isPrefixOf fs.current then some .directory
  else (fs.entries.find? fun e => e.1 == place).map (·.2)

/-- Follows names from a directory. -/
def follow (fs : Files) (path : Path) :
    List String → List String → Except NameTooLong (Option Entry)
  | place, [] => .ok (fs.entryAt? place)
  | place, name :: rest =>
    match fs.entryAt? place with
    | some .directory =>
      if name = ".." then follow fs path place.dropLast rest
      else if longestName < name.utf8ByteSize then .error ⟨path⟩
      else follow fs path (place ++ [name]) rest
    | _ => .ok none

/-- What a path leads to. -/
def find (fs : Files) (path : Path) : Except NameTooLong (Option Entry) :=
  fs.follow path (if path.isAbsolute then [] else fs.current) path.names

/-- A path leads to a plain file. -/
def isFile (fs : Files) (path : Path) : Except NameTooLong Bool := do
  match ← fs.find path with
  | some (.file _ _) => return true
  | _ => return false

/-- A path leads somewhere. -/
def exists? (fs : Files) (path : Path) : Except NameTooLong Bool := do
  return (← fs.find path).isSome

/-- The place of a path whose directories all exist or are made on the way. -/
def placeOf (fs : Files) (path : Path) : List String :=
  let base := if path.isAbsolute then [] else fs.current
  (base ++ path.names).foldl (Path.step .root) []

/-- Puts an entry at a place, instead of what stood there. -/
def put (fs : Files) (place : List String) (entry : Entry) : Files :=
  if fs.entries.any (fun e => e.1 == place) then
    { fs with
      entries := fs.entries.map fun e =>
        if e.1 == place then (place, entry) else e }
  else { fs with entries := fs.entries ++ [(place, entry)] }

/-- Makes the directories on the way to a place, and the place itself a
directory. -/
def makeDirectories (fs : Files) (place : List String) : Files :=
  (List.range (place.length + 1)).foldl (fun fs k =>
    match fs.entryAt? (place.take k) with
    | some _ => fs
    | none => fs.put (place.take k) .directory) fs

/-- Writes a file, with the directories on the way to it. -/
def write (fs : Files) (path : Path) (bytes : ByteArray) (modified : Int) :
    Files :=
  let place := fs.placeOf path
  (fs.makeDirectories place.dropLast).put place (.file bytes modified)

/-- Removes what stands at a place. -/
def remove (fs : Files) (path : Path) : Files :=
  let place := fs.placeOf path
  { fs with entries := fs.entries.filter fun e => e.1 != place }

/-- The directory that a path leads to once made absolute and normal. -/
def resolve (fs : Files) (path : Path) : Path :=
  if path.isAbsolute then path.normalize else ⟨.root, fs.placeOf path⟩

end Files

end Relay
