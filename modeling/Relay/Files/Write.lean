import Relay.Files.Text

/-!
# Writing text files

A text file is written with the directories on the way to it.
-/

namespace Relay.Files

/-- Makes the directories that names lead through, from a place on. -/
def makeWay (fs : Files) (place : List String) :
    List String → Except FileFault Files
  | [] => .ok fs
  | name :: rest =>
    let next := if name = ".." then place.dropLast else place ++ [name]
    if longestName < name.utf8ByteSize then .error .nameTooLong
    else
      match fs.entryAt? next with
      | some .directory => makeWay fs next rest
      | some (.file _ _) =>
          .error (if rest.isEmpty then .isFile else .notDirectory)
      | none => makeWay (fs.put next .directory) next rest

/-- Writes a text file, with the directories on the way to it. -/
def writeText (fs : Files) (path : Path) (text : String) :
    Except FileFault Files := do
  let fs ← fs.makeWay (fs.startOf path) path.parent.names
  match fs.find path with
  | .error _ => .error .nameTooLong
  | .ok (some .directory) => .error .isDirectory
  | .ok _ => return fs.write path text.toUTF8 0

end Relay.Files
