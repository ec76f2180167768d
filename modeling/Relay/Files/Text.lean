import Relay.Files

/-!
# Text files

A text file holds UTF-8, and every kind of line end is read as a line feed.
-/

namespace Relay

/-- Why a text file cannot be read or written. -/
inductive FileFault where
  | missing
  | isDirectory
  | notDirectory
  | isFile
  | nameTooLong
  | notText
deriving DecidableEq

/-- Characters with every line end replaced by a line feed. -/
def withLineFeeds : List Char → List Char
  | [] => []
  | '\r' :: '\n' :: rest => '\n' :: withLineFeeds rest
  | '\r' :: rest => '\n' :: withLineFeeds rest
  | c :: rest => c :: withLineFeeds rest

namespace Files

/-- Why names lead nowhere: one of them is missing, or stands below a plain
file. -/
def obstacle (fs : Files) : List String → List String → FileFault
  | _, [] => .missing
  | place, name :: rest =>
    match fs.entryAt? place with
    | some .directory =>
      obstacle fs (if name = ".." then place.dropLast else place ++ [name]) rest
    | some (.file _ _) => .notDirectory
    | none => .missing

/-- The place that relative and absolute paths start from. -/
def startOf (fs : Files) (path : Path) : List String :=
  if path.isAbsolute then [] else fs.current

/-- Reads a text file. -/
def readText (fs : Files) (path : Path) : Except FileFault String :=
  match fs.find path with
  | .error _ => .error .nameTooLong
  | .ok none => .error (fs.obstacle (fs.startOf path) path.names)
  | .ok (some .directory) => .error .isDirectory
  | .ok (some (.file bytes _)) =>
    match String.fromUTF8? bytes with
    | some text => .ok (String.ofList (withLineFeeds text.toList))
    | none => .error .notText

end Files

end Relay
