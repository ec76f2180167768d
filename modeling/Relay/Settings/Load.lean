import Relay.Config
import Relay.Files.Text
import Relay.Json.Read
import Relay.Json.Shown
import Relay.Json.Write
import Relay.Settings.Merge
import Relay.Text.Whole

/-!
# Loading settings

The settings of a workspace are merged from four layers: the usual ones, a file
in the workspace, a file that is named, and settings that are given directly.
Values are taken as far as they make sense: a depth may be a text that holds a
number, and packages may be given as pairs.
-/

namespace Relay

/-- The settings of a workspace. -/
structure Settings where
  workspace : Path
  middleware : String
  maxDepth : Int
  extensions : List Json
  packageMark : String
  packages : List (Json × Json)
  libraryPatterns : List Json
  expandLiterals : Bool

namespace Settings

/-- What can be wrong with settings. -/
inductive Fault where
  /-- A file cannot be read. -/
  | file (fault : FileFault)
  /-- A file does not hold JSON. -/
  | notJson (path : Path) (text : String) (error : Json.ReadError)
  /-- A layer is no object. -/
  | noFields
  /-- A text is no whole number. -/
  | notWhole (text : String)
  /-- A number is undefined. -/
  | undefinedNumber
  /-- A number is infinite. -/
  | infiniteNumber
  /-- A value is not of the kind that is asked for. -/
  | wrongKind
  /-- A package is no pair. -/
  | notPair (index length : Nat)

/-- What is said about a fault. -/
def Fault.message : Fault → String
  | file _ => "a file cannot be read"
  | notJson path text error =>
      s!"Invalid JSON in {path.text}: {error.message text}"
  | noFields => "a layer is not an object"
  | notWhole text =>
    "invalid literal for int() with base 10: " ++
      String.ofList ((Text.quoted text).toList.take 200)
  | undefinedNumber => "cannot convert float NaN to integer"
  | infiniteNumber => "cannot convert float infinity to integer"
  | wrongKind => "a value is of the wrong kind"
  | notPair index length =>
    s!"dictionary update sequence element #{index} has length {length}; 2 is required"

/-- The usual settings. -/
def usual : Json.Fields :=
  [("max_depth", .int Config.usualDepth),
    ("extensions", .strings Config.usualExtensions),
    ("namespace_prefix", .string Config.usualPackageMark),
    ("namespace_packages",
      .object (Config.usualPackages.map fun (name, place) =>
        (name, .string place))),
    ("library_patterns", .strings Config.usualLibraryPatterns),
    ("expand_object_literals", .bool true)]

/-- The name of the file with the settings of a workspace. -/
def fileName : String := ".mwflowrc.json"

/-- The depth that a value stands for. -/
def depthOf : Json → Except Fault Int
  | .int i => .ok i
  | .bool b => .ok (if b then 1 else 0)
  | .double d =>
    match d.truncate? with
    | some i => .ok i
    | none =>
        .error (if d matches .undefined then .undefinedNumber
          else .infiniteNumber)
  | .string s =>
    match Text.whole? s with
    | some i => .ok i
    | none => .error (.notWhole s)
  | _ => .error .wrongKind

/-- The items of a value: those of an array, the characters of a text or the
names of fields. -/
def itemsOf : Json → Except Fault (List Json)
  | .array items => .ok items
  | .string s => .ok (s.toList.map fun c => .string c.toString)
  | .object fields => .ok (fields.map fun f => .string f.1)
  | _ => .error .wrongKind

/-- A value that can be the name of a package. -/
def isName : Json → Bool
  | .array _ => false
  | .object _ => false
  | _ => true

/-- The text of the name of a package. -/
def nameText : Json → String
  | .string s => s
  | value => value.oneLine

/-- The packages with one of them set: in its place, or at the end. -/
def setPackage (name place : Json) : List (Json × Json) → List (Json × Json)
  | [] => [(name, place)]
  | (n, p) :: rest =>
    if nameText n = nameText name then (n, place) :: rest
    else (n, p) :: setPackage name place rest

/-- The packages that a list of pairs stands for, from an index on. -/
def pairsOf (index : Nat) (packages : List (Json × Json)) :
    List Json → Except Fault (List (Json × Json))
  | [] => .ok packages
  | item :: rest => do
    match ← itemsOf item with
    | [name, place] =>
      if isName name then
        pairsOf (index + 1) (setPackage name place packages) rest
      else .error .wrongKind
    | parts => .error (.notPair index parts.length)

/-- The packages that a value stands for. -/
def packagesOf : Json → Except Fault (List (Json × Json))
  | .object fields =>
    .ok (fields.map fun (name, place) => (.string name, place))
  | value => do pairsOf 0 [] (← itemsOf value)

/-- The settings that merged layers stand for. -/
def ofFields (workspace : Path) (name : String) (fields : Json.Fields) :
    Except Fault Settings := do
  let value := fun key default => (fields.get? key).getD default
  let middleware := value "middleware_name" .null
  let maxDepth ← depthOf (value "max_depth" (.int Config.usualDepth))
  let extensions := value "extensions" .null
  let extensions ←
    itemsOf (if extensions.isFilled then extensions
      else .strings Config.usualExtensions)
  let packages ← packagesOf (value "namespace_packages" (.object []))
  let libraryPatterns ← itemsOf (value "library_patterns" (.array []))
  return {
    workspace := workspace
    middleware := if middleware.isFilled then middleware.shown else name
    maxDepth := maxDepth
    extensions := extensions
    packageMark :=
      (value "namespace_prefix" (.string Config.usualPackageMark)).shown
    packages := packages
    libraryPatterns := libraryPatterns
    expandLiterals := (value "expand_object_literals" (.bool true)).isFilled }

/-- The fields with the layer of a file merged into them, if the file is
there. -/
def withFile (fs : Files) (path : Path) (fields : Json.Fields) :
    Except Fault Json.Fields := do
  match fs.exists? path with
  | .error _ => .error (.file .nameTooLong)
  | .ok false => return fields
  | .ok true =>
    match fs.readText path with
    | .error fault => .error (.file fault)
    | .ok text =>
      match Json.read text with
      | .error e => .error (.notJson path text e)
      | .ok (.object updates) => return merge fields updates
      | .ok _ => .error .noFields

/-- Loads the settings of a workspace. -/
def load (fs : Files) (workspace : Path) (name : String) (file : Option Path)
    (given : Json.Fields) : Except Fault Settings := do
  let root := fs.resolve workspace
  let fields ← withFile fs (root.below fileName) usual
  let fields ← match file with
    | some path => withFile fs (root.append path) fields
    | none => .ok fields
  ofFields root name (merge fields given)

/-- The data of the settings. -/
def toJson (s : Settings) : Json :=
  .object
    [("workspace_root", .string s.workspace.text),
      ("middleware_name", .string s.middleware), ("max_depth", .int s.maxDepth),
      ("extensions", .array s.extensions),
      ("namespace_prefix", .string s.packageMark),
      ("namespace_packages",
        .object (s.packages.map fun (name, place) => (nameText name, place))),
        ("library_patterns", .array s.libraryPatterns),
      ("expand_object_literals", .bool s.expandLiterals)]

/-- A value that is a text. -/
def textOf? : Json → Option String
  | .string s => some s
  | _ => none

/-- The texts at the beginning of some values. -/
def leadingTexts (values : List Json) : List String :=
  (values.takeWhile fun v => (textOf? v).isSome).filterMap textOf?

/-- The configuration that settings stand for, as far as its parts are texts. -/
def config (s : Settings) : Config where
  workspace := s.workspace
  middleware := s.middleware
  maxDepth := s.maxDepth
  extensions := s.extensions.filterMap textOf?
  packageMark := s.packageMark
  packages := s.packages.filterMap fun (name, place) =>
    do return (← textOf? name, ← textOf? place)
  libraryPatterns := leadingTexts s.libraryPatterns
  expandLiterals := s.expandLiterals

/-- The patterns and extensions are all texts. -/
def isTextual (s : Settings) : Bool :=
  (s.libraryPatterns ++ s.extensions).all fun v => (textOf? v).isSome

end Settings

end Relay
