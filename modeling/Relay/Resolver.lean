import Relay.Config
import Relay.Files
import Relay.Regex.Read
import Relay.Regex.Search

/-!
# Resolving specifiers

A specifier is looked for below the file that requires it, if it is local, or
in the package that it names.  A specifier that ends in a known extension names
a file; any other one stands for the file with one of the extensions, or for
the index of a directory.
-/

namespace Relay

/-- A path that starts with a single letter below the root names a drive. -/
def withDrive (s : String) : String :=
  match s.toList with
  | '/' :: letter :: '/' :: rest =>
    if letter.isAlpha then String.ofList (letter.toUpper :: ':' :: '/' :: rest)
    else s
  | _ => s

/-- The path that a text names, with drives spelled out. -/
def placeOfText (s : String) : Path :=
  Path.ofString (withDrive s)

/-- A specifier that is looked for below the file that requires it. -/
def isLocalSpecifier (specifier : String) : Bool :=
  Text.startsWith specifier "./" || Text.startsWith specifier "../"

/-- The last pieces of a list: all but the first `-k` for a negative `k`, and
all of them for zero. -/
def lastPieces {α : Type} (k : Int) (pieces : List α) : List α :=
  if k = 0 then pieces
  else if 0 < k then pieces.drop (pieces.length - k.toNat)
  else pieces.drop (-k).toNat

/-- The last names of a path, as text. -/
def shortText (s : String) (k : Int) : String :=
  Text.join "/" (lastPieces k (Text.split '/' (Text.replaceChar '\\' '/' s)))

/-- The number of names in the short form of a path. -/
def shortLength : Int := 3

/-- The last names of a path. -/
def Path.short (p : Path) : String :=
  shortText p.text shortLength

/-- A way to find modules below a workspace. -/
structure Resolver where
  config : Config
  libraries : List Regex

/-- A library pattern is no regular expression. -/
structure BadPattern where
  pattern : String
deriving DecidableEq

namespace Resolver

/-- The resolver of a workspace. -/
def of (config : Config) : Except BadPattern Resolver := do
  let libraries ← config.libraryPatterns.mapM fun p =>
    match Regex.ofString? p with
    | some r => .ok r
    | none => .error ⟨p⟩
  return ⟨config, libraries⟩

section

variable (r : Resolver)

/-- The directory of the workspace. -/
def workspace : Path :=
  placeOfText r.config.workspace.text

/-- The directory of the middlewares. -/
def middlewares : Path :=
  r.workspace.below s!"agl-{r.config.middleware}-middleware"

/-- A specifier names a package of the workspace, or something in one. -/
def isNamespaced (specifier : String) : Bool :=
  (r.config.packages.any fun (name, _) =>
      specifier == name || Text.startsWith specifier (name ++ "/"))
    || Text.startsWith specifier r.config.packageMark

/-- The text of a path matches a library pattern. -/
def isLibrary (s : String) : Bool :=
  r.libraries.any (·.search s)

/-- The index files of a directory. -/
def indexFiles (directory : Path) : List Path :=
  r.config.extensions.map fun e => directory.below s!"index{e}"

/-- The files that a specifier without an extension may stand for. -/
def candidates (base : Path) : List Path :=
  (r.config.extensions.map fun e => Path.ofString (base.text ++ e)) ++
    r.indexFiles base

/-- A specifier ends in a known extension. -/
def hasExtension (specifier : String) : Bool :=
  r.config.extensions.any (Text.endsWith specifier)

end

/-- The first path that leads to a file. -/
def firstFile (fs : Files) : List Path → Except NameTooLong (Option Path)
  | [] => .ok none
  | p :: rest => do if ← fs.isFile p then return some p else firstFile fs rest

section

variable (r : Resolver) (fs : Files)

/-- The file that a specifier stands for, where `base` is the path it
leads to. -/
def locate (base : Path) (specifier : String) :
    Except NameTooLong (Option Path) := do
  if r.hasExtension specifier then
    if ← fs.isFile base then return some base else return none
  else firstFile fs (r.candidates base)

/-- The file that a local specifier stands for in a directory. -/
def resolveLocal (specifier : String) (directory : Path) :
    Except NameTooLong (Option Path) :=
  r.locate fs (directory.below specifier).normalize specifier

/-- The first of some paths that leads anywhere. -/
def firstExisting : List Path → Except NameTooLong (Option Path)
  | [] => .ok none
  | p :: rest => do if ← fs.exists? p then return some p else firstExisting rest

/-- The directory of a package: in the workspace, or among the modules that the
middlewares bring. -/
def packageRoot (package : String) : Except NameTooLong (Option Path) :=
  firstExisting fs
    [r.workspace.below package,
      ((r.middlewares.below "node_modules").below "@opus").below package]

/-- The file that a specifier stands for in the first of some packages that has
it. -/
def resolveIn (specifier : String) :
    List (String × String) → Except NameTooLong (Option Path)
  | [] => .ok none
  | (name, package) :: rest => do
    if Text.startsWith specifier (name ++ "/") then
      match ← r.packageRoot fs package with
      | none => resolveIn specifier rest
      | some root =>
        let inside := Text.dropChars (name.length + 1) specifier
        match ← r.locate fs (root.below inside).normalize inside with
        | some p => return some p
        | none => resolveIn specifier rest
    else resolveIn specifier rest

/-- The file that a specifier stands for in the packages of the workspace. -/
def resolveNamespaced (specifier : String) :
    Except NameTooLong (Option Path) := do
  match r.config.packages.lookup specifier with
  | some package =>
    match ← r.packageRoot fs package with
    | some root => firstFile fs (r.indexFiles root)
    | none => return none
  | none => r.resolveIn fs specifier r.config.packages

/-- What comes of a specifier in a file. -/
inductive Outcome where
  /-- The specifier is neither local nor in a package of the workspace. -/
  | foreign
  | missing
  | found (path : Path)
deriving DecidableEq

/-- The outcome for a specifier that is looked for. -/
def Outcome.ofFound : Option Path → Outcome
  | some p => .found p
  | none => .missing

/-- The file of an outcome. -/
def Outcome.path? : Outcome → Option Path
  | .found p => some p
  | _ => none

/-- The file that a specifier stands for in another file. -/
def resolve (specifier : String) (file : Path) :
    Except NameTooLong Outcome := do
  if isLocalSpecifier specifier then
    return .ofFound (← r.resolveLocal fs specifier file.parent)
  else if r.isNamespaced specifier then
    return .ofFound (← r.resolveNamespaced fs specifier)
  else return .foreign

/-- The file of a middleware. -/
def entryPath (specifier : String) : Except NameTooLong (Option Path) :=
  r.locate fs (r.middlewares.below specifier).normalize specifier

end

/-- A text without the first of some extensions that it ends in. -/
def dropExtension (s : String) : List String → String
  | [] => s
  | e :: rest =>
    if Text.endsWith s e then
      if e = "" then "" else String.ofList (s.toList.take (s.length - e.length))
    else dropExtension s rest

/-- The name of a module: its path below the middlewares, without its
extension. -/
def moduleName (r : Resolver) (p : Path) : String :=
  dropExtension ((p.relativeTo? r.middlewares).getD p).text r.config.extensions

/-- The name of a module in a drawing: that of its file, or of the directory
that it is the index of. -/
def displayName (p : Path) : String :=
  if p.stem = "index" then p.parent.name else p.stem

end Resolver

end Relay
