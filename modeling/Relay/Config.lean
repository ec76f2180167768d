import Relay.Path

/-!
# Configuration

What an analysis is told about a workspace: where it is, which of its
middlewares is looked at, which files count as modules, which packages have a
name of their own, and which files are libraries.
-/

namespace Relay

/-- What an analysis is told about a workspace. -/
structure Config where
  workspace : Path
  middleware : String
  maxDepth : Int
  extensions : List String
  packageMark : String
  packages : List (String × String)
  libraryPatterns : List String
  expandLiterals : Bool
deriving DecidableEq

namespace Config

/-- The greatest depth of an analysis, unless told otherwise. -/
def usualDepth : Int := 10

/-- The extensions of modules, unless told otherwise. -/
def usualExtensions : List String := [".js", ".ts"]

/-- What the names of packages start with, unless told otherwise. -/
def usualPackageMark : String := "@opus/agl-"

/-- The packages and their directories, unless told otherwise. -/
def usualPackages : List (String × String) :=
  [("@opus/agl-core", "agl-core"), ("@opus/agl-utils", "agl-utils"),
    ("@opus/agl-cache", "agl-cache"), ("@opus/agl-logger", "agl-logger")]

/-- The patterns that paths of libraries match, unless told otherwise. -/
def usualLibraryPatterns : List String :=
  ["[/\\\\]agl-utils[/\\\\]", "[/\\\\]agl-core[/\\\\]",
    "[/\\\\]agl-cache[/\\\\]", "[/\\\\]agl-logger[/\\\\]",
    "utils[/\\\\]wrapper[/\\\\]",
    "shared[/\\\\].*[/\\\\](wrapper|request|http)"]

/-- The configuration of a workspace of which nothing else is known. -/
def usual (workspace : Path) (middleware : String) : Config where
  workspace := workspace
  middleware := middleware
  maxDepth := usualDepth
  extensions := usualExtensions
  packageMark := usualPackageMark
  packages := usualPackages
  libraryPatterns := usualLibraryPatterns
  expandLiterals := true

end Config

end Relay
