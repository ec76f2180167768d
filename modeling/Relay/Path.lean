import Relay.Text.Pieces

/-!
# Paths

A path is relative or starts at the root, and then is a list of names.  Reading
a path drops empty names and single dots; two dots are kept, because only
`normalize` may take a name away.  Exactly two slashes in front are a root of
their own.
-/

namespace Relay

/-- Where a path starts. -/
inductive Anchor where
  | here | root | doubleRoot
deriving DecidableEq, Inhabited

/-- The text of an anchor. -/
def Anchor.text : Anchor → String
  | .here => ""
  | .root => "/"
  | .doubleRoot => "//"

/-- A path as a list of names below its anchor. -/
structure Path where
  anchor : Anchor
  names : List String
deriving DecidableEq, Inhabited

namespace Path

/-- Names that say nothing: the empty one and the single dot. -/
def isIdle (name : String) : Bool :=
  name == "" || name == "."

/-- The anchor that a text starts with. -/
def anchorOf (s : String) : Anchor :=
  match s.toList with
  | '/' :: '/' :: '/' :: _ => .root
  | '/' :: '/' :: _ => .doubleRoot
  | '/' :: _ => .root
  | _ => .here

/-- Reads a path. -/
def ofString (s : String) : Path :=
  ⟨anchorOf s, (Text.split '/' s).filter fun name => !isIdle name⟩

/-- The text of a path; the path to the present directory is a dot. -/
def text (p : Path) : String :=
  if p.anchor = .here ∧ p.names = [] then "."
  else p.anchor.text ++ Text.join "/" p.names

instance : ToString Path := ⟨text⟩

/-- A path below another one; a path with an anchor of its own stays as
it is. -/
def append (base p : Path) : Path :=
  if p.anchor = .here then ⟨base.anchor, base.names ++ p.names⟩ else p

instance : Append Path := ⟨append⟩

/-- A path given as text, below another one. -/
def below (base : Path) (s : String) : Path :=
  base ++ ofString s

/-- The directory of a path. -/
def parent (p : Path) : Path :=
  { p with names := p.names.dropLast }

/-- The last name, empty if there is none. -/
def name (p : Path) : String :=
  p.names.getLast?.getD ""

/-- The last name cut before its last dot, and the rest.  A dot at either end
of the name cuts nothing off. -/
def cutName (p : Path) : String × String :=
  let cs := p.name.toList
  let tail := cs.reverse.takeWhile (· != '.')
  let stemLength := cs.length - tail.length - 1
  if tail.length < cs.length ∧ 0 < stemLength ∧ 0 < tail.length then
    (String.ofList (cs.take stemLength), String.ofList (cs.drop stemLength))
  else (p.name, "")

/-- The last name without its suffix. -/
def stem (p : Path) : String :=
  p.cutName.1

/-- The suffix of the last name, with its dot. -/
def suffix (p : Path) : String :=
  p.cutName.2

/-- The names that lead from a directory to a path below it. -/
def relativeTo? (p base : Path) : Option Path :=
  if p.anchor = base.anchor ∧ base.names.isPrefixOf p.names then
    some ⟨.here, p.names.drop base.names.length⟩
  else none

/-- One name more on the way to a normal path: two dots take a name away, if
there is one to take. -/
def step (anchor : Anchor) (done : List String) (name : String) : List String :=
  if name ≠ ".." then done ++ [name]
  else
    match done.getLast? with
    | none => if anchor = .here then [".."] else []
    | some last => if last = ".." then done ++ [".."] else done.dropLast

/-- The path without names that two dots take away. -/
def normalize (p : Path) : Path :=
  ⟨p.anchor, p.names.foldl (step p.anchor) []⟩

/-- A path starts at a root. -/
def isAbsolute (p : Path) : Bool :=
  p.anchor != .here

end Path

end Relay
