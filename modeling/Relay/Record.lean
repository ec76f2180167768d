import Relay.Facts

/-!
# Records

A record is a file with its facts and the records of the modules it requires.
A shallow record refers to a file that is analysed elsewhere, or not at all,
and has no records below it.
-/

namespace Relay

/-- A file with its facts and the records of the modules that it requires. -/
structure Record where
  name : String
  displayName : String
  path : Path
  depth : Int
  parent : Option Path
  facts : Facts
  shallow : Bool
  children : List Record

namespace Record

mutual

/-- The number of records of a tree. -/
def size : Record → Nat
  | ⟨_, _, _, _, _, _, _, children⟩ => 1 + sizeAll children

/-- The number of records of some trees. -/
def sizeAll : List Record → Nat
  | [] => 0
  | r :: rest => r.size + sizeAll rest

end

/-- The size of a record is one more than that of its children. -/
theorem size_eq (r : Record) : r.size = 1 + sizeAll r.children := by
  cases r
  simp [size]

/-- The sizes of two lists add up. -/
theorem sizeAll_append (rs ss : List Record) :
    sizeAll (rs ++ ss) = sizeAll rs + sizeAll ss := by
  induction rs with
  | nil => simp [sizeAll]
  | cons r rs ih => simp [sizeAll, ih]; omega

/-- A record that only refers to a file. -/
def reference (r : Resolver) (path : Path) (depth : Int)
    (parent : Option Path) : Record :=
  ⟨r.moduleName path, Resolver.displayName path, path, depth, parent, {},
    true, []⟩

/-- The record of a file that has been analysed elsewhere, seen from another
place. -/
def seenFrom (record : Record) (depth : Int) (parent : Option Path) : Record :=
  { record with
    depth := depth, parent := parent, children := [], shallow := true }

end Record

end Relay
