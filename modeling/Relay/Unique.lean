/-!
# Lists without repetitions

Facts of one kind are told apart by a mark, and the first one with a mark is
kept.  Where facts are met one after the other, the marks that have been seen
are kept beside them.
-/

namespace Relay

/-- The values of a list whose mark is neither among some marks nor has come
before. -/
def uniqueFrom {α β : Type} [DecidableEq β] (mark : α → β) (seen : List β) :
    List α → List α
  | [] => []
  | a :: rest =>
    if mark a ∈ seen then uniqueFrom mark seen rest
    else a :: uniqueFrom mark (mark a :: seen) rest

/-- The values of a list whose mark has not come before. -/
def uniqueBy {α β : Type} [DecidableEq β] (mark : α → β) (items : List α) :
    List α :=
  uniqueFrom mark [] items

/-- A list with a value that is added if it is not there. -/
def addOnce {α : Type} [DecidableEq α] (items : List α) (a : α) : List α :=
  if a ∈ items then items else items ++ [a]

/-- Values that have been collected one after the other, and the marks that
have been seen on the way. -/
structure Collection (α β : Type) where
  items : List α := []
  seen : List β := []
deriving DecidableEq

/-- Takes a value in, unless its mark has been seen. -/
def Collection.add {α β : Type} [DecidableEq β] (mark : α → β)
    (c : Collection α β) (a : α) : Collection α β :=
  if mark a ∈ c.seen then c else ⟨c.items ++ [a], mark a :: c.seen⟩

end Relay
