import Mathlib.Data.Set.Card
import Mathlib.Logic.Relation
import Relay.Middleware
import Relay.Proofs.Collecting
import Relay.Proofs.Found

/-!
# The graph of required files

The own analysis of a file depends on nothing but the scene: it gives the facts
of the file, or nothing when there is no file or its text cannot be analysed.
The facts name the files that the analysis goes on with.  This file sets up the
two graphs that later statements speak about: `required` counts every file that
is gone on with, and `next` only those that have facts of their own.

Every usage in the facts of a file names that file (`path_of_mem_inBag`).
-/

namespace Relay

open Analysis

/-- The usages of one kind of one bag that a middleware leads to. -/
def Middleware.inBag (m : Middleware) : Bag → UsageKind → List PropertyUsage
  | .locals, .read => m.localsReads
  | .locals, .write => m.localsWrites
  | .transaction, .read => m.transactionReads
  | .transaction, .write => m.transactionWrites

/-- A result that can be taken out of an outcome. -/
theorem eq_ok_of_toOption {ε α : Type} {outcome : Except ε α} {a : α}
    (h : outcome.toOption = some a) : outcome = .ok a := by
  cases outcome with
  | error e => cases h
  | ok b => rw [Option.some.inj h]

namespace Scene

variable (s : Scene)

/-- The bytes and the time of the file that a path leads to. -/
def fileAt? (path : Path) : Option (ByteArray × Int) :=
  match s.files.find path with
  | .ok (some (.file bytes modified)) => some (bytes, modified)
  | _ => none

/-- The facts of a file by itself, if it can be analysed. -/
def own? (path : Path) : Option Facts :=
  match s.fileAt? path with
  | some (bytes, _) =>
    match Source.read path bytes with
    | .ok source => (factsOf s.resolver s.files source).2.toOption
    | .error _ => none
  | none => none

/-- The places of the files that a file's analysis goes on with, in order. -/
def required (path : Path) : List Path :=
  match s.own? path with
  | some facts => (followed facts.dependencies).map Path.place
  | none => []

/-- Those of some files that have facts of their own. -/
def owned (paths : List Path) : List Path :=
  paths.filter fun q => (s.own? q).isSome

/-- The required files that have facts of their own. -/
def next (path : Path) : List Path :=
  s.owned (s.required path)

/-- One file requires another, and the analysis goes on with it. -/
def Requires (path q : Path) : Prop :=
  q ∈ s.required path

/-- One file requires another that has facts of its own. -/
def Leads (path q : Path) : Prop :=
  q ∈ s.next path

/-- A file can be reached from another one: both have facts of their own. -/
def Reaches (path q : Path) : Prop :=
  (s.own? path).isSome ∧ Relation.ReflTransGen s.Leads path q

/-- A file itself writes or reads a property of a bag. -/
def Uses (path : Path) (b : Bag) (k : UsageKind) (property : String) : Prop :=
  ∃ facts, s.own? path = some facts ∧
    ∃ u ∈ facts.usages.inBag b k, u.property = property

/-- The properties of a bag that a file itself writes or reads, in order. -/
def listed (path : Path) (b : Bag) (k : UsageKind) : Option (List String) :=
  (s.own? path).map fun facts => (facts.usages.inBag b k).map (·.property)

/-- All places that the analyses of some files can come to. -/
def within (roots : Set Path) : Set Path :=
  {q | ∃ root ∈ roots, Relation.ReflTransGen s.Requires root q}

variable {s}

/-- A source that is read has the path that it is read from. -/
theorem read_path {path : Path} {bytes : ByteArray} {source : Source}
    (h : Source.read path bytes = .ok source) : source.path = path := by
  unfold Source.read at h
  split at h
  · cases h
    rfl
  · cases h

/-- Where own facts come from. -/
theorem own?_eq_some_iff {path : Path} {facts : Facts} :
    s.own? path = some facts ↔ ∃ bytes modified source log,
      s.fileAt? path = some (bytes, modified) ∧
      Source.read path bytes = .ok source ∧
      factsOf s.resolver s.files source = (log, .ok facts) := by
  unfold own?
  constructor
  · intro h
    split at h
    · rename_i bytes modified hfile
      split at h
      · rename_i source hread
        generalize hfacts : factsOf s.resolver s.files source = result at h
        obtain ⟨log, outcome⟩ := result
        cases outcome with
        | error e => cases h
        | ok facts' =>
            cases h
            exact ⟨bytes, modified, source, log, hfile, hread, hfacts⟩
      · cases h
    · cases h
  · rintro ⟨bytes, modified, source, log, hfile, hread, hfacts⟩
    simp [hfile, hread, hfacts, Except.toOption]

/-- **Usages name their file.**  What own facts report is used in that file. -/
theorem path_of_mem_inBag {path : Path} {facts : Facts}
    (h : s.own? path = some facts) {b : Bag} {k : UsageKind} {u : PropertyUsage}
    (hu : u ∈ facts.usages.inBag b k) : u.path = path := by
  obtain ⟨bytes, modified, source, log, -, hread, hfacts⟩ :=
    own?_eq_some_iff.mp h
  obtain ⟨dependencies, -, rfl⟩ := eq_of_factsOf hfacts
  rw [← read_path hread]
  exact Usages.path_of_mem_of hu

/-- A file uses the properties that are listed for it. -/
theorem uses_iff_of_listed {path : Path} {b : Bag} {k : UsageKind}
    {properties : List String} (h : s.listed path b k = some properties)
    {property : String} : s.Uses path b k property ↔ property ∈ properties := by
  obtain ⟨facts, hown, rfl⟩ := Option.map_eq_some_iff.mp h
  rw [List.mem_map]
  constructor
  · rintro ⟨facts', hown', u, hu, hproperty⟩
    rw [hown, Option.some.injEq] at hown'
    rw [← hown'] at hu
    exact ⟨u, hu, hproperty⟩
  · rintro ⟨u, hu, hproperty⟩
    exact ⟨facts, hown, u, hu, hproperty⟩

/-- Where there is no file there are no facts. -/
theorem own?_of_fileAt?_eq_none {path : Path} (h : s.fileAt? path = none) :
    s.own? path = none := by
  simp [own?, h]

/-- A file is gone on with only if a dependency leads to it. -/
theorem mem_followed {ds : List Dependency} {q : Path}
    (h : q ∈ followed ds) : ∃ d ∈ ds, d.path = some q := by
  obtain ⟨d, hd, hq⟩ := List.mem_filterMap.mp h
  split at hq
  · exact ⟨d, hd, hq⟩
  · cases hq

/-- The files that a plain file's analysis goes on with are found. -/
theorem found_of_mem_followed {path : Path} (hpath : path.Plain) {facts : Facts}
    (h : s.own? path = some facts) {q : Path}
    (hq : q ∈ followed facts.dependencies) : Found s.files q := by
  obtain ⟨bytes, modified, source, log, -, hread, hfacts⟩ :=
    own?_eq_some_iff.mp h
  obtain ⟨d, hd, hdq⟩ := mem_followed hq
  have hsource : source.path.Plain := read_path hread ▸ hpath
  exact found_of_factsOf hsource hfacts d hd q hdq

/-- A file with facts requires the places that its dependencies lead to. -/
theorem required_of_own? {path : Path} {facts : Facts}
    (h : s.own? path = some facts) :
    s.required path = (followed facts.dependencies).map Path.place := by
  simp [required, h]

/-- A file leads to what it requires and what can be read. -/
theorem leads_iff {path q : Path} :
    s.Leads path q ↔ s.Requires path q ∧ (s.own? q).isSome := by
  simp [Leads, next, owned, Requires]

/-- A file requires what it leads to. -/
theorem Leads.requires {path q : Path} (h : s.Leads path q) :
    s.Requires path q :=
  (leads_iff.mp h).1

/-- The roots are within their own reach. -/
theorem mem_within_of_mem {roots : Set Path} {q : Path} (h : q ∈ roots) :
    q ∈ s.within roots :=
  ⟨q, h, .refl⟩

/-- What a file within reach requires is within reach. -/
theorem mem_within_of_requires {roots : Set Path} {path q : Path}
    (h : path ∈ s.within roots) (hq : s.Requires path q) :
    q ∈ s.within roots := by
  obtain ⟨root, hroot, hpath⟩ := h
  exact ⟨root, hroot, hpath.tail hq⟩

end Scene

end Relay
