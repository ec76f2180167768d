import Relay.Record
import Relay.Text.Quoted

/-!
# Analysing files and what they require

A file is analysed together with the modules that it requires, down to a
greatest depth.  The analyser remembers the records it has made, so that a file
is analysed once as long as it does not change; it knows which files are being
analysed, so that a cycle ends in a shallow record; and it knows which files it
has failed on.
-/

namespace Relay

/-- A record that has been made, with the time of the file it was made from. -/
structure Kept where
  record : Record
  modified : Int

/-- What the analyser knows between analyses. -/
structure Memory where
  kept : List Kept := []
  active : List Path := []
  failed : List Path := []

namespace Memory

/-- What is kept for a path. -/
def find? (m : Memory) (path : Path) : Option Kept :=
  m.kept.find? fun k => k.record.path = path

/-- The record that is kept for a path, with drives spelled out. -/
def record? (m : Memory) (path : Path) : Option Record :=
  (m.find? (placeOfText path.text)).map (·.record)

/-- The memory with a record kept instead of any other of its path. -/
def keep (m : Memory) (k : Kept) : Memory :=
  { m with kept := k :: m.kept.filter fun other =>
      other.record.path ≠ k.record.path }

/-- The memory while a file is being analysed. -/
def enter (m : Memory) (path : Path) : Memory :=
  { m with active := path :: m.active }

/-- The memory when the analysis of a file has ended. -/
def leave (m : Memory) (path : Path) : Memory :=
  { m with active := m.active.filter (· ≠ path) }

/-- The memory after a failure on a file. -/
def fail (m : Memory) (path : Path) : Memory :=
  { m with failed := path :: m.failed }

/-- The memory without any records. -/
def forget (m : Memory) : Memory :=
  { m with kept := [] }

end Memory

/-- What an analysis works with. -/
structure Scene where
  files : Files
  resolver : Resolver

/-- The memory and the log as an analysis goes on, and the files it has loaded,
in order. -/
structure Progress where
  memory : Memory := {}
  log : List LogEntry := []
  loads : List Path := []

namespace Progress

/-- The progress with one more entry in the log. -/
def say (p : Progress) (level : Level) (text : String) : Progress :=
  { p with log := p.log ++ [⟨level, .modules, text⟩] }

/-- The progress with one more file loaded. -/
def load (p : Progress) (path : Path) : Progress :=
  { p with loads := p.loads ++ [path] }

/-- The progress with the memory changed. -/
def remember (p : Progress) (f : Memory → Memory) : Progress :=
  { p with memory := f p.memory }

end Progress

/-- The result of an analysis: there may be no record, and a name may be too
long to be looked up. -/
abbrev Attempt (α : Type) := Progress × Except NameTooLong α

/-- What is said about a name that is too long. -/
def NameTooLong.message (e : NameTooLong) : String :=
  s!"[Errno 36] File name too long: {Text.quoted e.path.text}"

namespace Scene

/-- The files that the analysis goes on with after the one that requires
them. -/
def followed (dependencies : List Dependency) : List Path :=
  dependencies.filterMap fun d =>
    if d.isLocal ∨ d.isNamespaced then d.path else none

/-- Analyses some files one after the other and gathers their records. -/
def gather (visit : Progress → Path → Attempt (Option Record)) :
    Progress → List Path → Attempt (List Record)
  | p, [] => (p, .ok [])
  | p, path :: rest =>
    match visit p path with
    | (p, .error e) => (p, .error e)
    | (p, .ok record) =>
      match gather visit p rest with
      | (p, .error e) => (p, .error e)
      | (p, .ok records) => (p, .ok (record.toList ++ records))

/-- Analyses a file whose bytes have been read; `visit` analyses the files that
it requires. -/
def analyzeBytes (s : Scene) (visit : Progress → Path → Attempt (Option Record))
    (p : Progress) (path : Path) (bytes : ByteArray) (modified : Int)
    (depth : Int) (parent : Option Path) :
    Attempt (Option Record) :=
  let p := p.load path
  match Source.read path bytes with
  | .error e => ((p.remember (·.fail path)).say .warning e.message, .ok none)
  | .ok source =>
    match factsOf s.resolver s.files source with
    | (log, .error e) =>
      let p := { p with log := p.log ++ log }
      ((p.remember (·.fail path)).say .warning
        s!"Failed to analyze {path}: {e.message}", .ok none)
    | (log, .ok facts) =>
      let p := { p with log := p.log ++ log }
      match gather visit p (followed facts.dependencies) with
      | (p, .error e) => (p, .error e)
      | (p, .ok children) =>
        let record : Record :=
          ⟨s.resolver.moduleName path, Resolver.displayName path, path, depth,
            parent, facts, false, children⟩
        (p.remember (·.keep ⟨record, modified⟩), .ok (some record))

/-- Loads a file, which counts as being analysed all the while. -/
def load (s : Scene) (visit : Progress → Path → Attempt (Option Record))
    (p : Progress) (path : Path) (bytes : ByteArray) (modified : Int)
    (depth : Int) (parent : Option Path) :
    Attempt (Option Record) :=
  let (p, result) :=
    s.analyzeBytes visit (p.remember (·.enter path)) path bytes modified
      depth parent
  (p.remember (·.leave path), result)

/-- What comes of a place.  A file that nothing is known about is loaded by
`load`, unless the depth forbids it. -/
def approach (s : Scene)
    (load : Option (Progress → ByteArray → Int → Attempt (Option Record)))
    (p : Progress) (path : Path) (depth : Int) (parent : Option Path) :
    Attempt (Option Record) :=
  match s.files.find path with
  | .error e => (p, .error e)
  | .ok (some (.file bytes modified)) =>
    if path ∈ p.memory.active then
      (p.say .debug s!"Cycle detected at {path}",
        .ok (some (.reference s.resolver path depth parent)))
    else
      match (p.memory.find? path).filter (·.modified = modified) with
      | some kept =>
        (p.say .debug s!"Cache hit for {path}",
          .ok (some (kept.record.seenFrom depth parent)))
      | none =>
        match load with
        | none =>
          (p.say .debug
            s!"Depth limit {s.resolver.config.maxDepth} reached at {path}",
            .ok (some (.reference s.resolver path depth parent)))
        | some load =>
            if path ∈ p.memory.failed then (p, .ok none)
            else load p bytes modified
  | .ok _ => (p, .ok none)

/-- Analyses a file and what it requires.  `room` is the number of levels below
which files are only referred to. -/
def analyzeWithin (s : Scene) (room : Nat) (p : Progress) (path : Path)
    (depth : Int) (parent : Option Path) : Attempt (Option Record) :=
  let path := placeOfText path.text
  match room with
  | 0 => s.approach none p path depth parent
  | room + 1 =>
    let visit :=
      fun p child => analyzeWithin s room p child (depth + 1) (some path)
    let load :=
      fun p bytes modified => s.load visit p path bytes modified depth parent
    s.approach (some load) p path depth parent

/-- Analyses a file and what it requires, down to the greatest depth. -/
def analyze (s : Scene) (p : Progress) (path : Path) (depth : Int)
    (parent : Option Path) :
    Attempt (Option Record) :=
  s.analyzeWithin (s.resolver.config.maxDepth - depth).toNat p path depth parent

/-- Analyses the file of a middleware. -/
def analyzeEntry (s : Scene) (p : Progress) (specifier : String) :
    Attempt (Option Record) :=
  match s.resolver.entryPath s.files specifier with
  | .error e => (p, .error e)
  | .ok none =>
      (p.say .debug s!"No entry file for middleware {specifier}", .ok none)
  | .ok (some path) => s.analyze p path 0 none

end Scene

namespace Memory

/-- The full record that a record stands for: a shallow one stands for what is
kept for its path. -/
def full (m : Memory) (record : Record) : Record :=
  if record.shallow then (m.record? record.path).getD record else record

/-- The number of kept records, with all below them, whose path is not among
some paths. -/
def unseenSize (visited : List Path) : List Kept → Nat
  | [] => 0
  | k :: rest =>
    (if k.record.path ∈ visited then 0 else k.record.size) +
      unseenSize visited rest

/-- With one more path visited no more is unseen. -/
theorem unseenSize_cons_le (path : Path) (visited : List Path)
    (kept : List Kept) :
    unseenSize (path :: visited) kept ≤ unseenSize visited kept := by
  induction kept with
  | nil => simp [unseenSize]
  | cons k rest ih =>
    simp only [unseenSize, List.mem_cons]
    split <;> split <;> simp_all
    all_goals omega

/-- With the path of an unseen record visited, its size is no longer unseen.
-/
theorem unseenSize_cons_of_mem {k : Kept} {visited : List Path}
    {kept : List Kept} (hk : k ∈ kept) (hv : k.record.path ∉ visited) :
    unseenSize (k.record.path :: visited) kept + k.record.size ≤
      unseenSize visited kept := by
  induction kept with
  | nil => cases hk
  | cons j rest ih =>
    rcases List.mem_cons.1 hk with rfl | hk
    · have := unseenSize_cons_le k.record.path visited rest
      simp [unseenSize, hv]
      omega
    · have := ih hk
      simp only [unseenSize, List.mem_cons]
      split <;> split <;> simp_all
      all_goals omega

/-- A shallow record that stands for another one stands for a kept one. -/
theorem full_eq_or_mem (m : Memory) (record : Record) :
    m.full record = record ∨ ∃ k ∈ m.kept, m.full record = k.record := by
  unfold full record?
  split
  · cases h : m.find? (placeOfText record.path.text) with
    | none => simp
    | some k => exact Or.inr ⟨k, List.mem_of_find?_eq_some h, by simp⟩
  · exact Or.inl rfl

/-- The full records that some records lead to, each path once, in the order of
first visits. -/
def expandFrom (m : Memory) (visited : List Path) : List Record → List Record
  | [] => []
  | record :: rest =>
    if (m.full record).path ∈ visited then expandFrom m visited rest
    else
      m.full record
        :: expandFrom m ((m.full record).path :: visited)
          ((m.full record).children ++ rest)
termination_by records => unseenSize visited m.kept + Record.sizeAll records
decreasing_by
  · have := record.size_eq
    simp only [Record.sizeAll]
    omega
  · rename_i hv
    have h₁ := record.size_eq
    have h₂ := (m.full record).size_eq
    simp only [Record.sizeAll, Record.sizeAll_append]
    rcases m.full_eq_or_mem record with h | ⟨k, hk, h⟩
    · have := unseenSize_cons_le (m.full record).path visited m.kept
      rw [h] at this h₂ ⊢
      omega
    · rw [h] at hv h₂ ⊢
      have := unseenSize_cons_of_mem hk hv
      omega

/-- The full records that a record leads to, itself included. -/
def expand (m : Memory) (record : Record) : List Record :=
  m.expandFrom [] [record]

end Memory

end Relay
