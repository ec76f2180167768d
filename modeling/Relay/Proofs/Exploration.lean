import Relay.Proofs.Requires

/-!
# Explorations

An exploration is what an analysis does to the memory, said once: it looks at
some paths one after the other, and for each it either learns nothing new (a
glance), or loads the file and fails on it, or loads the file, explores what it
requires, and keeps a record.  The list at the end names the loaded files in
order.

`analyzeWithin_visits` shows that the analyser does just that, and that it
always comes to an end with a result once its first path can be looked up.
Every invariant of the analyser is then an induction on explorations.
-/

namespace Relay

namespace Scene

variable (s : Scene)

/-- What is kept for a path, if it was made from the file as it is now. -/
def current? (m : Memory) (path : Path) : Option Kept :=
  (s.fileAt? path).bind fun file => (m.find? path).filter (·.modified = file.2)

/-- The full record of a file. -/
def recordOf (path : Path) (depth : Int) (parent : Option Path) (facts : Facts)
    (children : List Record) : Record :=
  ⟨s.resolver.moduleName path, Resolver.displayName path, path, depth,
    parent, facts, false, children⟩

/-- What is said about a file that is loaded and has no facts. -/
def complaint? (path : Path) : Option LogEntry :=
  match s.fileAt? path with
  | some (bytes, _) =>
    match Source.read path bytes with
    | .error e => some ⟨.warning, .modules, e.message⟩
    | .ok source =>
      match (factsOf s.resolver s.files source).2 with
      | .error e =>
        some ⟨.warning, .modules, s!"Failed to analyze {path}: {e.message}"⟩
      | .ok _ => none
  | none => none

/-- The file at a place is loaded when it comes up: nothing is known
about it. -/
structure Fresh (m : Memory) (path : Path) : Prop where
  inactive : path ∉ m.active
  unkept : s.current? m path = none
  untried : path ∉ m.failed

/-- What comes of a place without loading anything. -/
inductive Glance (room : Nat) (depth : Int) (parent : Option Path) (m : Memory)
    (path : Path) : Option Record → Prop
  | missing (hfile : s.fileAt? path = none) :
  Glance room depth parent m path none
  | cycle (hfile : (s.fileAt? path).isSome) (hactive : path ∈ m.active) :
      Glance room depth parent m path
        (some (.reference s.resolver path depth parent))
  | again {k : Kept} (hinactive : path ∉ m.active)
      (hkept : s.current? m path = some k) :
      Glance room depth parent m path (some (k.record.seenFrom depth parent))
  | limit (hfile : (s.fileAt? path).isSome) (hinactive : path ∉ m.active)
      (hunkept : s.current? m path = none) (hroom : room = 0) :
      Glance room depth parent m path
        (some (.reference s.resolver path depth parent))
  | failed (hfile : (s.fileAt? path).isSome) (hinactive : path ∉ m.active)
      (hunkept : s.current? m path = none) (hroom : room ≠ 0)
      (hfailed : path ∈ m.failed) :
      Glance room depth parent m path none

end Scene

/-- **Explorations.**  From a memory, over some paths, to a memory, with the
records that come of the paths and the files that are loaded on the way. -/
inductive Explored (s : Scene) :
    Nat → Int → Option Path → Memory → List Path → Memory → List Record →
      List Path → Prop
  | done {room : Nat} {depth : Int} {parent : Option Path} {m : Memory} :
      Explored s room depth parent m [] m [] []
  | glance {room : Nat} {depth : Int} {parent : Option Path} {m m' : Memory}
      {path : Path} {paths : List Path} {found : Option Record}
      {records : List Record} {opened : List Path}
      (look : s.Glance room depth parent m path.place found)
      (rest : Explored s room depth parent m paths m' records opened) :
      Explored s room depth parent m (path :: paths) m'
        (found.toList ++ records) opened
  | broken {room : Nat} {depth : Int} {parent : Option Path} {m m' : Memory}
      {path : Path} {paths : List Path} {records : List Record}
      {opened : List Path} {file : ByteArray × Int}
      (hfile : s.fileAt? path.place = some file)
      (fresh : s.Fresh m path.place) (hown : s.own? path.place = none)
      (rest : Explored s (room + 1) depth parent (m.fail path.place) paths m'
        records opened) :
      Explored s (room + 1) depth parent m (path :: paths) m' records
        (path.place :: opened)
  | full {room : Nat} {depth : Int} {parent : Option Path} {m m₁ m₂ : Memory}
      {path : Path} {paths : List Path} {children records : List Record}
      {inner outer : List Path} {file : ByteArray × Int} {facts : Facts}
      (hfile : s.fileAt? path.place = some file)
      (fresh : s.Fresh m path.place) (hown : s.own? path.place = some facts)
      (below : Explored s room (depth + 1) (some path.place)
        (m.enter path.place) (Scene.followed facts.dependencies)
          m₁ children inner)
      (rest : Explored s (room + 1) depth parent
        ((m₁.keep ⟨s.recordOf path.place depth parent facts children,
          file.2⟩).leave path.place) paths m₂ records outer) :
      Explored s (room + 1) depth parent m (path :: paths) m₂
        (s.recordOf path.place depth parent facts children :: records)
        (path.place :: (inner ++ outer))

/-- Explorations one after the other are one exploration. -/
theorem Explored.append {s : Scene} {room : Nat} {depth : Int}
    {parent : Option Path} {m m₁ m₂ : Memory} {xs ys : List Path}
    {rs₁ rs₂ : List Record} {o₁ o₂ : List Path}
    (h₁ : Explored s room depth parent m xs m₁ rs₁ o₁)
    (h₂ : Explored s room depth parent m₁ ys m₂ rs₂ o₂) :
    Explored s room depth parent m (xs ++ ys) m₂ (rs₁ ++ rs₂) (o₁ ++ o₂) := by
  induction h₁ with
  | done => exact h₂
  | glance look rest ih =>
      simpa only [List.cons_append, List.append_assoc] using
        Explored.glance look (ih h₂)
  | broken hfile fresh hown rest ih =>
      exact Explored.broken hfile fresh hown (ih h₂)
  | full hfile fresh hown below rest _ ih =>
      simpa only [List.cons_append, List.append_assoc] using
        Explored.full hfile fresh hown below (ih h₂)

/-- The warnings of a log. -/
def warnings (log : List LogEntry) : List LogEntry :=
  log.filter (·.level = .warning)

@[simp] theorem warnings_append (log log' : List LogEntry) :
    warnings (log ++ log') = warnings log ++ warnings log' :=
  List.filter_append ..

/-- From one progress to a later one some files are loaded, and the warnings in
between are what is said about these files. -/
structure Advance (s : Scene) (p p' : Progress) (opened : List Path) :
    Prop where
  loads : p'.loads = p.loads ++ opened
  log : ∃ entries, p'.log = p.log ++ entries ∧
    warnings entries = opened.filterMap s.complaint?

namespace Advance

variable {s : Scene} {p p₁ p₂ : Progress}

/-- Nothing is loaded where nothing happens. -/
theorem refl (s : Scene) (p : Progress) : Advance s p p [] :=
  ⟨by simp, [], by simp, rfl⟩

/-- What is loaded in two steps is loaded one after the other. -/
theorem trans {o₁ o₂ : List Path} (h₁ : Advance s p p₁ o₁)
    (h₂ : Advance s p₁ p₂ o₂) : Advance s p p₂ (o₁ ++ o₂) := by
  obtain ⟨e₁, hlog₁, hwarn₁⟩ := h₁.log
  obtain ⟨e₂, hlog₂, hwarn₂⟩ := h₂.log
  refine ⟨by rw [h₂.loads, h₁.loads, List.append_assoc], e₁ ++ e₂, ?_, ?_⟩
  · rw [hlog₂, hlog₁, List.append_assoc]
  · rw [warnings_append, List.filterMap_append, hwarn₁, hwarn₂]

/-- Entries that are no warnings count for nothing. -/
theorem quiet (p : Progress) {entries : List LogEntry}
    (h : warnings entries = []) :
    Advance s p { p with log := p.log ++ entries } [] :=
  ⟨by simp, entries, rfl, h⟩

/-- A message that is no warning is no loading. -/
theorem say (p : Progress) (text : String) :
    Advance s p (p.say .debug text) [] :=
  quiet p rfl

end Advance

/-- Resolving what a file requires gives no warnings. -/
theorem warnings_dependenciesOf (r : Resolver) (fs : Files) (file : Path)
    (requirements : List Analysis.Requirement) :
    warnings (dependenciesOf r fs file requirements).1 = [] := by
  induction requirements with
  | nil => rfl
  | cons requirement rest ih =>
      have hentries : ∀ {d : Dependency} {entries : List LogEntry},
          dependencyOf r fs file requirement = .ok (d, entries) →
            warnings entries = [] := by
        intro d entries h
        obtain ⟨outcome, -, h⟩ := exists_of_bind_eq_ok h
        cases h
        cases outcome <;> rfl
      unfold dependenciesOf
      split
      · rfl
      · rename_i d entries hd
        have hboth : ∀ log, warnings log = [] →
            warnings (entries ++ log) = [] := by
          intro log hlog
          rw [warnings_append, hentries hd, hlog, List.append_nil]
        split <;> rename_i hrest <;> rw [hrest] at ih <;> exact hboth _ ih

/-- Finding the facts of a source gives no warning. -/
theorem warnings_factsOf (r : Resolver) (fs : Files) (source : Source) :
    warnings (factsOf r fs source).1 = [] := by
  have h := warnings_dependenciesOf r fs source.path
    (Analysis.requirementsOf source)
  unfold factsOf
  simp only
  split <;> rename_i hds <;> rw [hds] at h <;> exact h

namespace Memory

/-- Leaving a file that was entered changes nothing. -/
theorem leave_enter {m : Memory} {path : Path} (h : path ∉ m.active) :
    (m.enter path).leave path = m := by
  have hfilter : (path :: m.active).filter (· ≠ path) = m.active := by
    rw [List.filter_cons_of_neg (by simp)]
    refine List.filter_eq_self.mpr fun q hq => ?_
    simpa using fun he : q = path => h (he ▸ hq)
  change ({ m with active := (path :: m.active).filter (· ≠ path) } : Memory) =
    m
  rw [hfilter]

/-- A failure leaves no trace but itself. -/
theorem leave_fail_enter {m : Memory} {path : Path} (h : path ∉ m.active) :
    ((m.enter path).fail path).leave path = m.fail path := by
  change ((m.enter path).leave path).fail path = m.fail path
  rw [leave_enter h]

end Memory

namespace Scene

variable {s : Scene}

/-- A visit to a path ends well: it is an exploration of that path. -/
def Visits (s : Scene) (room : Nat) (depth : Int) (parent : Option Path)
    (p : Progress) (paths : List Path) {α : Type} (records : α → List Record)
    (result : Attempt α) : Prop :=
  ∃ p' found opened, result = (p', .ok found) ∧ Advance s p p' opened ∧
    Explored s room depth parent p.memory paths p'.memory (records found) opened

/-- Visits one after the other make up an exploration of all paths. -/
theorem gather_visits {room : Nat} {depth : Int} {parent : Option Path}
    {visit : Progress → Path → Attempt (Option Record)} {paths : List Path}
    (hvisit : ∀ path ∈ paths, ∀ p,
      s.Visits room depth parent p [path] Option.toList (visit p path))
    (p : Progress) :
    s.Visits room depth parent p paths id (gather visit p paths) := by
  induction paths generalizing p with
  | nil => exact ⟨p, [], [], rfl, .refl s p, .done⟩
  | cons path paths ih =>
      obtain ⟨p₁, found, o₁, hfirst, hadv₁, hexp₁⟩ := hvisit path (by simp) p
      obtain ⟨p₂, records, o₂, hrest, hadv₂, hexp₂⟩ :=
        ih (fun q hq => hvisit q (List.mem_cons_of_mem _ hq)) p₁
      refine ⟨p₂, found.toList ++ records, o₁ ++ o₂, ?_, hadv₁.trans hadv₂,
        hexp₁.append hexp₂⟩
      simp only [gather, hfirst, hrest]

/-- A file that cannot be read has no facts, and the complaint says why. -/
theorem complaint?_of_read {path : Path} {file : ByteArray × Int}
    {e : ParseFailure} (hfile : s.fileAt? path = some file)
    (hread : Source.read path file.1 = .error e) :
    s.own? path = none ∧
      s.complaint? path = some ⟨.warning, .modules, e.message⟩ := by
  simp [own?, complaint?, hfile, hread]

/-- A file with a name that is too long has no facts, and the complaint says
so. -/
theorem complaint?_of_factsOf {path : Path} {file : ByteArray × Int}
    {source : Source} {log : List LogEntry} {e : NameTooLong}
    (hfile : s.fileAt? path = some file)
    (hread : Source.read path file.1 = .ok source)
    (hfacts : factsOf s.resolver s.files source = (log, .error e)) :
    s.own? path = none ∧ s.complaint? path =
      some ⟨.warning, .modules, s!"Failed to analyze {path}: {e.message}"⟩ := by
  simp [own?, complaint?, hfile, hread, hfacts, Except.toOption]

/-- There is no complaint about a file that has facts. -/
theorem complaint?_of_own {path : Path} {facts : Facts}
    (h : s.own? path = some facts) : s.complaint? path = none := by
  obtain ⟨bytes, modified, source, log, hfile, hread, hfacts⟩ :=
    own?_eq_some_iff.mp h
  simp [complaint?, hfile, hread, hfacts]

/-- Failing on a file that nothing is known about explores it. -/
theorem explored_broken {room : Nat} {depth : Int} {parent : Option Path}
    {m : Memory} {path : Path} {file : ByteArray × Int}
    (hfile : s.fileAt? path.place = some file) (fresh : s.Fresh m path.place)
    (hown : s.own? path.place = none) :
    Explored s (room + 1) depth parent m [path]
      (((m.enter path.place).fail path.place).leave path.place) []
      [path.place] := by
  rw [Memory.leave_fail_enter fresh.inactive]
  exact .broken hfile fresh hown .done

/-- Loading a file that nothing is known about explores it, if visits to what it
requires end well. -/
theorem load_visits {room : Nat} {depth : Int} {parent : Option Path}
    {visit : Progress → Path → Attempt (Option Record)} {p : Progress}
    {path : Path} {file : ByteArray × Int}
    (hfile : s.fileAt? path.place = some file)
    (fresh : s.Fresh p.memory path.place)
    (hvisit : ∀ child, Found s.files child → ∀ p,
      s.Visits room (depth + 1) (some path.place) p [child] Option.toList
        (visit p child))
    : s.Visits (room + 1) depth parent p [path] Option.toList
      (s.load visit p path.place file.1 file.2 depth parent) := by
  generalize h :
    s.analyzeBytes visit (p.remember (·.enter path.place)) path.place
    file.1 file.2 depth parent = attempt
  unfold load
  rw [h]
  unfold analyzeBytes at h
  simp only at h
  split at h
  · rename_i e hread
    subst h
    obtain ⟨hown, hsaid⟩ := complaint?_of_read hfile hread
    refine ⟨_, none, [path.place], rfl, ⟨rfl, [_], rfl, ?_⟩,
      explored_broken hfile fresh hown⟩
    simp [warnings, hsaid]
  · rename_i source hread
    have hquiet := warnings_factsOf s.resolver s.files source
    split at h
    · rename_i log e hfacts
      subst h
      obtain ⟨hown, hsaid⟩ := complaint?_of_factsOf hfile hread hfacts
      rw [hfacts] at hquiet
      refine ⟨_, none, [path.place], rfl,
        ⟨rfl, log ++ [_], List.append_assoc _ log _, ?_⟩,
        explored_broken hfile fresh hown⟩
      rw [warnings_append, hquiet]
      simp [warnings, hsaid]
    · rename_i log facts hfacts
      have hown : s.own? path.place = some facts :=
        own?_eq_some_iff.mpr ⟨_, _, _, _, hfile, hread, hfacts⟩
      rw [hfacts] at hquiet
      have hfound : ∀ child ∈ followed facts.dependencies,
          Found s.files child :=
        fun child hchild =>
          found_of_mem_followed (Path.plain_place path) hown hchild
      obtain ⟨p₁, children, inner, hgather, hadv, hexp⟩ := gather_visits
        (fun child hchild => hvisit child (hfound child hchild))
        ⟨p.memory.enter path.place, p.log ++ log, p.loads ++ [path.place]⟩
      simp only [Progress.load, Progress.remember, hgather] at h
      subst h
      have hload : Advance s p
          ⟨p.memory.enter path.place, p.log ++ log, p.loads ++ [path.place]⟩
          [path.place] :=
        ⟨rfl, log, rfl, by simp [hquiet, complaint?_of_own hown]⟩
      have hall := hload.trans hadv
      refine ⟨_, some _, path.place :: (inner ++ []), rfl, ?_,
        .full hfile fresh hown hexp .done⟩
      rw [List.append_nil]
      exact ⟨hall.loads, hall.log⟩

/-- An analysis that only looks visits its path without loading anything. -/
theorem visits_of_glance {room : Nat} {depth : Int} {parent : Option Path}
    {p p' : Progress} {path : Path} {found : Option Record}
    (look : s.Glance room depth parent p.memory path.place found)
    (hadv : Advance s p p' []) (hmem : p'.memory = p.memory) :
    s.Visits room depth parent p [path] Option.toList (p', .ok found) := by
  refine ⟨p', found, [], rfl, hadv, ?_⟩
  rw [hmem]
  simpa only [List.append_nil] using Explored.glance look .done

/-- Coming to a path explores it, if loading a file does wherever the depth
allows it. -/
theorem approach_visits {room : Nat} {depth : Int} {parent : Option Path}
    {p : Progress} {path : Path}
    {load : Option (Progress → ByteArray → Int → Attempt (Option Record))}
    (hfind : ∃ there, s.files.find path.place = .ok there)
    (hnone : load = none → room = 0)
    (hsome : ∀ go, load = some go → room ≠ 0 ∧ ∀ file,
      s.fileAt? path.place = some file → s.Fresh p.memory path.place →
        s.Visits room depth parent p [path] Option.toList
          (go p file.1 file.2)) :
    s.Visits room depth parent p [path] Option.toList
      (s.approach load p path.place depth parent) := by
  obtain ⟨there, hfind⟩ := hfind
  unfold approach
  rcases there with _ | _ | ⟨bytes, modified⟩ <;> simp only [hfind]
  case none =>
    exact visits_of_glance (.missing (by simp [fileAt?, hfind])) (.refl ..) rfl
  case some.directory =>
    exact visits_of_glance (.missing (by simp [fileAt?, hfind])) (.refl ..) rfl
  case some.file =>
    have hfile : s.fileAt? path.place = some (bytes, modified) := by
      simp [fileAt?, hfind]
    have hcurrent : (p.memory.find? path.place).filter (·.modified = modified)
        = s.current? p.memory path.place := by
      simp [current?, hfile]
    simp only [hcurrent]
    split
    · rename_i hactive
      exact visits_of_glance (.cycle (by simp [hfile]) hactive) (.say ..) rfl
    · rename_i hinactive
      split
      · rename_i k hkept
        exact visits_of_glance (.again hinactive hkept) (.say ..) rfl
      · rename_i hunkept
        cases load with
        | none =>
            exact visits_of_glance
              (.limit (by simp [hfile]) hinactive hunkept (hnone rfl))
              (.say ..) rfl
        | some go =>
            obtain ⟨hroom, hgo⟩ := hsome go rfl
            simp only
            split
            · rename_i hfailed
              exact visits_of_glance
                (.failed (by simp [hfile]) hinactive hunkept hroom hfailed)
                (.refl ..) rfl
            · rename_i huntried
              exact hgo _ hfile ⟨hinactive, hunkept, huntried⟩

/-- Without room a file is approached and never loaded. -/
theorem analyzeWithin_zero (s : Scene) (p : Progress) (path : Path)
    (depth : Int) (parent : Option Path) :
    s.analyzeWithin 0 p path depth parent
      = s.approach none p path.place depth parent := by
  simp only [analyzeWithin, Path.place]

/-- With room a file is approached, and loaded with less room for what it
requires. -/
theorem analyzeWithin_succ (s : Scene) (room : Nat) (p : Progress) (path : Path)
    (depth : Int) (parent : Option Path) :
    s.analyzeWithin (room + 1) p path depth parent
      = s.approach (some fun p bytes modified => s.load
          (fun p child =>
            s.analyzeWithin room p child (depth + 1) (some path.place))
          p path.place bytes modified depth parent)
        p path.place depth parent := by
  simp only [analyzeWithin, Path.place]

/-- **The analyser explores.**  Once its path can be looked up, an analysis
comes to a result, and what it does to the memory is an exploration of that
path. -/
theorem analyzeWithin_visits {path : Path}
    (hfind : ∃ there, s.files.find path.place = .ok there) (room : Nat)
    (p : Progress) (depth : Int) (parent : Option Path) :
    s.Visits room depth parent p [path] Option.toList
      (s.analyzeWithin room p path depth parent) := by
  induction room generalizing path p depth parent with
  | zero =>
      rw [analyzeWithin_zero]
      refine approach_visits hfind (fun _ => rfl) ?_
      intro go hgo
      cases hgo
  | succ room ih =>
      rw [analyzeWithin_succ]
      refine approach_visits hfind (fun hnone => by cases hnone) ?_
      intro go hgo
      cases hgo
      refine ⟨by simp, fun file hfile fresh => load_visits hfile fresh ?_⟩
      intro child hchild p
      exact ih hchild.find_place p _ _

end Scene

end Relay
