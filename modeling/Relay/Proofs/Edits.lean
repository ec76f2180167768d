import Relay.Proofs.Sessions
import Relay.Proofs.Writing

/-!
# Calls between edits

Files are edited while an analyser lives, and every edit makes a file later
than it has ever been.  A kept record counts only as long as its file has the
time that it was made from, so a record that is given out has the lists of the
file as it stands (`Dated.lists_of_answer`).  A failure has no time: a file
that has failed counts as failed until the analyser is reset, whatever is
written to it later.  So calls between edits answer as a new analyser would,
but for files that have failed (`analyze_after_edits`), and a file that is
mended after a failure shows the difference (`not_analyzed_after_mending`).

What a file requires is not in its text alone.  A directory that is made later
can turn a name that led nowhere into one that cannot be looked up, and then a
new analyser fails on a file that has not changed.  `Scene.Resolves` leaves
this out.
-/

namespace Relay

open Analysis

/-- What is found in the text of a file alone: its usages, its calls of services
and its look-ups. -/
def Facts.lists (f : Facts) : Usages × List ServiceCall × List Lookup :=
  (f.usages, f.calls, f.lookups)

/-- The lists of a file with some text, if it can be read. -/
def Resolver.listsOf (r : Resolver) (path : Path) (bytes : ByteArray) :
    Option (Usages × List ServiceCall × List Lookup) :=
  match Source.read path bytes with
  | .ok source =>
    some (Usages.of source (r.isLibrary path.text) r.config.expandLiterals,
      ServiceCalls.of source (r.isLibrary path.text), lookupsOf source)
  | .error _ => none

namespace Scene

/-- A path leads to a file that has no facts. -/
def Broken (s : Scene) (path : Path) : Prop :=
  (s.fileAt? path).isSome ∧ s.own? path = none

/-- If the text of a file can be read, all that it requires can be looked up. -/
def Resolves (s : Scene) (path : Path) : Prop :=
  ∀ bytes modified source, s.fileAt? path = some (bytes, modified) →
    Source.read path bytes = .ok source → (s.own? path).isSome

/-- The scene after a file was written. -/
def edit (s : Scene) (text : String) (bytes : ByteArray) (modified : Int) :
    Scene :=
  { s with files := s.files.write (.ofString text) bytes modified }

/-- What a call from the top answers. -/
def answer (s : Scene) (p : Progress) (text : String) :
    Except NameTooLong (Option Record) :=
  (s.analyze p (.ofString text) 0 none).2

/-- What can have become of a scene and of an analyser since the analyser was
new.  The list holds the scenes in which it has analysed since it was last
reset. -/
inductive History (start : Scene) : List Scene → Scene → Progress → Prop
  | start : History start [] start {}
  | reset {tried : List Scene} {s : Scene} {p : Progress}
      (before : History start tried s p) : History start [] s (s.call p .reset)
  | clear {tried : List Scene} {s : Scene} {p : Progress}
      (before : History start tried s p) :
        History start tried s (s.call p .clear)
  | analyze {tried : List Scene} {s : Scene} {p : Progress}
      (before : History start tried s p) (text : String) (depth : Int)
      (parent : Option Path) :
      History start (s :: tried) s (s.call p (.analyze text depth parent))
  | edit {tried : List Scene} {s : Scene} {p : Progress}
      (before : History start tried s p) (text : String) (bytes : ByteArray)
      (modified : Int) (later : s.files.CanWrite (.ofString text) modified) :
      History start tried (s.edit text bytes modified) p

/-- What an analyser knows is not newer than the files, and what it knows of a
file as it stands is right.  Of a file that has failed no current record is
kept. -/
structure Dated (s : Scene) (m : Memory) : Prop where
  kept : ∀ path k, m.find? path = some k → ∃ bytes time,
    s.fileAt? path = some (bytes, time) ∧ k.modified ≤ time ∧
      (k.modified = time →
        s.resolver.listsOf path bytes = some k.record.facts.lists)
  failed : ∀ path ∈ m.failed,
    path ∉ m.active ∧ (s.fileAt? path).isSome ∧ s.current? m path = none

variable {s : Scene} {m m' : Memory} {path : Path}

/-- Own facts have the lists of the text. -/
theorem lists_of_own? {facts : Facts} (h : s.own? path = some facts) :
    ∃ bytes time, s.fileAt? path = some (bytes, time) ∧
      s.resolver.listsOf path bytes = some facts.lists := by
  obtain ⟨bytes, time, source, log, hfile, hread, hfacts⟩ :=
    own?_eq_some_iff.mp h
  refine ⟨bytes, time, hfile, ?_⟩
  obtain ⟨dependencies, -, rfl⟩ := eq_of_factsOf hfacts
  rw [Resolver.listsOf, hread, read_path hread]
  rfl

/-- A file is not taken from memory just when what is kept of it is from
another time. -/
theorem current?_eq_none_iff {bytes : ByteArray} {time : Int}
    (hfile : s.fileAt? path = some (bytes, time)) :
    s.current? m path = none ↔ ∀ k, m.find? path = some k →
      k.modified ≠ time := by
  simp [current?, hfile, Option.filter_eq_none_iff]

/-- What is current for a path does not depend on what is kept for another. -/
theorem current?_keep_of_ne {k : Kept} {q : Path} (hne : k.record.path ≠ q) :
    s.current? ((m.keep k).leave path) q = s.current? m q := by
  rw [current?, Memory.find?_leave, Memory.find?_keep, if_neg hne]
  rfl

namespace Dated

/-- An empty memory is dated. -/
theorem empty : s.Dated {} where
  kept := by
    intro path k hk
    cases hk
  failed := by simp

/-- A memory that forgets its failures is dated. -/
theorem forget (h : s.Dated m) : s.Dated m.forget where
  kept := by
    intro path k hk
    cases hk
  failed path hpath := by
    obtain ⟨hinactive, hfile, -⟩ := h.failed path hpath
    refine ⟨hinactive, hfile, ?_⟩
    obtain ⟨file, hfile⟩ := Option.isSome_iff_exists.mp hfile
    rw [current?_eq_none_iff hfile]
    intro k hk
    cases hk

/-- Beginning with a file that has not failed leaves a memory dated. -/
theorem enter (h : s.Dated m) (huntried : path ∉ m.failed) :
    s.Dated (m.enter path) where
  kept := h.kept
  failed q hq := by
    obtain ⟨hinactive, hfile, hunkept⟩ := h.failed q hq
    refine ⟨fun hmem => ?_, hfile, hunkept⟩
    rcases List.mem_cons.mp hmem with rfl | hmem
    · exact huntried hq
    · exact hinactive hmem

/-- A file that is there may be put down as failed. -/
theorem fail (h : s.Dated m) (fresh : s.Fresh m path)
    (hfile : (s.fileAt? path).isSome) :
    s.Dated (m.fail path) where
  kept := h.kept
  failed :=
    List.forall_mem_cons.mpr ⟨⟨fresh.inactive, hfile, fresh.unkept⟩, h.failed⟩

/-- The record of a file that is being analysed is kept.  The file is not among
those that have failed. -/
theorem keep (h : s.Dated m) {k : Kept} {file : ByteArray × Int}
    (hactive : path ∈ m.active) (hpath : k.record.path = path)
    (hown : s.own? path = some k.record.facts)
    (hfile : s.fileAt? path = some file) (htime : k.modified = file.2) :
    s.Dated ((m.keep k).leave path) where
  kept q k' hk' := by
    rw [Memory.find?_leave, Memory.find?_keep, hpath] at hk'
    split at hk'
    · rename_i heq
      cases hk'
      subst heq
      obtain ⟨bytes, time, hfile', hlists⟩ := lists_of_own? hown
      have hsame : file = (bytes, time) :=
        Option.some.inj (hfile.symm.trans hfile')
      exact ⟨bytes, time, hfile', by simp [htime, hsame], fun _ => hlists⟩
    · exact h.kept q k' hk'
  failed q hq := by
    obtain ⟨hinactive, hfile, hunkept⟩ := h.failed q hq
    have hne : k.record.path ≠ q := by
      rintro rfl
      exact hinactive (hpath ▸ hactive)
    refine ⟨fun hmem => hinactive (List.mem_filter.mp hmem).1, hfile, ?_⟩
    rw [current?_keep_of_ne hne, hunkept]

/-- A record that is current has the lists of its file. -/
theorem lists_of_current? (h : s.Dated m) {k : Kept}
    (hk : s.current? m path = some k) :
    ∃ bytes time, s.fileAt? path = some (bytes, time) ∧
      s.resolver.listsOf path bytes = some k.record.facts.lists := by
  obtain ⟨bytes, time, hfile, -, hlists⟩ := h.kept path k (find?_of_current? hk)
  refine ⟨bytes, time, hfile, hlists ?_⟩
  rw [current?, hfile] at hk
  simpa using (Option.filter_eq_some_iff.mp hk).2

end Dated

end Scene

namespace Explored

variable {s : Scene} {room : Nat} {depth : Int} {parent : Option Path}
  {m m' : Memory} {paths : List Path} {records : List Record}
  {opened : List Path}

/-- An exploration leads from a dated memory to a dated one. -/
theorem dated (h : Explored s room depth parent m paths m' records opened)
    (hm : s.Dated m) : s.Dated m' := by
  induction h with
  | done => exact hm
  | glance look rest ih => exact ih hm
  | broken hfile fresh hown rest ih =>
      exact ih (hm.fail fresh (by simp [hfile]))
  | @full room depth parent m m₁ m₂ path paths children records inner outer file
      facts hfile fresh hown below rest ihBelow ihRest =>
      have hm₁ := ihBelow (hm.enter fresh.untried)
      have hactive : path.place ∈ m₁.active := by
        rw [below.active_eq]
        exact List.mem_cons_self
      exact ihRest (hm₁.keep hactive rfl hown hfile rfl)

/-- Only broken files fail. -/
theorem failed_or_broken
    (h : Explored s room depth parent m paths m' records opened) :
    ∀ q ∈ m'.failed, q ∈ m.failed ∨ s.Broken q := by
  induction h with
  | done => exact fun q hq => .inl hq
  | glance look rest ih => exact ih
  | broken hfile fresh hown rest ih =>
      intro q hq
      rcases ih q hq with hmem | hbroken
      · rcases List.mem_cons.mp hmem with rfl | hmem
        · exact .inr ⟨by simp [hfile], hown⟩
        · exact .inl hmem
      · exact .inr hbroken
  | full hfile fresh hown below rest ihBelow ihRest =>
      intro q hq
      rcases ihRest q hq with hmem | hbroken
      · exact ihBelow q hmem
      · exact .inr hbroken

/-- **What comes of one file.**  When no file is being analysed, a file that
may be loaded is passed over, or known already, or analysed. -/
theorem of_one {path : Path}
    (h : Explored s (room + 1) depth parent m [path] m' records opened)
    (hidle : m.active = []) :
    (records = [] ∧ s.current? m path.place = none ∧
      (path.place ∈ m.failed ∨ s.own? path.place = none)) ∨
    (∃ k, s.current? m path.place = some k ∧
      records = [k.record.seenFrom depth parent]) ∨
    (∃ facts children, s.own? path.place = some facts ∧ path.place ∉ m.failed ∧
      records = [s.recordOf path.place depth parent facts children]) := by
  cases h with
  | glance look rest =>
      cases rest
      cases look with
      | missing hfile =>
          refine .inl ⟨rfl, ?_, .inr (Scene.own?_of_fileAt?_eq_none hfile)⟩
          rw [Scene.current?, hfile]
          rfl
      | cycle _ hactive =>
          rw [hidle] at hactive
          cases hactive
      | again _ hkept => exact .inr (.inl ⟨_, hkept, rfl⟩)
      | limit _ _ _ hroom => cases hroom
      | failed _ _ hunkept _ hfailed => exact .inl ⟨rfl, hunkept, .inl hfailed⟩
  | broken hfile fresh hown rest =>
      cases rest
      exact .inl ⟨rfl, fresh.unkept, .inr hown⟩
  | full hfile fresh hown below rest =>
      cases rest
      exact .inr (.inr ⟨_, _, hown, fresh.untried, rfl⟩)

end Explored

namespace Scene

variable {s start : Scene} {m : Memory} {p : Progress} {tried : List Scene}
  {path : Path}

/-- A file that can be read is found. -/
theorem find_of_fileAt? {bytes : ByteArray} {time : Int}
    (h : s.fileAt? path = some (bytes, time)) :
    s.files.find path = .ok (some (.file bytes time)) := by
  unfold fileAt? at h
  split at h
  · rename_i hfind
    cases h
    exact hfind
  · cases h

/-- What is known stays right when no file gets older. -/
theorem Dated.ages (h : s.Dated m) {files : Files}
    (hages : s.files.Ages files) :
    ({ s with files := files } : Scene).Dated m := by
  have hlater : ∀ {path bytes time}, s.fileAt? path = some (bytes, time) →
      ∃ bytes' time', ({ s with files := files } : Scene).fileAt? path
          = some (bytes', time') ∧
        (time < time' ∨ bytes' = bytes ∧ time' = time) := by
    intro path bytes time hfile
    obtain ⟨bytes', time', hfind, hcases⟩ := hages.find (find_of_fileAt? hfile)
    exact ⟨bytes', time', by simp [fileAt?, hfind], hcases⟩
  refine ⟨fun path k hk => ?_, fun path hpath => ?_⟩
  · obtain ⟨bytes, time, hfile, hle, hlists⟩ := h.kept path k hk
    obtain ⟨bytes', time', hfile', hcases⟩ := hlater hfile
    refine ⟨bytes', time', hfile', ?_, fun heq => ?_⟩
    · rcases hcases with hlt | ⟨-, rfl⟩
      · omega
      · exact hle
    · rcases hcases with hlt | ⟨rfl, rfl⟩
      · omega
      · exact hlists heq
  · obtain ⟨hinactive, hfile, hunkept⟩ := h.failed path hpath
    obtain ⟨⟨bytes, time⟩, hfile⟩ := Option.isSome_iff_exists.mp hfile
    obtain ⟨bytes', time', hfile', hcases⟩ := hlater hfile
    refine ⟨hinactive, by simp [hfile'],
      (current?_eq_none_iff hfile').mpr fun k hk => ?_⟩
    have hne := (current?_eq_none_iff hfile).mp hunkept k hk
    obtain ⟨_, _, hsame, hle, -⟩ := h.kept path k hk
    cases hfile.symm.trans hsame
    rcases hcases with hlt | ⟨-, rfl⟩
    · omega
    · exact hne

/-- A call of the analyser leaves its memory dated. -/
theorem Dated.analyze (h : s.Dated p.memory) (text : String) (depth : Int)
    (parent : Option Path) :
    s.Dated (s.call p (.analyze text depth parent)).memory := by
  rcases call_analyze_cases s p text depth parent
    with hsame | ⟨records, opened, hexp⟩
  · rw [hsame]
    exact h
  · exact hexp.dated h

namespace History

/-- Whatever has been edited and called, the memory is dated. -/
theorem dated (h : History start tried s p) : s.Dated p.memory := by
  induction h with
  | start => exact .empty
  | reset before ih => exact .empty
  | clear before ih => exact ih.forget
  | analyze before text depth parent ih => exact ih.analyze text depth parent
  | edit before text bytes modified later ih =>
      exact ih.ages (Files.ages_write later bytes)

/-- Between calls no file is being analysed. -/
theorem idle (h : History start tried s p) : p.memory.active = [] := by
  induction h with
  | start => rfl
  | reset before ih => rfl
  | clear before ih => exact ih
  | analyze before text depth parent ih =>
      exact (active_analyzeWithin _ _ _ _ _ _).trans ih
  | edit before text bytes modified later ih => exact ih

/-- A file has failed because an analysis came upon it when it was broken. -/
theorem exists_broken (h : History start tried s p) :
    ∀ q ∈ p.memory.failed, ∃ t ∈ tried, t.Broken q := by
  induction h with
  | start => simp
  | reset before ih => simp [call, Progress.remember]
  | clear before ih => exact ih
  | @analyze tried s p before text depth parent ih =>
      have hearlier : ∀ q ∈ p.memory.failed, ∃ t ∈ s :: tried, t.Broken q := by
        intro q hq
        obtain ⟨t, ht, hbroken⟩ := ih q hq
        exact ⟨t, List.mem_cons_of_mem _ ht, hbroken⟩
      rcases call_analyze_cases s p text depth parent
        with hsame | ⟨records, opened, hexp⟩
      · rw [hsame]
        exact hearlier
      · intro q hq
        rcases hexp.failed_or_broken q hq with hmem | hbroken
        · exact hearlier q hmem
        · exact ⟨s, List.mem_cons_self, hbroken⟩
  | edit before text bytes modified later ih => exact ih

end History

/-- A path that cannot be looked up is an error, whatever is known. -/
theorem answer_eq_error_iff (s : Scene) (p : Progress) (text : String)
    (e : NameTooLong) :
    s.answer p text = .error e ↔
      s.files.find (Path.ofString text).place = .error e := by
  cases hfind : s.files.find (Path.ofString text).place with
  | error e' =>
      rw [answer, Scene.analyze, analyzeWithin_of_error hfind]
      simp
  | ok there =>
      obtain ⟨p', found, opened, hrun, -⟩ :=
        analyzeWithin_visits ⟨there, hfind⟩ (s.roomFrom 0) p 0 none
      rw [answer, Scene.analyze, ← roomFrom, hrun]
      simp

section Answers

variable {text : String}
  (hfind : ∃ there, s.files.find (Path.ofString text).place = .ok there)
  (hidle : p.memory.active = []) (hdepth : 1 ≤ s.resolver.config.maxDepth)

include hfind hidle hdepth

/-- **What a call from the top answers.**  If the path can be looked up, the
file is not known and has failed or has no facts; or it is known as it stands;
or it has facts and has not failed. -/
theorem answer_cases :
    (s.answer p text = .ok none ∧
      s.current? p.memory (Path.ofString text).place = none ∧
      ((Path.ofString text).place ∈ p.memory.failed ∨
        s.own? (Path.ofString text).place = none)) ∨
    (∃ k, s.answer p text = .ok (some (k.record.seenFrom 0 none)) ∧
      s.current? p.memory (Path.ofString text).place = some k) ∨
    (∃ record, s.answer p text = .ok (some record) ∧
      (Path.ofString text).place ∉ p.memory.failed ∧
      s.own? (Path.ofString text).place = some record.facts) := by
  obtain ⟨room, hroom⟩ : ∃ room, s.roomFrom 0 = room + 1 := by
    refine Nat.exists_eq_succ_of_ne_zero ?_
    rw [roomFrom]
    omega
  obtain ⟨p', found, opened, hrun, -, hexp⟩ :=
    analyzeWithin_visits hfind (s.roomFrom 0) p 0 none
  rw [answer, Scene.analyze, ← roomFrom, hrun]
  rw [hroom] at hexp
  rcases hexp.of_one hidle with
    ⟨hnone, hunkept, hwhy⟩ | ⟨k, hk, hsome⟩ | ⟨facts, children, hown,
      huntried, hsome⟩
  · rw [Option.toList_eq_nil_iff] at hnone
    exact .inl ⟨congrArg Except.ok hnone, hunkept, hwhy⟩
  · rw [Option.toList_eq_singleton_iff] at hsome
    exact .inr (.inl ⟨k, congrArg Except.ok hsome, hk⟩)
  · rw [Option.toList_eq_singleton_iff] at hsome
    exact .inr (.inr ⟨_, congrArg Except.ok hsome, huntried, hown⟩)

/-- A file that has not failed is passed over only if it has no facts. -/
theorem own?_eq_none_of_answer
    (huntried : (Path.ofString text).place ∉ p.memory.failed)
    (hans : s.answer p text = .ok none) :
    s.own? (Path.ofString text).place = none := by
  rcases answer_cases hfind hidle hdepth with
    ⟨-, -, hwhy⟩ | ⟨k, hsome, -⟩ | ⟨record, hsome, -⟩
  · exact hwhy.resolve_left huntried
  · cases hans.symm.trans hsome
  · cases hans.symm.trans hsome

/-- A file without facts is passed over, unless a current record of it
is kept. -/
theorem answer_of_own?_eq_none
    (hunkept : s.current? p.memory (Path.ofString text).place = none)
    (hown : s.own? (Path.ofString text).place = none) :
    s.answer p text = .ok none := by
  rcases answer_cases hfind hidle hdepth with
    ⟨hans, -⟩ | ⟨k, -, hk⟩ | ⟨record, -, -, hsome⟩
  · exact hans
  · cases hunkept.symm.trans hk
  · cases hown.symm.trans hsome

/-- A record that is given out has the lists of its file as it stands. -/
theorem Dated.lists_of_answer (h : s.Dated p.memory) {r : Record}
    (hr : s.answer p text = .ok (some r)) :
    ∃ bytes time, s.fileAt? (Path.ofString text).place = some (bytes, time) ∧
      s.resolver.listsOf (Path.ofString text).place bytes =
        some r.facts.lists := by
  rcases answer_cases hfind hidle hdepth with
    ⟨hans, -⟩ | ⟨k, hans, hk⟩ | ⟨record, hans, -, hown⟩ <;>
      cases hans.symm.trans hr
  · exact h.lists_of_current? hk
  · exact lists_of_own? hown

end Answers

/-- A file with facts has a record for a new analyser. -/
theorem exists_answer_anew {text : String} {facts : Facts}
    (h : s.own? (Path.ofString text).place = some facts)
    (hdepth : 1 ≤ s.resolver.config.maxDepth) :
    ∃ r, s.answer {} text = .ok (some r) ∧ r.facts = facts := by
  obtain ⟨bytes, time, hfile, -⟩ := lists_of_own? h
  rcases answer_cases (p := {}) ⟨_, find_of_fileAt? hfile⟩ rfl hdepth with
    ⟨-, -, hfailed | hnone⟩ | ⟨k, -, hk⟩ | ⟨r, hans, -, hown⟩
  · cases hfailed
  · rw [h] at hnone
    cases hnone
  · cases find?_of_current? hk
  · exact ⟨r, hans, Option.some.inj (hown.symm.trans h)⟩

namespace Dated

variable {text : String}

/-- A file that has failed is passed over, whatever has become of it. -/
theorem answer_of_failed (h : s.Dated p.memory) (hidle : p.memory.active = [])
    (hdepth : 1 ≤ s.resolver.config.maxDepth)
    (hfailed : (Path.ofString text).place ∈ p.memory.failed) :
    s.answer p text = .ok none := by
  obtain ⟨-, hfile, hunkept⟩ := h.failed _ hfailed
  obtain ⟨file, hfile⟩ := Option.isSome_iff_exists.mp hfile
  rcases answer_cases ⟨_, find_of_fileAt? hfile⟩ hidle hdepth with
    ⟨hans, -⟩ | ⟨k, -, hk⟩ | ⟨record, -, huntried, -⟩
  · exact hans
  · rw [hunkept] at hk
    cases hk
  · exact absurd hfailed huntried

/-- Of a file without facts no current record is kept, if all it requires can be
looked up. -/
theorem current?_eq_none (h : s.Dated m) (hresolves : s.Resolves path)
    (hown : s.own? path = none) : s.current? m path = none := by
  cases hk : s.current? m path with
  | none => rfl
  | some k =>
      obtain ⟨bytes, time, hfile, hlists⟩ := h.lists_of_current? hk
      rw [Resolver.listsOf] at hlists
      split at hlists
      · rename_i source hread
        have hsome := hresolves bytes time source hfile hread
        rw [hown] at hsome
        cases hsome
      · cases hlists

end Dated

/-- The file of the scenes below. -/
def draftFile : Path :=
  ⟨.here, ["ws", "a.js"]⟩

/-- A workspace with one file, which cannot be read. -/
def draft : Scene where
  files :=
    { entries := [
        (["R", "ws"], .directory),
        (["R", "ws", "a.js"], .file "const = ;".toUTF8 1000)]
      current := ["R"] }
  resolver :=
    ⟨{ Config.usual (.ofString "ws") "m" with libraryPatterns := [] }, []⟩

/-- The file can be read now. -/
def mended : Scene :=
  draft.edit "ws/a.js" "res.locals.x=1".toUTF8 2000

/-- The file holds something else. -/
def revised : Scene :=
  mended.edit "ws/a.js" "res.locals.y=1".toUTF8 3000

attribute [irreducible] draftFile

/-- What the scenes hold, and when files have failed. -/
theorem layout_draft :
    (Path.ofString "ws/a.js").place = draftFile ∧
    draft.files.CanWrite (.ofString "ws/a.js") 2000 ∧
    mended.files.CanWrite (.ofString "ws/a.js") 3000 ∧
    mended.listed draftFile .locals .write = some ["x"] ∧
    revised.listed draftFile .locals .write = some ["y"] ∧
    (draft.call {} (.analyze "ws/a.js" 0 none)).memory.failed = [draftFile] ∧
    (mended.call {} (.analyze "ws/a.js" 0 none)).memory.failed = [] := by
  decide +kernel

/-- **Calls between edits.**  Let files be edited and an analyser be called in
any order, and let every edit make its file later.  A call from the top gives
an error just when a new analyser does.  A file that has failed since the last
reset has no record, and it has failed because an analysis came upon it when it
was broken.  Of any other file there is a record if a new analyser has one, and
only if it has one, provided that what the file requires can be looked up.  And
whenever both have a record, the records agree on the lists of the file. -/
theorem analyze_after_edits {start s : Scene} {tried : List Scene}
    {p : Progress} (h : History start tried s p)
    (hdepth : 1 ≤ s.resolver.config.maxDepth) (text : String) :
    (∀ e, s.answer p text = .error e ↔ s.answer {} text = .error e) ∧
    ((Path.ofString text).place ∈ p.memory.failed →
      s.answer p text = .ok none ∧ ∃ t ∈ tried,
        t.Broken (Path.ofString text).place) ∧
    ((Path.ofString text).place ∉ p.memory.failed →
      (s.answer p text = .ok none → s.answer {} text = .ok none) ∧
      (s.Resolves (Path.ofString text).place →
        s.answer {} text = .ok none → s.answer p text = .ok none)) ∧
    ∀ r r', s.answer p text = .ok (some r) → s.answer {} text = .ok (some r') →
      r.facts.lists = r'.facts.lists := by
  have hnew : s.Dated ({} : Progress).memory := .empty
  have hunknown : s.current? ({} : Progress).memory (Path.ofString text).place =
      none := by
    simp [current?, Memory.find?]
  refine ⟨fun e => ?_, fun hfailed => ?_, ?_⟩
  · rw [answer_eq_error_iff, answer_eq_error_iff]
  · exact ⟨h.dated.answer_of_failed h.idle hdepth hfailed,
      h.exists_broken _ hfailed⟩
  cases hfind : s.files.find (Path.ofString text).place with
  | error e =>
      rw [(answer_eq_error_iff s p text e).mpr hfind,
        (answer_eq_error_iff s {} text e).mpr hfind]
      simp
  | ok there =>
      have hthere : ∃ there, s.files.find (Path.ofString text).place =
          .ok there :=
        ⟨there, hfind⟩
      refine ⟨fun huntried => ⟨fun hans => ?_, fun hresolves hans => ?_⟩,
        fun r r' hr hr' => ?_⟩
      · have hown := own?_eq_none_of_answer hthere h.idle hdepth huntried hans
        exact answer_of_own?_eq_none hthere rfl hdepth hunknown hown
      · have hown := own?_eq_none_of_answer hthere rfl hdepth (by simp) hans
        exact answer_of_own?_eq_none hthere h.idle hdepth
          (h.dated.current?_eq_none hresolves hown) hown
      · obtain ⟨bytes, time, hfile, hlists⟩ :=
          h.dated.lists_of_answer hthere h.idle hdepth hr
        obtain ⟨bytes', time', hfile', hlists'⟩ :=
          hnew.lists_of_answer hthere rfl hdepth hr'
        cases hfile.symm.trans hfile'
        exact Option.some.inj (hlists.symm.trans hlists')

/-- A file that is revised after its analysis is analysed anew. -/
theorem analyze_after_revision :
    History draft [mended] revised
      (mended.call {} (.analyze "ws/a.js" 0 none)) ∧
    ∃ r r', revised.answer
      (mended.call {} (.analyze "ws/a.js" 0 none)) "ws/a.js"
        = .ok (some r) ∧
      revised.answer {} "ws/a.js" = .ok (some r') ∧
        r.facts.lists = r'.facts.lists ∧
      r.facts.usages.localsWrites.map (·.property) = ["y"] := by
  obtain ⟨hplace, hmend, hrevise, -, hlisted, -, hfailed⟩ := layout_draft
  have hhistory : History draft [mended] revised
      (mended.call {} (.analyze "ws/a.js" 0 none)) :=
    (((History.start).edit _ _ _ hmend).analyze _ _ _).edit _ _ _ hrevise
  have hdepth : 1 ≤ revised.resolver.config.maxDepth := by decide
  obtain ⟨facts, hown, hproperties⟩ := Option.map_eq_some_iff.mp hlisted
  rw [← hplace] at hown
  obtain ⟨r', hr', rfl⟩ := exists_answer_anew hown hdepth
  obtain ⟨herror, -, hnone, hlists⟩ :=
    analyze_after_edits hhistory hdepth "ws/a.js"
  obtain ⟨hsame, -⟩ := hnone (by simp [hfailed])
  refine ⟨hhistory, ?_⟩
  cases hr :
      revised.answer (mended.call {} (.analyze "ws/a.js" 0 none)) "ws/a.js" with
  | error e =>
      rw [(herror e).mp hr] at hr'
      cases hr'
  | ok found =>
      cases found with
      | none =>
          rw [hsame hr] at hr'
          cases hr'
      | some r =>
          have hagree := hlists r r' hr hr'
          have husages : r.facts.usages = r'.facts.usages :=
            congrArg Prod.fst hagree
          exact ⟨r, r', rfl, hr', hagree, by rw [husages]; exact hproperties⟩

/-- **Mending does not help.**  A file is analysed while it cannot be read, and
then mended.  It has facts now and a new analyser has a record of it, but the
analyser that has failed on it has none, and it still has none when it has
forgotten its records. -/
theorem not_analyzed_after_mending :
    History draft [draft] mended (draft.call {} (.analyze "ws/a.js" 0 none)) ∧
    mended.answer (draft.call {} (.analyze "ws/a.js" 0 none)) "ws/a.js" =
      .ok none ∧
    mended.answer
      (mended.call (draft.call {} (.analyze "ws/a.js" 0 none)) .clear) "ws/a.js"
      = .ok none ∧
    ∃ r, mended.answer {} "ws/a.js" = .ok (some r) := by
  obtain ⟨hplace, hmend, -, hlisted, -, hfailed, -⟩ := layout_draft
  have hhistory : History draft [draft] mended
      (draft.call {} (.analyze "ws/a.js" 0 none)) :=
    ((History.start).analyze _ _ _).edit _ _ _ hmend
  have hdepth : 1 ≤ mended.resolver.config.maxDepth := by decide
  have hmem : (Path.ofString "ws/a.js").place
      ∈ (draft.call {} (.analyze "ws/a.js" 0 none)).memory.failed := by
    simp [hfailed, hplace]
  obtain ⟨facts, hown, -⟩ := Option.map_eq_some_iff.mp hlisted
  rw [← hplace] at hown
  obtain ⟨r, hr, -⟩ := exists_answer_anew hown hdepth
  exact ⟨hhistory, hhistory.dated.answer_of_failed hhistory.idle hdepth hmem,
    hhistory.clear.dated.answer_of_failed hhistory.clear.idle hdepth hmem, r,
    hr⟩

end Scene

end Relay
