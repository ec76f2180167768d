import Relay.Facts
import Relay.Proofs.PathText

/-!
# What resolving a specifier finds

A path that the resolver finds for a plain file is plain and leads to a file.
Looking up a name that is too long is an error, so every name of a found path
is short; hence its place can be looked up without an error as well.  This is
why only the first file of an analysis can be one that cannot be looked up.
-/

namespace Relay

/-- From a successful computation in two parts, both parts. -/
theorem exists_of_bind_eq_ok {ε α β : Type} {x : Except ε α}
    {f : α → Except ε β} {b : β} (h : x >>= f = .ok b) :
    ∃ a, x = .ok a ∧ f a = .ok b := by
  cases x with
  | error e => cases h
  | ok a => exact ⟨a, rfl, h⟩

namespace Files

/-- Short names are followed without an error. -/
theorem follow_eq_ok {fs : Files} {path : Path} {names : List String}
    (h : ∀ name ∈ names, name.utf8ByteSize ≤ longestName)
    (place : List String) :
    ∃ there, fs.follow path place names = .ok there := by
  induction names generalizing place with
  | nil => exact ⟨_, rfl⟩
  | cons name rest ih =>
      have hname := h name (by simp)
      have hrest := ih fun n hn => h n (List.mem_cons_of_mem _ hn)
      unfold follow
      split
      · split
        · exact hrest _
        · rw [if_neg (by omega)]
          exact hrest _
      · exact ⟨_, rfl⟩

/-- Names that lead somewhere are short. -/
theorem short_of_follow {fs : Files} {path : Path} {names place : List String}
    {entry : Entry} (h : fs.follow path place names = .ok (some entry)) :
    ∀ name ∈ names, name.utf8ByteSize ≤ longestName := by
  induction names generalizing place with
  | nil => simp
  | cons name rest ih =>
      unfold follow at h
      split at h
      · split at h
        · rename_i hdots
          have hsize : ("..".utf8ByteSize) ≤ longestName := by decide
          intro n hn
          rcases List.mem_cons.mp hn with rfl | hn
          · exact hdots ▸ hsize
          · exact ih h n hn
        · split at h
          · cases h
          · intro n hn
            rcases List.mem_cons.mp hn with rfl | hn
            · omega
            · exact ih h n hn
      · cases h

/-- A path is that of a file just when a file is found there. -/
theorem isFile_eq_true_iff {fs : Files} {path : Path} :
    fs.isFile path = .ok true
      ↔ ∃ bytes modified, fs.find path = .ok (some (.file bytes modified)) := by
  unfold isFile
  constructor
  · intro h
    obtain ⟨there, hfind, h⟩ := exists_of_bind_eq_ok h
    split at h
    · exact ⟨_, _, hfind⟩
    · cases h
  · rintro ⟨bytes, modified, hfind⟩
    rw [hfind]
    rfl

end Files

/-- A path that was found: it is plain and leads to a file. -/
structure Found (fs : Files) (path : Path) : Prop where
  plain : path.Plain
  isFile : fs.isFile path = .ok true

namespace Found

/-- The place of a found path can be looked up. -/
theorem find_place {fs : Files} {path : Path} (h : Found fs path) :
    ∃ there, fs.find path.place = .ok there := by
  obtain ⟨bytes, modified, hfind⟩ := Files.isFile_eq_true_iff.mp h.isFile
  have hshort := Files.short_of_follow hfind
  apply Files.follow_eq_ok
  intro name hname
  rcases Path.mem_names_place h.plain hname with hname | hsize
  · exact hshort name hname
  · exact Nat.le_trans hsize (by decide)

end Found

namespace Resolver

variable {r : Resolver} {fs : Files}

/-- The directory of the workspace has a plain path. -/
theorem plain_workspace : r.workspace.Plain :=
  Path.plain_ofString _

/-- The directory of the middlewares has a plain path. -/
theorem plain_middlewares : r.middlewares.Plain :=
  plain_workspace.below _

/-- The first file among some paths is one of them, and a file. -/
theorem found_of_firstFile {paths : List Path} {q : Path}
    (hpaths : ∀ p ∈ paths, p.Plain) (h : firstFile fs paths = .ok (some q)) :
    Found fs q := by
  induction paths with
  | nil => cases h
  | cons p rest ih =>
      obtain ⟨isFile, hfile, h⟩ := exists_of_bind_eq_ok h
      split at h
      · rename_i htrue
        cases h
        exact ⟨hpaths q (by simp), by rw [hfile, htrue]⟩
      · exact ih (fun p hp => hpaths p (List.mem_cons_of_mem _ hp)) h

/-- The index files of a directory have plain paths. -/
theorem plain_indexFiles {directory : Path} (h : directory.Plain) :
    ∀ p ∈ r.indexFiles directory, p.Plain := by
  intro p hp
  obtain ⟨e, -, rfl⟩ := List.mem_map.mp hp
  exact h.below _

/-- The paths that are tried for a plain one are plain. -/
theorem plain_candidates {base : Path} (h : base.Plain) :
    ∀ p ∈ r.candidates base, p.Plain := by
  intro p hp
  rcases List.mem_append.mp hp with hp | hp
  · obtain ⟨e, -, rfl⟩ := List.mem_map.mp hp
    exact Path.plain_ofString _
  · exact plain_indexFiles h p hp

/-- What is located from a plain path is found. -/
theorem found_of_locate {base q : Path} {specifier : String}
    (hbase : base.Plain) (h : r.locate fs base specifier = .ok (some q)) :
    Found fs q := by
  unfold locate at h
  split at h
  · obtain ⟨isFile, hfile, h⟩ := exists_of_bind_eq_ok h
    split at h
    · rename_i htrue
      cases h
      exact ⟨hbase, by rw [hfile, htrue]⟩
    · cases h
  · exact found_of_firstFile (plain_candidates hbase) h

/-- The file of a middleware is found. -/
theorem found_of_entryPath {specifier : String} {q : Path}
    (h : r.entryPath fs specifier = .ok (some q)) : Found fs q :=
  found_of_locate (plain_middlewares.below _).normalize h

/-- The first of some plain paths at which there is anything is plain. -/
theorem plain_of_firstExisting {paths : List Path} {q : Path}
    (hpaths : ∀ p ∈ paths, p.Plain)
    (h : firstExisting fs paths = .ok (some q)) : q.Plain := by
  induction paths with
  | nil => cases h
  | cons p rest ih =>
      obtain ⟨isThere, -, h⟩ := exists_of_bind_eq_ok h
      split at h
      · cases h
        exact hpaths q (by simp)
      · exact ih (fun p hp => hpaths p (List.mem_cons_of_mem _ hp)) h

/-- The directory of a package has a plain path. -/
theorem plain_of_packageRoot {package : String} {root : Path}
    (h : r.packageRoot fs package = .ok (some root)) : root.Plain := by
  refine plain_of_firstExisting (fun p hp => ?_) h
  rcases List.mem_cons.mp hp with rfl | hp
  · exact plain_workspace.below _
  · rw [List.mem_singleton.mp hp]
    exact ((plain_middlewares.below _).below _).below _

/-- Where a hit in the packages was located: somewhere below the directory of a
package. -/
theorem exists_of_resolveIn {specifier : String}
    {packages : List (String × String)} {q : Path}
    (h : r.resolveIn fs specifier packages = .ok (some q)) :
    ∃ package root inside, r.packageRoot fs package = .ok (some root) ∧
      r.locate fs (root.below inside).normalize inside = .ok (some q) := by
  induction packages with
  | nil => cases h
  | cons package rest ih =>
      obtain ⟨name, package⟩ := package
      unfold resolveIn at h
      split at h
      · obtain ⟨root?, hroot, h⟩ := exists_of_bind_eq_ok h
        split at h
        · exact ih h
        · obtain ⟨found?, hfound, h⟩ := exists_of_bind_eq_ok h
          split at h
          · cases h
            exact ⟨package, _, _, hroot, hfound⟩
          · exact ih h
      · exact ih h

/-- What is found in the packages is a file with a plain path. -/
theorem found_of_resolveIn {specifier : String}
    {packages : List (String × String)} {q : Path}
    (h : r.resolveIn fs specifier packages = .ok (some q)) : Found fs q := by
  obtain ⟨package, root, inside, hroot, hfound⟩ := exists_of_resolveIn h
  exact found_of_locate ((plain_of_packageRoot hroot).below _).normalize hfound

/-- What a namespaced specifier stands for is found. -/
theorem found_of_resolveNamespaced {specifier : String} {q : Path}
    (h : r.resolveNamespaced fs specifier = .ok (some q)) : Found fs q := by
  unfold resolveNamespaced at h
  split at h
  · obtain ⟨root?, hroot, h⟩ := exists_of_bind_eq_ok h
    split at h
    · exact found_of_firstFile
        (plain_indexFiles (plain_of_packageRoot hroot)) h
    · cases h
  · exact found_of_resolveIn h

/-- What a specifier is found by: below the file that requires it, or in the
packages. -/
theorem cases_of_resolve {specifier : String} {file q : Path}
    (h : r.resolve fs specifier file = .ok (.found q)) :
    (isLocalSpecifier specifier = true ∧
      r.resolveLocal fs specifier file.parent = .ok (some q)) ∨
      (isLocalSpecifier specifier = false ∧
        r.resolveNamespaced fs specifier = .ok (some q)) := by
  unfold resolve at h
  split at h
  · rename_i hlocal
    obtain ⟨q?, hq, h⟩ := exists_of_bind_eq_ok h
    cases q? with
    | none => cases h
    | some q' =>
        cases h
        exact .inl ⟨hlocal, hq⟩
  · rename_i hlocal
    split at h
    · obtain ⟨q?, hq, h⟩ := exists_of_bind_eq_ok h
      cases q? with
      | none => cases h
      | some q' =>
          cases h
          exact .inr ⟨by simpa using hlocal, hq⟩
    · cases h

/-- **A resolved specifier of a plain file is found.** -/
theorem found_of_resolve {specifier : String} {file q : Path}
    (hfile : file.Plain) (h : r.resolve fs specifier file = .ok (.found q)) :
    Found fs q := by
  rcases cases_of_resolve h with ⟨-, h⟩ | ⟨-, h⟩
  · exact found_of_locate (hfile.parent.below _).normalize h
  · exact found_of_resolveNamespaced h

end Resolver

/-- The path of a dependency is found. -/
theorem found_of_dependencyOf {r : Resolver} {fs : Files} {file q : Path}
    {requirement : Analysis.Requirement} {d : Dependency} {log : List LogEntry}
    (hfile : file.Plain) (h : dependencyOf r fs file requirement = .ok (d, log))
    (hq : d.path = some q) : Found fs q := by
  obtain ⟨outcome, hout, h⟩ := exists_of_bind_eq_ok h
  cases h
  cases outcome with
  | found path =>
      cases hq
      exact Resolver.found_of_resolve hfile hout
  | foreign => cases hq
  | missing => cases hq

/-- Every dependency comes of something that the file requires. -/
theorem exists_dependencyOf {r : Resolver} {fs : Files} {file : Path}
    {requirements : List Analysis.Requirement} {log : List LogEntry}
    {ds : List Dependency}
    (h : dependenciesOf r fs file requirements = (log, .ok ds)) :
    ∀ d ∈ ds, ∃ requirement ∈ requirements, ∃ entries,
      dependencyOf r fs file requirement = .ok (d, entries) := by
  induction requirements generalizing log ds with
  | nil =>
      cases h
      simp
  | cons requirement rest ih =>
      unfold dependenciesOf at h
      split at h
      · cases h
      · rename_i d entries hd
        split at h
        · rename_i log' ds' hrest
          cases h
          intro e he
          rcases List.mem_cons.mp he with rfl | he
          · exact ⟨requirement, List.mem_cons_self, entries, hd⟩
          · obtain ⟨q, hq, hentries⟩ := ih hrest e he
            exact ⟨q, List.mem_cons_of_mem _ hq, hentries⟩
        · cases h

/-- **The facts of a source**, if its dependencies can be found. -/
theorem eq_of_factsOf {r : Resolver} {fs : Files} {source : Source}
    {log : List LogEntry} {facts : Facts}
    (h : factsOf r fs source = (log, .ok facts)) :
    ∃ dependencies,
      dependenciesOf r fs source.path (Analysis.requirementsOf source) =
        (log, .ok dependencies) ∧
      facts =
        { usages :=
            .of source (r.isLibrary source.path.text) r.config.expandLiterals
          calls :=
            Analysis.ServiceCalls.of source (r.isLibrary source.path.text)
          lookups := Analysis.lookupsOf source
          dependencies := dependencies
          exports := Analysis.exportsOf source } := by
  unfold factsOf at h
  simp only at h
  split at h
  · cases h
  · rename_i dependencies hdependencies
    cases h
    exact ⟨dependencies, hdependencies, rfl⟩

/-- The dependencies in the facts of a source. -/
theorem dependenciesOf_of_factsOf {r : Resolver} {fs : Files} {source : Source}
    {log : List LogEntry} {facts : Facts}
    (h : factsOf r fs source = (log, .ok facts)) :
    dependenciesOf r fs source.path (Analysis.requirementsOf source)
      = (log, .ok facts.dependencies) := by
  obtain ⟨dependencies, hdependencies, rfl⟩ := eq_of_factsOf h
  exact hdependencies

/-- **The files that an analysis goes on with are found.** -/
theorem found_of_factsOf {r : Resolver} {fs : Files} {source : Source}
    (hsource : source.path.Plain) {log : List LogEntry} {facts : Facts}
    (h : factsOf r fs source = (log, .ok facts)) :
    ∀ d ∈ facts.dependencies, ∀ q, d.path = some q → Found fs q := by
  intro d hd q hq
  obtain ⟨requirement, -, entries, hdep⟩ :=
    exists_dependencyOf (dependenciesOf_of_factsOf h) d hd
  exact found_of_dependencyOf hsource hdep hq

end Relay
