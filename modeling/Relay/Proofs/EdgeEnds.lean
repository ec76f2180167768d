import Relay.Proofs.ComponentEdges

/-!
# What the ends of an edge show

An edge between two files is drawn for every property that one of them writes
and the other reads, if the writer is met under a middleware that does not come
after one that the reader is met under; it is drawn once, however often the
files are met (`componentEdges_by_order`).

The files of an edge are different, but the edge shows only how their paths
end.  So it can lead from a name back to the same name: just when the two files
have paths with the same ending (`selfEdges_exact`,
`exists_selfEdge_lookalikes`).
-/

namespace Relay

open Analysis

/-- No edge is there twice. -/
theorem nodup_componentEdges (m : Memory) (ms : List Middleware) :
    (componentEdges m ms).Nodup := by
  have hnodup := nodup_map_uniqueFrom id [] ((groupedByProperty
    (occurrences m (·.usages.localsWrites) ms)).flatMap fun w =>
      (occurrences m (·.usages.localsReads) ms).filterMap (componentEdge? w))
  rw [List.map_id] at hnodup
  exact hnodup

/-- A property is used in a file that is met under the middleware with a
number. -/
def OccursAt (m : Memory) (ms : List Middleware)
    (usages : Facts → List PropertyUsage) (property : String) (i : Nat)
    (file : Record) : Prop :=
  ∃ mid record, ms[i]? = some mid ∧ mid.record = some record ∧
    file ∈ m.expand record ∧ ∃ u ∈ usages file.facts, u.property = property

/-- An occurrence at a path is one in a file with that path. -/
theorem exists_mem_occurrences_iff {m : Memory}
    {usages : Facts → List PropertyUsage} {ms : List Middleware}
    {property : String} {i : Nat} {path : Path} :
    ⟨property, i, path⟩ ∈ occurrences m usages ms ↔
      ∃ file, OccursAt m ms usages property i file ∧ file.path = path := by
  rw [mem_occurrences]
  constructor
  · intro h
    obtain ⟨mid, hmid, file, hfile, hpath, husage⟩ := h
    cases hrecord : mid.record with
    | none =>
        rw [Middleware.expanded, hrecord] at hfile
        cases hfile
    | some record =>
        rw [Middleware.expanded, hrecord] at hfile
        exact ⟨file, ⟨mid, record, hmid, hrecord, hfile, husage⟩, hpath⟩
  · intro h
    obtain ⟨file, ⟨mid, record, hmid, hrecord, hfile, husage⟩, hpath⟩ := h
    refine ⟨mid, hmid, file, ?_, hpath, husage⟩
    rw [Middleware.expanded, hrecord]
    exact hfile

/-- **Edges follow the order of the middlewares.**  Whatever is remembered and
whatever the middlewares are, no edge is drawn twice.  An edge is drawn for a
property just when some file that is met under a middleware writes it, some
file with another path that is met under the same middleware or a later one
reads it, and these are the files whose short paths the edge shows; it does not
matter where else the files are met. -/
theorem componentEdges_by_order (m : Memory) (ms : List Middleware) :
    (componentEdges m ms).Nodup ∧
    ∀ source target property, ⟨source, target, property⟩ ∈ componentEdges m ms ↔
      ∃ (i j : Nat) (writer reader : Record), i ≤ j ∧
        OccursAt m ms (·.usages.localsWrites) property i writer ∧
        OccursAt m ms (·.usages.localsReads) property j reader ∧
        writer.path ≠ reader.path ∧
        writer.path.short = source ∧ reader.path.short = target := by
  refine ⟨nodup_componentEdges m ms, ?_⟩
  intro source target property
  rw [mem_componentEdges]
  constructor
  · intro h
    obtain ⟨⟨wp, i, wpath⟩, hw, ⟨rp, j, rpath⟩, hr, hedge⟩ := h
    obtain ⟨⟨rfl, rfl⟩, hij, hne, hsource, htarget⟩ :=
      componentEdge?_eq_some_iff.mp hedge
    obtain ⟨writer, hwriter, rfl⟩ := exists_mem_occurrences_iff.mp hw
    obtain ⟨reader, hreader, rfl⟩ := exists_mem_occurrences_iff.mp hr
    exact ⟨i, j, writer, reader, hij, hwriter, hreader, hne, hsource, htarget⟩
  · intro h
    obtain ⟨i, j, writer, reader, hij, hwriter, hreader, hne, hsource,
        htarget⟩ := h
    refine ⟨⟨property, i, writer.path⟩,
      exists_mem_occurrences_iff.mpr ⟨writer, hwriter, rfl⟩,
      ⟨property, j, reader.path⟩,
      exists_mem_occurrences_iff.mpr ⟨reader, hreader, rfl⟩, ?_⟩
    exact componentEdge?_eq_some_iff.mpr ⟨⟨rfl, rfl⟩, hij, hne, hsource,
      htarget⟩

namespace Path

/-- The pieces of a path that its short form shows. -/
def ending (p : Path) : List String :=
  lastPieces shortLength (Text.split '/' (Text.replaceChar '\\' '/' p.text))

theorem short_eq_join (p : Path) : p.short = Text.join "/" p.ending := rfl

/-- The ending of a path is what is left of its names without all but three.
-/
theorem ending_eq_drop (p : Path) : p.ending
    = (Text.split '/' (Text.replaceChar '\\' '/' p.text)).drop
      ((Text.split '/' (Text.replaceChar '\\' '/' p.text)).length - 3) := by
  simp [ending, lastPieces, shortLength]

/-- Every path has an ending. -/
theorem ending_ne_nil (p : Path) : p.ending ≠ [] := by
  have hpieces :
      0 < (Text.split '/' (Text.replaceChar '\\' '/' p.text)).length := by
    rw [Text.split, List.length_map]
    exact List.length_pos_iff.mpr (List.splitOn_ne_nil _ _)
  rw [ending_eq_drop, ne_eq, List.drop_eq_nil_iff]
  omega

/-- No name of an ending has a slash. -/
theorem slash_notMem_of_mem_ending {p : Path} {name : String}
    (h : name ∈ p.ending) :
    '/' ∉ name.toList := by
  rw [ending_eq_drop] at h
  exact Text.not_mem_of_mem_split (List.mem_of_mem_drop h)

/-- The short form shows the ending and nothing else. -/
theorem short_eq_short_iff {p q : Path} :
    p.short = q.short ↔ p.ending = q.ending := by
  have hback : ∀ p : Path, Text.split '/' p.short = p.ending := by
    intro p
    rw [short_eq_join]
    exact Text.split_join (by decide) p.ending_ne_nil fun _ =>
      slash_notMem_of_mem_ending
  constructor
  · intro h
    rw [← hback p, h, hback q]
  · intro h
    rw [short_eq_join, h, short_eq_join]

end Path

namespace Scene

/-- **Edges from a name back to it.**  Let an endpoint have a result, whether
or not its analysis was cancelled.  Some edge leads from a name back to the
same name just when, of the files that are reached when all middlewares have
been analysed, one writes a property that a different one reads, they are
reached from middlewares in this order, and their paths have the same ending.
So no edge does if different files that are reached have paths with different
endings. -/
theorem selfEdges_exact (s : Scene) (patience : Option Nat) (p : Progress)
    (endpoint : Endpoint) (r : FlowResult)
    (h : (s.analyzeFlow patience p endpoint).2 = .ok r) :
    ((∃ e ∈ r.componentEdges, e.source = e.target) ↔
      ∃ (i j : Nat) (writer reader : Path) (property : String), i ≤ j ∧
        s.ReachedAtLast (r.middlewares.map (·.name)) i writer ∧
        s.ReachedAtLast (r.middlewares.map (·.name)) j reader ∧
        s.Uses writer .locals .write property ∧
          s.Uses reader .locals .read property ∧
        writer ≠ reader ∧ writer.ending = reader.ending) ∧
    ((∀ i j a b, s.ReachedAtLast (r.middlewares.map (·.name)) i a →
        s.ReachedAtLast (r.middlewares.map (·.name)) j b → a.ending = b.ending →
          a = b) →
      ∀ e ∈ r.componentEdges, e.source ≠ e.target) := by
  have hexact : (∃ e ∈ r.componentEdges, e.source = e.target) ↔
      ∃ (i j : Nat) (writer reader : Path) (property : String), i ≤ j ∧
        s.ReachedAtLast (r.middlewares.map (·.name)) i writer ∧
        s.ReachedAtLast (r.middlewares.map (·.name)) j reader ∧
        s.Uses writer .locals .write property ∧
          s.Uses reader .locals .read property ∧
        writer ≠ reader ∧ writer.ending = reader.ending := by
    constructor
    · intro hself
      obtain ⟨e, he, hsame⟩ := hself
      obtain ⟨i, j, writer, reader, hij, hwriter, hreader, hne, hwrites, hreads,
        hsource, htarget⟩ := (mem_componentEdges_iff_carries h).mp he
      have hshort : writer.short = reader.short := by
        rw [hsource, htarget, hsame]
      exact ⟨i, j, writer, reader, e.property, hij, hwriter, hreader, hwrites,
        hreads, hne, Path.short_eq_short_iff.mp hshort⟩
    · intro hpair
      obtain ⟨i, j, writer, reader, property, hij, hwriter, hreader, hwrites,
        hreads, hne, hending⟩ := hpair
      obtain ⟨name, hsource⟩ : ∃ name, writer.short = name := ⟨_, rfl⟩
      have htarget : reader.short = name := by
        rw [← hsource]
        exact Path.short_eq_short_iff.mpr hending.symm
      refine ⟨⟨name, name, property⟩, (mem_componentEdges_iff_carries h).mpr ?_,
        rfl⟩
      exact ⟨i, j, writer, reader, hij, hwriter, hreader, hne, hwrites, hreads,
        hsource, htarget⟩
  refine ⟨hexact, ?_⟩
  intro hapart e he hsame
  obtain ⟨i, j, writer, reader, -, -, hwriter, hreader, -, -, hne, hending⟩ :=
    hexact.mp ⟨e, he, hsame⟩
  exact hne (hapart i j writer reader hwriter hreader hending)

/-- Two files whose paths have the same ending.  The first writes two
properties, and the second reads them and calls a service.  One property is a
double quote, and the address of the call is a line feed. -/
def lookalikes : Scene where
  files :=
    { entries := [
        (["home", "ws"], .directory),
        (["home", "ws", "agl-m-middleware"], .directory),
        (["home", "ws", "agl-m-middleware", "a"], .directory),
        (["home", "ws", "agl-m-middleware", "a", "x"], .directory),
        (["home", "ws", "agl-m-middleware", "a", "x", "y"], .directory),
        (["home", "ws", "agl-m-middleware", "a", "x", "y", "f.js"],
          .file "res.locals.p=res.locals['\"']=1".toUTF8 1000),
        (["home", "ws", "agl-m-middleware", "b"], .directory),
        (["home", "ws", "agl-m-middleware", "b", "x"], .directory),
        (["home", "ws", "agl-m-middleware", "b", "x", "y"], .directory),
        (["home", "ws", "agl-m-middleware", "b", "x", "y", "f.js"],
          .file
            "use(res.locals.p,res.locals['\"']);forwardRequest(0,\x7burl:`\n`\x7d)".toUTF8
            1000)]
      current := ["home"] }
  resolver := ⟨{ Config.usual (.ofString "ws") "m" with
    maxDepth := 3, libraryPatterns := [] }, []⟩

attribute [irreducible] lookalikes

/-- The endpoint with both files for middlewares. -/
def lookalikeChain : Endpoint :=
  { middleware := .array [.string "a/x/y/f", .string "b/x/y/f"] }

/-- What the analysis of the chain gives. -/
theorem evaluated_lookalikes :
    ∃ r ∈ (lookalikes.analyzeFlow none {} lookalikeChain).2.toOption,
      r.middlewares.map (·.name) = ["a/x/y/f", "b/x/y/f"] ∧
      r.componentEdges = [⟨"x/y/f.js", "x/y/f.js", "p"⟩,
        ⟨"x/y/f.js", "x/y/f.js", "\""⟩] ∧
      r.edges.map (·.properties) = [["p", "\""]] ∧
      (r.middlewares.map fun m => m.calls.map fun c => (c.family, c.template))
        = [[], [("http", some "\n")]] := by
  decide +kernel

/-- The result for the two files: their two edges lead from and to the same
ending, and one of the properties is a double quote. -/
theorem analyzeFlow_lookalikes :
    ∃ r, (lookalikes.analyzeFlow none {} lookalikeChain).2 = .ok r ∧
    r.middlewares.map (·.name) = ["a/x/y/f", "b/x/y/f"] ∧
    r.componentEdges = [⟨"x/y/f.js", "x/y/f.js", "p"⟩,
      ⟨"x/y/f.js", "x/y/f.js", "\""⟩] ∧
    r.edges.map (·.properties) = [["p", "\""]] ∧
    (r.middlewares.map fun m => m.calls.map fun c => (c.family, c.template))
      = [[], [("http", some "\n")]] := by
  obtain ⟨r, hr, hrest⟩ := evaluated_lookalikes
  exact ⟨r, eq_ok_of_toOption hr, hrest⟩

/-- Behind the edge there are two files, whose paths have the same ending. -/
theorem selfEdges_lookalikes :
    ∃ r, (lookalikes.analyzeFlow none {} lookalikeChain).2 = .ok r ∧
      ∃ writer reader property, lookalikes.Uses writer .locals .write property ∧
        lookalikes.Uses reader .locals .read property ∧ writer ≠ reader ∧
        writer.ending = reader.ending := by
  obtain ⟨r, hr, -, hedges, -⟩ := analyzeFlow_lookalikes
  obtain ⟨hself, -⟩ := selfEdges_exact lookalikes none {} lookalikeChain r hr
  obtain ⟨-, -, writer, reader, property, -, -, -, hwrites, hreads, hne,
      hending⟩ :=
    hself.mp ⟨_, by rw [hedges]; exact List.mem_cons_self, rfl⟩
  exact ⟨r, hr, writer, reader, property, hwrites, hreads, hne, hending⟩

/-- **An edge from a name back to it.**  The edge for the property `p` shows
the same name at both ends. -/
theorem exists_selfEdge_lookalikes :
    ∃ r, (lookalikes.analyzeFlow none {} lookalikeChain).2 = .ok r ∧
      ∃ e ∈ r.componentEdges, e.property = "p" ∧ e.source = "x/y/f.js" ∧
        e.source = e.target := by
  obtain ⟨r, hr, -, hedges, -⟩ := analyzeFlow_lookalikes
  refine ⟨r, hr, ⟨"x/y/f.js", "x/y/f.js", "p"⟩, ?_, rfl, rfl, rfl⟩
  rw [hedges]
  exact List.mem_cons_self

end Scene

end Relay
