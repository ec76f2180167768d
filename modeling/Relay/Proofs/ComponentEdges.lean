import Relay.Proofs.Chains
import Relay.Proofs.Owners

/-!
# Edges between files

An edge joins a file that writes a property and another that reads it, if the
writer is reached from a middleware that does not come after one that the
reader is reached from.  The edges are drawn when the whole chain has been
analysed, so files count that can be reached through what is known at the end.
The lists of a middleware were rolled up earlier and tell of the files that
could be reached then.

So every edge that the lists bear out is drawn, and with room enough no other
one is.  But a file that was cut off at the greatest depth below one middleware
and was analysed for a later one gives edges that no lists bear out
(`componentEdges_exact`, `not_borneOut_brief`).
-/

namespace Relay

open Analysis

/-- Grouping occurrences by property changes only their order. -/
theorem mem_groupedByProperty {os : List Occurrence} {o : Occurrence} :
    o ∈ groupedByProperty os ↔ o ∈ os := by
  unfold groupedByProperty
  rw [List.mem_flatMap]
  constructor
  · rintro ⟨property, -, ho⟩
    exact (List.mem_filter.mp ho).1
  · intro ho
    refine ⟨o.property, mem_uniqueBy_id.mpr (List.mem_map_of_mem ho), ?_⟩
    exact List.mem_filter.mpr ⟨ho, by simp⟩

/-- An occurrence is a usage in a file that a middleware expands to. -/
theorem mem_occurrences {m : Memory} {usages : Facts → List PropertyUsage}
    {ms : List Middleware} {o : Occurrence} :
    o ∈ occurrences m usages ms ↔ ∃ mid, ms[o.index]? = some mid ∧
      ∃ r ∈ mid.expanded m, r.path = o.path ∧
        ∃ u ∈ usages r.facts, u.property = o.property := by
  unfold occurrences
  rw [List.mem_flatMap]
  constructor
  · rintro ⟨⟨mid, i⟩, hmid, ho⟩
    obtain ⟨r, hr, ho⟩ := List.mem_flatMap.mp ho
    obtain ⟨u, hu, rfl⟩ := List.mem_map.mp ho
    exact ⟨mid, List.mem_zipIdx_iff_getElem?.mp hmid, r, hr, rfl, u, hu, rfl⟩
  · rintro ⟨mid, hmid, r, hr, hpath, u, hu, hproperty⟩
    refine ⟨(mid, o.index), List.mem_zipIdx_iff_getElem?.mpr hmid,
      List.mem_flatMap.mpr ⟨r, hr, List.mem_map.mpr ⟨u, hu, ?_⟩⟩⟩
    rw [hpath, hproperty]

/-- An edge joins a write and a read of one property in two files, the write
in no later middleware than the read. -/
theorem componentEdge?_eq_some_iff {w r : Occurrence} {e : ComponentEdge} :
    componentEdge? w r = some e ↔
      (w.property = e.property ∧ r.property = e.property) ∧
      w.index ≤ r.index ∧ w.path ≠ r.path ∧ w.path.short = e.source ∧
        r.path.short = e.target := by
  obtain ⟨source, target, property⟩ := e
  unfold componentEdge?
  constructor
  · intro h
    split at h
    · rename_i hflows
      obtain ⟨hproperty, hindex, hpath⟩ := hflows
      obtain ⟨hsource, htarget, hw⟩ := ComponentEdge.mk.inj (Option.some.inj h)
      exact ⟨⟨hw, hproperty ▸ hw⟩, hindex, hpath, hsource, htarget⟩
    · cases h
  · rintro ⟨⟨hw, hr⟩, hindex, hpath, hsource, htarget⟩
    rw [if_pos ⟨hw.trans hr.symm, hindex, hpath⟩, hsource, htarget, hw]

/-- The edges are those of a write and a read that occur. -/
theorem mem_componentEdges {m : Memory} {ms : List Middleware}
    {e : ComponentEdge} :
    e ∈ componentEdges m ms ↔
      ∃ w ∈ occurrences m (·.usages.localsWrites) ms,
        ∃ r ∈ occurrences m (·.usages.localsReads) ms,
          componentEdge? w r = some e := by
  unfold componentEdges
  simp only [mem_uniqueBy_id, List.mem_flatMap, List.mem_filterMap,
    mem_groupedByProperty]

/-- The middleware with a number lists a property as used in a file. -/
def FlowResult.Lists (r : FlowResult) (i : Nat) (k : UsageKind)
    (property : String) (path : Path) : Prop :=
  ∃ mid, r.middlewares[i]? = some mid ∧
    ∃ u ∈ mid.inBag .locals k, u.property = property ∧ u.path = path

/-- The lists of the middlewares bear an edge out: a property is listed as
written in one file and as read in another, and the writer's list is not of a
later middleware than the reader's. -/
def FlowResult.BearsOut (r : FlowResult) (e : ComponentEdge) : Prop :=
  ∃ (i j : Nat) (writing reading : Middleware), i ≤ j ∧
    r.middlewares[i]? = some writing ∧ r.middlewares[j]? = some reading ∧
    ∃ w ∈ writing.localsWrites, ∃ u ∈ reading.localsReads,
      w.property = e.property ∧ u.property = e.property ∧ w.path ≠ u.path ∧
        w.path.short = e.source ∧ u.path.short = e.target

namespace Scene

/-- A file is reached from the middleware with a number in a chain, through
files that are known after the first `count` of the chain. -/
def ReachedAfter (s : Scene) (names : List String) (count i : Nat)
    (path : Path) : Prop :=
  ∃ name, names[i]? = some name ∧
    s.ReachedThrough (s.knownAfter (names.take count)) name path

/-- A file is reached from a middleware when that middleware has been
analysed. -/
def ReachedInTime (s : Scene) (names : List String) (i : Nat) (path : Path) :
    Prop :=
  s.ReachedAfter names (i + 1) i path

/-- A file is reached from a middleware when the whole chain has been
analysed. -/
def ReachedAtLast (s : Scene) (names : List String) (i : Nat) (path : Path) :
    Prop :=
  s.ReachedAfter names names.length i path

/-- State can flow along an edge: a file writes a property that another one
reads, and they are reached from middlewares in this order. -/
def Carries (s : Scene) (reached : Nat → Path → Prop) (e : ComponentEdge) :
    Prop :=
  ∃ (i j : Nat) (writer reader : Path), i ≤ j ∧ reached i writer ∧
    reached j reader ∧ writer ≠ reader ∧
    s.Uses writer .locals .write e.property ∧
      s.Uses reader .locals .read e.property ∧
    writer.short = e.source ∧ reader.short = e.target

variable {s : Scene} {p p' : Progress} {names : List String}
  {ms : List Middleware}
  {r : FlowResult} {e : ComponentEdge}

/-- A file that is reached after some middlewares is reached after all of
them. -/
theorem ReachedAfter.mono {count i : Nat} {path : Path}
    (h : s.ReachedAfter names count i path) :
    s.ReachedAfter names names.length i path := by
  obtain ⟨name, hname, hreached⟩ := h
  refine ⟨name, hname, hreached.mono ?_⟩
  have hsub := s.knownAfter_subset (names.take count) (names.drop count)
  rw [List.take_append_drop] at hsub
  rw [List.take_length]
  exact hsub

/-- If more files are reached, what is carried is still carried. -/
theorem Carries.mono {reached reached' : Nat → Path → Prop}
    (h : s.Carries reached e)
    (hsub : ∀ i path, reached i path → reached' i path) :
    s.Carries reached' e := by
  obtain ⟨i, j, writer, reader, hij, hwriter, hreader, hrest⟩ := h
  exact ⟨i, j, writer, reader, hij, hsub i writer hwriter,
    hsub j reader hreader, hrest⟩

/-- The name at a position is that of the middleware there. -/
theorem getElem?_names {i : Nat} {name : String} :
    (ms.map (·.name))[i]? = some name ↔ ∃ mid, ms[i]? = some mid ∧
      mid.name = name := by
  rw [List.getElem?_map, Option.map_eq_some_iff]

/-- An occurrence at the end of a chain is of a file that is reached at last. -/
theorem Passes.mem_occurrences_iff (h : s.Passes p names p' ms)
    (hp : s.Knows [] p.memory) {k : UsageKind} {o : Occurrence} :
    o ∈ occurrences p'.memory (·.usages.inBag .locals k) ms ↔
      s.ReachedAtLast (ms.map (·.name)) o.index o.path ∧
        s.Uses o.path .locals k o.property := by
  obtain ⟨hknows, -, rfl, hall⟩ := h.known hp
  rw [List.nil_append] at hknows
  rw [mem_occurrences]
  unfold ReachedAtLast ReachedAfter
  rw [List.take_length, ← hknows.known]
  constructor
  · rintro ⟨mid, hmid, hrecords⟩
    obtain ⟨hreached, huses⟩ :=
      ((hall _ mid hmid).1.exists_mem_expanded hknows.faithful).mp hrecords
    exact ⟨⟨mid.name, getElem?_names.mpr ⟨mid, hmid, rfl⟩, hreached⟩, huses⟩
  · rintro ⟨⟨name, hname, hreached⟩, huses⟩
    obtain ⟨mid, hmid, rfl⟩ := getElem?_names.mp hname
    exact ⟨mid, hmid,
      ((hall _ mid hmid).1.exists_mem_expanded hknows.faithful).mpr ⟨hreached,
        huses⟩⟩

/-- **Edges are drawn at last.** -/
theorem mem_componentEdges_iff_carries {patience : Option Nat}
    {endpoint : Endpoint} (h : (s.analyzeFlow patience p endpoint).2 = .ok r) :
    e ∈ r.componentEdges ↔
      s.Carries (s.ReachedAtLast (r.middlewares.map (·.name))) e := by
  obtain ⟨start, p', names, hmemory, hpass, hedges⟩ := passes_of_analyzeFlow h
  have hstart : s.Knows [] start.memory := hmemory ▸ .empty
  have hwrites := fun {o : Occurrence} =>
    hpass.mem_occurrences_iff hstart (k := .write) (o := o)
  have hreads := fun {o : Occurrence} =>
    hpass.mem_occurrences_iff hstart (k := .read) (o := o)
  rw [hedges, mem_componentEdges]
  constructor
  · rintro ⟨w, hw, o, ho, hedge⟩
    obtain ⟨⟨hwp, hop⟩, hindex, hne, hsource, htarget⟩ :=
      componentEdge?_eq_some_iff.mp hedge
    obtain ⟨hreachedW, husesW⟩ := hwrites.mp hw
    obtain ⟨hreachedO, husesO⟩ := hreads.mp ho
    exact ⟨w.index, o.index, w.path, o.path, hindex, hreachedW, hreachedO, hne,
      hwp ▸ husesW, hop ▸ husesO, hsource, htarget⟩
  · rintro ⟨i, j, writer, reader, hij, hwriter, hreader, hne, husesW, husesR,
      hsource, htarget⟩
    exact ⟨⟨e.property, i, writer⟩, hwrites.mpr ⟨hwriter, husesW⟩,
      ⟨e.property, j, reader⟩, hreads.mpr ⟨hreader, husesR⟩,
      componentEdge?_eq_some_iff.mpr ⟨⟨rfl, rfl⟩, hij, hne, hsource, htarget⟩⟩

/-- If the lists tell which files are reached, they bear out the edges between
them. -/
theorem bearsOut_iff_of_lists {reached : Nat → Path → Prop}
    (h : ∀ i k property path, r.Lists i k property path ↔
      reached i path ∧ s.Uses path .locals k property) :
    r.BearsOut e ↔ s.Carries reached e := by
  constructor
  · rintro ⟨i, j, writing, reading, hij, hwriting, hreading, w, hw, u, hu, hwp,
      hup, hne, hsource, htarget⟩
    obtain ⟨hwriter, husesW⟩ :=
      (h i .write e.property w.path).mp ⟨writing, hwriting, w, hw, hwp, rfl⟩
    obtain ⟨hreader, husesR⟩ :=
      (h j .read e.property u.path).mp ⟨reading, hreading, u, hu, hup, rfl⟩
    exact ⟨i, j, w.path, u.path, hij, hwriter, hreader, hne, husesW, husesR,
      hsource, htarget⟩
  · rintro ⟨i, j, writer, reader, hij, hwriter, hreader, hne, husesW, husesR,
      hsource, htarget⟩
    obtain ⟨writing, hwriting, w, hw, hwp, rfl⟩ :=
      (h i .write e.property writer).mpr ⟨hwriter, husesW⟩
    obtain ⟨reading, hreading, u, hu, hup, rfl⟩ :=
      (h j .read e.property reader).mpr ⟨hreader, husesR⟩
    exact ⟨i, j, writing, reading, hij, hwriting, hreading, w, hw, u, hu, hwp,
      hup, hne, hsource, htarget⟩

/-- **Lists are rolled up in time.** -/
theorem bearsOut_iff_carries {patience : Option Nat} {endpoint : Endpoint}
    (h : (s.analyzeFlow patience p endpoint).2 = .ok r) :
    r.BearsOut e ↔ s.Carries
      (s.ReachedInTime (r.middlewares.map (·.name))) e := by
  obtain ⟨start, p', names, hmemory, hpass, -⟩ := passes_of_analyzeFlow h
  have hstart : s.Knows [] start.memory := hmemory ▸ .empty
  obtain ⟨-, -, rfl, hall⟩ := hpass.known hstart
  refine bearsOut_iff_of_lists fun i k property path => ?_
  constructor
  · rintro ⟨mid, hmid, hu⟩
    obtain ⟨hreached, huses⟩ := ((hall i mid hmid).2 _ _ _ _).mp hu
    exact ⟨⟨mid.name, getElem?_names.mpr ⟨mid, hmid, rfl⟩, hreached⟩, huses⟩
  · rintro ⟨⟨name, hname, hreached⟩, huses⟩
    obtain ⟨mid, hmid, rfl⟩ := getElem?_names.mp hname
    exact ⟨mid, hmid, ((hall i mid hmid).2 _ _ _ _).mpr ⟨hreached, huses⟩⟩

/-- What is reached at last can be reached. -/
theorem reachedFrom_of_reachedAtLast {patience : Option Nat}
    {endpoint : Endpoint} (h : (s.analyzeFlow patience p endpoint).2 = .ok r)
    {i : Nat} {path : Path}
    (hlast : s.ReachedAtLast (r.middlewares.map (·.name)) i path) :
    ∃ name, (r.middlewares.map (·.name))[i]? = some name ∧
      s.ReachedFrom name path := by
  obtain ⟨start, p', names, hmemory, hpass, -⟩ := passes_of_analyzeFlow h
  have hstart : s.Knows [] start.memory := hmemory ▸ .empty
  obtain ⟨hknows, -, rfl, -⟩ := hpass.known hstart
  obtain ⟨name, hname, root, hroot, hknown, hway⟩ := hlast
  rw [List.take_length, ← List.nil_append (r.middlewares.map _), ← hknows.known]
    at hknown
  exact ⟨name, hname, root, hroot, hknows.faithful.isSome_of_kept hknown,
    Relation.ReflTransGen.mono (fun _ _ hstep => hstep.1) _ _ hway⟩

/-- With room enough, the lists tell of all files that can be reached. -/
theorem HasRoom.bearsOut_iff {patience : Option Nat} {endpoint : Endpoint}
    (h : (s.analyzeFlow patience p endpoint).2 = .ok r)
    (hroom : s.HasRoom {q | ∃ name ∈ r.middlewares.map (·.name),
      q ∈ s.entries name}) :
    r.BearsOut e ↔ s.Carries (fun i path => ∃ name,
      (r.middlewares.map (·.name))[i]? = some name ∧
        s.ReachedFrom name path) e := by
  obtain ⟨start, p', names, hmemory, hpass, -⟩ := passes_of_analyzeFlow h
  have hstart : s.Knows [] start.memory := hmemory ▸ .empty
  have hsettled : s.Settled start.memory := hmemory ▸ .empty
  obtain ⟨-, -, rfl, -⟩ := hpass.known hstart
  obtain ⟨-, hportrays⟩ := hpass.portrays hsettled hroom
    fun name hname q hq => ⟨name, hname, hq⟩
  refine bearsOut_iff_of_lists fun i k property path => ?_
  constructor
  · rintro ⟨mid, hmid, hu⟩
    obtain ⟨hreached, huses⟩ :=
      (hportrays mid (List.mem_of_getElem? hmid)).exists_mem_inBag.mp hu
    exact ⟨⟨mid.name, getElem?_names.mpr ⟨mid, hmid, rfl⟩, hreached⟩, huses⟩
  · rintro ⟨⟨name, hname, hreached⟩, huses⟩
    obtain ⟨mid, hmid, rfl⟩ := getElem?_names.mp hname
    exact ⟨mid, hmid,
      (hportrays mid (List.mem_of_getElem? hmid)).exists_mem_inBag.mpr
      ⟨hreached, huses⟩⟩

/-- A file that reads a property and requires the file that writes it.  The
greatest depth is one, so that nothing below an entry is analysed with it.  The
files have names as in the scene with a loop. -/
def brief : Scene where
  files :=
    { entries := [
        (["R", "ws"], .directory),
        (["R", "ws", "agl-m-middleware"], .directory),
        (["R", "ws", "agl-m-middleware", "e.js"],
          .file "require('./f');use(res.locals.p)".toUTF8 1000),
        (["R", "ws", "agl-m-middleware", "f.js"],
          .file "res.locals.p=1".toUTF8 1000)]
      current := ["R"] }
  resolver := ⟨{ Config.usual (.ofString "ws") "m" with
    maxDepth := 1, libraryPatterns := [] }, []⟩

theorem maxDepth_brief : brief.resolver.config.maxDepth = 1 := rfl

attribute [irreducible] brief

/-- The edge from the file that writes to the one that reads. -/
def briefEdge : ComponentEdge :=
  ⟨"ws/agl-m-middleware/f.js", "ws/agl-m-middleware/e.js", "p"⟩

/-- Where the files of the scene are and what they hold. -/
theorem layout_brief :
    (∀ name ∈ ["e", "f"],
      (brief.entry name).toOption = some (some (loopFile name)) ∧
        (loopFile name).place = loopFile name) ∧
    brief.outline (loopFile "e") = some ([loopFile "f"], []) ∧
    brief.outline (loopFile "f") = some ([], ["p"]) ∧
    brief.listed (loopFile "e") .locals .read = some ["p"] ∧
    (loopFile "e").short = briefEdge.target ∧
      (loopFile "f").short = briefEdge.source := by
  decide +kernel

/-- The two names of the scene stand for the two files. -/
theorem entry_brief (name : String) (h : name ∈ ["e", "f"]) :
    brief.entry name = .ok (some (loopFile name)) ∧
      brief.entries name = [loopFile name] :=
  entries_of_entry (layout_brief.1 name h).1 (layout_brief.1 name h).2

/-- Both files of the scene can be read. -/
theorem isSome_brief (name : String) (h : name ∈ ["e", "f"]) :
    (brief.own? (loopFile name)).isSome := by
  obtain ⟨-, he, hf, -⟩ := layout_brief
  rcases List.mem_pair.mp h with rfl | rfl
  · exact (required_of_outline he).1
  · exact (required_of_outline hf).1

/-- Both files are known at the end of a chain that holds them. -/
theorem known_brief {names : List String} (name : String)
    (h : name ∈ ["e", "f"]) (hname : name ∈ names) :
    loopFile name ∈ brief.knownAfter names := by
  refine mem_knownAfter_of_entry (by rw [maxDepth_brief]) hname ?_
    (isSome_brief name h)
  rw [(entry_brief name h).2]
  exact List.mem_singleton_self _

/-- A file is reached from itself in time. -/
theorem reachedInTime_brief {names : List String} {i : Nat} (name : String)
    (h : name ∈ ["e", "f"]) (hname : names[i]? = some name) :
    brief.ReachedInTime names i (loopFile name) := by
  have hmem : name ∈ names.take (i + 1) := by
    rw [List.mem_iff_getElem?]
    exact ⟨i, by rw [List.getElem?_take, if_pos (by omega), hname]⟩
  refine ⟨name, hname, loopFile name, ?_, known_brief name h hmem, .refl⟩
  rw [(entry_brief name h).2]
  exact List.mem_singleton_self _

/-- The first level holds the entry alone. -/
theorem knownAfter_brief_e : brief.knownAfter ["e"] = {loopFile "e"} := by
  have hroom : brief.room = 1 := by
    rw [room, maxDepth_brief]
    rfl
  have hmeet : brief.meet 1 0 [] (loopFile "e") = [(loopFile "e", 0)] := by
    rw [meet_of_new (by simp) (isSome_brief "e" (by simp))]
    exact List.foldl_fixed' (fun _ => rfl) _
  rw [knownAfter, List.flatMap_singleton, (entry_brief "e" (by simp)).2, hroom]
  simp [hmeet]

/-- The file that writes leads nowhere. -/
theorem eq_of_way_brief {known : Set Path} {path : Path}
    (h : Relation.ReflTransGen (fun a b => brief.Leads a b ∧ b ∈ known)
      (loopFile "f") path) :
    path = loopFile "f" := by
  obtain ⟨-, -, hf, -⟩ := layout_brief
  rcases h.cases_head with rfl | ⟨b, ⟨hleads, -⟩, -⟩
  · rfl
  · have hrequires := hleads.requires
    rw [Requires, (required_of_outline hf).2] at hrequires
    cases hrequires

/-- In time, each file is reached from itself only. -/
theorem eq_of_reachedInTime_brief {i : Nat} {path : Path}
    (h : brief.ReachedInTime ["e", "f"] i path) :
    (i = 0 ∧ path = loopFile "e") ∨ (i = 1 ∧ path = loopFile "f") := by
  obtain ⟨name, hname, root, hroot, hknown, hway⟩ := h
  match i, hname with
  | 0, rfl =>
      have hsingle : brief.knownAfter (["e", "f"].take (0 + 1)) =
          {loopFile "e"} :=
        knownAfter_brief_e
      rw [hsingle] at hknown hway
      rcases hway.cases_tail with rfl | ⟨b, -, -, hpath⟩
      · exact .inl ⟨rfl, hknown⟩
      · exact .inl ⟨rfl, hpath⟩
  | 1, rfl =>
      rw [(entry_brief "f" (by simp)).2, List.mem_singleton] at hroot
      subst hroot
      exact .inr ⟨rfl, eq_of_way_brief hway⟩

/-- **Edges and lists.**  Let an endpoint have a result, whether or not its
analysis was cancelled.  An edge is drawn just when state can flow along it
between files that are reached when all middlewares have been analysed; the
lists bear it out just when it can between files that are reached in time.  So
an edge that is borne out is drawn.  Every edge that is drawn is borne out if
all files that are reached at last are reached in time, and also if the
greatest depth is no smaller than the number of places that can be come to. -/
theorem componentEdges_exact (s : Scene) (patience : Option Nat) (p : Progress)
    (endpoint : Endpoint) (r : FlowResult)
    (h : (s.analyzeFlow patience p endpoint).2 = .ok r) :
    (∀ e, e ∈ r.componentEdges ↔
      s.Carries (s.ReachedAtLast (r.middlewares.map (·.name))) e) ∧
    (∀ e, r.BearsOut e ↔
      s.Carries (s.ReachedInTime (r.middlewares.map (·.name))) e) ∧
    (∀ e, r.BearsOut e → e ∈ r.componentEdges) ∧
    ((∀ i path, s.ReachedAtLast (r.middlewares.map (·.name)) i path →
        s.ReachedInTime (r.middlewares.map (·.name)) i path) →
      ∀ e ∈ r.componentEdges, r.BearsOut e) ∧
    (s.HasRoom {q | ∃ name ∈ r.middlewares.map (·.name), q ∈ s.entries name} →
      ∀ e ∈ r.componentEdges, r.BearsOut e) := by
  have hdrawn := fun e => mem_componentEdges_iff_carries (e := e) h
  have hborne := fun e => bearsOut_iff_carries (e := e) h
  refine ⟨hdrawn, hborne, fun e he => ?_, fun hintime e he => ?_,
    fun hroom e he => ?_⟩
  · exact (hdrawn e).mpr (((hborne e).mp he).mono fun i path =>
      ReachedAfter.mono)
  · exact (hborne e).mpr (((hdrawn e).mp he).mono hintime)
  · exact (hroom.bearsOut_iff h).mpr
      (((hdrawn e).mp he).mono fun i path => reachedFrom_of_reachedAtLast h)

/-- With the file that writes in front, the edge is drawn and borne out. -/
theorem componentEdges_brief :
    ∃ r, (brief.analyzeFlow none {}
        { middleware := .array [.string "f", .string "e"] }).2 = .ok r ∧
      briefEdge ∈ r.componentEdges ∧ r.BearsOut briefEdge := by
  obtain ⟨-, -, hf, hreads, hshortE, hshortF⟩ := layout_brief
  have hlist :
    ({ middleware := .array [.string "f", .string "e"] } : Endpoint).specifiers?
      = some ["f", "e"] := rfl
  obtain ⟨r, hr, hnames⟩ := exists_analyzeFlow (s := brief) hlist
    (fun name hname =>
      ⟨_, (entry_brief name (by simpa [or_comm] using hname)).1⟩) {}
  obtain ⟨-, hborne, hdrawn, -⟩ := componentEdges_exact brief none {} _ r hr
  have hbriefEdge : r.BearsOut briefEdge := by
    rw [hborne, hnames]
    refine ⟨0, 1, loopFile "f", loopFile "e", by omega,
      reachedInTime_brief "f" (by simp) rfl,
      reachedInTime_brief "e" (by simp) rfl, ?_,
      (uses_of_outline hf).mpr (by simp [briefEdge]),
      (uses_iff_of_listed hreads).mpr (by simp [briefEdge]), hshortF, hshortE⟩
    intro hsame
    rw [hsame, hshortE] at hshortF
    exact absurd hshortF (by decide)
  exact ⟨r, hr, hdrawn _ hbriefEdge, hbriefEdge⟩

/-- **An edge that is not borne out.**  With the file that writes behind, it is
cut off below the first middleware and analysed for the second.  The edge is
drawn as if the first middleware had led to it, but no lists bear it out. -/
theorem not_borneOut_brief :
    ∃ r, (brief.analyzeFlow none {}
        { middleware := .array [.string "e", .string "f"] }).2 = .ok r ∧
      briefEdge ∈ r.componentEdges ∧ ¬ r.BearsOut briefEdge := by
  obtain ⟨-, he, hf, hreads, hshortE, hshortF⟩ := layout_brief
  have hshort : (loopFile "e").short ≠ (loopFile "f").short := by
    rw [hshortE, hshortF]
    decide
  have hlist :
    ({ middleware := .array [.string "e", .string "f"] } : Endpoint).specifiers?
      = some ["e", "f"] := rfl
  obtain ⟨r, hr, hnames⟩ := exists_analyzeFlow (s := brief) hlist
    (fun name hname => ⟨_, (entry_brief name hname).1⟩) {}
  refine ⟨r, hr, ?_, ?_⟩
  · rw [mem_componentEdges_iff_carries hr, hnames]
    have hreader : brief.ReachedAtLast ["e", "f"] 0 (loopFile "e") :=
      (reachedInTime_brief "e" (by simp) rfl).mono
    have hwriter : brief.ReachedAtLast ["e", "f"] 0 (loopFile "f") := by
      obtain ⟨name, hname, root, hroot, hknown, -⟩ := hreader
      cases hname
      rw [(entry_brief "e" (by simp)).2, List.mem_singleton] at hroot
      subst hroot
      have hleads :=
        leads_of_outline he List.mem_cons_self (isSome_brief "f" (by simp))
      refine ⟨"e", rfl, loopFile "e", ?_, hknown, .single ⟨hleads, ?_⟩⟩
      · rw [(entry_brief "e" (by simp)).2]
        exact List.mem_singleton_self _
      · exact known_brief "f" (by simp) (by simp)
    exact ⟨0, 0, loopFile "f", loopFile "e", le_refl 0, hwriter, hreader,
      fun hsame => hshort (congrArg Path.short hsame.symm),
      (uses_of_outline hf).mpr (by simp [briefEdge]),
      (uses_iff_of_listed hreads).mpr (by simp [briefEdge]), hshortF, hshortE⟩
  · rw [bearsOut_iff_carries hr, hnames]
    rintro ⟨i, j, writer, reader, hij, hwriter, hreader, -, -, -, hsource,
      htarget⟩
    rw [← hshortF] at hsource
    rw [← hshortE] at htarget
    rcases eq_of_reachedInTime_brief hwriter with ⟨-, rfl⟩ | ⟨rfl, -⟩
    · exact hshort hsource
    · rcases eq_of_reachedInTime_brief hreader with ⟨rfl, -⟩ | ⟨-, rfl⟩
      · omega
      · exact hshort htarget.symm

end Scene

end Relay
