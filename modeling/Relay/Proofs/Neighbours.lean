import Relay.Proofs.Chains
import Relay.Proofs.Owners

/-!
# Edges between neighbours

Between every two middlewares that follow each other there is one edge, and it
carries the properties that the first one's list of writes and the second one's
list of reads have in common (`getElem?_edgesBetween`, `mem_sharedProperties`).
The lists are what both have rolled up.  With room enough they tell of all
files that can be reached from the entries, whether or not the second
middleware had to analyse these files itself.  So an edge carries a property
just when a file that the first leads to writes it and a file that the second
leads to reads it (`edges_exact`).
-/

namespace Relay

open Analysis

section Shared

variable {written shared : List String} {reads : String →
  Bool} {property : String}

/-- Taking in written properties one after the other keeps those that are read,
each once. -/
theorem foldl_addOnce_spec (written : List String) (h : shared.Nodup) :
    (written.foldl (fun shared p =>
      if reads p then addOnce shared p else shared)
      shared).Nodup ∧
    ∀ property, property ∈ written.foldl
        (fun shared p => if reads p then addOnce shared p else shared) shared ↔
      property ∈ shared ∨ property ∈ written ∧ reads property = true := by
  induction written generalizing shared with
  | nil => simp [h]
  | cons p written ih =>
      rw [List.foldl_cons]
      by_cases hread : reads p = true
      · rw [if_pos hread]
        obtain ⟨hnodup, hmem⟩ := ih (nodup_addOnce (a := p) h)
        refine ⟨hnodup, fun property => ?_⟩
        rw [hmem, mem_addOnce, List.mem_cons]
        constructor
        · rintro ((hshared | rfl) | ⟨hwritten, hreads⟩)
          · exact .inl hshared
          · exact .inr ⟨.inl rfl, hread⟩
          · exact .inr ⟨.inr hwritten, hreads⟩
        · rintro (hshared | ⟨rfl | hwritten, hreads⟩)
          · exact .inl (.inl hshared)
          · exact .inl (.inr rfl)
          · exact .inr ⟨hwritten, hreads⟩
      · rw [if_neg hread]
        obtain ⟨hnodup, hmem⟩ := ih h
        refine ⟨hnodup, fun property => ?_⟩
        rw [hmem, List.mem_cons]
        constructor
        · rintro (hshared | ⟨hwritten, hreads⟩)
          · exact .inl hshared
          · exact .inr ⟨.inr hwritten, hreads⟩
        · rintro (hshared | ⟨rfl | hwritten, hreads⟩)
          · exact .inl hshared
          · exact absurd hreads hread
          · exact .inr ⟨hwritten, hreads⟩

variable {a b : Middleware}

/-- No property is shared twice. -/
theorem nodup_sharedProperties (a b : Middleware) :
    (sharedProperties a b).Nodup :=
  (foldl_addOnce_spec _ List.nodup_nil).1

/-- A property is shared just when it is in both lists. -/
theorem mem_sharedProperties : property ∈ sharedProperties a b ↔
    (∃ u ∈ a.inBag .locals .write, u.property = property) ∧
      ∃ u ∈ b.inBag .locals .read, u.property = property := by
  unfold sharedProperties
  rw [(foldl_addOnce_spec _ List.nodup_nil).2]
  simp [Middleware.inBag]

end Shared

section Between

variable {ms : List Middleware} {k : Nat} {e : Edge}

/-- There is one edge less than there are middlewares. -/
theorem length_edgesBetween (ms : List Middleware) :
    (edgesBetween ms).length = ms.length - 1 := by
  rw [edgesBetween, List.length_zipWith, List.length_drop]
  omega

/-- The edge with a number joins the middleware with that number and the
next. -/
theorem getElem?_edgesBetween : (edgesBetween ms)[k]? = some e ↔
    ∃ a b, ms[k]? = some a ∧ ms[k + 1]? = some b ∧
      e = ⟨a.name, b.name, sharedProperties a b⟩ := by
  have hnext : (ms.drop 1)[k]? = ms[k + 1]? := by
    rw [List.getElem?_drop, Nat.add_comm]
  rw [edgesBetween, List.getElem?_zipWith_eq_some]
  simp only [hnext, eq_comm (a := e)]

end Between

namespace Scene

variable {s : Scene}

/-- What neighbours share is written and read in files that can be reached. -/
theorem Portrays.mem_sharedProperties {a b : Middleware} (ha : s.Portrays a)
    (hb : s.Portrays b) {property : String} : property ∈ sharedProperties a b ↔
      (∃ path, s.ReachedFrom a.name path ∧
        s.Uses path .locals .write property) ∧
        ∃ path, s.ReachedFrom b.name path ∧
          s.Uses path .locals .read property := by
  have hlisted : ∀ {m : Middleware} {k : UsageKind}, s.Portrays m →
      ((∃ u ∈ m.inBag .locals k, u.property = property) ↔
        ∃ path, s.ReachedFrom m.name path ∧
            s.Uses path .locals k property) := by
    intro m k hm
    constructor
    · rintro ⟨u, hu, hproperty⟩
      exact ⟨u.path, hm.exists_mem_inBag.mp ⟨u, hu, hproperty, rfl⟩⟩
    · rintro ⟨path, hpath⟩
      obtain ⟨u, hu, hproperty, -⟩ := hm.exists_mem_inBag.mpr hpath
      exact ⟨u, hu, hproperty⟩
  rw [Relay.mem_sharedProperties, hlisted ha, hlisted hb]

/-- Two files that require the same third one, which writes a property, reads
it and calls a service.  The greatest depth is three.  The files have names as
in the scene with a loop. -/
def twins : Scene where
  files :=
    { entries := [
        (["home", "ws"], .directory),
        (["home", "ws", "agl-m-middleware"], .directory),
        (["home", "ws", "agl-m-middleware", "a.js"],
          .file "require('./c')".toUTF8 1000),
        (["home", "ws", "agl-m-middleware", "b.js"],
          .file "require('./c')".toUTF8 1000),
        (["home", "ws", "agl-m-middleware", "c.js"],
          .file "res.locals.x=1;use(res.locals.x);forwardRequest()".toUTF8
            1000)]
      current := ["home"] }
  resolver := ⟨{ Config.usual (.ofString "ws") "m" with
    maxDepth := 3, libraryPatterns := [] }, []⟩

theorem maxDepth_twins : twins.resolver.config.maxDepth = 3 := rfl

attribute [irreducible] twins

/-- Where the files of the scene are and what they hold. -/
theorem layout_twins :
    (∀ name ∈ ["a", "b"],
      (twins.entry name).toOption = some (some (loopFile name)) ∧
        (loopFile name).place = loopFile name ∧
        twins.outline (loopFile name) = some ([loopFile "c"], []) ∧
        (twins.own? (loopFile name)).map (·.calls) = some []) ∧
    twins.outline (loopFile "c") = some ([], ["x"]) ∧
    twins.listed (loopFile "c") .locals .read = some ["x"] ∧
    (twins.own? (loopFile "c")).map (·.calls.map (·.template))
      = some [some "forwardRequest"] := by
  decide +kernel

/-- The two names of the scene stand for the two files that require the third.
-/
theorem entry_twins (name : String) (h : name ∈ ["a", "b"]) :
    twins.entry name = .ok (some (loopFile name)) ∧
      twins.entries name = [loopFile name] :=
  entries_of_entry (layout_twins.1 name h).1 (layout_twins.1 name h).2.1

/-- The third file can be reached from both. -/
theorem reachedFrom_twins (name : String) (h : name ∈ ["a", "b"]) :
    twins.ReachedFrom name (loopFile "c") := by
  obtain ⟨hall, hc, -⟩ := layout_twins
  have hname := (hall name h).2.2.1
  have hleads := leads_of_outline hname (List.mem_singleton_self _)
    (required_of_outline hc).1
  refine ⟨loopFile name, ?_, (required_of_outline hname).1, .single hleads⟩
  rw [(entry_twins name h).2]
  exact List.mem_singleton_self _

/-- Only the three files can be come to. -/
theorem within_twins {names : List String}
    (hnames : ∀ name ∈ names, name ∈ ["a", "b"]) :
    twins.within {q | ∃ name ∈ names, q ∈ twins.entries name}
      ⊆ {loopFile "a", loopFile "b", loopFile "c"} := by
  obtain ⟨hall, hc, -⟩ := layout_twins
  rintro q ⟨root, ⟨name, hname, hroot⟩, hway⟩
  have hentry := hnames name hname
  rw [(entry_twins name hentry).2, List.mem_singleton] at hroot
  subst hroot
  induction hway with
  | refl =>
      rcases List.mem_pair.mp hentry with rfl | rfl
      · exact .inl rfl
      · exact .inr (.inl rfl)
  | @tail a b _ hb ih =>
      rw [Requires] at hb
      rcases ih with rfl | rfl | rfl
      · rw [(required_of_outline (hall "a" (by simp)).2.2.1).2,
          List.mem_singleton] at hb
        exact .inr (.inr hb)
      · rw [(required_of_outline (hall "b" (by simp)).2.2.1).2,
          List.mem_singleton] at hb
        exact .inr (.inr hb)
      · rw [(required_of_outline hc).2] at hb
        cases hb

/-- Three levels are enough for three files. -/
theorem hasRoom_twins {names : List String}
    (hnames : ∀ name ∈ names, name ∈ ["a", "b"]) :
    twins.HasRoom {q | ∃ name ∈ names, q ∈ twins.entries name} := by
  have hsub : twins.within {q | ∃ name ∈ names, q ∈ twins.entries name}
      ⊆ (({loopFile "a", loopFile "b", loopFile "c"} : Finset Path) :
          Set Path) := by
    simpa only [Finset.coe_insert, Finset.coe_singleton]
      using within_twins hnames
  have hthree := Finset.card_le_three (a := loopFile "a") (b := loopFile "b")
    (c := loopFile "c")
  refine .of_subset hsub ?_
  rw [maxDepth_twins]
  omega

/-- **Edges between neighbours are exact.**  Let the greatest depth be no
smaller than the number of places that can be come to from the entries of a
list of middlewares.  There is a result just when all names can be looked up.
It has one edge less than there are middlewares, or none, and the edge with a
number joins the middleware with that number and the next.  It carries, each
once, the properties that some file reachable from the first writes and some
file reachable from the second reads. -/
theorem edges_exact (s : Scene) (p : Progress) (endpoint : Endpoint)
    (specifiers : List String) (hlist : endpoint.specifiers? = some specifiers)
    (hroom : s.HasRoom {q | ∃ specifier ∈ specifiers,
      q ∈ s.entries specifier}) :
    ((∃ r, (s.analyzeFlow none p endpoint).2 = .ok r) ↔
      ∀ specifier ∈ specifiers, ∃ path?, s.entry specifier = .ok path?) ∧
    ∀ r, (s.analyzeFlow none p endpoint).2 = .ok r →
      r.edges.length = specifiers.length - 1 ∧
      ∀ k e, r.edges[k]? = some e →
        specifiers[k]? = some e.source ∧ specifiers[k + 1]? = some e.target ∧
        e.properties.Nodup ∧
        ∀ property, property ∈ e.properties ↔
          (∃ path, s.ReachedFrom e.source path ∧
            s.Uses path .locals .write property) ∧
          ∃ path, s.ReachedFrom e.target path ∧
            s.Uses path .locals .read property := by
  constructor
  · constructor
    · rintro ⟨r, hr⟩
      obtain ⟨start, p', -, hpass⟩ := passes_of_analyzeFlow_none hlist hr
      exact hpass.entry_eq_ok
    · intro hnames
      obtain ⟨r, hr, -⟩ := exists_analyzeFlow hlist hnames p
      exact ⟨r, hr⟩
  · intro r hr
    obtain ⟨start, p', hmemory, hpass⟩ := passes_of_analyzeFlow_none hlist hr
    have hsettled : s.Settled start.memory := hmemory ▸ .empty
    obtain ⟨rfl, hms⟩ := hpass.portrays hsettled hroom
      fun specifier hspecifier q hq => ⟨specifier, hspecifier, hq⟩
    rw [edges_of_analyzeFlow hr]
    refine ⟨by rw [length_edgesBetween, List.length_map], fun k e he => ?_⟩
    obtain ⟨a, b, ha, hb, rfl⟩ := getElem?_edgesBetween.mp he
    refine ⟨by rw [List.getElem?_map, ha]; rfl,
      by rw [List.getElem?_map, hb]; rfl, nodup_sharedProperties a b,
      fun property => ?_⟩
    exact (hms a (List.mem_of_getElem? ha)).mem_sharedProperties
      (hms b (List.mem_of_getElem? hb))

/-- Both middlewares lead to the file that writes and reads.  The second finds
it analysed, and the edge carries the property all the same. -/
theorem edges_exact_twins :
    ({ middleware := .array [.string "a", .string "b"] } : Endpoint).specifiers?
      = some ["a", "b"] ∧
    twins.HasRoom {q | ∃ specifier ∈ ["a", "b"], q ∈ twins.entries specifier} ∧
    ∃ r, (twins.analyzeFlow none {}
        { middleware := .array [.string "a", .string "b"] }).2 = .ok r ∧
      ∃ e, r.edges = [e] ∧ e.source = "a" ∧ e.target = "b" ∧
        "x" ∈ e.properties := by
  have hroom : twins.HasRoom {q | ∃ specifier ∈ ["a", "b"],
      q ∈ twins.entries specifier} :=
    hasRoom_twins fun _ hname => hname
  obtain ⟨hok, hexact⟩ := edges_exact twins {}
    { middleware := .array [.string "a", .string "b"] } ["a", "b"] rfl hroom
  obtain ⟨r, hr⟩ := hok.mpr fun name hname => ⟨_, (entry_twins name hname).1⟩
  obtain ⟨hlength, hedges⟩ := hexact r hr
  obtain ⟨e, he⟩ := List.length_eq_one_iff.mp hlength
  obtain ⟨hsource, htarget, -, hproperties⟩ := hedges 0 e (by rw [he]; rfl)
  obtain ⟨-, hc, hreads, -⟩ := layout_twins
  refine ⟨rfl, hroom, r, hr, e, he, (Option.some.inj hsource).symm,
    (Option.some.inj htarget).symm,
    (hproperties "x").mpr ⟨⟨loopFile "c", ?_, ?_⟩,
      loopFile "c", ?_, ?_⟩⟩
  · rw [← Option.some.inj hsource]
    exact reachedFrom_twins "a" (by simp)
  · exact (uses_of_outline hc).mpr List.mem_cons_self
  · rw [← Option.some.inj htarget]
    exact reachedFrom_twins "b" (by simp)
  · exact (uses_iff_of_listed hreads).mpr List.mem_cons_self

end Scene

end Relay
