import Relay.Proofs.Faithful
import Relay.Proofs.Middlewares
import Relay.Proofs.RollUps

/-!
# Analyses with room enough

If the greatest depth is not smaller than the number of places that the analyses
of some files can come to, then these analyses keep the memory settled, in
whatever order they are made.  What comes of one of them depends on the files
only and not on the analyses before it: a record expands to the full records of
the files that can be reached, in depth-first order, and a middleware rolls up
the same facts alone and after any others (`depthFirst_expand_analyze`).
-/

namespace Relay

namespace Scene

/-- The greatest depth is not smaller than the number of places that the
analyses of some files can come to. -/
def HasRoom (s : Scene) (roots : Set Path) : Prop :=
  (s.within roots).Finite ∧
    ((s.within roots).ncard : Int) ≤ s.resolver.config.maxDepth

/-- The place that the analysis of a middleware starts from, if there is one. -/
def entries (s : Scene) (specifier : String) : List Path :=
  match s.entry specifier with
  | .ok (some path) => [path.place]
  | _ => []

/-- Full records with the own facts of the files that some places lead to, in
depth-first order. -/
structure Covers (s : Scene) (places : List Path) (records : List Record) :
    Prop where
  order : DepthFirst s.next ∅ (s.owned places) (records.map (·.path))
  own : ∀ r ∈ records, r.shallow = false ∧ s.own? r.path = some r.facts

/-- A middleware has rolled up the facts of the files that its name leads to. -/
def Portrays (s : Scene) (m : Middleware) : Prop :=
  ∃ records, s.Covers (s.entries m.name) records ∧
    m.lists = (m.rollUp records).lists

variable {s : Scene} {roots : Set Path}

/-- A scene with room has it before any analysis. -/
theorem HasRoom.roomy (h : s.HasRoom roots) :
    s.Roomy (s.within roots) s.room [] where
  finite := h.1
  closed _ hpath _ hq := mem_within_of_requires hpath hq
  inside := by simp
  nodup := List.nodup_nil
  enough := by
    have := h.2
    rw [room, List.length_nil]
    omega

/-- There is room if all places that can be come to are among a few. -/
theorem HasRoom.of_subset {places : Finset Path}
    (hsub : s.within roots ⊆ places)
    (hcard : (places.card : Int) ≤ s.resolver.config.maxDepth) :
    s.HasRoom roots := by
  have hfinite := places.finite_toSet
  have hle := Set.ncard_le_ncard hsub hfinite
  rw [Set.ncard_coe_finset] at hle
  exact ⟨hfinite.subset hsub, by omega⟩

namespace Covers

variable {places : List Path} {records records' : List Record}

/-- **The files decide.**  The facts are determined by where they are sought. -/
theorem facts_eq (h : s.Covers places records) (h' : s.Covers places records') :
    records.map (·.facts) = records'.map (·.facts) := by
  have hfacts : ∀ {rs : List Record}, s.Covers places rs →
      (rs.map (·.facts)).map some = (rs.map (·.path)).map s.own? := by
    intro rs hrs
    rw [List.map_map, List.map_map]
    exact List.map_congr_left fun r hr => (hrs.own r hr).2.symm
  apply List.map_injective_iff.mpr (Option.some_injective Facts)
  rw [hfacts h, hfacts h', h.order.unique h'.order]

/-- Records that cover some places are of the files that these places reach.
-/
theorem mem_iff (h : s.Covers places records) {q : Path} :
    q ∈ records.map (·.path) ↔ ∃ root ∈ places, s.Reaches root q := by
  rw [h.order.mem_iff]
  constructor
  · rintro ⟨root, hroot, hpath⟩
    obtain ⟨hmem, hown⟩ := List.mem_filter.mp hroot
    exact ⟨root, hmem, hown, hpath⟩
  · rintro ⟨root, hmem, hown, hpath⟩
    exact ⟨root, List.mem_filter.mpr ⟨hmem, hown⟩, hpath⟩

end Covers

/-- A middleware that has rolled up what its name leads to is determined by the
name. -/
theorem Portrays.lists_eq {m m' : Middleware} (h : s.Portrays m)
    (h' : s.Portrays m') (hname : m.name = m'.name) : m.lists = m'.lists := by
  obtain ⟨records, hcovers, hlists⟩ := h
  obtain ⟨records', hcovers', hlists'⟩ := h'
  rw [← hname] at hcovers'
  rw [hlists, hlists']
  exact Middleware.lists_rollUp (hcovers.facts_eq hcovers')

namespace Settled

variable {m m' : Memory} {p p' : Progress}

/-- Exploring a file from the top of a settled memory settles it again, and
gives a record just when the file has facts. -/
theorem explore (h : s.Settled m) (hroom : s.HasRoom roots) {path : Path}
    (hplain : path.Plain) (hroot : path.place ∈ roots) {parent : Option Path}
    {records : List Record} {opened : List Path}
    (hexp : Explored s s.room 0 parent m [path] m' records opened) :
    s.Settled m' ∧ records.map (·.path) = s.owned [path.place] ∧
      ∀ r ∈ records, m'.Anchors r ∧ m'.Holds r.path := by
  obtain ⟨hsteady, hgrows⟩ := hexp.grows h.steady
  obtain ⟨hfaithful, hanchors, howned⟩ := hexp.faithful h.steady h.faithful
    (List.forall_mem_singleton.mpr hplain)
  have hroomy : s.Roomy (s.within roots) s.room m.active := by
    rw [h.idle]
    exact hroom.roomy
  obtain ⟨hcomplete, hholds⟩ := hexp.complete h.steady hroomy
    (List.forall_mem_singleton.mpr (mem_within_of_mem hroot)) h.complete
  have hsettled : s.Settled m' :=
    ⟨hsteady, hfaithful, hcomplete, hgrows.active.trans h.idle⟩
  have hall : s.owned (records.map (·.path)) = records.map (·.path) := by
    apply List.filter_eq_self.mpr
    intro q hq
    obtain ⟨r, hr, rfl⟩ := List.mem_map.mp hq
    obtain ⟨k, hk⟩ := hsettled.exists_kept (hholds r hr)
    rw [(hfaithful.kept r.path k hk).own]
    rfl
  refine ⟨hsettled, ?_, fun r hr => ⟨hanchors r hr, hholds r hr⟩⟩
  rw [← hall, howned, List.map_singleton]

/-- The analysis of a file gives a record just when the file has facts, and the
record expands to all that the file leads to. -/
theorem analyze (h : s.Settled p.memory) (hroom : s.HasRoom roots) {path : Path}
    (hplain : path.Plain) (hroot : path.place ∈ roots) (parent : Option Path) :
    s.Settled (s.analyze p path 0 parent).1.memory ∧
      ((∃ record, (s.analyze p path 0 parent).2 = .ok (some record)) ↔
        (s.own? path.place).isSome) ∧
      ∀ record, (s.analyze p path 0 parent).2 = .ok (some record) →
        s.Covers [path.place]
        ((s.analyze p path 0 parent).1.memory.expand record) := by
  rcases analyze_cases s p path parent with
    ⟨e, hfind, hrun⟩ | ⟨p', found, opened, hrun, -, hexp⟩
  · have hown : s.own? path.place = none :=
      own?_of_fileAt?_eq_none (by simp [fileAt?, hfind])
    rw [hrun, hown]
    exact ⟨h, by simp, by simp⟩
  · rw [hrun]
    obtain ⟨hsettled, hpaths, hrecords⟩ := h.explore hroom hplain hroot hexp
    refine ⟨hsettled, ?_, ?_⟩
    · cases found with
      | none =>
          have hnone : s.own? path.place = none := by simpa [owned] using hpaths
          simp [hnone]
      | some record =>
          have hown : (s.own? path.place).isSome := by
            by_contra hnone
            simp [owned, hnone] at hpaths
          simp [hown]
    · intro record hrecord
      cases hrecord
      obtain ⟨hanchors, hholds⟩ := hrecords record List.mem_cons_self
      obtain ⟨horder, hown⟩ := hsettled.expand hanchors hholds
      refine ⟨?_, hown⟩
      rw [← hpaths]
      exact horder

/-- The analysis of a middleware rolls up what its name leads to. -/
theorem analyzeMiddleware (h : s.Settled p.memory) (hroom : s.HasRoom roots)
    {specifier : String} (hroots : ∀ q ∈ s.entries specifier, q ∈ roots)
    {m : Middleware} (hrun : s.analyzeMiddleware p specifier = (p', .ok m)) :
    s.Settled p'.memory ∧ m.name = specifier ∧ s.Portrays m := by
  rcases analyzeMiddleware_cases s p specifier with
    ⟨e, -, hrun'⟩ | ⟨hentry, hrun'⟩ | ⟨path, p₁, found, opened, hentry, -,
      hexp, hrun'⟩
  · rw [hrun'] at hrun
    cases hrun
  · rw [hrun'] at hrun
    cases hrun
    have hentries : s.entries specifier = [] := by simp [entries, hentry]
    refine ⟨h, rfl, [], ⟨?_, by simp⟩, rfl⟩
    rw [Middleware.absent, hentries]
    exact .nil
  · rw [hrun'] at hrun
    cases hrun
    have hentries : s.entries specifier = [path.place] := by
      simp [entries, hentry]
    rw [hentries, List.forall_mem_singleton] at hroots
    obtain ⟨hsettled, hpaths, hrecords⟩ :=
      h.explore hroom (found_of_entry hentry).plain hroots hexp
    refine ⟨hsettled, Middleware.made_name .., ?_⟩
    unfold Portrays
    rw [Middleware.made_name, hentries]
    cases found with
    | none =>
        refine ⟨[], ⟨?_, by simp⟩, rfl⟩
        rw [← hpaths]
        exact .nil
    | some record =>
        obtain ⟨hanchors, hholds⟩ := hrecords record List.mem_cons_self
        obtain ⟨horder, hown⟩ := hsettled.expand hanchors hholds
        refine ⟨p'.memory.expand record, ⟨?_, hown⟩,
          Middleware.lists_rollUp rfl⟩
        rw [← hpaths]
        exact horder

end Settled

/-- The progress after some analyses from the top, each of a file that is given
as a text and for some parent or none. -/
def after (s : Scene) (p : Progress) (calls : List (String × Option Path)) :
    Progress :=
  calls.foldl (fun p call => (s.analyze p (.ofString call.1) 0 call.2).1) p

/-- Analyses from the top keep a memory settled. -/
theorem Settled.after {p : Progress} (h : s.Settled p.memory)
    (hroom : s.HasRoom roots) {calls : List (String × Option Path)}
    (hroots : ∀ call ∈ calls, (Path.ofString call.1).place ∈ roots) :
    s.Settled (s.after p calls).memory := by
  induction calls generalizing p with
  | nil => exact h
  | cons call calls ih =>
      obtain ⟨hcall, hcalls⟩ := List.forall_mem_cons.mp hroots
      have hnext :=
        (h.analyze hroom (Path.plain_ofString call.1) hcall call.2).1
      exact ih hnext hcalls

/-- Every middleware of a chain rolls up what its name leads to. -/
theorem Passes.portrays {p p' : Progress} {specifiers : List String}
    {ms : List Middleware} (h : s.Passes p specifiers p' ms)
    (hsettled : s.Settled p.memory) (hroom : s.HasRoom roots)
    (hroots : ∀ specifier ∈ specifiers, ∀ q ∈ s.entries specifier, q ∈ roots) :
    ms.map (·.name) = specifiers ∧ ∀ m ∈ ms, s.Portrays m := by
  induction h with
  | nil => exact ⟨rfl, by simp⟩
  | cons first rest ih =>
      obtain ⟨hfirst, hrest⟩ := List.forall_mem_cons.mp hroots
      obtain ⟨hsettled₁, hname, hm⟩ :=
        hsettled.analyzeMiddleware hroom hfirst first
      obtain ⟨hnames, hms⟩ := ih hsettled₁ hrest
      rw [List.map_cons, hname, hnames]
      exact ⟨rfl, List.forall_mem_cons.mpr ⟨hm, hms⟩⟩

/-- Middlewares are added in order. -/
theorem middlewares_foldl_add (ms : List Middleware) (t : Passed) :
    (ms.foldl Passed.add t).middlewares = t.middlewares ++ ms := by
  induction ms generalizing t with
  | nil => exact (List.append_nil _).symm
  | cons m ms ih =>
      have hadd : (t.add m).middlewares = t.middlewares ++ [m] := rfl
      rw [List.foldl_cons, ih, hadd, List.append_assoc, List.singleton_append]

/-- The file of a short name in the scene below. -/
def loopFile (name : String) : Path :=
  ⟨.here, ["ws", "agl-m-middleware", name ++ ".js"]⟩

/-- Three files that require each other in a circle, `a`, `b` and `c`, with a
fourth one above that requires the first two.  The greatest depth is three. -/
def loop : Scene where
  files :=
    { entries := [
        (["R", "ws"], .directory),
        (["R", "ws", "agl-m-middleware"], .directory),
        (["R", "ws", "agl-m-middleware", "e.js"],
          .file "require('./a');require('./b')".toUTF8 1000),
        (["R", "ws", "agl-m-middleware", "a.js"],
          .file "require('./b')".toUTF8 1000),
        (["R", "ws", "agl-m-middleware", "b.js"],
          .file "require('./c')".toUTF8 1000),
        (["R", "ws", "agl-m-middleware", "c.js"],
          .file "require('./a');res.locals.x=1".toUTF8 1000)]
      current := ["R"] }
  resolver := ⟨{ Config.usual (.ofString "ws") "m" with
    maxDepth := 3, libraryPatterns := [] }, []⟩

theorem maxDepth_loop : loop.resolver.config.maxDepth = 3 := rfl

-- Both are evaluated below where a file is read, and unfolded nowhere else.
attribute [irreducible] loopFile loop

/-- What a file requires and which shared properties it writes. -/
def outline (s : Scene) (path : Path) : Option (List Path × List String) :=
  (s.own? path).map fun facts => ((followed facts.dependencies).map Path.place,
    facts.usages.localsWrites.map (·.property))

/-- A file with an outline can be read and requires what the outline says. -/
theorem required_of_outline {path : Path} {qs : List Path}
    {properties : List String} (h : s.outline path = some (qs, properties)) :
    (s.own? path).isSome ∧ s.required path = qs := by
  obtain ⟨facts, hown, hfacts⟩ := Option.map_eq_some_iff.mp h
  rw [required_of_own? hown, hown]
  exact ⟨rfl, (Prod.mk.inj hfacts).1⟩

/-- A file with an outline leads to what it requires if that can be read. -/
theorem leads_of_outline {path q : Path} {qs : List Path}
    {properties : List String} (h : s.outline path = some (qs, properties))
    (hq : q ∈ qs) (hown : (s.own? q).isSome) : s.Leads path q := by
  rw [leads_iff, Requires, (required_of_outline h).2]
  exact ⟨hq, hown⟩

/-- A file with an outline writes the properties that the outline says. -/
theorem uses_of_outline {path : Path} {qs : List Path}
    {properties : List String} (h : s.outline path = some (qs, properties))
    {property : String} :
    s.Uses path .locals .write property ↔ property ∈ properties := by
  obtain ⟨facts, hown, hfacts⟩ := Option.map_eq_some_iff.mp h
  apply uses_iff_of_listed
  rw [listed, hown]
  exact congrArg some (Prod.mk.inj hfacts).2

/-- A name that can be looked up has an entry. -/
theorem entries_of_entry {name : String} {path : Path}
    (h : (s.entry name).toOption = some (some path))
    (hplace : path.place = path) :
    s.entry name = .ok (some path) ∧ s.entries name = [path] := by
  have hentry := eq_ok_of_toOption h
  refine ⟨hentry, ?_⟩
  rw [entries, hentry]
  exact congrArg (fun q => [q]) hplace

/-- What the files of the scene hold, and where they are. -/
theorem layout_loop :
    loop.outline (loopFile "e") = some ([loopFile "a", loopFile "b"], []) ∧
    loop.outline (loopFile "a") = some ([loopFile "b"], []) ∧
    loop.outline (loopFile "b") = some ([loopFile "c"], []) ∧
    loop.outline (loopFile "c") = some ([loopFile "a"], ["x"]) ∧
    (∀ name ∈ ["e", "a", "b"],
      (loop.entry name).toOption = some (some (loopFile name)) ∧
        (loopFile name).place = loopFile name) ∧
    [loopFile "e", loopFile "a", loopFile "b", loopFile "c"].Nodup := by
  decide +kernel

/-- How the files of the scene are written. -/
theorem text_loop :
    (Path.ofString "ws/agl-m-middleware/a.js").place = loopFile "a" ∧
    (Path.ofString "ws/agl-m-middleware/b.js").place = loopFile "b" ∧
    (loopFile "c").short = "ws/agl-m-middleware/c.js" := by
  decide +kernel

theorem outline_loop_e :
    loop.outline (loopFile "e") = some ([loopFile "a", loopFile "b"], []) :=
  layout_loop.1

theorem outline_loop_a :
    loop.outline (loopFile "a") = some ([loopFile "b"], []) :=
  layout_loop.2.1

theorem outline_loop_b :
    loop.outline (loopFile "b") = some ([loopFile "c"], []) :=
  layout_loop.2.2.1

theorem outline_loop_c :
    loop.outline (loopFile "c") = some ([loopFile "a"], ["x"]) :=
  layout_loop.2.2.2.1

/-- The files of the scene are named by their places. -/
theorem place_loop (name : String) (h : name ∈ ["e", "a", "b"]) :
    (loopFile name).place = loopFile name :=
  (layout_loop.2.2.2.2.1 name h).2

/-- The files of the scene are different. -/
theorem nodup_loop :
    [loopFile "e", loopFile "a", loopFile "b", loopFile "c"].Nodup :=
  layout_loop.2.2.2.2.2

/-- A short name stands for the file of that name. -/
theorem entry_loop (name : String) (h : name ∈ ["e", "a", "b"]) :
    loop.entry name = .ok (some (loopFile name)) :=
  (entries_of_entry (layout_loop.2.2.2.2.1 name h).1 (place_loop name h)).1

/-- A short name has one entry, the file of that name. -/
theorem entries_loop (name : String) (h : name ∈ ["e", "a", "b"]) :
    loop.entries name = [loopFile name] :=
  (entries_of_entry (layout_loop.2.2.2.2.1 name h).1 (place_loop name h)).2

/-- Nothing leads out of the circle. -/
theorem within_loop {roots : Set Path}
    (h : roots ⊆ {loopFile "a", loopFile "b", loopFile "c"}) :
    loop.within roots ⊆ {loopFile "a", loopFile "b", loopFile "c"} := by
  rintro q ⟨root, hroot, hpath⟩
  induction hpath with
  | refl => exact h hroot
  | @tail c d _ hd ih =>
      rw [Requires] at hd
      rcases ih with rfl | rfl | rfl
      · rw [(required_of_outline outline_loop_a).2, List.mem_singleton] at hd
        exact .inr (.inl hd)
      · rw [(required_of_outline outline_loop_b).2, List.mem_singleton] at hd
        exact .inr (.inr hd)
      · rw [(required_of_outline outline_loop_c).2, List.mem_singleton] at hd
        exact .inl hd

/-- Three levels are enough for the circle. -/
theorem hasRoom_loop {roots : Set Path}
    (h : roots ⊆ {loopFile "a", loopFile "b", loopFile "c"}) :
    loop.HasRoom roots := by
  have hsub : loop.within roots
      ⊆ (({loopFile "a", loopFile "b", loopFile "c"} : Finset Path) :
          Set Path) := by
    simpa only [Finset.coe_insert, Finset.coe_singleton] using within_loop h
  have hthree := Finset.card_le_three (a := loopFile "a") (b := loopFile "b")
    (c := loopFile "c")
  refine .of_subset hsub ?_
  rw [maxDepth_loop]
  omega

/-- A chain of the first two files of the circle starts within it. -/
theorem subset_loop_chain :
    {q | ∃ specifier ∈ ["a", "b"], q ∈ loop.entries specifier}
      ⊆ {loopFile "a", loopFile "b", loopFile "c"} := by
  rintro q ⟨specifier, hspecifier, hq⟩
  rw [entries_loop specifier (List.mem_cons_of_mem _ hspecifier),
    List.mem_singleton] at hq
  rcases List.mem_pair.mp hspecifier with rfl | rfl
  · exact .inl hq
  · exact .inr (.inl hq)

/-- The scene has room for the chain of the two middlewares. -/
theorem hasRoom_loop_chain :
    loop.HasRoom {q | ∃ specifier ∈ ["a", "b"], q ∈ loop.entries specifier} :=
  hasRoom_loop subset_loop_chain

/-- Neither name of the chain is too long. -/
theorem entry_eq_ok_loop_chain :
    ∀ specifier ∈ ["a", "b"], ∃ path?, loop.entry specifier = .ok path? :=
  fun specifier h => ⟨_, entry_loop specifier (List.mem_cons_of_mem _ h)⟩

/-- From the first file of the circle the three files are visited in order. -/
theorem depthFirst_loop : DepthFirst loop.next ∅ [loopFile "a"]
    [loopFile "a", loopFile "b", loopFile "c"] := by
  obtain ⟨hownA, hreqA⟩ := required_of_outline outline_loop_a
  obtain ⟨hownB, hreqB⟩ := required_of_outline outline_loop_b
  obtain ⟨hownC, hreqC⟩ := required_of_outline outline_loop_c
  have hnextA : loop.next (loopFile "a") = [loopFile "b"] := by
    simp [next, owned, hreqA, hownB]
  have hnextB : loop.next (loopFile "b") = [loopFile "c"] := by
    simp [next, owned, hreqB, hownC]
  have hnextC : loop.next (loopFile "c") = [loopFile "a"] := by
    simp [next, owned, hreqC, hownA]
  have hdistinct := nodup_loop
  simp only [List.nodup_cons, List.mem_cons, List.not_mem_nil, or_false, not_or]
    at hdistinct
  obtain ⟨-, ⟨hab, hac⟩, hbc, -⟩ := hdistinct
  have hlast : DepthFirst loop.next
      (insert (loopFile "c") (insert (loopFile "b") (insert (loopFile "a") ∅)))
      (loop.next (loopFile "c")) [] := by
    rw [hnextC]
    exact .skip (by simp) .nil
  have hmiddle :
    DepthFirst loop.next (insert (loopFile "b") (insert (loopFile "a") ∅))
      (loop.next (loopFile "b")) [loopFile "c"] := by
    rw [hnextB]
    exact .visit (by simp [Ne.symm hac, Ne.symm hbc]) hlast .nil
  have hfirst : DepthFirst loop.next (insert (loopFile "a") ∅)
      (loop.next (loopFile "a")) [loopFile "b", loopFile "c"] := by
    rw [hnextA]
    exact .visit (by simp [Ne.symm hab]) hmiddle .nil
  exact .visit (Set.notMem_empty _) hfirst .nil

/-- **Reachability is exact.**  Let the greatest depth be no smaller than the
number of places that can be come to.  After any analyses from the top, a file
with facts has a record, and the record expands to the full records of the files
that can be reached from it, each once and in depth-first order.  Hence a
middleware has the same seven lists alone as after any others of its chain. -/
theorem depthFirst_expand_analyze (s : Scene) (p₀ : Progress) :
    (∀ (calls : List (String × Option Path)) (text : String),
      s.HasRoom {q | ∃ t ∈ text :: calls.map (·.1),
        q = (Path.ofString t).place} →
      ∀ p' result, s.analyze (s.after (p₀.remember fun _ => {}) calls)
          (.ofString text) 0 none = (p', result) →
        ((∃ record, result = .ok (some record)) ↔
          (s.own? (Path.ofString text).place).isSome) ∧
        ∀ record, result = .ok (some record) →
          DepthFirst s.next ∅ [(Path.ofString text).place]
            ((p'.memory.expand record).map (·.path)) ∧
          ((p'.memory.expand record).map (·.path)).Nodup ∧
          (∀ q, q ∈ (p'.memory.expand record).map (·.path) ↔
            s.Reaches (Path.ofString text).place q) ∧
          ∀ r ∈ p'.memory.expand record,
            r.shallow = false ∧ s.own? r.path = some r.facts) ∧
    ∀ (specifiers : List String) (p' : Progress) (t : Passed),
      s.HasRoom {q | ∃ specifier ∈ specifiers, q ∈ s.entries specifier} →
      s.analyzeChain none (p₀.remember fun _ => {}) {} specifiers
        = (p', .ok t) →
      t.middlewares.map (·.name) = specifiers ∧
      ∀ m ∈ t.middlewares, ∃ p'' alone,
        s.analyzeMiddleware (p₀.remember fun _ => {}) m.name =
          (p'', .ok alone) ∧ alone.lists = m.lists := by
  have hreset : s.Settled (p₀.remember fun _ => {}).memory := .empty
  constructor
  · intro calls text hroom p' result hrun
    have hcalls : ∀ call ∈ calls, (Path.ofString call.1).place ∈
        {q | ∃ t ∈ text :: calls.map (·.1), q = (Path.ofString t).place} :=
      fun call hcall =>
        ⟨call.1, List.mem_cons_of_mem _ (List.mem_map_of_mem hcall), rfl⟩
    obtain ⟨-, hsome, hcovers⟩ := (hreset.after hroom hcalls).analyze hroom
      (Path.plain_ofString text) ⟨text, List.mem_cons_self, rfl⟩ none
    rw [hrun] at hsome hcovers
    refine ⟨hsome, fun record hrecord => ?_⟩
    have hrecords := hcovers record hrecord
    have howned : s.owned [(Path.ofString text).place] =
        [(Path.ofString text).place] := by
      simp [owned, hsome.mp ⟨record, hrecord⟩]
    refine ⟨howned ▸ hrecords.order, hrecords.order.nodup.1, fun q => ?_,
      hrecords.own⟩
    rw [hrecords.mem_iff]
    simp
  · intro specifiers p' t hroom hrun
    obtain ⟨ms, hpass, rfl⟩ := analyzeChain_eq_ok_iff.mp hrun
    have hroots : ∀ specifier ∈ specifiers, ∀ q ∈ s.entries specifier,
        q ∈ {q | ∃ specifier ∈ specifiers, q ∈ s.entries specifier} :=
      fun specifier hspecifier q hq => ⟨specifier, hspecifier, hq⟩
    obtain ⟨hnames, hms⟩ := hpass.portrays hreset hroom hroots
    rw [middlewares_foldl_add, List.nil_append]
    refine ⟨hnames, fun m hm => ?_⟩
    have hname : m.name ∈ specifiers := hnames ▸ List.mem_map_of_mem hm
    obtain ⟨p'', alone, halone⟩ := exists_analyzeMiddleware
      (hpass.entry_eq_ok m.name hname) (p₀.remember fun _ => {})
    obtain ⟨-, hsame, hportrays⟩ :=
      hreset.analyzeMiddleware hroom (hroots m.name hname) halone
    exact ⟨p'', alone, halone, hportrays.lists_eq (hms m hm) hsame⟩

/-- The circle, from its first file after an analysis of the second, and as a
chain of both. -/
theorem depthFirst_expand_loop :
    loop.HasRoom
      {q | ∃ t ∈ ["ws/agl-m-middleware/a.js", "ws/agl-m-middleware/b.js"],
      q = (Path.ofString t).place} ∧
    (∃ p' record,
      loop.analyze (loop.after {} [("ws/agl-m-middleware/b.js", none)])
        (.ofString "ws/agl-m-middleware/a.js") 0 none =
          (p', .ok (some record)) ∧
      (p'.memory.expand record).map (·.path)
        = [loopFile "a", loopFile "b", loopFile "c"]) ∧
    loop.HasRoom {q | ∃ specifier ∈ ["a", "b"], q ∈ loop.entries specifier} ∧
    ∃ p' t, loop.analyzeChain none {} {} ["a", "b"] = (p', .ok t) ∧
      t.middlewares.map (·.name) = ["a", "b"] ∧
      ∀ m ∈ t.middlewares, ∃ p'' alone,
        loop.analyzeMiddleware {} m.name = (p'', .ok alone) ∧
          alone.lists = m.lists := by
  obtain ⟨hplaceA, hplaceB, -⟩ := text_loop
  have hroom : loop.HasRoom {q | ∃ t ∈ ["ws/agl-m-middleware/a.js",
      "ws/agl-m-middleware/b.js"], q = (Path.ofString t).place} := by
    apply hasRoom_loop
    rintro q ⟨t, ht, rfl⟩
    rcases List.mem_pair.mp ht with rfl | rfl
    · exact .inl hplaceA
    · exact .inr (.inl hplaceB)
  obtain ⟨hone, hchain⟩ := depthFirst_expand_analyze loop {}
  obtain ⟨p', ms, hpass⟩ :=
    exists_passes entry_eq_ok_loop_chain (({} : Progress).remember fun _ => {})
  have hrun :
    loop.analyzeChain none (({} : Progress).remember fun _ => {}) {} ["a", "b"]
      = (p', .ok (ms.foldl Passed.add {})) :=
    analyzeChain_eq_ok_iff.mpr ⟨ms, hpass, rfl⟩
  refine ⟨hroom, ?_, hasRoom_loop_chain, p', _, hrun,
    hchain _ _ _ hasRoom_loop_chain hrun⟩
  rcases hcall : loop.analyze
    (loop.after (({} : Progress).remember fun _ =>
      {}) [("ws/agl-m-middleware/b.js", none)])
    (.ofString "ws/agl-m-middleware/a.js") 0 none with ⟨p₁, result⟩
  obtain ⟨hsome, hall⟩ := hone _ _ hroom p₁ result hcall
  rw [hplaceA] at hsome hall
  obtain ⟨record, rfl⟩ := hsome.mpr (required_of_outline outline_loop_a).1
  exact ⟨p₁, record, hcall, (hall record rfl).1.unique depthFirst_loop⟩

end Scene

end Relay
