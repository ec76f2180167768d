import Relay.Proofs.DepthLimit

/-!
# Along a chain

The middlewares of a chain are analysed with one memory.  After some of them
the kept files are those that a walk meets from their entries on, one after the
other (`Scene.knownAfter`).  What a middleware's record expands to are the
files that a way leads to from its entry through kept files only
(`Stands.exists_mem_expanded`).  So expanding it again when the chain has gone
on can only give more: a file that was cut off at the greatest depth may have
been analysed in the meantime.

`Passes.known` says both for a whole chain.  The lists of a middleware tell
what its record expanded to when it was analysed.
-/

namespace Relay

open Analysis

/-- The paths that records are kept for. -/
def Memory.keptPaths (m : Memory) : Set Path :=
  {q | ∃ k, m.find? q = some k}

/-- The full records that the record of a middleware leads to. -/
def Middleware.expanded (mid : Middleware) (m : Memory) : List Record :=
  (mid.record.map m.expand).getD []

namespace Scene

/-- The files that are met from the entries of some middlewares on, one
middleware after the other. -/
def knownAfter (s : Scene) (names : List String) : Set Path :=
  {q | q ∈ ((names.flatMap s.entries).foldl (s.meet s.room 0) []).map (·.1)}

/-- A way leads from the entry of a middleware to a file, through known
files. -/
def ReachedThrough (s : Scene) (known : Set Path) (name : String)
    (path : Path) : Prop :=
  ∃ root ∈ s.entries name, root ∈ known ∧
    Relation.ReflTransGen (fun a b => s.Leads a b ∧ b ∈ known) root path

/-- The record of a middleware stands for what is kept, and it is missing only
if the file has no facts. -/
structure Stands (s : Scene) (m : Memory) (mid : Middleware) : Prop where
  anchored : ∀ r ∈ mid.record.toList, m.Anchors r
  owned : s.owned (mid.record.toList.map (·.path)) =
    s.owned (s.entries mid.name)

/-- A memory after some middlewares, from nothing known. -/
structure Knows (s : Scene) (names : List String) (m : Memory) : Prop where
  steady : s.Steady m
  faithful : s.Faithful m
  idle : m.active = []
  known : m.keptPaths = s.knownAfter names

variable {s : Scene} {m m' : Memory} {f : Path}

/-- What is known after two lists of middlewares comes of meeting the entries
of the first and then those of the second. -/
theorem knownAfter_append (s : Scene) (names more : List String) :
    s.knownAfter (names ++ more) = {q | q ∈ ((more.flatMap s.entries).foldl
      (s.meet s.room 0)
      ((names.flatMap s.entries).foldl (s.meet s.room 0) [])).map (·.1)} := by
  rw [knownAfter, List.flatMap_append, List.foldl_append]

/-- The more middlewares, the more files are known. -/
theorem knownAfter_subset (s : Scene) (names more : List String) :
    s.knownAfter names ⊆ s.knownAfter (names ++ more) := by
  rw [knownAfter_append]
  intro q hq
  exact ((prefix_foldl (prefix_meet s.room 0)).map Prod.fst).subset hq

/-- An entry with facts is known after its middleware. -/
theorem mem_knownAfter_of_entry (hdepth : 1 ≤ s.resolver.config.maxDepth)
    {names : List String} {name : String} (hname : name ∈ names) {root : Path}
    (hroot : root ∈ s.entries name) (hown : (s.own? root).isSome) :
    root ∈ s.knownAfter names := by
  obtain ⟨room, hroom⟩ : ∃ room, s.room = room + 1 :=
    ⟨s.room - 1, by rw [Scene.room]; omega⟩
  have hmem : root ∈ names.flatMap s.entries :=
    List.mem_flatMap.mpr ⟨name, hname, hroot⟩
  obtain ⟨before, hpre⟩ : ∃ before, s.meet s.room 0 before root <+:
      (names.flatMap s.entries).foldl (s.meet s.room 0) [] :=
    exists_step_of_mem (prefix_meet s.room 0) hmem
  refine (hpre.map Prod.fst).subset ?_
  rw [hroom]
  exact mem_meet hown

/-- With more files known, a file is still reached through a name. -/
theorem ReachedThrough.mono {known known' : Set Path} {name : String}
    (h : s.ReachedThrough known name f) (hsub : known ⊆ known') :
    s.ReachedThrough known' name f := by
  obtain ⟨root, hroot, hknown, hway⟩ := h
  refine ⟨root, hroot, hsub hknown, ?_⟩
  exact Relation.ReflTransGen.mono (fun _ _ hstep => ⟨hstep.1, hsub hstep.2⟩)
    _ _ hway

namespace Faithful

variable {root : Path}

/-- A kept file has facts of its own. -/
theorem isSome_of_kept (h : s.Faithful m) (hf : f ∈ m.keptPaths) :
    (s.own? f).isSome := by
  obtain ⟨k, hk⟩ := hf
  rw [(h.kept f k hk).own]
  rfl

/-- Of the files below a kept record, those with facts are the ones that its
file leads to. -/
theorem leads_iff_below (h : s.Faithful m) {a b : Path} (ha : a ∈ m.keptPaths) :
    s.Leads a b ↔ b ∈ m.below a ∧ (s.own? b).isSome := by
  obtain ⟨k, hk⟩ := ha
  rw [Leads, ← (h.kept a k hk).next, Memory.below, hk, Scene.owned,
    List.mem_filter]

/-- A way below kept records to a kept file goes through kept files only. -/
theorem way_of_below (h : s.Faithful m) (hf : f ∈ m.keptPaths)
    (hway : Relation.ReflTransGen (fun a b => b ∈ m.below a) root f) :
    root ∈ m.keptPaths ∧
      Relation.ReflTransGen (fun a b => s.Leads a b ∧
        b ∈ m.keptPaths) root f := by
  induction hway with
  | refl => exact ⟨hf, .refl⟩
  | @tail a b _ hb ih =>
      have ha : a ∈ m.keptPaths := by
        unfold Memory.below at hb
        split at hb
        · rename_i k hk
          exact ⟨k, hk⟩
        · cases hb
      obtain ⟨hroot, hway⟩ := ih ha
      have hleads := (h.leads_iff_below ha).mpr ⟨hb, h.isSome_of_kept hf⟩
      exact ⟨hroot, hway.tail ⟨hleads, hf⟩⟩

/-- A way through kept files is a way down the kept records. -/
theorem below_of_way (h : s.Faithful m) (hroot : root ∈ m.keptPaths)
    (hway : Relation.ReflTransGen (fun a b => s.Leads a b ∧
      b ∈ m.keptPaths) root f) :
    f ∈ m.keptPaths ∧ Relation.ReflTransGen
      (fun a b => b ∈ m.below a) root f := by
  induction hway with
  | refl => exact ⟨hroot, .refl⟩
  | tail _ hstep ih =>
      obtain ⟨ha, hway⟩ := ih
      exact ⟨hstep.2, hway.tail ((h.leads_iff_below ha).mp hstep.1).1⟩

/-- A record that another one expands to has the own facts of its file, or
none. -/
theorem own_of_mem_expand (h : s.Faithful m) {record : Record}
    (hr : m.Anchors record) :
    ∀ r ∈ m.expand record, s.own? r.path = some r.facts ∨ r.facts = {} := by
  obtain ⟨-, htells⟩ := Memory.expand_depthFirst h.anchored hr
  intro r hmem
  exact (h.tells (htells r hmem)).imp (fun ⟨_, _, hown⟩ => hown) And.right

/-- **What a record expands to.**  The records that tell of a usage are those
of the files that a way through kept files leads to. -/
theorem exists_mem_expand (h : s.Faithful m) {record : Record}
    (hr : m.Anchors record) {b : Bag} {k : UsageKind} {property : String} :
    (∃ r ∈ m.expand record, r.path = f ∧
        ∃ u ∈ r.facts.usages.inBag b k, u.property = property) ↔
      (record.path ∈ m.keptPaths ∧
        Relation.ReflTransGen (fun a b => s.Leads a b ∧
          b ∈ m.keptPaths) record.path f) ∧
      s.Uses f b k property := by
  obtain ⟨hsearch, htells⟩ := Memory.expand_depthFirst h.anchored hr
  constructor
  · rintro ⟨r, hmem, rfl, u, hu, hproperty⟩
    rcases h.tells (htells r hmem) with ⟨kept, hkept, hown⟩ | ⟨-, hbare⟩
    · obtain ⟨root, hroot, hway⟩ := hsearch.reached _ (List.mem_map_of_mem hmem)
      rw [List.mem_singleton] at hroot
      subst hroot
      exact ⟨h.way_of_below ⟨kept, hkept⟩ hway, r.facts, hown, u, hu, hproperty⟩
    · rw [hbare] at hu
      cases b <;> cases k <;> cases hu
  · rintro ⟨⟨hroot, hway⟩, facts, hown, u, hu, hproperty⟩
    obtain ⟨⟨kept, hkept⟩, hway⟩ := h.below_of_way hroot hway
    have hmem := hsearch.mem_iff.mpr ⟨_, List.mem_singleton_self _, hway⟩
    obtain ⟨r, hr, rfl⟩ := List.mem_map.mp hmem
    rcases h.tells (htells r hr) with ⟨-, -, hown'⟩ | ⟨hnone, -⟩
    · rw [hown, Option.some.injEq] at hown'
      exact ⟨r, hr, rfl, u, hown' ▸ hu, hproperty⟩
    · rw [hkept] at hnone
      cases hnone

end Faithful

namespace Stands

variable {mid : Middleware} {b : Bag} {k : UsageKind} {property : String}

/-- What stands in a memory stands in a larger one. -/
theorem mono (h : s.Stands m mid) (hgrows : m.Grows m') : s.Stands m' mid :=
  ⟨fun r hr => (h.anchored r hr).mono hgrows.kept, h.owned⟩

/-- A kept file is the entry of a middleware just when it has the middleware's
record. -/
theorem mem_entries_iff (h : s.Stands m mid) (hm : s.Faithful m) {root : Path}
    (hroot : root ∈ m.keptPaths) :
    root ∈ s.entries mid.name ↔ root ∈ mid.record.toList.map (·.path) := by
  have hown := hm.isSome_of_kept hroot
  have hmem : ∀ paths : List Path, root ∈ s.owned paths ↔ root ∈ paths := by
    intro paths
    rw [Scene.owned, List.mem_filter]
    exact ⟨And.left, fun hpaths => ⟨hpaths, hown⟩⟩
  rw [← hmem, ← h.owned, hmem]

/-- **What a middleware expands to.**  The records that tell of a usage are
those of the files that a way leads to from its entry through kept files. -/
theorem exists_mem_expanded (h : s.Stands m mid) (hm : s.Faithful m) :
    (∃ r ∈ mid.expanded m, r.path = f ∧
        ∃ u ∈ r.facts.usages.inBag b k, u.property = property) ↔
      s.ReachedThrough m.keptPaths mid.name f ∧ s.Uses f b k property := by
  have hentries : ∀ {root : Path}, root ∈ m.keptPaths →
      (root ∈ s.entries mid.name ↔ root ∈ mid.record.toList.map (·.path)) :=
    fun hroot => h.mem_entries_iff hm hroot
  unfold Middleware.expanded
  cases hrecord : mid.record with
  | none =>
      rw [hrecord] at hentries
      constructor
      · rintro ⟨r, hr, -⟩
        cases hr
      · rintro ⟨⟨root, hroot, hkept, -⟩, -⟩
        cases (hentries hkept).mp hroot
  | some record =>
      have hr : m.Anchors record := h.anchored record (by rw [hrecord]; simp)
      rw [hrecord] at hentries
      refine (hm.exists_mem_expand hr).trans (and_congr_left fun _ => ?_)
      constructor
      · rintro ⟨hkept, hway⟩
        exact ⟨record.path, (hentries hkept).mpr (by simp), hkept, hway⟩
      · rintro ⟨root, hroot, hkept, hway⟩
        have hsame : root = record.path := by
          simpa using (hentries hkept).mp hroot
        exact hsame ▸ ⟨hkept, hway⟩

/-- A usage in the facts of a record names the path of the record. -/
theorem path_of_mem_expanded (h : s.Stands m mid) (hm : s.Faithful m) :
    ∀ r ∈ mid.expanded m, ∀ u ∈ r.facts.usages.inBag b k, u.path = r.path := by
  intro r hr u hu
  cases hrecord : mid.record with
  | none =>
      rw [Middleware.expanded, hrecord] at hr
      cases hr
  | some record =>
      rw [Middleware.expanded, hrecord] at hr
      have hanchors : m.Anchors record :=
        h.anchored record (by rw [hrecord]; simp)
      rcases hm.own_of_mem_expand hanchors r hr with hown | hbare
      · exact path_of_mem_inBag hown hu
      · rw [hbare] at hu
        cases b <;> cases k <;> cases hu

/-- **What a middleware rolls up.**  Its lists tell what its record
expands to. -/
theorem exists_mem_inBag (h : s.Stands m mid) (hm : s.Faithful m)
    (hlists : mid.lists = (mid.rollUp (mid.expanded m)).lists) :
    (∃ u ∈ mid.inBag b k, u.property = property ∧ u.path = f) ↔
      s.ReachedThrough m.keptPaths mid.name f ∧ s.Uses f b k property := by
  have hpath := h.path_of_mem_expanded (b := b) (k := k) hm
  rw [Middleware.inBag_of_lists hlists, Middleware.exists_mem_inBag_rollUp,
    ← h.exists_mem_expanded hm]
  constructor
  · rintro ⟨r, hr, u, hu, hproperty, rfl⟩
    exact ⟨r, hr, (hpath r hr u hu).symm, u, hu, hproperty⟩
  · rintro ⟨r, hr, rfl, u, hu, hproperty⟩
    exact ⟨r, hr, u, hu, hproperty, hpath r hr u hu⟩

end Stands

/-- While no file is being analysed, the files held are the kept ones. -/
theorem holds_iff_kept (hidle : m.active = []) {q : Path} :
    m.Holds q ↔ q ∈ m.keptPaths := by
  simp [Memory.Holds, Memory.keptPaths, hidle]

variable {names before : List String} {p p' : Progress}

namespace Knows

/-- An empty memory knows the files after no middleware. -/
theorem empty : s.Knows [] {} where
  steady := steady_empty
  faithful := .empty
  idle := rfl
  known := by
    ext q
    simp [Memory.keptPaths, knownAfter, Memory.find?]

/-- **One more middleware.**  Its file is explored, its record stands for what
is kept then, and its lists tell what the record expands to. -/
theorem analyzeMiddleware (h : s.Knows names p.memory) {name : String}
    {mid : Middleware} (hrun : s.analyzeMiddleware p name = (p', .ok mid)) :
    s.Knows (names ++ [name]) p'.memory ∧ p.memory.Grows p'.memory ∧
      mid.name = name ∧ s.Stands p'.memory mid ∧
      mid.lists = (mid.rollUp (mid.expanded p'.memory)).lists := by
  rcases analyzeMiddleware_cases s p name with
    ⟨e, -, hrun'⟩ | ⟨hentry, hrun'⟩ | ⟨path, p₁, found, opened, hentry, -,
      hexp, hrun'⟩
  · cases hrun'.symm.trans hrun
  · cases hrun'.symm.trans hrun
    have hentries : s.entries name = [] := by simp [entries, hentry]
    have hknown : s.knownAfter (names ++ [name]) = s.knownAfter names := by
      rw [knownAfter_append, List.flatMap_singleton, hentries]
      rfl
    refine ⟨⟨h.steady, h.faithful, h.idle, by rw [hknown, h.known]⟩,
      .refl _, rfl, ⟨by simp [Middleware.absent], ?_⟩, rfl⟩
    rw [Middleware.absent, hentries]
    rfl
  · cases hrun'.symm.trans hrun
    have hentries : s.entries name = [path.place] := by simp [entries, hentry]
    have hplain : ∀ q ∈ [path], q.Plain :=
      List.forall_mem_singleton.mpr (found_of_entry hentry).plain
    obtain ⟨hsteady, hgrows⟩ := hexp.grows h.steady
    obtain ⟨hfaithful, hanchors, howned⟩ :=
      hexp.faithful h.steady h.faithful hplain
    have hidle : p'.memory.active = [] := hgrows.active.trans h.idle
    have hbefore : ∀ q,
      q ∈ ((names.flatMap s.entries).foldl (s.meet s.room 0) []).map
        (·.1) ↔ p.memory.Holds q := by
      intro q
      rw [holds_iff_kept h.idle, h.known]
      rfl
    have hmet := hexp.met h.steady h.faithful hplain hbefore 0
    have hknown : p'.memory.keptPaths = s.knownAfter (names ++ [name]) := by
      ext q
      rw [← holds_iff_kept hidle, ← hmet q, knownAfter_append,
        List.flatMap_singleton, hentries]
      rfl
    refine ⟨⟨hsteady, hfaithful, hidle, hknown⟩, hgrows,
      Middleware.made_name .., ⟨?_, ?_⟩, ?_⟩
    · rw [Middleware.made_record]
      exact hanchors
    · rw [Middleware.made_record, Middleware.made_name, hentries]
      exact howned
    · cases found with
      | none => rfl
      | some record => exact Middleware.lists_rollUp rfl

end Knows

/-- **Along a chain.**  After the chain, the record of each middleware stands
for what is kept.  The lists of a middleware tell of the files that a way leads
to from its entry through files that were known when it had been analysed. -/
theorem Passes.known {ms : List Middleware} (h : s.Passes p names p' ms)
    (hbefore : s.Knows before p.memory) :
    s.Knows (before ++ names) p'.memory ∧ p.memory.Grows p'.memory ∧
      ms.map (·.name) = names ∧
      ∀ i mid, ms[i]? = some mid → s.Stands p'.memory mid ∧
        ∀ b k f property, (∃ u ∈ mid.inBag b k, u.property = property ∧
          u.path = f) ↔
          s.ReachedThrough (s.knownAfter (before ++ names.take (i + 1)))
            mid.name f ∧ s.Uses f b k property := by
  induction h generalizing before with
  | nil => exact ⟨by rwa [List.append_nil], .refl _, rfl, by simp⟩
  | @cons p p₁ p₂ name names mid ms first rest ih =>
      obtain ⟨hfirst, hgrows₁, hname, hstands, hlists⟩ :=
        hbefore.analyzeMiddleware first
      obtain ⟨hknows, hgrows₂, hnames, hall⟩ := ih hfirst
      rw [List.append_assoc, List.singleton_append] at hknows
      refine ⟨hknows, hgrows₁.trans hgrows₂, by rw [List.map_cons, hname,
        hnames], ?_⟩
      intro i mid' hmid
      cases i with
      | zero =>
          cases hmid
          refine ⟨hstands.mono hgrows₂, fun b k f property => ?_⟩
          rw [hstands.exists_mem_inBag hfirst.faithful hlists, hfirst.known]
          rfl
      | succ i =>
          obtain ⟨hstands', hrolled⟩ := hall i mid' hmid
          refine ⟨hstands', fun b k f property => ?_⟩
          rw [hrolled, List.append_assoc, List.singleton_append]
          rfl

/-- A chain passes middlewares, all of them or those up to its cancellation. -/
theorem passes_of_analyzeChain {patience : Option Nat} {t t' : Passed}
    {specifiers : List String}
    (h : s.analyzeChain patience p t specifiers = (p', .ok t')) :
    ∃ taken p₁ ms, taken <+: specifiers ∧ s.Passes p taken p₁ ms ∧
      p'.memory = p₁.memory ∧ t'.middlewares = t.middlewares ++ ms := by
  induction specifiers generalizing patience p t with
  | nil =>
      cases h
      exact ⟨[], _, [], List.prefix_refl _, .nil, rfl, (List.append_nil _).symm⟩
  | cons specifier specifiers ih =>
      unfold analyzeChain at h
      split at h
      · cases h
        exact ⟨[], p, [], List.nil_prefix, .nil, rfl, (List.append_nil _).symm⟩
      · split at h
        · cases h
        · rename_i p₂ mid hmid
          obtain ⟨taken, p₁, ms, hpre, hpass, hmemory, hms⟩ := ih h
          refine ⟨specifier :: taken, p₁, mid :: ms,
            (List.prefix_cons_inj specifier).mpr hpre, .cons hmid hpass,
            hmemory, ?_⟩
          rw [hms]
          exact List.append_assoc t.middlewares [mid] ms

/-- **What a result comes from.**  The middlewares of a result were passed one
after the other from nothing known, and the edges between files come from what
was known at the end. -/
theorem passes_of_analyzeFlow {patience : Option Nat} {endpoint : Endpoint}
    {r : FlowResult} (h : (s.analyzeFlow patience p endpoint).2 = .ok r) :
    ∃ start p' names, start.memory = {} ∧
      s.Passes start names p' r.middlewares ∧
      r.componentEdges = componentEdges p'.memory r.middlewares := by
  cases hlist : endpoint.specifiers? with
  | none =>
      simp only [analyzeFlow, hlist] at h
      cases h
      exact ⟨{}, {}, [], rfl, .nil, rfl⟩
  | some specifiers =>
      obtain ⟨start, final, hmemory, -, -, hflow⟩ :=
        analyzeFlow_eq hlist s patience p
      rw [hflow] at h
      rcases hrun : s.analyzeChain patience start {} specifiers with ⟨p', e | t⟩
      · rw [hrun] at h
        cases h
      · rw [hrun] at h
        cases h
        obtain ⟨taken, p₁, ms, -, hpass, hsame, hms⟩ :=
          passes_of_analyzeChain hrun
        rw [List.nil_append] at hms
        have hmiddlewares : (conclude p'.memory endpoint t).middlewares = ms :=
          hms
        refine ⟨start, p₁, taken, hmemory, hmiddlewares ▸ hpass, ?_⟩
        rw [← hsame]
        rfl

/-- An analysis that is not cancelled passes all middlewares of its list. -/
theorem passes_of_analyzeFlow_none {endpoint : Endpoint}
    {specifiers : List String} {r : FlowResult}
    (hlist : endpoint.specifiers? = some specifiers)
    (h : (s.analyzeFlow none p endpoint).2 = .ok r) :
    ∃ start p', start.memory = {} ∧
      s.Passes start specifiers p' r.middlewares := by
  obtain ⟨start, final, hmemory, -, -, hflow⟩ := analyzeFlow_eq hlist s none p
  rw [hflow] at h
  rcases hrun : s.analyzeChain none start {} specifiers with ⟨p', e | t⟩
  · rw [hrun] at h
    cases h
  · rw [hrun] at h
    cases h
    obtain ⟨ms, hpass, rfl⟩ := analyzeChain_eq_ok_iff.mp hrun
    refine ⟨start, p', hmemory, ?_⟩
    change s.Passes start specifiers p' (ms.foldl Passed.add {}).middlewares
    rw [middlewares_foldl_add, List.nil_append]
    exact hpass

/-- The edges of a result are those between the neighbours among its
middlewares. -/
theorem edges_of_analyzeFlow {patience : Option Nat} {endpoint : Endpoint}
    {r : FlowResult} (h : (s.analyzeFlow patience p endpoint).2 = .ok r) :
    r.edges = edgesBetween r.middlewares := by
  cases hlist : endpoint.specifiers? with
  | none =>
      simp only [analyzeFlow, hlist] at h
      cases h
      rfl
  | some specifiers =>
      obtain ⟨start, final, -, -, -, hflow⟩ := analyzeFlow_eq hlist s patience p
      rw [hflow] at h
      rcases hrun : s.analyzeChain patience start {} specifiers with ⟨p', e | t⟩
      · rw [hrun] at h
        cases h
      · rw [hrun] at h
        cases h
        rfl

/-- An endpoint has a result if all its names can be looked up. -/
theorem exists_analyzeFlow {endpoint : Endpoint} {specifiers : List String}
    (hlist : endpoint.specifiers? = some specifiers)
    (hnames : ∀ specifier ∈ specifiers, ∃ path?, s.entry specifier = .ok path?)
    (p : Progress) : ∃ r, (s.analyzeFlow none p endpoint).2 = .ok r ∧
      r.middlewares.map (·.name) = specifiers := by
  obtain ⟨start, final, hmemory, -, -, hflow⟩ := analyzeFlow_eq hlist s none p
  obtain ⟨p', ms, hpass⟩ := exists_passes hnames start
  have hrun : s.analyzeChain none start {} specifiers
      = (p', .ok (ms.foldl Passed.add {})) :=
    analyzeChain_eq_ok_iff.mpr ⟨ms, hpass, rfl⟩
  have hstart : s.Knows [] start.memory := hmemory ▸ .empty
  obtain ⟨-, -, hms, -⟩ := hpass.known hstart
  rw [hflow, hrun]
  refine ⟨_, rfl, ?_⟩
  change (ms.foldl Passed.add {}).middlewares.map (·.name) = specifiers
  rw [middlewares_foldl_add, List.nil_append, hms]

end Scene

end Relay
