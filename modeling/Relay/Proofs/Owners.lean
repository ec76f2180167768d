import Relay.Proofs.Notes
import Relay.Proofs.Reachability

/-!
# Producers and consumers

A file that several middlewares lead to belongs to the first of them.  With room
enough, the middlewares of a chain note the usages of just the files that can be
reached from their entries, so the first note of a file comes from its owner
(`owner?_flatMap`).  The producers and the consumers of a property are then the
owners of the reachable files that use it, each with the file (`flows_exact`).
-/

namespace Relay

open Analysis

/-- The flows of the properties of a bag. -/
def FlowResult.flows (r : FlowResult) : Bag → PropertyFlows
  | .locals => r.locals
  | .transaction => r.transaction

namespace Scene

/-- A file can be reached from the entry of a middleware. -/
def ReachedFrom (s : Scene) (specifier : String) (path : Path) : Prop :=
  ∃ root ∈ s.entries specifier, s.Reaches root path

/-- The first of some middlewares from whose entry a file can be reached. -/
def Owns (s : Scene) (specifiers : List String) (owner : String) (path : Path) :
    Prop :=
  ∃ before after, specifiers = before ++ owner :: after ∧
    s.ReachedFrom owner path ∧ ∀ other ∈ before, ¬ s.ReachedFrom other path

variable {s : Scene} {specifiers : List String} {path : Path}

namespace Owns

/-- A file has at most one owner. -/
theorem unique {owner owner' : String} (h : s.Owns specifiers owner path)
    (h' : s.Owns specifiers owner' path) : owner = owner' := by
  obtain ⟨before, after, rfl, hreached, hnone⟩ := h
  obtain ⟨before', after', heq, hreached', hnone'⟩ := h'
  rcases List.append_eq_append_iff.mp heq with ⟨more, hbefore, hrest⟩ |
    ⟨more, hbefore, hrest⟩
  · cases more with
    | nil => exact (List.cons.inj hrest).1
    | cons x more =>
        obtain ⟨rfl, -⟩ := List.cons.inj hrest
        exact absurd hreached (hnone' owner (by simp [hbefore]))
  · cases more with
    | nil => exact (List.cons.inj hrest).1.symm
    | cons x more =>
        obtain ⟨rfl, -⟩ := List.cons.inj hrest
        exact absurd hreached' (hnone owner' (by simp [hbefore]))

/-- An owner is one of the middlewares. -/
theorem mem {owner : String} (h : s.Owns specifiers owner path) :
    owner ∈ specifiers := by
  obtain ⟨before, after, rfl, -⟩ := h
  simp

/-- A file that cannot be reached from one more middleware in front keeps its
owner. -/
theorem cons {owner first : String} (h : s.Owns specifiers owner path)
    (hfirst : ¬ s.ReachedFrom first path) :
    s.Owns (first :: specifiers) owner path := by
  obtain ⟨before, after, rfl, hreached, hnone⟩ := h
  exact ⟨first :: before, after, rfl, hreached,
    List.forall_mem_cons.mpr ⟨hfirst, hnone⟩⟩

end Owns

/-- A middleware lists a property with a file just when the file can be reached
from its entry and uses the property. -/
theorem Portrays.exists_mem_inBag {m : Middleware} (h : s.Portrays m) {b : Bag}
    {k : UsageKind} {property : String} :
    (∃ u ∈ m.inBag b k, u.property = property ∧ u.path = path) ↔
      s.ReachedFrom m.name path ∧ s.Uses path b k property := by
  obtain ⟨records, hcovers, hlists⟩ := h
  have hown : ∀ r ∈ records, s.own? r.path = some r.facts ∨ r.facts = {} :=
    fun r hr => .inl (hcovers.own r hr).2
  rw [Middleware.inBag_of_lists hlists,
    Middleware.exists_mem_inBag_iff_uses hown]
  refine and_congr_left fun _ => ?_
  rw [ReachedFrom, ← hcovers.mem_iff, List.mem_map]
  constructor
  · rintro ⟨r, hr, hpath, -⟩
    exact ⟨r, hr, hpath⟩
  · rintro ⟨r, hr, rfl⟩
    exact ⟨r, hr, rfl, (hcovers.own r hr).2⟩

/-- The notes of a middleware are about the files that can be reached. -/
theorem Portrays.exists_mem_notes {m : Middleware} (h : s.Portrays m) {b : Bag}
    {k : UsageKind} {property : String} :
    (∃ n ∈ m.notes, n.bag = b ∧ n.kind = k ∧ n.usage.property = property ∧
        n.usage.path = path) ↔
      s.ReachedFrom m.name path ∧ s.Uses path b k property := by
  rw [← h.exists_mem_inBag]
  constructor
  · rintro ⟨n, hn, rfl, rfl, hproperty, hpath⟩
    exact ⟨n.usage, (Middleware.mem_notes.mp hn).2, hproperty, hpath⟩
  · rintro ⟨u, hu, hproperty, hpath⟩
    exact ⟨⟨m.name, b, k, u⟩, Middleware.mem_notes.mpr ⟨rfl, hu⟩, rfl, rfl,
      hproperty, hpath⟩

/-- The first note of a file comes from the middleware itself, if the file can
be reached from its entry. -/
theorem Portrays.owner?_notes {m : Middleware} (h : s.Portrays m) {b : Bag}
    {k : UsageKind} {property : String} (huses : s.Uses path b k property) :
    (s.ReachedFrom m.name path → owner? m.notes path = some m.name) ∧
      (¬ s.ReachedFrom m.name path → owner? m.notes path = none) := by
  constructor
  · intro hreached
    obtain ⟨n, hn, -, -, -, rfl⟩ := h.exists_mem_notes.mpr ⟨hreached, huses⟩
    obtain ⟨specifier, howner⟩ := exists_owner? hn
    obtain ⟨first, hfirst, rfl⟩ := Option.map_eq_some_iff.mp howner
    rw [howner, (Middleware.mem_notes.mp (List.mem_of_find?_eq_some hfirst)).1]
  · intro hunreached
    rw [owner?, Option.map_eq_none_iff, List.find?_eq_none]
    intro n hn hpath
    rw [decide_eq_true_eq] at hpath
    exact hunreached (h.exists_mem_notes.mp ⟨n, hn, rfl, rfl, rfl, hpath⟩).1

/-- **The first note comes from the owner.** -/
theorem owner?_flatMap {ms : List Middleware} (hms : ∀ m ∈ ms, s.Portrays m)
    {b : Bag} {k : UsageKind} {property : String}
    (huses : s.Uses path b k property)
    (hreached : ∃ m ∈ ms, s.ReachedFrom m.name path) :
    ∃ owner, owner? (ms.flatMap (·.notes)) path = some owner ∧
      s.Owns (ms.map (·.name)) owner path := by
  induction ms with
  | nil =>
      obtain ⟨m, hm, -⟩ := hreached
      cases hm
  | cons m ms ih =>
      obtain ⟨hm, hms⟩ := List.forall_mem_cons.mp hms
      obtain ⟨hyes, hno⟩ := hm.owner?_notes huses
      rw [List.flatMap_cons, owner?_append]
      by_cases hfirst : s.ReachedFrom m.name path
      · rw [hyes hfirst]
        exact ⟨m.name, rfl, [], ms.map (·.name), rfl, hfirst, by simp⟩
      · rw [hno hfirst]
        have hrest : ∃ m ∈ ms, s.ReachedFrom m.name path := by
          obtain ⟨m', hm', hreached⟩ := hreached
          rcases List.mem_cons.mp hm' with rfl | hm'
          · exact absurd hreached hfirst
          · exact ⟨m', hm', hreached⟩
        obtain ⟨owner, howner, howns⟩ := ih hms hrest
        exact ⟨owner, howner, howns.cons hfirst⟩

/-- What is noted of a chain: the owners of the files that use a property. -/
theorem noted_iff {ms : List Middleware} (hms : ∀ m ∈ ms, s.Portrays m)
    {b : Bag} {k : UsageKind} {property member : String} :
    Noted (ms.flatMap (·.notes)) b k property member ↔
      ∃ path owner, s.Owns (ms.map (·.name)) owner path ∧
        s.Uses path b k property ∧ member = s!"{owner}::{path.short}" := by
  constructor
  · rintro ⟨n, hn, hb, hk, hproperty, rfl⟩
    obtain ⟨m, hm, hnm⟩ := List.mem_flatMap.mp hn
    obtain ⟨hreached, huses⟩ :=
      (hms m hm).exists_mem_notes.mp ⟨n, hnm, hb, hk, hproperty, rfl⟩
    obtain ⟨owner, howner, howns⟩ := owner?_flatMap hms huses ⟨m, hm, hreached⟩
    refine ⟨n.usage.path, owner, howns, huses, ?_⟩
    rw [Note.member, howner]
    rfl
  · rintro ⟨path, owner, howns, huses, rfl⟩
    obtain ⟨m, hm, hname⟩ := List.mem_map.mp howns.mem
    have hreached : s.ReachedFrom m.name path := by
      obtain ⟨before, after, -, hreached, -⟩ := howns
      rwa [hname]
    obtain ⟨n, hn, hb, hk, hproperty, rfl⟩ :=
      (hms m hm).exists_mem_notes.mpr ⟨hreached, huses⟩
    obtain ⟨owner', howner', howns'⟩ :=
      owner?_flatMap hms huses ⟨m, hm, hreached⟩
    refine ⟨n, List.mem_flatMap.mpr ⟨m, hm, hn⟩, hb, hk, hproperty, ?_⟩
    rw [Note.member, howner', howns.unique howns']
    rfl

/-- The properties that are noted of a chain are used by files that can be
reached. -/
theorem exists_note_iff {ms : List Middleware} (hms : ∀ m ∈ ms, s.Portrays m)
    {b : Bag} {property : String} :
    (∃ n ∈ ms.flatMap (·.notes), n.bag = b ∧ n.usage.property = property) ↔
      ∃ path k, (∃ specifier ∈ ms.map (·.name), s.ReachedFrom specifier path) ∧
        s.Uses path b k property := by
  constructor
  · rintro ⟨n, hn, hb, hproperty⟩
    obtain ⟨m, hm, hnm⟩ := List.mem_flatMap.mp hn
    obtain ⟨hreached, huses⟩ :=
      (hms m hm).exists_mem_notes.mp ⟨n, hnm, hb, rfl, hproperty, rfl⟩
    exact ⟨n.usage.path, n.kind, ⟨m.name, List.mem_map_of_mem hm, hreached⟩,
      huses⟩
  · rintro ⟨path, k, ⟨specifier, hspecifier, hreached⟩, huses⟩
    obtain ⟨m, hm, rfl⟩ := List.mem_map.mp hspecifier
    obtain ⟨n, hn, hb, -, hproperty, -⟩ :=
      (hms m hm).exists_mem_notes.mpr ⟨hreached, huses⟩
    exact ⟨n, List.mem_flatMap.mpr ⟨m, hm, hn⟩, hb, hproperty⟩

/-- The result has the flows of the tally. -/
theorem conclude_flows (m : Memory) (endpoint : Endpoint) (t : Passed)
    (b : Bag) :
    (conclude m endpoint t).flows b = t.tally.flows b := by
  cases b <;> rfl

/-- Before any middleware nothing is tallied. -/
theorem records_empty : ({} : Passed).tally.Records [] := by
  have htally : ({} : Passed).tally = {} := by
    simp only [Passed.tally, Tally.mk.injEq, true_and]
    funext b
    cases b <;> rfl
  rw [htally]
  exact .empty

/-- The last file of the circle belongs to the first middleware of the chain. -/
theorem owns_loop : loop.Owns ["a", "b"] "a" (loopFile "c") := by
  have hownA := (required_of_outline outline_loop_a).1
  have hab := leads_of_outline outline_loop_a List.mem_cons_self
    (required_of_outline outline_loop_b).1
  have hbc := leads_of_outline outline_loop_b List.mem_cons_self
    (required_of_outline outline_loop_c).1
  refine ⟨[], ["b"], rfl,
    ⟨loopFile "a", ?_, hownA, .tail (.single hab) hbc⟩, by simp⟩
  rw [entries_loop "a" (by simp)]
  exact List.mem_singleton_self _

/-- Of the files that the chain leads to, only the last of the circle writes. -/
theorem eq_of_uses_loop {owner property : String}
    (howns : loop.Owns ["a", "b"] owner path)
    (huses : loop.Uses path .locals .write property) : path = loopFile "c" := by
  have hmem : path ∈ loop.within
      {q | ∃ specifier ∈ ["a", "b"], q ∈ loop.entries specifier} := by
    have howner := howns.mem
    obtain ⟨-, -, -, ⟨root, hroot, -, hway⟩, -⟩ := howns
    exact ⟨root, ⟨owner, howner, hroot⟩,
      Relation.ReflTransGen.mono (fun _ _ => Leads.requires) _ _ hway⟩
  rcases within_loop subset_loop_chain hmem with rfl | rfl | rfl
  · rw [uses_of_outline outline_loop_a] at huses
    cases huses
  · rw [uses_of_outline outline_loop_b] at huses
    cases huses
  · rfl

/-- **Producers and consumers are exact.**  Let the greatest depth be no
smaller than the number of places that can be come to from the entries of a
list of middlewares.  There is a result just when all names can be looked up.
In it, the properties of a bag are those that some reachable file uses, each
once.  Its producers are, each once, the files that write it, under the first
middleware that they can be reached from; and its consumers are so the files
that read it. -/
theorem flows_exact (s : Scene) (p : Progress) (endpoint : Endpoint)
    (specifiers : List String) (hlist : endpoint.specifiers? = some specifiers)
    (hroom : s.HasRoom {q | ∃ specifier ∈ specifiers,
      q ∈ s.entries specifier}) :
    ((∃ r, (s.analyzeFlow none p endpoint).2 = .ok r) ↔
      ∀ specifier ∈ specifiers, ∃ path?, s.entry specifier = .ok path?) ∧
    ∀ r, (s.analyzeFlow none p endpoint).2 = .ok r → ∀ b,
      ((r.flows b).map (·.1)).Nodup ∧
      (∀ property, property ∈ (r.flows b).map (·.1) ↔
        ∃ path k, (∃ specifier ∈ specifiers, s.ReachedFrom specifier path) ∧
          s.Uses path b k property) ∧
      ∀ property flow, (property, flow) ∈ r.flows b → ∀ k,
        (flow.members k).Nodup ∧
        ∀ member, member ∈ flow.members k ↔
          ∃ path owner, s.Owns specifiers owner path ∧
            s.Uses path b k property ∧ member = s!"{owner}::{path.short}" := by
  obtain ⟨start, final, hmemory, -, -, hflow⟩ := analyzeFlow_eq hlist s none p
  rw [hflow]
  constructor
  · constructor
    · rintro ⟨r, hr⟩
      rcases hrun : s.analyzeChain none start {} specifiers with ⟨p', e | t⟩
      · rw [hrun] at hr
        cases hr
      · obtain ⟨ms, hpass, -⟩ := analyzeChain_eq_ok_iff.mp hrun
        exact hpass.entry_eq_ok
    · intro hnames
      obtain ⟨p', ms, hpass⟩ := exists_passes hnames start
      have hrun : s.analyzeChain none start {} specifiers
          = (p', .ok (ms.foldl Passed.add {})) :=
        analyzeChain_eq_ok_iff.mpr ⟨ms, hpass, rfl⟩
      rw [hrun]
      exact ⟨_, rfl⟩
  · intro r hr b
    rcases hrun : s.analyzeChain none start {} specifiers with ⟨p', e | t⟩
    · rw [hrun] at hr
      cases hr
    · rw [hrun] at hr
      cases hr
      obtain ⟨ms, hpass, rfl⟩ := analyzeChain_eq_ok_iff.mp hrun
      have hsettled : s.Settled start.memory := hmemory ▸ .empty
      obtain ⟨rfl, hms⟩ := hpass.portrays hsettled hroom
        fun specifier hspecifier q hq => ⟨specifier, hspecifier, hq⟩
      have hrecords := Passed.records_foldl_add records_empty ms
      rw [List.nil_append] at hrecords
      rw [conclude_flows]
      refine ⟨hrecords.nodup b, fun property => ?_,
        fun property flow hmem k => ?_⟩
      · rw [hrecords.keys, exists_note_iff hms]
      · obtain ⟨hnodup, hmembers⟩ := hrecords.members b property flow hmem k
        exact ⟨hnodup, fun member => (hmembers member).trans (noted_iff hms)⟩

/-- In the circle both middlewares come to the file that writes, and it is told
once, under the first. -/
theorem flows_exact_loop :
    ({ middleware := .array [.string "a", .string "b"] } : Endpoint).specifiers?
      = some ["a", "b"] ∧
    loop.HasRoom {q | ∃ specifier ∈ ["a", "b"], q ∈ loop.entries specifier} ∧
    ∃ r, (loop.analyzeFlow none {}
        { middleware := .array [.string "a", .string "b"] }).2 = .ok r ∧
      ∃ flow, ("x", flow) ∈ r.flows .locals ∧ ∀ member,
        member ∈ flow.members .write ↔
            member = "a::ws/agl-m-middleware/c.js" := by
  obtain ⟨hok, hexact⟩ := flows_exact loop {}
    { middleware := .array [.string "a", .string "b"] } ["a",
      "b"] rfl hasRoom_loop_chain
  obtain ⟨r, hr⟩ := hok.mpr entry_eq_ok_loop_chain
  obtain ⟨-, hkeys, hmembers⟩ := hexact r hr .locals
  have huses : loop.Uses (loopFile "c") .locals .write "x" :=
    (uses_of_outline outline_loop_c).mpr List.mem_cons_self
  have hreached : loop.ReachedFrom "a" (loopFile "c") := by
    obtain ⟨-, -, -, hreached, -⟩ := owns_loop
    exact hreached
  have hkey : "x" ∈ (r.flows .locals).map (·.1) :=
    (hkeys "x").mpr ⟨_, .write, ⟨"a", List.mem_cons_self, hreached⟩, huses⟩
  obtain ⟨⟨_, flow⟩, hflow, rfl⟩ := List.mem_map.mp hkey
  have hshort := text_loop.2.2
  refine ⟨rfl, hasRoom_loop_chain, r, hr, flow, hflow, fun member => ?_⟩
  rw [(hmembers _ flow hflow .write).2 member]
  constructor
  · rintro ⟨path, owner, howns, hwrites, rfl⟩
    obtain rfl := eq_of_uses_loop howns hwrites
    rw [howns.unique owns_loop, hshort]
    rfl
  · rintro rfl
    refine ⟨_, "a", owns_loop, huses, ?_⟩
    rw [hshort]
    rfl

end Scene

end Relay
