import Relay.Proofs.Requires

/-!
# Rolling up facts

A middleware gathers the facts of some records, and of several facts with the
same mark it keeps the first.  No mark gets lost that way
(`exists_mem_uniqueFrom`), so a property is listed with a file just when the
facts of some record list it so (`exists_mem_inBag_rollUp`).  If the records
have the own facts of their files, this says that the file is among them and
uses the property (`exists_mem_inBag_iff_uses`).
-/

namespace Relay

open Analysis

namespace Middleware

/-- The usages of a middleware are those of its files, each once. -/
theorem inBag_rollUp (m : Middleware) (records : List Record) (b : Bag)
    (k : UsageKind) : (m.rollUp records).inBag b k
      = uniqueBy usageMark
        (records.flatMap fun r => r.facts.usages.inBag b k) := by
  cases b <;> cases k <;> rfl

/-- A property is listed with a file just when a record's facts list it so. -/
theorem exists_mem_inBag_rollUp {m : Middleware} {records : List Record}
    {b : Bag} {k : UsageKind} {property : String} {path : Path} :
    (∃ u ∈ (m.rollUp records).inBag b k, u.property = property ∧
      u.path = path) ↔
      ∃ r ∈ records, ∃ u ∈ r.facts.usages.inBag b k,
        u.property = property ∧ u.path = path := by
  have hmark : ∀ u : PropertyUsage, (u.property = property ∧ u.path = path) ↔
      usageMark u = (property, path) := by
    intro u
    rw [usageMark, Prod.mk.injEq]
  simp only [hmark]
  rw [inBag_rollUp, uniqueBy, exists_mem_uniqueFrom]
  constructor
  · rintro ⟨-, u, hu, hmark⟩
    obtain ⟨r, hr, hur⟩ := List.mem_flatMap.mp hu
    exact ⟨r, hr, u, hur, hmark⟩
  · rintro ⟨r, hr, u, hur, hmark⟩
    exact ⟨List.not_mem_nil, u, List.mem_flatMap.mpr ⟨r, hr, hur⟩, hmark⟩

/-- **Rolled-up usages.**  If every record has the own facts of its file, or
none at all, a property is listed with a file just when the file uses it and
has a record with its facts. -/
theorem exists_mem_inBag_iff_uses {s : Scene} {m : Middleware}
    {records : List Record}
    (hown : ∀ r ∈ records, s.own? r.path = some r.facts ∨ r.facts = {})
    {b : Bag} {k : UsageKind} {property : String} {path : Path} :
    (∃ u ∈ (m.rollUp records).inBag b k, u.property = property ∧
      u.path = path) ↔
      (∃ r ∈ records, r.path = path ∧ s.own? path = some r.facts) ∧
        s.Uses path b k property := by
  rw [exists_mem_inBag_rollUp]
  constructor
  · rintro ⟨r, hr, u, hu, hproperty, rfl⟩
    rcases hown r hr with hfacts | hbare
    · have hpath := Scene.path_of_mem_inBag hfacts hu
      rw [hpath]
      exact ⟨⟨r, hr, rfl, hfacts⟩, r.facts, hfacts, u, hu, hproperty⟩
    · rw [hbare] at hu
      cases b <;> cases k <;> cases hu
  · rintro ⟨⟨r, hr, rfl, hfacts⟩, facts, hfacts', u, hu, hproperty⟩
    rw [hfacts, Option.some.injEq] at hfacts'
    rw [← hfacts'] at hu
    exact ⟨r, hr, u, hu, hproperty, Scene.path_of_mem_inBag hfacts hu⟩

/-- The seven lists of facts that a middleware has rolled up. -/
def lists (m : Middleware) :=
  (m.localsReads, m.localsWrites, m.transactionReads,
    m.transactionWrites, m.data, m.calls, m.lookups)

/-- Middlewares with the same lists have the same usages. -/
theorem inBag_of_lists {m m' : Middleware} (h : m.lists = m'.lists) (b : Bag)
    (k : UsageKind) : m.inBag b k = m'.inBag b k := by
  simp only [lists, Prod.mk.injEq] at h
  obtain ⟨hreads, hwrites, htreads, htwrites, -⟩ := h
  cases b <;> cases k
  · exact hreads
  · exact hwrites
  · exact htreads
  · exact htwrites

/-- Middlewares with the same lists have the same calls. -/
theorem calls_of_lists {m m' : Middleware} (h : m.lists = m'.lists) :
    m.calls = m'.calls := by
  simp only [lists, Prod.mk.injEq] at h
  exact h.2.2.2.2.2.1

/-- Only the facts of the records matter. -/
theorem lists_rollUp {m m' : Middleware} {rs rs' : List Record}
    (h : rs.map (·.facts) = rs'.map (·.facts)) :
    (m.rollUp rs).lists = (m'.rollUp rs').lists := by
  have hflat : ∀ {α : Type} (f : Facts → List α),
      (rs.flatMap fun r => f r.facts) = rs'.flatMap fun r => f r.facts := by
    intro α f
    rw [← List.flatMap_map Record.facts f, h, List.flatMap_map]
  simp only [lists, rollUp, Prod.mk.injEq]
  exact ⟨congrArg _ (hflat (·.usages.localsReads)),
    congrArg _ (hflat (·.usages.localsWrites)),
    congrArg _ (hflat (·.usages.transactionReads)),
    congrArg _ (hflat (·.usages.transactionWrites)),
    congrArg _ (hflat (·.usages.data)), congrArg _ (hflat (·.calls)),
    congrArg _ (hflat (·.lookups))⟩

end Middleware

end Relay
