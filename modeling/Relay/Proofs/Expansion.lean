import Relay.Proofs.Mentions

/-!
# With and without the keys of literals

Whether the keys of object literals count is a setting.  It makes a difference
at two kinds of nodes only, at assignments and at merges.  Without the setting
these mention nothing, and with it they mention writes of a bag and nothing
else (`mentionsAt_true_or`).

So the setting can hide nothing: all lists of a file's facts but those of the
writes are the same with it and without it, and a write that is found without
it is found with it (`literals_only_add_writes`).
-/

namespace Relay

namespace Analysis

open Syntax

variable {s : Source} {n : Node} {around : List Node} {m : Mention}

/-- A mention is about a write of a bag. -/
def Mention.WritesBag (m : Mention) : Prop :=
  ∃ b property, m.place = .state b property ∧ m.kind = .write

/-- A merge writes to bags, and mentions nothing else. -/
theorem writesBag_of_mem_mergeMentions (h : m ∈ mergeMentions s n) :
    m.WritesBag := by
  obtain ⟨b, property, rfl, -⟩ := mem_mergeMentions_iff.mp h
  exact ⟨b, property, rfl, rfl⟩

/-- An assignment of a literal writes to bags, and mentions nothing else. -/
theorem writesBag_of_mem_assignmentMentions {expand : Bool}
    (h : m ∈ assignmentMentions s expand n) : m.WritesBag := by
  obtain ⟨-, b, property, rfl, -⟩ := mem_assignmentMentions_iff.mp h
  exact ⟨b, property, rfl, rfl⟩

/-- With the setting off, an assignment mentions no keys. -/
theorem assignmentMentions_false : assignmentMentions s false n = [] := by
  unfold assignmentMentions
  split
  · simp
  · rfl

/-- `Object` is neither a request nor a response, so a merge names no header
and no cookie. -/
theorem methodMentions_of_isObjectAssign {callee : Node}
    (hcallee : n.inner? .function = some callee)
    (hassign : isObjectAssign s.bytes n = true) :
    methodMentions s n callee = [] := by
  have hreceiver : (callee.child? .object).bind (nameOf? s.bytes) =
      some "Object" := by
    simp only [isObjectAssign, hcallee, Bool.and_eq_true, beq_iff_eq] at hassign
    exact hassign.1.2
  have hresponse : "Object" ∉ responseNames := by decide
  have hrequest : "Object" ∉ requestNames := by decide
  unfold methodMentions
  rw [hreceiver]
  split
  · rename_i receiver method first hname _ _
    obtain rfl : "Object" = receiver := Option.some.inj hname
    simp [hresponse, hrequest]
  · rfl

/-- With the setting on, a call mentions the same, or writes of a bag that it
does not mention otherwise. -/
theorem callMentions_true_or :
    callMentions s true n = callMentions s false n ∨
      (callMentions s false n = [] ∧ ∀ m ∈ callMentions s true n,
        m.WritesBag) := by
  cases hcallee : n.inner? .function with
  | none =>
      left
      simp [callMentions, hcallee]
  | some callee =>
      by_cases hassign : isObjectAssign s.bytes n = true
      · right
        have hmethod := methodMentions_of_isObjectAssign hcallee hassign
        refine ⟨by simp [callMentions, hcallee, hmethod], ?_⟩
        intro m hm
        simp only [callMentions, hcallee, hassign, Bool.and_self, if_true] at hm
        split at hm
        · exact writesBag_of_mem_mergeMentions hm
        · cases hm
      · left
        simp [callMentions, hcallee, hassign]

/-- The setting matters to calls and assignments only. -/
theorem mentionsAt_congr (hcall : n.kind ≠ .callExpression)
    (hassignment : n.kind ≠ .assignmentExpression) :
    mentionsAt s true n around = mentionsAt s false n around := by
  unfold mentionsAt
  split
  case h_3 hkind => exact absurd hkind hcall
  case h_4 hkind => exact absurd hkind hassignment
  all_goals rfl

/-- **Where the setting matters.**  A node mentions the same with the
setting and without it, or it mentions nothing without it, and writes of
a bag with it. -/
theorem mentionsAt_true_or :
    mentionsAt s true n around = mentionsAt s false n around ∨
      (mentionsAt s false n around = [] ∧ ∀ m ∈ mentionsAt s true n around,
        m.WritesBag) := by
  by_cases hcall : n.kind = .callExpression
  · simpa only [mentionsAt, hcall] using callMentions_true_or
  · by_cases hassignment : n.kind = .assignmentExpression
    · right
      simp only [mentionsAt, hassignment]
      exact ⟨assignmentMentions_false,
        fun m hm => writesBag_of_mem_assignmentMentions hm⟩
    · exact .inl (mentionsAt_congr hcall hassignment)

/-- A list that picks no writes of a bag is the same with the setting and
without it. -/
theorem Gathers.items_of_true {α β : Type} [DecidableEq β] {isLibrary : Bool}
    {view : Collector → Collection α β} {pick : Mention → Option α}
    {mark : α → β} (h : Gathers s isLibrary view pick mark)
    (hpick : ∀ m : Mention, m.WritesBag → pick m = none) :
    (view (Collector.of s isLibrary true)).items
      = (view (Collector.of s isLibrary false)).items := by
  have hnode : ∀ v : Visit,
      (mentionsAt s true v.node v.enclosing).filterMap pick
        = (mentionsAt s false v.node v.enclosing).filterMap pick := by
    intro v
    rcases mentionsAt_true_or with hsame | ⟨hnone, hwrites⟩
    · rw [hsame]
    · rw [hnone, List.filterMap_nil, List.filterMap_eq_nil_iff]
      intro m hm
      exact hpick m (hwrites m hm)
  rw [h.items_of_eq_mentions, h.items_of_eq_mentions]
  simp only [hnode]

/-- Usages of one source are told apart by their stamps. -/
theorem eq_of_stamp_eq {isLibrary : Bool} {b : Bag} {k : UsageKind}
    {m m' : Mention} {u u' : PropertyUsage}
    (hu : m.usage? s isLibrary b k = some u)
    (hu' : m'.usage? s isLibrary b k = some u') (hstamp : u.stamp = u'.stamp) :
    u = u' := by
  simp only [PropertyUsage.stamp, Prod.mk.injEq] at hstamp
  obtain ⟨hproperty, hline, -⟩ := hstamp
  rw [(Mention.usage?_eq_some_iff.mp hu).2,
    (Mention.usage?_eq_some_iff.mp hu').2, hproperty, hline]

/-- A usage of a bag that is found without the setting is found with it. -/
theorem mem_inBag_of_true {isLibrary : Bool} {b : Bag} {k : UsageKind}
    {u : PropertyUsage} (hu : u ∈ (Usages.of s isLibrary false).inBag b k) :
    u ∈ (Usages.of s isLibrary true).inBag b k := by
  have hgathers := gathers_collection s isLibrary b k
  rw [Usages.of, Collector.inBag_usages] at hu ⊢
  obtain ⟨v, hv, m, hm, hmu⟩ := hgathers.exists_of_mem_items_of hu
  have hmention : m ∈ mentionsAt s true v.node v.enclosing := by
    rcases mentionsAt_true_or with hsame | ⟨hnone, -⟩
    · rw [hsame]
      exact hm
    · rw [hnone] at hm
      cases hm
  obtain ⟨w, hw, hstamp⟩ := hgathers.exists_mem_items_of hv hmention hmu
  obtain ⟨v', -, m', -, hmw⟩ := hgathers.exists_of_mem_items_of hw
  rw [← eq_of_stamp_eq hmw hmu hstamp]
  exact hw

end Analysis

open Analysis

/-- A resolver with the keys of literals counting or not, and the same in all
else. -/
def Resolver.counting (r : Resolver) (expand : Bool) : Resolver :=
  { r with config := { r.config with expandLiterals := expand } }

section

variable (r : Resolver) (expand : Bool) (fs : Files)

/-- The setting does not matter to the packages that a specifier is looked up
in. -/
theorem Resolver.resolveIn_counting (specifier : String)
    (packages : List (String × String)) :
    (r.counting expand).resolveIn fs specifier packages =
      r.resolveIn fs specifier packages := by
  induction packages with
  | nil => rfl
  | cons package rest ih =>
      obtain ⟨name, directory⟩ := package
      simp only [Resolver.resolveIn, ih]
      rfl

/-- The setting does not matter to what a specifier stands for. -/
theorem Resolver.resolve_counting (specifier : String) (file : Path) :
    (r.counting expand).resolve fs specifier file =
      r.resolve fs specifier file := by
  simp only [Resolver.resolve, Resolver.resolveNamespaced,
    Resolver.resolveIn_counting]
  rfl

/-- The setting does not matter to what a file depends on. -/
theorem dependenciesOf_counting (file : Path)
    (requirements : List Requirement) :
    dependenciesOf (r.counting expand) fs file requirements
      = dependenciesOf r fs file requirements := by
  induction requirements with
  | nil => rfl
  | cons requirement rest ih =>
      simp only [dependenciesOf, dependencyOf, Resolver.resolve_counting, ih]
      rfl

/-- The setting is read for the usages alone. -/
theorem factsOf_counting (s : Source) :
    factsOf (r.counting expand) fs s
      = ((factsOf r fs s).1, (factsOf r fs s).2.map fun facts =>
          { facts with
            usages := Usages.of s (r.isLibrary s.path.text) expand }) := by
  unfold factsOf
  rw [dependenciesOf_counting]
  cases hdependencies : dependenciesOf r fs s.path (requirementsOf s) with
  | mk log outcome =>
      cases outcome with
      | error e => rfl
      | ok dependencies => rfl

end

/-- Some facts of a file are those of others with more writes of the bags. -/
structure Facts.AddsWrites (less more : Facts) : Prop where
  reads : ∀ b, more.usages.inBag b .read = less.usages.inBag b .read
  data : more.usages.data = less.usages.data
  calls : more.calls = less.calls
  lookups : more.lookups = less.lookups
  dependencies : more.dependencies = less.dependencies
  exports : more.exports = less.exports
  writes : ∀ b, ∀ u ∈ less.usages.inBag b .write, u ∈ more.usages.inBag b .write

/-- **Literals only add writes.**  Let two configurations differ in nothing but
whether the keys of object literals count.  A file has facts with both or with
none, and the same is logged.  The facts where keys count are the others with
more writes of the bags. -/
theorem literals_only_add_writes (r : Resolver) (fs : Files) (s : Source) :
    ∃ log,
      (∃ e, factsOf (r.counting false) fs s = (log, .error e) ∧
        factsOf (r.counting true) fs s = (log, .error e)) ∨
      ∃ less more, factsOf (r.counting false) fs s = (log, .ok less) ∧
        factsOf (r.counting true) fs s = (log, .ok more) ∧
          less.AddsWrites more := by
  refine ⟨(factsOf r fs s).1, ?_⟩
  rw [factsOf_counting, factsOf_counting]
  cases hfacts : (factsOf r fs s).2 with
  | error e => exact .inl ⟨e, rfl, rfl⟩
  | ok facts =>
      refine .inr ⟨_, _, rfl, rfl, ?_, ?_, rfl, rfl, rfl, rfl, ?_⟩
      · intro b
        simp only [Usages.of, Collector.inBag_usages]
        apply (gathers_collection s _ b .read).items_of_true
        intro m hm
        obtain ⟨bag, property, hplace, hkind⟩ := hm
        simp [Mention.usage?, hplace, hkind]
      · apply (gathers_data s _).items_of_true
        intro m hm
        obtain ⟨bag, property, hplace, -⟩ := hm
        simp [Mention.dataUsage?, hplace]
      · intro b u hu
        exact mem_inBag_of_true hu

end Relay
