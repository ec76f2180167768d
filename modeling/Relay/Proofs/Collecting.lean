import Relay.Analysis.ServiceCall
import Relay.Analysis.Usage
import Relay.Proofs.Uniqueness

/-!
# Collecting usages and calls

A file has five lists of usages: the reads and the writes of each bag, and the
data.  The walk of the file adds to all of them as it goes.  A usage enters its
list unless its stamp has been seen; the two lists of a bag share the stamps
that have been seen, and the data have theirs.  So what a node adds seems to
depend on all that came before it.

It does not.  Each list is a collection of its own, which takes in the usage
that a mention stands for there, if it stands for one (`Gathers`,
`gathers_collection`, `gathers_data`).  By induction over the walk, the list is
what its nodes give by themselves, one after the other, with the first usage of
each key kept (`usages_eq_unique`).

At every moment the stamps that have been seen are those of the usages in the
lists, and all usages are of the file that is walked (`Collector.Tied`).  One
mention keeps it so (`Collector.Tied.add`), and so does a walk.  Calls of
services are collected in the same way (`ServiceCalls.Tied`).
-/

namespace Relay.Analysis

open Syntax

/-- The usages of one kind of one bag in a file. -/
def Usages.inBag (us : Usages) : Bag → UsageKind → List PropertyUsage
  | .locals, .read => us.localsReads
  | .locals, .write => us.localsWrites
  | .transaction, .read => us.transactionReads
  | .transaction, .write => us.transactionWrites

/-- What has been collected of a bag. -/
def Collector.bag (c : Collector) : Bag → BagUsages
  | .locals => c.locals
  | .transaction => c.transaction

/-- The usages of one kind that have been collected of a bag. -/
def BagUsages.list (c : BagUsages) : UsageKind → List PropertyUsage
  | .read => c.reads
  | .write => c.writes

/-- The usages of one kind that have been collected of a bag, with those of the
seen stamps that are of this kind. -/
def BagUsages.collection (c : BagUsages) (k : UsageKind) :
    Collection PropertyUsage (String × Nat × String × UsageKind) :=
  ⟨c.list k, c.seen.filter (·.2.2.2 = k)⟩

/-- The lists that have been collected are those of the five collections. -/
theorem Collector.inBag_usages (c : Collector) (b : Bag) (k : UsageKind) :
    c.usages.inBag b k = ((c.bag b).collection k).items := by
  cases b <;> cases k <;> rfl

namespace BagUsages

variable {c : BagUsages} {u : PropertyUsage}

/-- A usage whose stamp is new goes to the list of its kind. -/
theorem list_add (h : u.stamp ∉ c.seen) (k : UsageKind) :
    (c.add u).list k = if k = u.kind then c.list k ++ [u] else c.list k := by
  rw [add, if_neg h]
  cases k <;> cases u.kind <;> rfl

/-- A usage whose stamp is new has its stamp remembered. -/
theorem seen_add (h : u.stamp ∉ c.seen) :
    (c.add u).seen = u.stamp :: c.seen := by
  rw [add, if_neg h]
  cases u.kind <;> rfl

/-- **A bag with one more usage.**  The reads and the writes of a bag share
their seen stamps, but a read never stands in the way of a write. -/
theorem collection_add (c : BagUsages) (u : PropertyUsage) (k : UsageKind) :
    (c.add u).collection k
      = if k = u.kind then (c.collection k).add PropertyUsage.stamp u
        else c.collection k := by
  have hseen : u.stamp ∈ (c.collection k).seen ↔
      u.stamp ∈ c.seen ∧ u.kind = k := by
    simp [collection, PropertyUsage.stamp]
  by_cases h : u.stamp ∈ c.seen
  · have hsame : c.add u = c := if_pos h
    by_cases hkind : k = u.kind
    · rw [hsame, if_pos hkind, Collection.add,
        if_pos (hseen.mpr ⟨h, hkind.symm⟩)]
    · rw [hsame, if_neg hkind]
  · rw [collection, list_add h, seen_add h, List.filter_cons]
    by_cases hkind : k = u.kind
    · have hnew : u.stamp ∉ (c.collection k).seen :=
        fun hmem => h (hseen.mp hmem).1
      rw [if_pos hkind, if_pos hkind, Collection.add, if_neg hnew,
        if_pos (by simp [PropertyUsage.stamp, hkind])]
      rfl
    · rw [if_neg hkind, if_neg hkind,
        if_neg (by simp [PropertyUsage.stamp, Ne.symm hkind])]
      rfl

end BagUsages

variable {s : Source} {isLibrary expand : Bool}

/-- The usage that a mention stands for in the list of a bag and a kind. -/
def Mention.usage? (s : Source) (isLibrary : Bool) (b : Bag) (k : UsageKind)
    (m : Mention) : Option PropertyUsage :=
  match m.place with
  | .state bag property =>
    if b = bag ∧ k = m.kind then
      some ⟨property, m.kind, m.line, s.snippet m.line, s.path, isLibrary⟩
    else none
  | .data _ _ => none

/-- The usage of a facet that a mention stands for. -/
def Mention.dataUsage? (s : Source) (isLibrary : Bool) (m : Mention) :
    Option DataUsage :=
  match m.place with
  | .state _ _ => none
  | .data f property =>
    some ⟨f, property, m.kind, m.line, s.snippet m.line, s.path, isLibrary⟩

/-- Which mention a usage of a bag comes from. -/
theorem Mention.usage?_eq_some_iff {b : Bag} {k : UsageKind} {m : Mention}
    {u : PropertyUsage} :
    m.usage? s isLibrary b k = some u ↔
      m = ⟨.state b u.property, k, u.line⟩ ∧
        u = ⟨u.property, k, u.line, s.snippet u.line, s.path, isLibrary⟩ := by
  obtain ⟨place, kind, line⟩ := m
  cases place with
  | data f property => simp [usage?]
  | state bag property =>
      by_cases h : b = bag ∧ k = kind
      · obtain ⟨rfl, rfl⟩ := h
        simp only [usage?, and_self, if_true, Option.some.injEq]
        constructor
        · intro heq
          subst heq
          exact ⟨rfl, rfl⟩
        · intro h
          obtain ⟨hm, hu⟩ := h
          obtain ⟨-, -⟩ := hm
          rw [hu]
      · simp only [usage?, if_neg h, reduceCtorEq, false_iff]
        intro hboth
        obtain ⟨hm, -⟩ := hboth
        cases hm
        exact h ⟨rfl, rfl⟩

/-- Which mention a usage of a facet comes from. -/
theorem Mention.dataUsage?_eq_some_iff {m : Mention} {u : DataUsage} :
    m.dataUsage? s isLibrary = some u ↔
      m = ⟨.data u.facet u.property, u.kind, u.line⟩ ∧
        u = ⟨u.facet, u.property, u.kind, u.line, s.snippet u.line, s.path,
          isLibrary⟩ := by
  obtain ⟨place, kind, line⟩ := m
  cases place with
  | state bag property => simp [dataUsage?]
  | data f property =>
      simp only [dataUsage?, Option.some.injEq]
      constructor
      · intro heq
        subst heq
        exact ⟨rfl, rfl⟩
      · intro h
        obtain ⟨hm, hu⟩ := h
        obtain ⟨-, -⟩ := hm
        rw [hu]

section

variable {α β : Type} [DecidableEq β] {view : Collector → Collection α β}
  {pick : Mention → Option α} {mark : α → β}

/-- A collection is gathered from the mentions that it picks: each of them is
taken in as what it stands for, and no other mention counts. -/
structure Gathers (s : Source) (isLibrary : Bool)
    (view : Collector → Collection α β) (pick : Mention → Option α)
    (mark : α → β) : Prop where
  empty : view {} = {}
  add : ∀ c m, view (Collector.add s isLibrary c m)
    = (pick m).toList.foldl (Collection.add mark) (view c)

namespace Gathers

/-- Several mentions, one after the other. -/
theorem foldl_add (h : Gathers s isLibrary view pick mark) (ms : List Mention)
    (c : Collector) :
    view (ms.foldl (Collector.add s isLibrary) c)
      = (ms.filterMap pick).foldl (Collection.add mark) (view c) := by
  induction ms generalizing c with
  | nil => rfl
  | cons m ms ih =>
      have hpicked : (m :: ms).filterMap pick
          = (pick m).toList ++ ms.filterMap pick := by
        cases hm : pick m with
        | none => simp [hm]
        | some a => simp [hm]
      rw [List.foldl_cons, ih, h.add, hpicked, List.foldl_append]

/-- What a node gives by itself. -/
theorem items_visit_empty (h : Gathers s isLibrary view pick mark)
    (v : Visit) :
    (view (Collector.visit s isLibrary expand {} v)).items
      = uniqueBy mark
          ((mentionsAt s expand v.node v.enclosing).filterMap pick) := by
  rw [Collector.visit, h.foldl_add, h.empty, Collection.items_foldl_add]
  rfl

/-- **One node.**  Whatever has been collected, a node adds what it gives by
itself, except for what has been seen. -/
theorem items_visit (h : Gathers s isLibrary view pick mark) (c : Collector)
    (v : Visit) :
    (view (Collector.visit s isLibrary expand c v)).items
      = (view c).items ++ uniqueFrom mark (view c).seen
          (view (Collector.visit s isLibrary expand {} v)).items := by
  rw [h.items_visit_empty, uniqueBy, uniqueFrom_uniqueFrom (by simp),
    Collector.visit, h.foldl_add, Collection.items_foldl_add]

/-- **The whole walk**, told by the mentions of its nodes. -/
theorem items_of_eq_mentions (h : Gathers s isLibrary view pick mark) :
    (view (Collector.of s isLibrary expand)).items
      = uniqueBy mark ((entered (walkAll s.tree)).flatMap fun v =>
          (mentionsAt s expand v.node v.enclosing).filterMap pick) := by
  have hwalk : Collector.of s isLibrary expand
      = ((entered (walkAll s.tree)).flatMap fun v =>
          mentionsAt s expand v.node v.enclosing).foldl
            (Collector.add s isLibrary) {} := by
    rw [List.foldl_flatMap]
    rfl
  rw [hwalk, h.foldl_add, h.empty, Collection.items_foldl_add,
    List.filterMap_flatMap]
  rfl

/-- **The whole walk**, told by what its nodes give by themselves. -/
theorem items_of_eq_unique (h : Gathers s isLibrary view pick mark) :
    (view (Collector.of s isLibrary expand)).items
      = uniqueBy mark ((entered (walkAll s.tree)).flatMap fun v =>
          (view (Collector.visit s isLibrary expand {} v)).items) := by
  simp only [h.items_visit_empty]
  rw [h.items_of_eq_mentions, uniqueBy, uniqueBy, uniqueFrom_flatMap_uniqueBy]

/-- Where a value of a gathered collection comes from. -/
theorem exists_of_mem_items_of (h : Gathers s isLibrary view pick mark) {a : α}
    (ha : a ∈ (view (Collector.of s isLibrary expand)).items) :
    ∃ v ∈ entered (walkAll s.tree),
      ∃ m ∈ mentionsAt s expand v.node v.enclosing, pick m = some a := by
  rw [h.items_of_eq_mentions] at ha
  obtain ⟨v, hv, hpicked⟩ := List.mem_flatMap.mp (mem_of_mem_uniqueFrom ha)
  exact ⟨v, hv, List.mem_filterMap.mp hpicked⟩

/-- The mark of whatever a node gives is among those that are gathered. -/
theorem exists_mem_items_of (h : Gathers s isLibrary view pick mark) {a : α}
    {v : Visit} (hv : v ∈ entered (walkAll s.tree)) {m : Mention}
    (hm : m ∈ mentionsAt s expand v.node v.enclosing) (ha : pick m = some a) :
    ∃ b ∈ (view (Collector.of s isLibrary expand)).items, mark b = mark a := by
  rw [h.items_of_eq_mentions, uniqueBy, exists_mem_uniqueFrom]
  exact ⟨List.not_mem_nil, a, List.mem_flatMap.mpr
    ⟨v, hv, List.mem_filterMap.mpr ⟨m, hm, ha⟩⟩, rfl⟩

end Gathers

end

section

variable (s : Source) (isLibrary : Bool)

/-- Each list of a bag is gathered from its own mentions only. -/
theorem gathers_collection (b : Bag) (k : UsageKind) :
    Gathers s isLibrary (fun c => (c.bag b).collection k)
      (Mention.usage? s isLibrary b k) PropertyUsage.stamp where
  empty := by cases b <;> cases k <;> rfl
  add := by
    intro c m
    obtain ⟨place, kind, line⟩ := m
    cases place with
    | data f property => cases b <;> rfl
    | state bag property =>
        by_cases hbag : b = bag
        · subst hbag
          have hadd : ((Collector.add s isLibrary c
              ⟨.state b property, kind, line⟩).bag b)
              = (c.bag b).add
                ⟨property, kind, line, s.snippet line, s.path, isLibrary⟩ := by
            cases b <;> rfl
          rw [hadd, BagUsages.collection_add]
          by_cases hkind : k = kind
          · simp [Mention.usage?, hkind]
          · simp [Mention.usage?, hkind]
        · have hsame : (Collector.add s isLibrary c
              ⟨.state bag property, kind, line⟩).bag b = c.bag b := by
            cases b <;> cases bag <;> first | contradiction | rfl
          simp [Mention.usage?, hbag, hsame]

/-- The data are gathered from the mentions of facets. -/
theorem gathers_data :
    Gathers s isLibrary Collector.data (Mention.dataUsage? s isLibrary)
      DataUsage.stamp where
  empty := rfl
  add := by
    intro c m
    obtain ⟨place, kind, line⟩ := m
    cases place with
    | data f property => rfl
    | state bag property => cases bag <;> rfl

end

namespace Collector

/-- The stamps that have been seen are those of the usages that have been
collected, and these are all in the file that is walked. -/
structure Tied (s : Source) (c : Collector) : Prop where
  state : ∀ b k, ((c.bag b).collection k).Tied PropertyUsage.stamp
  data : c.data.Tied DataUsage.stamp
  home : ∀ b k, ∀ u ∈ c.usages.inBag b k, u.path = s.path

/-- Nothing has been collected at the start. -/
theorem tied_empty (s : Source) : ({} : Collector).Tied s where
  state b k := by
    rw [(gathers_collection s false b k).empty]
    exact Collection.tied_empty _
  data := Collection.tied_empty _
  home b k u hu := by
    cases b <;> cases k <;> cases hu

/-- **One mention** keeps the stamps tied to the usages. -/
theorem Tied.add {c : Collector} (h : c.Tied s) (m : Mention) :
    (add s isLibrary c m).Tied s where
  state b k := by
    rw [(gathers_collection s isLibrary b k).add]
    exact (h.state b k).foldl_add _
  data := by
    rw [(gathers_data s isLibrary).add]
    exact h.data.foldl_add _
  home b k u hu := by
    rw [inBag_usages, (gathers_collection s isLibrary b k).add] at hu
    cases hpick : m.usage? s isLibrary b k with
    | none =>
        rw [hpick] at hu
        exact h.home b k u (by rwa [inBag_usages])
    | some new =>
        rw [hpick] at hu
        rcases Collection.mem_of_mem_items_add hu with hu | rfl
        · exact h.home b k u (by rwa [inBag_usages])
        · rw [(Mention.usage?_eq_some_iff.mp hpick).2]

/-- **One node** keeps the stamps tied to the usages. -/
theorem Tied.visit {c : Collector} (h : c.Tied s) (v : Visit) :
    (visit s isLibrary expand c v).Tied s :=
  List.foldlRecOn _ _ h fun _ hc m _ => hc.add m

/-- **A walk** leaves the stamps tied to the usages. -/
theorem tied_of (s : Source) (isLibrary expand : Bool) :
    (of s isLibrary expand).Tied s :=
  List.foldlRecOn _ _ (tied_empty s) fun _ hc v _ => hc.visit v

end Collector

/-- **Every usage of a file names the file.** -/
theorem Usages.path_of_mem_of {b : Bag} {k : UsageKind} {u : PropertyUsage}
    (hu : u ∈ (Usages.of s isLibrary expand).inBag b k) : u.path = s.path :=
  (Collector.tied_of s isLibrary expand).home b k u hu

/-- What tells the usages of a bag in one file apart. -/
def usageKey (b : Bag) (u : PropertyUsage) : Bag × String × Nat × UsageKind :=
  (b, u.property, u.line, u.kind)

/-- Within a file the stamp of a usage says no more than its key. -/
theorem stamp_eq_iff {b : Bag} {u v : PropertyUsage} (h : u.path = v.path) :
    u.stamp = v.stamp ↔ usageKey b u = usageKey b v := by
  simp [PropertyUsage.stamp, usageKey, h]

/-- Usages of one file can be told apart by stamps or by keys. -/
theorem uniqueFrom_stamp {b : Bag} {known us : List PropertyUsage}
    (hknown : ∀ u ∈ known, u.path = s.path) (hus : ∀ u ∈ us, u.path = s.path) :
    uniqueFrom PropertyUsage.stamp (known.map PropertyUsage.stamp) us
      = uniqueFrom (usageKey b) (known.map (usageKey b)) us := by
  apply uniqueFrom_map_congr
  intro u hu v hv
  have hpath : v.path = s.path := hv.elim (hknown v) (hus v)
  exact stamp_eq_iff (hpath.trans (hus u hu).symm)

/-- **To a list of a bag** a node adds what it gives by itself, except for what
has the key of something in the list. -/
theorem inBag_visit {c : Collector} (h : c.Tied s) (v : Visit) (b : Bag)
    (k : UsageKind) :
    (Collector.visit s isLibrary expand c v).usages.inBag b k
      = c.usages.inBag b k ++ uniqueFrom (usageKey b)
          ((c.usages.inBag b k).map (usageKey b))
          ((Collector.visit s isLibrary expand {} v).usages.inBag b k) := by
  have hempty : (Collector.visit s isLibrary expand {} v).Tied s :=
    (Collector.tied_empty s).visit v
  rw [← uniqueFrom_stamp (h.home b k) (hempty.home b k),
    Collector.inBag_usages, (gathers_collection s isLibrary b k).items_visit,
    uniqueFrom_congr (h.state b k)]
  simp only [Collector.inBag_usages]

/-- **To the data** a node adds what it gives by itself, except for what has
the stamp of something that is there. -/
theorem data_visit {c : Collector} (h : c.Tied s) (v : Visit) :
    (Collector.visit s isLibrary expand c v).usages.data
      = c.usages.data ++ uniqueFrom DataUsage.stamp
          (c.usages.data.map DataUsage.stamp)
          (Collector.visit s isLibrary expand {} v).usages.data := by
  refine ((gathers_data s isLibrary).items_visit c v).trans ?_
  rw [uniqueFrom_congr h.data]
  rfl

/-- **A list of a bag** is what the nodes of a file give to it by themselves,
with the first usage of each key kept. -/
theorem inBag_of_eq_unique (b : Bag) (k : UsageKind) :
    (Usages.of s isLibrary expand).inBag b k
      = uniqueBy (usageKey b) ((entered (walkAll s.tree)).flatMap fun v =>
          (Collector.visit s isLibrary expand {} v).usages.inBag b k) := by
  have hhome : ∀ u ∈ (entered (walkAll s.tree)).flatMap (fun v =>
      (Collector.visit s isLibrary expand {} v).usages.inBag b k),
      u.path = s.path := by
    intro u hu
    obtain ⟨v, -, hu⟩ := List.mem_flatMap.mp hu
    exact ((Collector.tied_empty s).visit v).home b k u hu
  have hnone : ∀ u ∈ ([] : List PropertyUsage), u.path = s.path :=
    fun u hu => absurd hu List.not_mem_nil
  rw [Usages.of, Collector.inBag_usages,
    (gathers_collection s isLibrary b k).items_of_eq_unique]
  simp only [← Collector.inBag_usages]
  exact uniqueFrom_stamp hnone hhome

/-- **Nothing is lost and nothing repeated.**  Each list of a file's usages is
what the nodes of the file give to that list when nothing has been collected
before, in the order of the walk and with the first usage of each key kept.

Nor does the order matter for what a node gives.  The stamps that have been
seen are at every moment those of the usages in the lists.  So to whatever has
been collected a node adds the same usages, except for those whose key is in
the list already. -/
theorem usages_eq_unique (s : Source) (isLibrary expand : Bool) :
    (∀ b k, (Usages.of s isLibrary expand).inBag b k
      = uniqueBy (usageKey b) ((entered (walkAll s.tree)).flatMap fun v =>
          (Collector.visit s isLibrary expand {} v).usages.inBag b k)) ∧
    (Usages.of s isLibrary expand).data
      = uniqueBy DataUsage.stamp ((entered (walkAll s.tree)).flatMap fun v =>
          (Collector.visit s isLibrary expand {} v).usages.data) ∧
    ({} : Collector).Tied s ∧
    ∀ c : Collector, c.Tied s → ∀ v,
      (Collector.visit s isLibrary expand c v).Tied s ∧
      (∀ b k, (Collector.visit s isLibrary expand c v).usages.inBag b k
        = c.usages.inBag b k ++ uniqueFrom (usageKey b)
            ((c.usages.inBag b k).map (usageKey b))
            ((Collector.visit s isLibrary expand {} v).usages.inBag b k)) ∧
      (Collector.visit s isLibrary expand c v).usages.data
        = c.usages.data ++ uniqueFrom DataUsage.stamp
            (c.usages.data.map DataUsage.stamp)
            (Collector.visit s isLibrary expand {} v).usages.data := by
  refine ⟨inBag_of_eq_unique, (gathers_data s isLibrary).items_of_eq_unique,
    Collector.tied_empty s, ?_⟩
  intro c hc v
  exact ⟨hc.visit v, inBag_visit hc v, data_visit hc v⟩

/-- The call `req.header('x')`, from some place on. -/
def headerCall (start : Nat) : Node :=
  ⟨.callExpression, none, start, start + 15, [
    ⟨.memberExpression, some .function, start, start + 10, [
      ⟨.identifier, some .object, start, start + 3, []⟩,
      ⟨.token ".", none, start + 3, start + 4, []⟩,
      ⟨.propertyIdentifier, some .property, start + 4, start + 10, []⟩]⟩,
    ⟨.arguments, some .arguments, start + 10, start + 15, [
      ⟨.token "(", none, start + 10, start + 11, []⟩,
      ⟨.string, none, start + 11, start + 14, []⟩,
      ⟨.token ")", none, start + 14, start + 15, []⟩]⟩]⟩

/-- A file with the text `req.header('x');req.header('x')`. -/
def repeatedSource : Source :=
  ⟨⟨.here, ["a.js"]⟩,
    ⟨#[0x72, 0x65, 0x71, 0x2E, 0x68, 0x65, 0x61, 0x64, 0x65, 0x72, 0x28, 0x27,
      0x78, 0x27, 0x29, 0x3B, 0x72, 0x65, 0x71, 0x2E, 0x68, 0x65, 0x61, 0x64,
      0x65, 0x72, 0x28, 0x27, 0x78, 0x27, 0x29]⟩,
    ⟨.program, none, 0, 31, [
      ⟨.expressionStatement, none, 0, 16, [headerCall 0]⟩,
      ⟨.expressionStatement, none, 16, 31, [headerCall 16]⟩]⟩⟩

/-- The moment of the walk at which a call of the file is entered. -/
def repeatedVisit (start : Nat) : Visit :=
  ⟨.enter, headerCall start, [repeatedSource.tree]⟩

/-- The second call gives a read by itself, and nothing after the first. -/
theorem usages_eq_unique_repeated : ∃ c : Collector, c.Tied repeatedSource ∧
    c.usages.data.length = 1 ∧
    (Collector.visit repeatedSource false true {}
      (repeatedVisit 16)).usages.data.length = 1 ∧
    (Collector.visit repeatedSource false true c (repeatedVisit 16)).usages.data
      = c.usages.data := by
  obtain ⟨-, -, hempty, hstep⟩ := usages_eq_unique repeatedSource false true
  have hfirst := (hstep {} hempty (repeatedVisit 0)).1
  refine ⟨_, hfirst, by decide, by decide, ?_⟩
  rw [(hstep _ hfirst (repeatedVisit 16)).2.2, List.append_right_eq_self]
  decide

namespace ServiceCalls

/-- The stamps that have been seen are those of the calls that have been
collected, and these are all in the file that is walked. -/
structure Tied (s : Source) (known : ServiceCalls) : Prop where
  calls : known.found.Tied ServiceCall.stamp
  home : ∀ c ∈ known.found.items, c.path = s.path

/-- No call has been collected at the start. -/
theorem tied_empty (s : Source) : ({} : ServiceCalls).Tied s where
  calls := Collection.tied_empty _
  home _ hc := absurd hc List.not_mem_nil

/-- **One node** keeps the stamps tied to the calls. -/
theorem Tied.visit {known : ServiceCalls} (h : known.Tied s) (v : Visit) :
    (visit s isLibrary known v).Tied s := by
  unfold ServiceCalls.visit
  simp only
  split
  · refine ⟨h.calls.add _, ?_⟩
    intro c hc
    rcases Collection.mem_of_mem_items_add hc with hc | rfl
    · exact h.home c hc
    · rfl
  · exact ⟨h.calls, h.home⟩

/-- **A walk** keeps the stamps tied to the calls. -/
theorem Tied.foldl_visit {known : ServiceCalls} (h : known.Tied s)
    (visits : List Visit) :
    (visits.foldl (ServiceCalls.visit s isLibrary) known).Tied s :=
  List.foldlRecOn visits _ h fun _ hc v _ => hc.visit v

/-- **Every call of a file names the file.** -/
theorem path_of_mem_of {c : ServiceCall} (hc : c ∈ of s isLibrary) :
    c.path = s.path :=
  ((tied_empty s).foldl_visit _).home c hc

end ServiceCalls

end Relay.Analysis
