import Mathlib.Data.Set.Insert
import Mathlib.Logic.Relation
import Relay.Proofs.Growth

/-!
# Depth-first order

The order of first visits of a depth-first search is a relation between a
graph, given by the successors of every point, and a list.  The search goes
through some points one after the other, passes over those that have been seen,
and after a new one goes through its successors before it goes on.

The relation has at most one list for given points (`unique`).  From nothing
seen the list holds what can be reached, each once (`mem_iff`, `nodup`).
Expanding a record keeps its points on a stack, and it visits the paths of the
memory in this order (`expandFrom_depthFirst`).
-/

namespace Relay

/-- **Order of first visits.**  With some points seen, going through the points
of the first list visits those of the second one, in this order. -/
inductive DepthFirst {α : Type} (next : α → List α) :
    Set α → List α → List α → Prop
  | nil {seen : Set α} : DepthFirst next seen [] []
  | skip {seen : Set α} {a : α} {points visits : List α} (hseen : a ∈ seen)
      (rest : DepthFirst next seen points visits) :
      DepthFirst next seen (a :: points) visits
  | visit {seen : Set α} {a : α} {points inner outer : List α} (hnew : a ∉ seen)
      (below : DepthFirst next (insert a seen) (next a) inner)
      (rest : DepthFirst next (insert a seen ∪ {b | b ∈ inner}) points outer) :
      DepthFirst next seen (a :: points) (a :: (inner ++ outer))

namespace DepthFirst

variable {α : Type} {next next' : α → List α} {seen : Set α}
  {points visits : List α}

/-- Going through two lists of points is going through one and then the
other. -/
theorem split {xs ys : List α} (h : DepthFirst next seen (xs ++ ys) visits) :
    ∃ first second, visits = first ++ second ∧ DepthFirst next seen xs first ∧
      DepthFirst next (seen ∪ {b | b ∈ first}) ys second := by
  induction xs generalizing seen visits with
  | nil => exact ⟨[], visits, rfl, .nil, by simpa using h⟩
  | cons a xs ih =>
      cases h with
      | skip hseen rest =>
          obtain ⟨first, second, rfl, hfirst, hsecond⟩ := ih rest
          exact ⟨first, second, rfl, .skip hseen hfirst, hsecond⟩
      | @visit _ _ _ inner outer hnew below rest =>
          obtain ⟨first, second, rfl, hfirst, hsecond⟩ := ih rest
          refine ⟨a :: (inner ++ first), second, by simp,
            .visit hnew below hfirst, ?_⟩
          have hset : seen ∪ {b | b ∈ a :: (inner ++ first)}
              = insert a seen ∪ {b | b ∈ inner} ∪ {b | b ∈ first} := by
            ext b
            simp only [Set.mem_union, Set.mem_insert_iff, Set.mem_ofPred_eq,
              List.mem_cons, List.mem_append]
            tauto
          rw [hset]
          exact hsecond

/-- **The order is determined.** -/
theorem unique (h : DepthFirst next seen points visits) {others : List α}
    (h' : DepthFirst next seen points others) : visits = others := by
  induction h generalizing others with
  | nil =>
      cases h'
      rfl
  | skip hseen rest ih =>
      cases h' with
      | skip _ rest' => exact ih rest'
      | visit hnew => exact absurd hseen hnew
  | visit hnew below rest ihBelow ihRest =>
      cases h' with
      | skip hseen => exact absurd hseen hnew
      | visit _ below' rest' =>
          obtain rfl := ihBelow below'
          obtain rfl := ihRest rest'
          rfl

/-- Every point is visited at most once, and none that has been seen. -/
theorem nodup (h : DepthFirst next seen points visits) :
    visits.Nodup ∧ ∀ b ∈ visits, b ∉ seen := by
  induction h with
  | nil => simp
  | skip hseen rest ih => exact ih
  | @visit seen a points inner outer hnew below rest ihBelow ihRest =>
      obtain ⟨hnodup₁, hseen₁⟩ := ihBelow
      obtain ⟨hnodup₂, hseen₂⟩ := ihRest
      have hinner : a ∉ inner := fun ha => hseen₁ a ha (Set.mem_insert a seen)
      have houter : a ∉ outer :=
        fun ha => hseen₂ a ha (.inl (Set.mem_insert a seen))
      refine ⟨List.nodup_cons.mpr ⟨by simp [hinner, houter], ?_⟩, ?_⟩
      · exact List.nodup_append'.mpr
          ⟨hnodup₁, hnodup₂, fun b hb hb' => hseen₂ b hb' (.inr hb)⟩
      · refine List.forall_mem_cons.mpr ⟨hnew,
          List.forall_mem_append.mpr ⟨?_, ?_⟩⟩
        · exact fun b hb hb' => hseen₁ b hb (.inr hb')
        · exact fun b hb hb' => hseen₂ b hb (.inl (.inr hb'))

/-- The points and all successors of visited points have been seen or
visited. -/
theorem closed (h : DepthFirst next seen points visits) :
    (∀ a ∈ points, a ∈ seen ∨ a ∈ visits) ∧
      ∀ a ∈ visits, ∀ b ∈ next a, b ∈ seen ∨ b ∈ visits := by
  induction h with
  | nil => simp
  | skip hseen rest ih =>
      exact ⟨List.forall_mem_cons.mpr ⟨.inl hseen, ih.1⟩, ih.2⟩
  | @visit seen a points inner outer hnew below rest ihBelow ihRest =>
      have hinner : ∀ b, b ∈ insert a seen ∨ b ∈ inner →
          b ∈ seen ∨ b ∈ a :: (inner ++ outer) := by
        simp only [Set.mem_insert_iff, List.mem_cons, List.mem_append]
        tauto
      have houter : ∀ b, b ∈ insert a seen ∪ {b | b ∈ inner} ∨ b ∈ outer →
          b ∈ seen ∨ b ∈ a :: (inner ++ outer) := by
        simp only [Set.mem_union, Set.mem_insert_iff, Set.mem_ofPred_eq,
          List.mem_cons, List.mem_append]
        tauto
      refine ⟨List.forall_mem_cons.mpr ⟨.inr List.mem_cons_self, ?_⟩,
        List.forall_mem_cons.mpr ⟨?_, List.forall_mem_append.mpr ⟨?_, ?_⟩⟩⟩
      · exact fun b hb => houter b (ihRest.1 b hb)
      · exact fun b hb => hinner b (ihBelow.1 b hb)
      · exact fun c hc b hb => hinner b (ihBelow.2 c hc b hb)
      · exact fun c hc b hb => houter b (ihRest.2 c hc b hb)

/-- What is visited can be reached from one of the points. -/
theorem reached (h : DepthFirst next seen points visits) :
    ∀ b ∈ visits, ∃ a ∈ points,
      Relation.ReflTransGen (fun x y => y ∈ next x) a b := by
  induction h with
  | nil => simp
  | skip hseen rest ih =>
      intro b hb
      obtain ⟨a, ha, hab⟩ := ih b hb
      exact ⟨a, List.mem_cons_of_mem _ ha, hab⟩
  | @visit seen a points inner outer hnew below rest ihBelow ihRest =>
      refine List.forall_mem_cons.mpr ⟨⟨a, List.mem_cons_self, .refl⟩,
        List.forall_mem_append.mpr ⟨fun b hb => ?_, fun b hb => ?_⟩⟩
      · obtain ⟨c, hc, hcb⟩ := ihBelow b hb
        exact ⟨a, List.mem_cons_self, .head hc hcb⟩
      · obtain ⟨c, hc, hcb⟩ := ihRest b hb
        exact ⟨c, List.mem_cons_of_mem _ hc, hcb⟩

/-- **What is visited is what can be reached.** -/
theorem mem_iff (h : DepthFirst next ∅ points visits) {b : α} :
    b ∈ visits ↔
      ∃ a ∈ points, Relation.ReflTransGen (fun x y => y ∈ next x) a b := by
  refine ⟨h.reached b, ?_⟩
  rintro ⟨a, ha, hab⟩
  induction hab with
  | refl => exact (h.closed.1 a ha).resolve_left (Set.notMem_empty a)
  | @tail c d _ hcd ih =>
      exact (h.closed.2 c ih d hcd).resolve_left (Set.notMem_empty d)

/-- Only the successors of visited points matter. -/
theorem congr (h : DepthFirst next seen points visits)
    (hnext : ∀ a ∈ visits, next a = next' a) :
    DepthFirst next' seen points visits := by
  induction h with
  | nil => exact .nil
  | skip hseen rest ih => exact .skip hseen (ih hnext)
  | visit hnew below rest ihBelow ihRest =>
      obtain ⟨ha, hnext⟩ := List.forall_mem_cons.mp hnext
      obtain ⟨hinner, houter⟩ := List.forall_mem_append.mp hnext
      exact .visit hnew (ha ▸ ihBelow hinner) (ihRest houter)

end DepthFirst

namespace Memory

/-- The paths right below what is kept for a path, in order. -/
def below (m : Memory) (path : Path) : List Path :=
  match m.find? path with
  | some k => k.record.children.map (·.path)
  | none => []

/-- A record stands for what is kept for its path: it is the kept record or
refers to it.  Where nothing is kept, it has nothing to tell. -/
structure Anchors (m : Memory) (r : Record) : Prop where
  home : r.path.place = r.path
  kept : ∀ k, m.find? r.path = some k → r.shallow = true ∨ r = k.record
  bare : m.find? r.path = none → r.shallow = true ∧ r.facts = {} ∧
    r.children = []

/-- All records below kept ones stand for what is kept. -/
def Anchored (m : Memory) : Prop :=
  ∀ path k, m.find? path = some k → ∀ r ∈ k.record.children, m.Anchors r

/-- A record is what is kept for its path, or tells nothing and has no kept
one. -/
def Tells (m : Memory) (r : Record) : Prop :=
  (∃ k, m.find? r.path = some k ∧ r = k.record) ∨
    (m.find? r.path = none ∧ r.facts = {})

namespace Anchors

variable {m m' : Memory} {r : Record}

/-- The record that is looked up for an anchored one is the kept one, if there
is one. -/
theorem record? (h : m.Anchors r) :
    m.record? r.path = (m.find? r.path).map (·.record) := by
  have hhome : placeOfText r.path.text = r.path := by
    have := h.home
    rwa [Path.place] at this
  rw [Memory.record?, hhome]

/-- An anchored record is filled up to the kept one. -/
theorem full_of_kept (h : m.Anchors r) {k : Kept}
    (hk : m.find? r.path = some k) : m.full r = k.record := by
  unfold full
  rw [h.record?, hk]
  rcases h.kept k hk with hshallow | rfl
  · simp [hshallow]
  · simp

/-- An anchored record stands as it is if none is kept. -/
theorem full_of_unkept (h : m.Anchors r) (hk : m.find? r.path = none) :
    m.full r = r := by
  unfold full
  rw [h.record?, hk]
  simp

/-- What a record stands for has the same path. -/
theorem path_full (h : m.Anchors r) : (m.full r).path = r.path := by
  cases hk : m.find? r.path with
  | none => rw [h.full_of_unkept hk]
  | some k => rw [h.full_of_kept hk, path_of_find? hk]

/-- The children of the full record are at the paths right below. -/
theorem children_full (h : m.Anchors r) :
    (m.full r).children.map (·.path) = m.below r.path := by
  unfold below
  cases hk : m.find? r.path with
  | none => rw [h.full_of_unkept hk, (h.bare hk).2.2, List.map_nil]
  | some k => rw [h.full_of_kept hk]

/-- The children of the full record are anchored again. -/
theorem anchors_children (h : m.Anchors r) (hm : m.Anchored) :
    ∀ c ∈ (m.full r).children, m.Anchors c := by
  cases hk : m.find? r.path with
  | none =>
      rw [h.full_of_unkept hk, (h.bare hk).2.2]
      exact fun c hc => absurd hc List.not_mem_nil
  | some k =>
      rw [h.full_of_kept hk]
      exact hm r.path k hk

/-- The full record tells what the memory knows of its path. -/
theorem tells_full (h : m.Anchors r) : m.Tells (m.full r) := by
  unfold Tells
  rw [h.path_full]
  cases hk : m.find? r.path with
  | none => exact .inr ⟨rfl, by rw [h.full_of_unkept hk, (h.bare hk).2.1]⟩
  | some k => exact .inl ⟨k, rfl, h.full_of_kept hk⟩

/-- A record that stands for something does so in a memory that keeps more. -/
theorem mono (h : m.Anchors r)
    (hkept : ∀ path k, m.find? path = some k → m'.find? path = some k) :
    m'.Anchors r where
  home := h.home
  kept := by
    intro k' hk'
    cases hk : m.find? r.path with
    | none => exact .inl (h.bare hk).1
    | some k =>
        rw [hkept _ k hk, Option.some.injEq] at hk'
        exact hk' ▸ h.kept k hk
  bare := by
    intro hk'
    cases hk : m.find? r.path with
    | none => exact h.bare hk
    | some k =>
        rw [hkept _ k hk] at hk'
        cases hk'

end Anchors

/-- **Expanding is a depth-first search.**  Expanding records that stand for
kept ones visits the paths of the memory in depth-first order, and what comes
of it are the kept records. -/
theorem expandFrom_depthFirst {m : Memory} (hm : m.Anchored)
    (visited : List Path) (records : List Record)
    (hrecords : ∀ r ∈ records, m.Anchors r) :
    DepthFirst m.below {q | q ∈ visited} (records.map (·.path))
        ((m.expandFrom visited records).map (·.path)) ∧
      ∀ r ∈ m.expandFrom visited records, m.Tells r := by
  fun_induction expandFrom m visited records with
  | case1 visited => exact ⟨.nil, by simp⟩
  | case2 visited record rest hseen ih =>
      obtain ⟨hrecord, hrest⟩ := List.forall_mem_cons.mp hrecords
      rw [hrecord.path_full] at hseen
      exact ⟨.skip hseen (ih hrest).1, (ih hrest).2⟩
  | case3 visited record rest hnew ih =>
      obtain ⟨hrecord, hrest⟩ := List.forall_mem_cons.mp hrecords
      obtain ⟨hsearch, htells⟩ := ih (List.forall_mem_append.mpr
        ⟨hrecord.anchors_children hm, hrest⟩)
      refine ⟨?_, List.forall_mem_cons.mpr ⟨hrecord.tells_full, htells⟩⟩
      rw [hrecord.path_full] at hnew hsearch
      rw [List.map_append, hrecord.children_full] at hsearch
      have hinsert : {q | q ∈ record.path :: visited}
          = insert record.path {q | q ∈ visited} := by
        ext q
        simp
      rw [hinsert] at hsearch
      obtain ⟨inner, outer, hvisits, hbelow, hafter⟩ := hsearch.split
      rw [List.map_cons, List.map_cons, hrecord.path_full, hvisits]
      exact .visit hnew hbelow hafter

/-- **Expanding is searching depth first.**  The records that a record expands
to have the paths of a depth-first search from its own path, and each of them
tells what the memory knows. -/
theorem expand_depthFirst {m : Memory} (hm : m.Anchored) {record : Record}
    (hrecord : m.Anchors record) :
    DepthFirst m.below ∅ [record.path] ((m.expand record).map (·.path)) ∧
      ∀ r ∈ m.expand record, m.Tells r := by
  have hnothing : {q : Path | q ∈ ([] : List Path)} = ∅ := by simp
  rw [← hnothing]
  exact expandFrom_depthFirst hm [] [record]
    (List.forall_mem_singleton.mpr hrecord)

end Memory

end Relay
