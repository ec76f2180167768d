import Mathlib.Data.List.Basic
import Mathlib.Tactic.Tauto
import Relay.Unique

/-!
# Lists without repetitions

Wherever facts may repeat, the first one with each mark is kept.  A list is
thinned out all at once by `uniqueFrom`, which loses no mark
(`exists_mem_uniqueFrom`) and keeps the first value of each
(`split_of_mem_uniqueFrom`).  Along a walk the values come one at a time, and a
`Collection` keeps the marks that it has seen beside the values.

The two agree.  Taking values in one after the other leaves what thinning out
leaves (`Collection.items_foldl_add`), and the marks that a collection has seen
are those of its values at every moment (`Collection.Tied.add`).
-/

namespace Relay

variable {α β γ ι : Type} [DecidableEq β] {mark : α → β} {seen : List β}
  {items : List α} {a : α}

/-- **No mark gets lost.**  What is left of a list has the marks of the list
that have not been seen. -/
theorem exists_mem_uniqueFrom (mark : α → β) (seen : List β) (items : List α)
    (b : β) :
    (∃ a ∈ uniqueFrom mark seen items, mark a = b) ↔
      b ∉ seen ∧ ∃ a ∈ items, mark a = b := by
  induction items generalizing seen with
  | nil => simp [uniqueFrom]
  | cons a items ih =>
      by_cases hseen : mark a ∈ seen
      · have hskip : uniqueFrom mark seen (a :: items)
            = uniqueFrom mark seen items := by
          simp [uniqueFrom, hseen]
        rw [hskip, ih]
        simp only [List.mem_cons, exists_eq_or_imp]
        constructor
        · intro h
          obtain ⟨hb, hitems⟩ := h
          exact ⟨hb, .inr hitems⟩
        · intro h
          obtain ⟨hb, rfl | hitems⟩ := h
          · exact absurd hseen hb
          · exact ⟨hb, hitems⟩
      · have htake : uniqueFrom mark seen (a :: items)
            = a :: uniqueFrom mark (mark a :: seen) items := by
          simp [uniqueFrom, hseen]
        rw [htake]
        simp only [List.mem_cons, exists_eq_or_imp, ih, not_or]
        constructor
        · intro h
          rcases h with rfl | ⟨⟨-, hb⟩, hitems⟩
          · exact ⟨hseen, .inl rfl⟩
          · exact ⟨hb, .inr hitems⟩
        · intro h
          obtain ⟨hb, rfl | hitems⟩ := h
          · exact .inl rfl
          · by_cases heq : b = mark a
            · exact .inl heq.symm
            · exact .inr ⟨⟨heq, hb⟩, hitems⟩

/-- **The first of a mark is left.**  What is left of a list has a mark that
has neither been seen nor comes before it. -/
theorem split_of_mem_uniqueFrom (h : a ∈ uniqueFrom mark seen items) :
    mark a ∉ seen ∧ ∃ before after, items = before ++ a :: after ∧
      ∀ b ∈ before, mark b ≠ mark a := by
  induction items generalizing seen with
  | nil => cases h
  | cons b items ih =>
      unfold uniqueFrom at h
      split at h
      · rename_i hseen
        obtain ⟨hnew, before, after, rfl, hbefore⟩ := ih h
        have hne : mark b ≠ mark a := fun heq => hnew (heq ▸ hseen)
        exact ⟨hnew, b :: before, after, rfl,
          List.forall_mem_cons.mpr ⟨hne, hbefore⟩⟩
      · rename_i hseen
        rcases List.mem_cons.mp h with rfl | hrest
        · exact ⟨hseen, [], items, rfl, by simp⟩
        · obtain ⟨hnew, before, after, rfl, hbefore⟩ := ih hrest
          rw [List.mem_cons, not_or] at hnew
          exact ⟨hnew.2, b :: before, after, rfl,
            List.forall_mem_cons.mpr ⟨Ne.symm hnew.1, hbefore⟩⟩

/-- Nothing is left that was not there. -/
theorem mem_of_mem_uniqueFrom (h : a ∈ uniqueFrom mark seen items) :
    a ∈ items := by
  obtain ⟨-, before, after, rfl, -⟩ := split_of_mem_uniqueFrom h
  exact List.mem_append_right _ List.mem_cons_self

/-- What is left of a list are its first items with their marks. -/
theorem mem_uniqueBy_iff :
    a ∈ uniqueBy mark items ↔ items.find? (mark · = mark a) = some a := by
  have hfirst : ∀ {a}, a ∈ uniqueBy mark items →
      items.find? (mark · = mark a) = some a := by
    intro a ha
    obtain ⟨-, before, after, rfl, hbefore⟩ := split_of_mem_uniqueFrom ha
    have hnone : before.find? (mark · = mark a) = none :=
      List.find?_eq_none.mpr fun b hb => by simpa using hbefore b hb
    rw [List.find?_append, hnone, Option.none_or,
      List.find?_cons_of_pos (by simp)]
  refine ⟨hfirst, fun ha => ?_⟩
  obtain ⟨a', ha', hmark⟩ := (exists_mem_uniqueFrom mark [] items (mark a)).mpr
    ⟨List.not_mem_nil, a, List.mem_of_find?_eq_some ha, rfl⟩
  have hsame := hfirst ha'
  rw [hmark, ha, Option.some.injEq] at hsame
  rw [hsame]
  exact ha'

/-- Values that are their own marks all stay. -/
theorem mem_uniqueBy_id {α : Type} [DecidableEq α] {items : List α} {a : α} :
    a ∈ uniqueBy id items ↔ a ∈ items := by
  simpa [uniqueBy] using exists_mem_uniqueFrom id [] items a

/-- What is left of a list has each mark once. -/
theorem nodup_map_uniqueFrom (mark : α → β) (seen : List β) (items : List α) :
    ((uniqueFrom mark seen items).map mark).Nodup := by
  induction items generalizing seen with
  | nil => exact List.nodup_nil
  | cons a items ih =>
      unfold uniqueFrom
      by_cases hseen : mark a ∈ seen
      · rw [if_pos hseen]
        exact ih seen
      · rw [if_neg hseen, List.map_cons, List.nodup_cons]
        refine ⟨?_, ih _⟩
        intro hmem
        obtain ⟨b, hb, hmark⟩ := List.mem_map.mp hmem
        have hnew := (split_of_mem_uniqueFrom hb).1
        exact hnew (hmark ▸ List.mem_cons_self)

/-- Only the members of the seen marks count. -/
theorem uniqueFrom_congr {seen seen' : List β}
    (h : ∀ b, b ∈ seen ↔ b ∈ seen') (items : List α) :
    uniqueFrom mark seen items = uniqueFrom mark seen' items := by
  induction items generalizing seen seen' with
  | nil => rfl
  | cons a items ih =>
      have hcons : ∀ b, b ∈ mark a :: seen ↔ b ∈ mark a :: seen' := by
        intro b
        rw [List.mem_cons, List.mem_cons, h b]
      simp only [uniqueFrom, h (mark a), ih h, ih hcons]

/-- Two ways of marking that tell the same values apart leave the same. -/
theorem uniqueFrom_map_congr [DecidableEq γ] {mark' : α → γ} {known : List α}
    (h : ∀ a ∈ items, ∀ b, b ∈ known ∨ b ∈ items →
      (mark b = mark a ↔ mark' b = mark' a)) :
    uniqueFrom mark (known.map mark) items
      = uniqueFrom mark' (known.map mark') items := by
  induction items generalizing known with
  | nil => rfl
  | cons a items ih =>
      have hknown : mark a ∈ known.map mark ↔ mark' a ∈ known.map mark' := by
        rw [List.mem_map, List.mem_map]
        exact exists_congr fun b => and_congr_right fun hb =>
          h a List.mem_cons_self b (.inl hb)
      have hskip : uniqueFrom mark (known.map mark) items
          = uniqueFrom mark' (known.map mark') items := by
        apply ih
        intro c hc b hb
        exact h c (List.mem_cons_of_mem _ hc) b
          (hb.imp_right (List.mem_cons_of_mem _))
      have htake : uniqueFrom mark ((a :: known).map mark) items
          = uniqueFrom mark' ((a :: known).map mark') items := by
        apply ih
        intro c hc b hb
        refine h c (List.mem_cons_of_mem _ hc) b ?_
        rcases hb with hb | hb
        · rcases List.mem_cons.mp hb with rfl | hb
          · exact .inr List.mem_cons_self
          · exact .inl hb
        · exact .inr (List.mem_cons_of_mem _ hb)
      rw [List.map_cons, List.map_cons] at htake
      simp only [uniqueFrom, hknown, hskip, htake]

/-- Marks can be read off after a change of the values. -/
theorem map_uniqueFrom (mark : γ → β) (g : α → γ) (seen : List β)
    (items : List α) :
    (uniqueFrom (fun a => mark (g a)) seen items).map g
      = uniqueFrom mark seen (items.map g) := by
  induction items generalizing seen with
  | nil => rfl
  | cons a items ih =>
      by_cases hseen : mark (g a) ∈ seen
      · simp [uniqueFrom, hseen, ih]
      · simp [uniqueFrom, hseen, ih]

/-- A list is thinned out in one go or in two. -/
theorem uniqueFrom_append (seen : List β) (items more : List α) :
    uniqueFrom mark seen (items ++ more) = uniqueFrom mark seen items
      ++ uniqueFrom mark (seen ++ items.map mark) more := by
  induction items generalizing seen with
  | nil => simp [uniqueFrom]
  | cons a items ih =>
      by_cases hseen : mark a ∈ seen
      · have hsame : ∀ b, b ∈ seen ++ items.map mark ↔
            b ∈ seen ++ (a :: items).map mark := by
          intro b
          simp only [List.map_cons, List.mem_append, List.mem_cons]
          constructor
          · intro hb
            exact hb.imp_right .inr
          · intro hb
            rcases hb with hb | rfl | hb
            · exact .inl hb
            · exact .inl hseen
            · exact .inr hb
        simp [uniqueFrom, hseen, ih, uniqueFrom_congr hsame]
      · have hsame : ∀ b, b ∈ mark a :: (seen ++ items.map mark) ↔
            b ∈ seen ++ (a :: items).map mark := by
          intro b
          simp only [List.map_cons, List.mem_append, List.mem_cons]
          tauto
        simp only [List.cons_append, uniqueFrom, if_neg hseen, ih,
          uniqueFrom_congr hsame]

/-- Repetitions that are gone already need not be looked for again. -/
theorem uniqueFrom_uniqueFrom {inner seen : List β} (h : ∀ b ∈ inner, b ∈ seen)
    (items : List α) :
    uniqueFrom mark seen (uniqueFrom mark inner items)
      = uniqueFrom mark seen items := by
  induction items generalizing inner seen with
  | nil => rfl
  | cons a items ih =>
      by_cases hinner : mark a ∈ inner
      · simp [uniqueFrom, hinner, h _ hinner, ih h]
      · by_cases hseen : mark a ∈ seen
        · have hcons : ∀ b ∈ mark a :: inner, b ∈ seen :=
            List.forall_mem_cons.mpr ⟨hseen, h⟩
          simp [uniqueFrom, hinner, hseen, ih hcons]
        · have hcons : ∀ b ∈ mark a :: inner, b ∈ mark a :: seen :=
            fun b hb =>
              List.mem_cons.mpr ((List.mem_cons.mp hb).imp_right (h b))
          simp [uniqueFrom, hinner, hseen, ih hcons]

/-- The repetitions of each block can be left out first. -/
theorem uniqueFrom_flatMap_uniqueBy (seen : List β) (items : List ι)
    (block : ι → List α) :
    uniqueFrom mark seen (items.flatMap fun i => uniqueBy mark (block i))
      = uniqueFrom mark seen (items.flatMap block) := by
  induction items generalizing seen with
  | nil => rfl
  | cons i items ih =>
      have hmarks : ∀ b, b ∈ seen ++ (uniqueBy mark (block i)).map mark ↔
          b ∈ seen ++ (block i).map mark := by
        intro b
        rw [List.mem_append, List.mem_append, List.mem_map, List.mem_map,
          uniqueBy, exists_mem_uniqueFrom]
        simp
      rw [List.flatMap_cons, List.flatMap_cons, uniqueFrom_append,
        uniqueFrom_append, ih, uniqueFrom_congr hmarks, uniqueBy,
        uniqueFrom_uniqueFrom (by simp)]

namespace Collection

variable {c : Collection α β}

/-- **Taking values in one after the other** leaves what thinning them out at
once leaves. -/
theorem items_foldl_add (c : Collection α β) (items : List α) :
    (items.foldl (add mark) c).items
      = c.items ++ uniqueFrom mark c.seen items := by
  induction items generalizing c with
  | nil => simp [uniqueFrom]
  | cons a items ih =>
      rw [List.foldl_cons, ih]
      by_cases h : mark a ∈ c.seen
      · simp [add, uniqueFrom, h]
      · simp [add, uniqueFrom, h]

/-- A collection has seen what it had seen before, and the new mark. -/
theorem mem_seen_add {b : β} :
    b ∈ (c.add mark a).seen ↔ b = mark a ∨ b ∈ c.seen := by
  by_cases h : mark a ∈ c.seen
  · rw [add, if_pos h]
    constructor
    · exact .inr
    · intro hb
      rcases hb with rfl | hb
      · exact h
      · exact hb
  · rw [add, if_neg h, List.mem_cons]

/-- What is in a collection was there before, or has just been taken in. -/
theorem mem_of_mem_items_add {b : α} (h : b ∈ (c.add mark a).items) :
    b ∈ c.items ∨ b = a := by
  have hitems : (c.add mark a).items
      = c.items ++ uniqueFrom mark c.seen [a] := items_foldl_add c [a]
  rw [hitems] at h
  refine (List.mem_append.mp h).imp_right fun hb => ?_
  exact List.mem_singleton.mp (mem_of_mem_uniqueFrom hb)

/-- The marks that have been seen are those of the values. -/
def Tied (mark : α → β) (c : Collection α β) : Prop :=
  ∀ b, b ∈ c.seen ↔ b ∈ c.items.map mark

/-- Nothing has been seen at the start. -/
theorem tied_empty {α β : Type} (mark : α → β) : Tied mark {} := by
  intro b
  rfl

/-- A mark is among those of a collection that has taken a value in just when
it was there before or is that of the value. -/
theorem Tied.mem_map_add (h : c.Tied mark) {b : β} :
    b ∈ (c.add mark a).items.map mark ↔ b = mark a ∨ b ∈ c.items.map mark := by
  by_cases hseen : mark a ∈ c.seen
  · rw [add, if_pos hseen]
    constructor
    · exact .inr
    · intro hb
      rcases hb with rfl | hb
      · exact (h _).mp hseen
      · exact hb
  · rw [add, if_neg hseen, List.map_append, List.mem_append, or_comm]
    simp

/-- **One step.**  Taking a value in keeps the marks tied to the values. -/
theorem Tied.add (h : c.Tied mark) (a : α) : (c.add mark a).Tied mark := by
  intro b
  rw [mem_seen_add, h.mem_map_add, h b]

/-- **Many steps** keep the marks tied to the values. -/
theorem Tied.foldl_add (h : c.Tied mark) (items : List α) :
    (items.foldl (Collection.add mark) c).Tied mark :=
  List.foldlRecOn items _ h fun _ hc a _ => hc.add a

end Collection

end Relay
