import Relay.Proofs.Reachability

/-!
# What the greatest depth hides

An analysis comes to each file once, at the depth of its first meeting, and it
goes on from there only if the next depth is below the greatest one.  A file
that is first met on a long way is cut off there, and it stays cut off when it
turns up again on a shorter way.  So the greatest depth does not bound the
length of the shortest way to a file: a file counts if some way leads to it on
which every file before it was first met high enough
(`rollUp_iff_leadsInTime`).

The walk that meets the files is stated on the graph of required files alone
(`meet`), and `Explored.met` shows that the files it meets are the ones that an
exploration keeps.
-/

namespace Relay

open Analysis

namespace Scene

variable (s : Scene)

/-- A walk down to a limited depth: `room` levels are left from a path on, which
is at some depth.  A file that has facts and has not been met is met there, and
the walk goes on with what it requires. -/
def meet : Nat → Nat → List (Path × Nat) → Path → List (Path × Nat)
  | 0, _, met, _ => met
  | room + 1, depth, met, path =>
    if path ∈ met.map (·.1) ∨ (s.own? path).isNone then met
    else (s.required path).foldl (meet room (depth + 1))
      (met ++ [(path, depth)])

/-- The files that are met from an entry on, with the depths of first
meetings. -/
def meetings (entry : Path) : List (Path × Nat) :=
  s.meet s.room 0 [] entry

/-- One file leads to another and is first met high enough to go on with it. -/
def LeadsInTime (entry path q : Path) : Prop :=
  s.Leads path q ∧ ∃ depth, (path, depth) ∈ s.meetings entry ∧
    (depth : Int) + 1 < s.resolver.config.maxDepth

variable {s}

/-- A file that has been met before, or that has no facts, is not met again.
-/
theorem meet_of_known {room depth : Nat} {met : List (Path × Nat)} {path : Path}
    (h : path ∈ met.map (·.1) ∨ s.own? path = none) :
    s.meet room depth met path = met := by
  cases room with
  | zero => rfl
  | succ room =>
      rw [meet, if_pos]
      exact h.imp_right fun hown => by rw [hown]; rfl

/-- A file that is met for the first time is put down, and then the files that
it requires are met one level deeper. -/
theorem meet_of_new {room depth : Nat} {met : List (Path × Nat)} {path : Path}
    (hnew : path ∉ met.map (·.1)) (hown : (s.own? path).isSome) :
    s.meet (room + 1) depth met path
      = (s.required path).foldl (s.meet room (depth + 1))
      (met ++ [(path, depth)]) := by
  rw [meet, if_neg]
  rintro (hmem | hnone)
  · exact hnew hmem
  · rw [Option.isNone_iff_eq_none] at hnone
    rw [hnone] at hown
    cases hown

section Fold

variable {α β : Type} {f : List α → β → List α} {met : List α} {items : List β}

/-- Steps that only add at the end add at the end together. -/
theorem prefix_foldl (hf : ∀ met b, met <+: f met b) :
    met <+: items.foldl f met := by
  induction items generalizing met with
  | nil => exact List.prefix_refl met
  | cons b items ih => exact (hf met b).trans ih

/-- What the steps have added was added by one of them. -/
theorem added_of_mem_foldl (hf : ∀ met b, met <+: f met b) {a : α}
    (h : a ∈ items.foldl f met) : a ∈ met ∨ ∃ b ∈ items, ∃ before,
      a ∉ before ∧ a ∈ f before b ∧ f before b <+: items.foldl f met := by
  induction items generalizing met with
  | nil => exact .inl h
  | cons b items ih =>
      rcases ih h with hmem | ⟨c, hc, before, hbefore⟩
      · by_cases hmet : a ∈ met
        · exact .inl hmet
        · exact .inr ⟨b, List.mem_cons_self, met, hmet, hmem, prefix_foldl hf⟩
      · exact .inr ⟨c, List.mem_cons_of_mem _ hc, before, hbefore⟩

/-- Every item has its step. -/
theorem exists_step_of_mem (hf : ∀ met b, met <+: f met b) {b : β}
    (h : b ∈ items) :
    ∃ before, f before b <+: items.foldl f met := by
  induction items generalizing met with
  | nil => cases h
  | cons c items ih =>
      rcases List.mem_cons.mp h with rfl | h
      · exact ⟨met, prefix_foldl hf⟩
      · exact ih h

end Fold

/-- The walk forgets no meeting. -/
theorem prefix_meet (room depth : Nat) (met : List (Path × Nat)) (path : Path) :
    met <+: s.meet room depth met path := by
  induction room generalizing depth met path with
  | zero => exact List.prefix_refl met
  | succ room ih =>
      rw [meet]
      split
      · exact List.prefix_refl met
      · exact (List.prefix_append met _).trans (prefix_foldl (ih (depth + 1)))

/-- A file with facts is met where a level is left for it. -/
theorem mem_meet {room depth : Nat} {met : List (Path × Nat)} {path : Path}
    (hown : (s.own? path).isSome) :
    path ∈ (s.meet (room + 1) depth met path).map (·.1) := by
  by_cases hmem : path ∈ met.map (·.1)
  · rw [meet_of_known (.inl hmem)]
    exact hmem
  · rw [meet_of_new hmem hown]
    have hpre : met ++ [(path, depth)] <+: (s.required path).foldl
        (s.meet room (depth + 1)) (met ++ [(path, depth)]) :=
      prefix_foldl (prefix_meet room (depth + 1))
    exact List.mem_map_of_mem (f := Prod.fst)
      (hpre.subset (a := (path, depth)) (by simp))

/-- What the walk newly meets from a path on is at the end of a way in time. -/
theorem inTime_of_mem_meet {entry : Path} {room depth : Nat}
    {met : List (Path × Nat)} {path : Path} (hroom : room + depth = s.room)
    (hall : s.meet room depth met path ⊆ s.meetings entry) {q : Path} {d : Nat}
    (h : (q, d) ∈ s.meet room depth met path) (hnew : (q, d) ∉ met) :
    (s.own? path).isSome ∧
      Relation.ReflTransGen (s.LeadsInTime entry) path q := by
  induction room generalizing depth met path with
  | zero => exact absurd h hnew
  | succ room ih =>
      by_cases hknown : path ∈ met.map (·.1) ∨ s.own? path = none
      · rw [meet_of_known hknown] at h
        exact absurd h hnew
      · rw [not_or] at hknown
        have hown : (s.own? path).isSome :=
          Option.isSome_iff_ne_none.mpr hknown.2
        rw [meet_of_new hknown.1 hown] at h hall
        have hpath : (path, depth) ∈ s.meetings entry := by
          apply hall
          apply (prefix_foldl (prefix_meet room (depth + 1))).subset
          simp
        rcases added_of_mem_foldl (prefix_meet room (depth + 1)) h with
          hmem | ⟨c, hc, before, hbefore, hmem, hpre⟩
        · rcases List.mem_append.mp hmem with hmem | hmem
          · exact absurd hmem hnew
          · obtain ⟨rfl, rfl⟩ := Prod.mk.inj (List.mem_singleton.mp hmem)
            exact ⟨hown, .refl⟩
        · rcases Nat.eq_zero_or_pos room with rfl | hpos
          · exact absurd hmem hbefore
          · obtain ⟨hchild, hway⟩ := ih (by omega)
              (fun x hx => hall (hpre.subset hx)) hmem hbefore
            have htime : (depth : Int) + 1 < s.resolver.config.maxDepth := by
              rw [Scene.room] at hroom
              omega
            exact ⟨hown, .head ⟨leads_iff.mpr ⟨hc, hchild⟩, depth, hpath,
              htime⟩ hway⟩

/-- From a file that is newly met high enough the walk goes on to all files that
it leads to. -/
theorem mem_meet_of_leads {room depth : Nat} {met : List (Path × Nat)}
    {path : Path} (hroom : room + depth = s.room) {q c : Path} {d : Nat}
    (h : (q, d) ∈ s.meet room depth met path) (hnew : (q, d) ∉ met)
    (hd : d + 1 < s.room) (hc : s.Leads q c) :
    c ∈ (s.meet room depth met path).map (·.1) := by
  induction room generalizing depth met path with
  | zero => exact absurd h hnew
  | succ room ih =>
      by_cases hknown : path ∈ met.map (·.1) ∨ s.own? path = none
      · rw [meet_of_known hknown] at h
        exact absurd h hnew
      · rw [not_or] at hknown
        have hown : (s.own? path).isSome :=
          Option.isSome_iff_ne_none.mpr hknown.2
        rw [meet_of_new hknown.1 hown] at h ⊢
        rcases added_of_mem_foldl (prefix_meet room (depth + 1)) h with
          hmem | ⟨child, _, before, hbefore, hmem, hpre⟩
        · rcases List.mem_append.mp hmem with hmem | hmem
          · exact absurd hmem hnew
          · obtain ⟨rfl, rfl⟩ := Prod.mk.inj (List.mem_singleton.mp hmem)
            obtain ⟨hrequires, hchild⟩ := leads_iff.mp hc
            obtain ⟨before, hpre⟩ : ∃ before, s.meet room (d + 1) before c <+:
                (s.required q).foldl (s.meet room (d + 1)) (met ++ [(q, d)]) :=
              exists_step_of_mem (prefix_meet room (d + 1)) hrequires
            obtain ⟨r, rfl⟩ : ∃ r, room = r + 1 := ⟨room - 1, by omega⟩
            exact (hpre.map Prod.fst).subset (mem_meet hchild)
        · exact (hpre.map Prod.fst).subset (ih (by omega) hmem hbefore)

/-- **What is met.**  If there is a level at all, the files that are met are
those at the ends of ways in time. -/
theorem mem_meetings_iff (hdepth : 1 ≤ s.resolver.config.maxDepth)
    {entry q : Path} :
    q ∈ (s.meetings entry).map (·.1) ↔
      (s.own? entry).isSome ∧
        Relation.ReflTransGen (s.LeadsInTime entry) entry q := by
  constructor
  · intro h
    obtain ⟨⟨q, d⟩, hmem, rfl⟩ := List.mem_map.mp h
    exact inTime_of_mem_meet rfl (List.Subset.refl _) hmem List.not_mem_nil
  · rintro ⟨hown, hway⟩
    induction hway with
    | refl =>
        obtain ⟨r, hr⟩ : ∃ r, s.room = r + 1 :=
          ⟨s.room - 1, by rw [Scene.room]; omega⟩
        rw [meetings, hr]
        exact mem_meet hown
    | tail _ hstep _ =>
        obtain ⟨hleads, d, hmem, hd⟩ := hstep
        refine mem_meet_of_leads rfl hmem List.not_mem_nil ?_ hleads
        rw [Scene.room]
        omega

/-- A glance meets nothing. -/
theorem Glance.meet_eq {room : Nat} {depth : Int} {parent : Option Path}
    {m : Memory} {path : Path} {found : Option Record}
    (look : s.Glance room depth parent m path found) (hm : s.Faithful m)
    {met : List (Path × Nat)} (hmet : ∀ q, q ∈ met.map (·.1) ↔ m.Holds q)
    (n : Nat) :
    s.meet room n met path = met := by
  cases look with
  | missing hfile => exact meet_of_known (.inr (own?_of_fileAt?_eq_none hfile))
  | cycle _ hactive =>
      exact meet_of_known (.inl ((hmet path).mpr (.inl hactive)))
  | again _ hkept =>
      have hholds : m.Holds path := .inr ⟨_, find?_of_current? hkept⟩
      exact meet_of_known (.inl ((hmet path).mpr hholds))
  | limit _ _ _ hzero =>
      rw [hzero]
      rfl
  | failed _ _ _ _ hfailed =>
      exact meet_of_known (.inr (hm.failed path hfailed))

end Scene

/-- **The analyser walks.**  The files that are being analysed or kept after an
exploration are those that the walk has met. -/
theorem Explored.met {s : Scene} {room : Nat} {depth : Int}
    {parent : Option Path} {m m' : Memory} {paths : List Path}
    {records : List Record} {opened : List Path}
    (h : Explored s room depth parent m paths m' records opened)
    (hsteady : s.Steady m) (hm : s.Faithful m) (hplain : ∀ q ∈ paths, q.Plain)
    {met : List (Path × Nat)} (hmet : ∀ q, q ∈ met.map (·.1) ↔ m.Holds q)
    (n : Nat) :
    ∀ q, q ∈ ((paths.map Path.place).foldl (s.meet room n) met).map (·.1) ↔
      m'.Holds q := by
  induction h generalizing met n with
  | done => exact hmet
  | glance look rest ih =>
      obtain ⟨_, hrest⟩ := List.forall_mem_cons.mp hplain
      rw [List.map_cons, List.foldl_cons, look.meet_eq hm hmet]
      exact ih hsteady hm hrest hmet n
  | broken hfile fresh hown rest ih =>
      obtain ⟨_, hrest⟩ := List.forall_mem_cons.mp hplain
      rw [List.map_cons, List.foldl_cons, Scene.meet_of_known (.inr hown)]
      exact ih (hsteady.fail _) (hm.fail hown) hrest hmet n
  | @full room depth parent m m₁ m₂ path paths children records inner outer file
      facts hfile fresh hown below rest ihBelow ihRest =>
      obtain ⟨hpath, hrest⟩ := List.forall_mem_cons.mp hplain
      have hsome : (s.own? path.place).isSome := by simp [hown]
      have hunkept := hsteady.find?_eq_none fresh.unkept
      have hone : Explored s (room + 1) depth parent m [path] _ _ _ :=
        .full hfile fresh hown below .done
      obtain ⟨hsteady₂, -⟩ := hone.grows hsteady
      obtain ⟨hm₂, -⟩ :=
        hone.faithful hsteady hm (List.forall_mem_singleton.mpr hpath)
      have hnew : path.place ∉ met.map (·.1) :=
        fun hmem => fresh.not_holds hsteady ((hmet _).mp hmem)
      have hentered : ∀ q, q ∈ (met ++ [(path.place, n)]).map (·.1) ↔
          (m.enter path.place).Holds q := by
        intro q
        rw [Memory.holds_enter, ← hmet q, List.map_append, List.mem_append]
        simp [or_comm]
      have hbelow := ihBelow (hsteady.enter _) (hm.enter hsome hunkept)
        (Scene.plain_of_mem_followed hown) hentered (n + 1)
      rw [List.map_cons, List.foldl_cons, Scene.meet_of_new hnew hsome,
        Scene.required_of_own? hown]
      refine ihRest hsteady₂ hm₂ hrest (fun q => ?_) n
      have hactive : m₁.Holds path.place := by
        apply (below.grows (hsteady.enter _)).2.holds
        exact Memory.holds_enter.mpr (.inl rfl)
      have hsame : m₁.Holds q ↔ q = path.place ∨ m₁.Holds q :=
        ⟨.inr, fun hq => hq.elim (fun heq => heq ▸ hactive) id⟩
      have hkeep : ((m₁.keep ⟨s.recordOf path.place depth parent facts children,
          file.2⟩).leave path.place).Holds q ↔ q = path.place ∨ m₁.Holds q :=
        Memory.holds_keep rfl
      exact (hbelow q).trans (hsame.trans hkeep.symm)

namespace Scene

variable {s : Scene} {p p' : Progress}

/-- After an analysis with nothing remembered, the kept files are those that are
met from its entry on. -/
theorem mem_meetings_iff_kept {path : Path} {m' : Memory}
    {records : List Record} {opened : List Path} (hplain : path.Plain)
    (hexp : Explored s s.room 0 none {} [path] m' records opened) {q : Path} :
    q ∈ (s.meetings path.place).map (·.1) ↔ ∃ k, m'.find? q = some k := by
  have hempty : ∀ q : Path, q ∈ ([] : List (Path × Nat)).map (·.1) ↔
      ({} : Memory).Holds q := by
    intro q
    constructor
    · intro hq
      cases hq
    · rintro (hactive | ⟨k, hk⟩)
      · cases hactive
      · cases hk
  have hmet :=
    hexp.met steady_empty .empty (List.forall_mem_singleton.mpr hplain)
    hempty 0 q
  have hidle : m'.active = [] := (hexp.grows steady_empty).2.active
  rw [meetings]
  refine hmet.trans ⟨?_, .inr⟩
  rintro (hactive | hkept)
  · rw [hidle] at hactive
    cases hactive
  · exact hkept

/-- Expanding the record of the entry comes to every file that is met. -/
theorem mem_expand_of_met {path : Path} {m' : Memory} {record : Record}
    {opened : List Path} (hplain : path.Plain)
    (hdepth : 1 ≤ s.resolver.config.maxDepth)
    (hexp : Explored s s.room 0 none {} [path] m' [record] opened) {q : Path}
    (hq : q ∈ (s.meetings path.place).map (·.1)) :
    q ∈ (m'.expand record).map (·.path) := by
  obtain ⟨hfaithful, hanchors, howned⟩ := hexp.faithful steady_empty .empty
    (List.forall_mem_singleton.mpr hplain)
  rw [List.forall_mem_singleton] at hanchors
  obtain ⟨hown, hway⟩ := (mem_meetings_iff hdepth).mp hq
  have hpath : path.place = record.path := by
    have hmem : path.place ∈ s.owned ([record].map (·.path)) := by
      rw [howned]
      exact List.mem_filter.mpr ⟨List.mem_cons_self, hown⟩
    exact List.mem_singleton.mp (List.mem_filter.mp hmem).1
  obtain ⟨hsearch, -⟩ := Memory.expand_depthFirst hfaithful.anchored hanchors
  have hstep : ∀ a b, s.LeadsInTime path.place a b → b ∈ m'.below a := by
    rintro a b ⟨hleads, d, hmem, -⟩
    obtain ⟨k, hk⟩ := (mem_meetings_iff_kept hplain hexp).mp
      (List.mem_map_of_mem (f := Prod.fst) hmem)
    rw [Leads, ← (hfaithful.kept a k hk).next] at hleads
    rw [Memory.below, hk]
    exact (List.mem_filter.mp hleads).1
  apply hsearch.mem_iff.mpr
  rw [← hpath]
  exact ⟨path.place, List.mem_singleton_self _,
    Relation.ReflTransGen.mono hstep _ _ hway⟩

/-- **What is rolled up.**  With nothing remembered, the usages that count for a
middleware are those of the files that are met from its entry on. -/
theorem exists_mem_inBag_iff_met (hdepth : 1 ≤ s.resolver.config.maxDepth)
    {specifier : String} {path : Path}
    (hentry : s.entry specifier = .ok (some path)) :
    ∃ p' m,
      s.analyzeMiddleware (p.remember fun _ => {}) specifier = (p', .ok m) ∧
      ∀ f b k property,
        (∃ u ∈ m.inBag b k, u.property = property ∧ u.path = f) ↔
          f ∈ (s.meetings path.place).map (·.1) ∧ s.Uses f b k property := by
  rcases analyzeMiddleware_cases s (p.remember fun _ => {}) specifier with
    ⟨e, he, -⟩ | ⟨hnone, -⟩ | ⟨path', p', found, opened, hentry', -, hexp, hrun⟩
  · rw [he] at hentry
    cases hentry
  · rw [hnone] at hentry
    cases hentry
  · rw [hentry'] at hentry
    cases hentry
    refine ⟨p', _, hrun, fun f b k property => ?_⟩
    have hplain := (found_of_entry hentry').plain
    have hexp :
        Explored s s.room 0 none {} [path] p'.memory found.toList opened := hexp
    obtain ⟨hfaithful, hanchors, howned⟩ := hexp.faithful steady_empty .empty
      (List.forall_mem_singleton.mpr hplain)
    cases found with
    | none =>
        constructor
        · rintro ⟨u, hu, -⟩
          cases b <;> cases k <;> cases hu
        · rintro ⟨hmet, -⟩
          obtain ⟨hown, -⟩ := (mem_meetings_iff hdepth).mp hmet
          have hmem : path.place ∈ s.owned ([path].map Path.place) :=
            List.mem_filter.mpr ⟨List.mem_cons_self, hown⟩
          rw [← howned] at hmem
          cases hmem
    | some record =>
        obtain ⟨-, htells⟩ := Memory.expand_depthFirst hfaithful.anchored
          (hanchors record List.mem_cons_self)
        have hown : ∀ r ∈ p'.memory.expand record,
            s.own? r.path = some r.facts ∨ r.facts = {} :=
          fun r hr => (hfaithful.tells (htells r hr)).imp
            (fun ⟨_, _, hfacts⟩ => hfacts) And.right
        rw [Middleware.made, Middleware.exists_mem_inBag_iff_uses hown]
        refine and_congr_left fun huses => ?_
        constructor
        · rintro ⟨r, hr, rfl, hfacts⟩
          rcases hfaithful.tells (htells r hr)
            with ⟨kept, hkept, -⟩ | ⟨-, hbare⟩
          · exact (mem_meetings_iff_kept hplain hexp).mpr ⟨kept, hkept⟩
          · obtain ⟨facts, hfacts', u, hu, -⟩ := huses
            rw [hfacts, hbare, Option.some.injEq] at hfacts'
            rw [← hfacts'] at hu
            cases b <;> cases k <;> cases hu
        · intro hmet
          obtain ⟨kept, hkept⟩ := (mem_meetings_iff_kept hplain hexp).mp hmet
          obtain ⟨r, hr, rfl⟩ :=
            List.mem_map.mp (mem_expand_of_met hplain hdepth hexp hmet)
          rcases hfaithful.tells (htells r hr) with ⟨-, -, hfacts⟩ | ⟨hnone, -⟩
          · exact ⟨r, hr, rfl, hfacts⟩
          · rw [hkept] at hnone
            cases hnone

/-- From within the circle all of its files are met. -/
theorem meetings_loop_a : loop.meetings (loopFile "a")
    = [(loopFile "a", 0), (loopFile "b", 1), (loopFile "c", 2)] := by
  obtain ⟨hownA, hreqA⟩ := required_of_outline outline_loop_a
  obtain ⟨hownB, hreqB⟩ := required_of_outline outline_loop_b
  obtain ⟨hownC, hreqC⟩ := required_of_outline outline_loop_c
  have hroom : loop.room = 3 := by rw [room, maxDepth_loop]; rfl
  have hdistinct := nodup_loop
  simp only [List.nodup_cons, List.mem_cons, List.not_mem_nil, or_false, not_or]
    at hdistinct
  obtain ⟨-, ⟨hab, hac⟩, hbc, -⟩ := hdistinct
  rw [meetings, hroom, meet_of_new (by simp) hownA, hreqA, List.foldl_cons,
    List.foldl_nil, meet_of_new (by simp [Ne.symm hab]) hownB, hreqB,
    List.foldl_cons, List.foldl_nil,
    meet_of_new (by simp [Ne.symm hac, Ne.symm hbc]) hownC, hreqC]
  rfl

/-- From above, the second file of the circle is first met on the longer way, so
deep that the walk does not go on to the third. -/
theorem meetings_loop_e : loop.meetings (loopFile "e")
    = [(loopFile "e", 0), (loopFile "a", 1), (loopFile "b", 2)] := by
  obtain ⟨hownE, hreqE⟩ := required_of_outline outline_loop_e
  obtain ⟨hownA, hreqA⟩ := required_of_outline outline_loop_a
  obtain ⟨hownB, hreqB⟩ := required_of_outline outline_loop_b
  have hroom : loop.room = 3 := by rw [room, maxDepth_loop]; rfl
  have hdistinct := nodup_loop
  simp only [List.nodup_cons, List.mem_cons, List.not_mem_nil, or_false, not_or]
    at hdistinct
  obtain ⟨⟨hea, heb, -⟩, ⟨hab, -⟩, -⟩ := hdistinct
  have hdeep :
    loop.meet 1 2 [(loopFile "e", 0), (loopFile "a", 1)] (loopFile "b")
      = [(loopFile "e", 0), (loopFile "a", 1), (loopFile "b", 2)] := by
    rw [meet_of_new (by simp [Ne.symm heb, Ne.symm hab]) hownB, hreqB]
    rfl
  have hlong : loop.meet 2 1 [(loopFile "e", 0)] (loopFile "a")
      = [(loopFile "e", 0), (loopFile "a", 1), (loopFile "b", 2)] := by
    rw [meet_of_new (by simp [Ne.symm hea]) hownA, hreqA]
    exact hdeep
  rw [meetings, hroom, meet_of_new (by simp) hownE, hreqE, List.nil_append,
    List.foldl_cons, List.foldl_cons, List.foldl_nil, hlong]
  exact meet_of_known (.inl (by simp))

/-- **The depth of first meetings decides.**  Let a middleware be analysed with
nothing remembered, where the greatest depth is at least one.  A property is
rolled up for a file just when the file uses it and a way leads from the entry
to the file on which every file before the last was first met high enough to go
on. -/
theorem rollUp_iff_leadsInTime (s : Scene)
    (hdepth : 1 ≤ s.resolver.config.maxDepth) (p : Progress)
    (specifier : String) (path : Path)
    (hentry : s.entry specifier = .ok (some path)) :
    ∃ p' m,
      s.analyzeMiddleware (p.remember fun _ => {}) specifier = (p', .ok m) ∧
      ∀ f b k property,
        (∃ u ∈ m.inBag b k, u.property = property ∧ u.path = f) ↔
          ((s.own? path.place).isSome ∧
            Relation.ReflTransGen (s.LeadsInTime path.place) path.place f) ∧
          s.Uses f b k property := by
  obtain ⟨p', m, hrun, hrolled⟩ :=
    exists_mem_inBag_iff_met (p := p) hdepth hentry
  refine ⟨p', m, hrun, fun f b k property => ?_⟩
  rw [hrolled f b k property, mem_meetings_iff hdepth]

/-- From within the circle a way in time leads to the file that writes. -/
theorem rollUp_loop_a : 1 ≤ loop.resolver.config.maxDepth ∧
    loop.entry "a" = .ok (some (loopFile "a")) ∧
    ∃ p' m, loop.analyzeMiddleware {} "a" = (p', .ok m) ∧
      ∃ u ∈ m.inBag .locals .write, u.property = "x" ∧
        u.path = loopFile "c" := by
  have hdepth : 1 ≤ loop.resolver.config.maxDepth := by
    rw [maxDepth_loop]
    decide
  have hentry := entry_loop "a" (by simp)
  obtain ⟨p', m, hrun, hrolled⟩ :=
    rollUp_iff_leadsInTime loop hdepth {} "a" _ hentry
  refine ⟨hdepth, hentry, p', m, hrun, ?_⟩
  apply (hrolled _ .locals .write "x").mpr
  refine ⟨(mem_meetings_iff hdepth).mp ?_,
    (uses_of_outline outline_loop_c).mpr ?_⟩
  · rw [place_loop "a" (by simp), meetings_loop_a]
    simp
  · simp

/-- **A short way is not enough.**  Two requires lead from above the circle to
the file that writes, and the greatest depth is three, but what it writes is not
rolled up. -/
theorem not_rollUp_loop_e : loop.entry "e" = .ok (some (loopFile "e")) ∧
    (loop.own? (loopFile "e")).isSome ∧
    loop.Leads (loopFile "e") (loopFile "b") ∧
    loop.Leads (loopFile "b") (loopFile "c") ∧
    (2 : Int) < loop.resolver.config.maxDepth ∧
    loop.Uses (loopFile "c") .locals .write "x" ∧
    ∃ p' m, loop.analyzeMiddleware {} "e" = (p', .ok m) ∧
      ¬ ∃ u ∈ m.inBag .locals .write, u.property = "x" ∧
        u.path = loopFile "c" := by
  have hownE := (required_of_outline outline_loop_e).1
  have hfirst : loop.Leads (loopFile "e") (loopFile "b") :=
    leads_of_outline outline_loop_e (by simp)
      (required_of_outline outline_loop_b).1
  have hsecond : loop.Leads (loopFile "b") (loopFile "c") :=
    leads_of_outline outline_loop_b (by simp)
      (required_of_outline outline_loop_c).1
  have hdepth : (2 : Int) < loop.resolver.config.maxDepth := by
    rw [maxDepth_loop]
    decide
  have huses : loop.Uses (loopFile "c") .locals .write "x" :=
    (uses_of_outline outline_loop_c).mpr (by simp)
  have hentry := entry_loop "e" (by simp)
  obtain ⟨p', m, hrun, hrolled⟩ :=
    exists_mem_inBag_iff_met (p := {}) (by omega) hentry
  refine ⟨hentry, hownE, hfirst, hsecond, hdepth, huses, p', m, hrun, ?_⟩
  rw [hrolled _ .locals .write "x", place_loop "e" (by simp), meetings_loop_e]
  rintro ⟨hmem, -⟩
  have hdistinct := nodup_loop
  simp only [List.nodup_cons, List.mem_cons, List.not_mem_nil, or_false, not_or]
    at hdistinct
  obtain ⟨⟨-, -, hec⟩, ⟨-, hac⟩, hbc, -⟩ := hdistinct
  simp [Ne.symm hec, Ne.symm hac, Ne.symm hbc] at hmem

end Scene

end Relay
