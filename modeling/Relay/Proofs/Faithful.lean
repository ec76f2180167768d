import Relay.Proofs.DepthFirst

/-!
# Memories that are true to the files

A memory is faithful if everything in it agrees with the own facts of the
files: a kept record has the facts of its file, and below it are the files that
it leads to; a file that is being analysed has facts, and one that has failed
has none.  Explorations keep a memory faithful, whatever depth they stop at
(`Explored.faithful`).

If there is room for all files that an exploration can come to, it never stops
at a greatest depth: every record below a kept one is of a file that is kept,
too, or is still being analysed (`Explored.complete`).  In a settled memory
nothing is being analysed any more, and expanding a record gives the full
records of the files that can be reached, in depth-first order
(`Settled.expand`).
-/

namespace Relay

namespace Scene

/-- A record is true to its file: it is full, has the own facts of the file, and
right below it are the files that the file leads to. -/
structure TrueTo (s : Scene) (m : Memory) (path : Path) (r : Record) :
    Prop where
  own : s.own? path = some r.facts
  full : r.shallow = false
  next : s.owned (r.children.map (·.path)) = s.next path
  anchored : ∀ c ∈ r.children, m.Anchors c

/-- A memory that agrees with the own facts of the files. -/
structure Faithful (s : Scene) (m : Memory) : Prop where
  kept : ∀ path k, m.find? path = some k → s.TrueTo m path k.record
  active : ∀ path ∈ m.active, (s.own? path).isSome ∧ m.find? path = none
  failed : ∀ path ∈ m.failed, s.own? path = none

variable {s : Scene} {m m' : Memory}

/-- A record that is true to a memory is true to one that keeps more. -/
theorem TrueTo.mono {path : Path} {r : Record} (h : s.TrueTo m path r)
    (hkept : ∀ q k, m.find? q = some k → m'.find? q = some k) :
    s.TrueTo m' path r :=
  ⟨h.own, h.full, h.next, fun c hc => (h.anchored c hc).mono hkept⟩

namespace Faithful

/-- An empty memory is faithful. -/
theorem empty : s.Faithful {} where
  kept := by
    intro path k hk
    cases hk
  active := by simp
  failed := by simp

/-- The records of a faithful memory are anchored. -/
theorem anchored (h : s.Faithful m) : m.Anchored :=
  fun path k hk => (h.kept path k hk).anchored

/-- A record that tells what is kept has the own facts of its file. -/
theorem tells (h : s.Faithful m) {r : Record} (hr : m.Tells r) :
    (∃ k, m.find? r.path = some k ∧ s.own? r.path = some r.facts) ∨
      (m.find? r.path = none ∧ r.facts = {}) := by
  refine hr.imp_left ?_
  rintro ⟨k, hk, hrecord⟩
  have hown := (h.kept r.path k hk).own
  rw [← hrecord] at hown
  exact ⟨k, hk, hown⟩

/-- A faithful memory stays so while a file with facts is begun. -/
theorem enter (h : s.Faithful m) {path : Path} (hown : (s.own? path).isSome)
    (hunkept : m.find? path = none) : s.Faithful (m.enter path) where
  kept q k hk := (h.kept q k hk).mono fun _ _ hq => hq
  active := List.forall_mem_cons.mpr ⟨⟨hown, hunkept⟩, h.active⟩
  failed := h.failed

/-- A faithful memory stays so when a file without facts fails. -/
theorem fail (h : s.Faithful m) {path : Path} (hown : s.own? path = none) :
    s.Faithful (m.fail path) where
  kept q k hk := (h.kept q k hk).mono fun _ _ hq => hq
  active := h.active
  failed := List.forall_mem_cons.mpr ⟨hown, h.failed⟩

/-- The record of a file that is being analysed is kept for the first time. -/
theorem keep (h : s.Faithful m) {path : Path} {k : Kept}
    (hactive : path ∈ m.active) (hpath : k.record.path = path)
    (hk : s.TrueTo m path k.record) :
    s.Faithful ((m.keep k).leave path) := by
  have hfind : ∀ q, ((m.keep k).leave path).find? q
      = if path = q then some k else m.find? q := by
    intro q
    rw [Memory.find?_leave, Memory.find?_keep, hpath]
  have hgrow : ∀ q k', m.find? q = some k' →
      ((m.keep k).leave path).find? q = some k' := by
    intro q k' hq
    have hne : path ≠ q := by
      rintro rfl
      rw [(h.active path hactive).2] at hq
      cases hq
    rw [hfind, if_neg hne, hq]
  refine ⟨fun q k' hq => ?_, fun q hq => ?_, h.failed⟩
  · rw [hfind] at hq
    split at hq
    · rename_i heq
      cases hq
      exact heq ▸ hk.mono hgrow
    · exact (h.kept q k' hq).mono hgrow
  · obtain ⟨hmem, hne⟩ := List.mem_filter.mp hq
    have hne : path ≠ q := by simpa using Ne.symm (of_decide_eq_true hne)
    obtain ⟨hown, hunkept⟩ := h.active q hmem
    exact ⟨hown, by rw [hfind, if_neg hne, hunkept]⟩

end Faithful

/-- A record that only refers to a place stands for what is kept there. -/
theorem anchors_reference (r : Resolver) {path : Path}
    (hhome : path.place = path) (depth : Int) (parent : Option Path)
    (m : Memory) :
    m.Anchors (.reference r path depth parent) :=
  ⟨hhome, fun _ _ => .inl rfl, fun _ => ⟨rfl, rfl, rfl⟩⟩

/-- What a glance gives stands for what is kept, and a file that has facts of
its own is never passed over. -/
theorem Glance.anchors {room : Nat} {depth : Int} {parent : Option Path}
    {path : Path} {found : Option Record}
    (look : s.Glance room depth parent m path found) (hm : s.Faithful m)
    (hhome : path.place = path) :
    (∀ r ∈ found.toList, m.Anchors r) ∧
      s.owned (found.toList.map (·.path)) = s.owned [path] := by
  cases look with
  | missing hfile =>
      have hown := own?_of_fileAt?_eq_none hfile
      exact ⟨by simp, by simp [owned, hown]⟩
  | cycle =>
      exact ⟨List.forall_mem_singleton.mpr (anchors_reference _ hhome _ _ m),
        rfl⟩
  | @again k _ hkept =>
      have hfind := find?_of_current? hkept
      have hpath : (k.record.seenFrom depth parent).path = path :=
        Memory.path_of_find? hfind
      have hanchors : m.Anchors (k.record.seenFrom depth parent) := by
        refine ⟨by rw [hpath, hhome], fun _ _ => .inl rfl, fun hnone => ?_⟩
        rw [hpath, hfind] at hnone
        cases hnone
      exact ⟨List.forall_mem_singleton.mpr hanchors, by simp [hpath]⟩
  | limit =>
      exact ⟨List.forall_mem_singleton.mpr (anchors_reference _ hhome _ _ m),
        rfl⟩
  | failed _ _ _ _ hfailed =>
      have hown := hm.failed path hfailed
      exact ⟨by simp, by simp [owned, hown]⟩

/-- The files with facts among two lists are those among each. -/
theorem owned_append (s : Scene) (xs ys : List Path) :
    s.owned (xs ++ ys) = s.owned xs ++ s.owned ys :=
  List.filter_append ..

/-- The files with facts are found one by one. -/
theorem owned_cons (s : Scene) (q : Path) (qs : List Path) :
    s.owned (q :: qs) = s.owned [q] ++ s.owned qs :=
  s.owned_append [q] qs

/-- The files that a file with facts goes on with are plain. -/
theorem plain_of_mem_followed {path : Path} {facts : Facts}
    (hown : s.own? path.place = some facts) :
    ∀ q ∈ followed facts.dependencies, q.Plain :=
  fun _ hq => (found_of_mem_followed (Path.plain_place path) hown hq).plain

end Scene

/-- **Explorations are faithful.**  An exploration keeps a memory true to the
files.  The records that come of it stand for what is kept, and none is missing
for a file that has facts of its own. -/
theorem Explored.faithful {s : Scene} {room : Nat} {depth : Int}
    {parent : Option Path} {m m' : Memory} {paths : List Path}
    {records : List Record} {opened : List Path}
    (h : Explored s room depth parent m paths m' records opened)
    (hsteady : s.Steady m) (hm : s.Faithful m) (hplain : ∀ q ∈ paths, q.Plain) :
    s.Faithful m' ∧ (∀ r ∈ records, m'.Anchors r) ∧
      s.owned (records.map (·.path)) = s.owned (paths.map Path.place) := by
  induction h with
  | done => exact ⟨hm, by simp, rfl⟩
  | @glance room depth parent m m' path paths found records opened look
      rest ih =>
      obtain ⟨hpath, hrest⟩ := List.forall_mem_cons.mp hplain
      obtain ⟨hfound, hsame⟩ := look.anchors hm (Path.place_place hpath)
      obtain ⟨hm', hrecords, howned⟩ := ih hsteady hm hrest
      have hgrows := (rest.grows hsteady).2
      refine ⟨hm', List.forall_mem_append.mpr ⟨?_, hrecords⟩, ?_⟩
      · exact fun r hr => (hfound r hr).mono hgrows.kept
      · rw [List.map_append, Scene.owned_append, hsame, howned, List.map_cons,
          ← Scene.owned_cons]
  | @broken room depth parent m m' path paths records opened file hfile
      fresh hown
      rest ih =>
      obtain ⟨_, hrest⟩ := List.forall_mem_cons.mp hplain
      obtain ⟨hm', hrecords, howned⟩ := ih (hsteady.fail _) (hm.fail hown) hrest
      have hnone : s.owned [path.place] = [] := by simp [Scene.owned, hown]
      refine ⟨hm', hrecords, ?_⟩
      rw [howned, List.map_cons, Scene.owned_cons, hnone, List.nil_append]
  | @full room depth parent m m₁ m₂ path paths children records inner outer file
      facts hfile fresh hown below rest ihBelow ihRest =>
      obtain ⟨hpath, hrest⟩ := List.forall_mem_cons.mp hplain
      have hunkept := hsteady.find?_eq_none fresh.unkept
      have hsome : (s.own? path.place).isSome := by simp [hown]
      obtain ⟨hm₁, hchildren, hbelow⟩ := ihBelow (hsteady.enter _)
        (hm.enter hsome hunkept) (Scene.plain_of_mem_followed hown)
      obtain ⟨hactive, hsteady₂, -⟩ := below.around hsteady fresh
        (k := ⟨s.recordOf path.place depth parent facts children, file.2⟩)
        rfl hfile rfl
      -- The file was being analysed, so it has not been kept meanwhile.
      have htrue : s.TrueTo m₁ path.place
          (s.recordOf path.place depth parent facts children) := by
        refine ⟨hown, rfl, ?_, hchildren⟩
        rw [Scene.next, Scene.required_of_own? hown]
        exact hbelow
      have hm₂ := hm₁.keep
        (k := ⟨s.recordOf path.place depth parent facts children, file.2⟩)
        hactive rfl htrue
      obtain ⟨hm', hrecords, howned⟩ := ihRest hsteady₂ hm₂ hrest
      have hgrows₂ := (rest.grows hsteady₂).2
      have hkept : m₂.find? path.place
          = some ⟨s.recordOf path.place depth parent facts children,
              file.2⟩ := by
        apply hgrows₂.kept
        exact (Memory.find?_keep ..).trans (if_pos rfl)
      have hanchors :
          m₂.Anchors (s.recordOf path.place depth parent facts children) := by
        refine ⟨Path.place_place hpath, fun k hk => ?_, fun hnone => ?_⟩
        · have hk : m₂.find? path.place = some k := hk
          rw [hkept, Option.some.injEq] at hk
          exact .inr (hk ▸ rfl)
        · have hnone : m₂.find? path.place = none := hnone
          rw [hkept] at hnone
          cases hnone
      refine ⟨hm', List.forall_mem_cons.mpr ⟨hanchors, hrecords⟩, ?_⟩
      rw [List.map_cons, List.map_cons, Scene.owned_cons, howned,
        Scene.owned_cons s path.place]
      rfl

/-- Nothing is left out below a kept record: it is kept, too, or being
analysed. -/
def Memory.Complete (m : Memory) : Prop :=
  ∀ path k, m.find? path = some k → ∀ r ∈ k.record.children, m.Holds r.path

namespace Memory.Complete

variable {m : Memory}

/-- A complete memory stays so while a file is begun. -/
theorem enter (h : m.Complete) (path : Path) : (m.enter path).Complete :=
  fun q k hk r hr => holds_enter.mpr (.inr (h q k hk r hr))

/-- A complete memory stays so when it keeps a record of which it holds all
children. -/
theorem keep (h : m.Complete) {path : Path} {k : Kept}
    (hpath : k.record.path = path)
    (hchildren : ∀ r ∈ k.record.children, m.Holds r.path) :
    ((m.keep k).leave path).Complete := by
  intro q k' hk' r hr
  apply (holds_keep hpath).mpr
  rw [find?_leave, find?_keep] at hk'
  split at hk'
  · cases hk'
    exact .inr (hchildren r hr)
  · exact .inr (h q k' hk' r hr)

end Memory.Complete

/-- There is room for all files of a world that is closed under requiring, when
some of them are being analysed. -/
structure Scene.Roomy (s : Scene) (world : Set Path) (room : Nat)
    (active : List Path) : Prop where
  finite : world.Finite
  closed : ∀ path ∈ world, ∀ q, s.Requires path q → q ∈ world
  inside : ∀ q ∈ active, q ∈ world
  nodup : active.Nodup
  enough : world.ncard ≤ room + active.length

namespace Scene.Roomy

variable {s : Scene} {world : Set Path} {room : Nat} {active : List Path}
  {q : Path}

/-- Where there is room, there is room for one file less once a file is begun.
-/
theorem enter (h : s.Roomy world (room + 1) active) (hq : q ∈ world)
    (hnew : q ∉ active) : s.Roomy world room (q :: active) where
  finite := h.finite
  closed := h.closed
  inside := List.forall_mem_cons.mpr ⟨hq, h.inside⟩
  nodup := List.nodup_cons.mpr ⟨hnew, h.nodup⟩
  enough := by
    have := h.enough
    rw [List.length_cons]
    omega

/-- Where no room is left, the whole world is being analysed. -/
theorem mem_active (h : s.Roomy world 0 active) (hq : q ∈ world) :
    q ∈ active := by
  by_contra hnew
  have hnodup : (q :: active).Nodup := List.nodup_cons.mpr ⟨hnew, h.nodup⟩
  have hsub : ((q :: active).toFinset : Set Path) ⊆ world := by
    intro r hr
    rw [Finset.mem_coe, List.mem_toFinset] at hr
    exact List.forall_mem_cons.mpr ⟨hq, h.inside⟩ r hr
  have hle := Set.ncard_le_ncard hsub h.finite
  rw [Set.ncard_coe_finset, List.toFinset_card_of_nodup hnodup,
    List.length_cons] at hle
  have := h.enough
  omega

end Scene.Roomy

/-- What a glance gives is of a file that is kept or being analysed, unless the
glance was at the greatest depth. -/
theorem Scene.Glance.holds_or_limit {s : Scene} {room : Nat} {depth : Int}
    {parent : Option Path} {m : Memory} {path : Path} {found : Option Record}
    (look : s.Glance room depth parent m path found) :
    (∀ r ∈ found.toList, m.Holds r.path) ∨
      (room = 0 ∧ path ∉ m.active ∧
        found = some (.reference s.resolver path depth parent)) := by
  cases look with
  | missing => exact .inl (by simp)
  | cycle _ hactive => exact .inl (List.forall_mem_singleton.mpr (.inl hactive))
  | @again k _ hkept =>
      have hfind := Scene.find?_of_current? hkept
      have hholds : m.Holds (k.record.seenFrom depth parent).path :=
        .inr ⟨k, by rw [← hfind]; exact congrArg _ (Memory.path_of_find? hfind)⟩
      exact .inl (List.forall_mem_singleton.mpr hholds)
  | limit _ hinactive _ hzero => exact .inr ⟨hzero, hinactive, rfl⟩
  | failed => exact .inl (by simp)

/-- **Nothing is left out.**  An exploration with room for all files it can come
to keeps or is still analysing every file that it has a record of. -/
theorem Explored.complete {s : Scene} {world : Set Path} {room : Nat}
    {depth : Int} {parent : Option Path} {m m' : Memory} {paths : List Path}
    {records : List Record} {opened : List Path}
    (h : Explored s room depth parent m paths m' records opened)
    (hsteady : s.Steady m) (hroom : s.Roomy world room m.active)
    (hpaths : ∀ q ∈ paths, q.place ∈ world) (hm : m.Complete) :
    m'.Complete ∧ ∀ r ∈ records, m'.Holds r.path := by
  induction h with
  | done => exact ⟨hm, by simp⟩
  | @glance room depth parent m m' path paths found records opened look
      rest ih =>
      obtain ⟨hpath, hrest⟩ := List.forall_mem_cons.mp hpaths
      obtain ⟨hm', hrecords⟩ := ih hsteady hroom hrest hm
      have hgrows := (rest.grows hsteady).2
      have hfound : ∀ r ∈ found.toList, m.Holds r.path := by
        rcases look.holds_or_limit with hholds | ⟨rfl, hinactive, -⟩
        · exact hholds
        · exact absurd (hroom.mem_active hpath) hinactive
      refine ⟨hm', List.forall_mem_append.mpr ⟨?_, hrecords⟩⟩
      exact fun r hr => hgrows.holds (hfound r hr)
  | broken hfile fresh hown rest ih =>
      obtain ⟨_, hrest⟩ := List.forall_mem_cons.mp hpaths
      exact ih (hsteady.fail _) hroom hrest hm
  | @full room depth parent m m₁ m₂ path paths children records inner outer file
      facts hfile fresh hown below rest ihBelow ihRest =>
      obtain ⟨hpath, hrest⟩ := List.forall_mem_cons.mp hpaths
      have hfollowed : ∀ q ∈ Scene.followed facts.dependencies,
          q.place ∈ world := by
        intro q hq
        apply hroom.closed path.place hpath
        rw [Scene.Requires, Scene.required_of_own? hown]
        exact List.mem_map_of_mem hq
      obtain ⟨hm₁, hchildren⟩ := ihBelow (hsteady.enter _)
        (hroom.enter hpath fresh.inactive) hfollowed (hm.enter _)
      obtain ⟨-, hsteady₂, hgrows₂⟩ := below.around hsteady fresh
        (k := ⟨s.recordOf path.place depth parent facts children, file.2⟩)
        rfl hfile rfl
      have hm₂ := hm₁.keep
        (k := ⟨s.recordOf path.place depth parent facts children, file.2⟩)
        rfl hchildren
      have hroom₂ :
        s.Roomy world (room + 1) ((m₁.keep ⟨s.recordOf path.place depth
          parent facts children, file.2⟩).leave path.place).active := by
        rw [hgrows₂.active]
        exact hroom
      obtain ⟨hm', hrecords⟩ := ihRest hsteady₂ hroom₂ hrest hm₂
      refine ⟨hm', List.forall_mem_cons.mpr ⟨?_, hrecords⟩⟩
      apply (rest.grows hsteady₂).2.holds
      exact (Memory.holds_keep rfl).mpr (.inl rfl)

namespace Scene

/-- A memory between two analyses that had room enough. -/
structure Settled (s : Scene) (m : Memory) : Prop where
  steady : s.Steady m
  faithful : s.Faithful m
  complete : m.Complete
  idle : m.active = []

namespace Settled

variable {s : Scene} {m : Memory}

/-- An empty memory is settled. -/
theorem empty : s.Settled {} where
  steady := steady_empty
  faithful := .empty
  complete := by
    intro path k hk
    cases hk
  idle := rfl

/-- A settled memory keeps what it holds. -/
theorem exists_kept (h : s.Settled m) {path : Path} (hpath : m.Holds path) :
    ∃ k, m.find? path = some k := by
  rcases hpath with hactive | hkept
  · rw [h.idle] at hactive
    cases hactive
  · exact hkept

/-- Below a kept record are just the files that its file leads to. -/
theorem below_eq (h : s.Settled m) {path : Path} {k : Kept}
    (hk : m.find? path = some k) : m.below path = s.next path := by
  have hbelow : m.below path = k.record.children.map (·.path) := by
    rw [Memory.below, hk]
  have hall : s.owned (k.record.children.map (·.path))
      = k.record.children.map (·.path) := by
    apply List.filter_eq_self.mpr
    intro q hq
    obtain ⟨r, hr, rfl⟩ := List.mem_map.mp hq
    obtain ⟨k', hk'⟩ := h.exists_kept (h.complete path k hk r hr)
    rw [(h.faithful.kept r.path k' hk').own]
    rfl
  rw [hbelow, ← hall, (h.faithful.kept path k hk).next]

/-- **Expanding in a settled memory.**  What a record of a kept file expands to
are full records with the own facts of their files, and the files are those that
can be reached, in depth-first order. -/
theorem expand (h : s.Settled m) {record : Record} (hanchors : m.Anchors record)
    (hholds : m.Holds record.path) :
    DepthFirst s.next ∅ [record.path] ((m.expand record).map (·.path)) ∧
      ∀ r ∈ m.expand record, r.shallow = false ∧
        s.own? r.path = some r.facts := by
  obtain ⟨hsearch, htells⟩ :=
    Memory.expand_depthFirst h.faithful.anchored hanchors
  have hkept : ∀ q ∈ (m.expand record).map (·.path), ∃ k,
      m.find? q = some k := by
    intro q hq
    obtain ⟨root, hroot, hpath⟩ := hsearch.reached q hq
    rw [List.mem_singleton] at hroot
    subst hroot
    induction hpath with
    | refl => exact h.exists_kept hholds
    | @tail a b hab hb ih =>
        have ha : a ∈ (m.expand record).map (·.path) :=
          hsearch.mem_iff.mpr ⟨_, List.mem_singleton_self _, hab⟩
        obtain ⟨k, hk⟩ := ih ha
        rw [Memory.below, hk] at hb
        obtain ⟨r, hr, rfl⟩ := List.mem_map.mp hb
        exact h.exists_kept (h.complete a k hk r hr)
  refine ⟨hsearch.congr fun q hq => ?_, fun r hr => ?_⟩
  · obtain ⟨k, hk⟩ := hkept q hq
    exact h.below_eq hk
  · obtain ⟨k, hk⟩ := hkept r.path (List.mem_map_of_mem hr)
    rcases htells r hr with ⟨k', hk', rfl⟩ | ⟨hnone, -⟩
    · have htrue := h.faithful.kept _ k' hk'
      exact ⟨htrue.full, htrue.own⟩
    · rw [hnone] at hk
      cases hk

end Settled

end Scene

end Relay
