import Relay.Proofs.Faithful
import Relay.Proofs.Middlewares

/-!
# The memory between calls

An analyser outlives a single analysis: it is called again and again, from any
depth, and may be told to forget its records or all it knows.  Whatever the
calls were, between two of them no file is being analysed, no file is both kept
and failed, and a kept record is full, true to the file as it stands, and of
its time.  What is below a kept record is kept, too, or was cut off at the
greatest depth (`orderly_after_calls`).

While a file is being analysed the last point does not hold yet: a cycle leads
back to files whose records are still to come.  `Memory.Closed` therefore
counts these files in, and they are gone when the outermost analysis ends.
-/

namespace Relay

/-- A call to the analyser from outside. -/
inductive Call where
  | reset
  | clear
  | analyze (text : String) (depth : Int) (parent : Option Path)

/-- The progress after a call. -/
def Scene.call (s : Scene) (p : Progress) : Call → Progress
  | .reset => p.remember fun _ => {}
  | .clear => p.remember (·.forget)
  | .analyze text depth parent => (s.analyze p (.ofString text) depth parent).1

/-- A record that was cut off at the greatest depth: it only refers to its
file. -/
structure Record.CutOff (limit : Int) (r : Record) : Prop where
  shallow : r.shallow = true
  facts : r.facts = {}
  children : r.children = []
  deep : limit ≤ r.depth

namespace Memory

/-- No path has two records. -/
def Distinct (m : Memory) : Prop :=
  (m.kept.map (·.record.path)).Nodup

/-- Below a kept record are files that are kept or being analysed, or that were
cut off at the greatest depth. -/
def Closed (m : Memory) (limit : Int) : Prop :=
  ∀ path k, m.find? path = some k → ∀ r ∈ k.record.children,
    m.Holds r.path ∨ r.CutOff limit

end Memory

/-- What is known between two calls agrees with the files. -/
structure Scene.Orderly (s : Scene) (m : Memory) : Prop where
  idle : m.active = []
  distinct : m.Distinct
  apart : ∀ k ∈ m.kept, k.record.path ∉ m.failed
  full : ∀ k ∈ m.kept, k.record.shallow = false
  own : ∀ k ∈ m.kept, s.own? k.record.path = some k.record.facts
  dated : ∀ k ∈ m.kept, ∃ bytes,
    s.fileAt? k.record.path = some (bytes, k.modified)
  closed : ∀ k ∈ m.kept, ∀ r ∈ k.record.children,
    (∃ k' ∈ m.kept, k'.record.path = r.path) ∨
      r.CutOff s.resolver.config.maxDepth

namespace Memory

variable {m : Memory} {limit : Int}

/-- Keeping a record does not give a path two records. -/
theorem Distinct.keep (h : m.Distinct) (k : Kept) : (m.keep k).Distinct := by
  have hothers :
    ((m.kept.filter fun other => other.record.path ≠ k.record.path).map
      (·.record.path)).Nodup :=
    h.sublist (List.filter_sublist.map _)
  refine List.nodup_cons.mpr ⟨fun hmem => ?_, hothers⟩
  obtain ⟨other, hother, hpath⟩ := List.mem_map.mp hmem
  exact of_decide_eq_true (List.mem_filter.mp hother).2 hpath

/-- With one record for each path, what is kept is what is found. -/
theorem Distinct.find?_eq_some (h : m.Distinct) {k : Kept} (hk : k ∈ m.kept) :
    m.find? k.record.path = some k := by
  have hsome : (m.find? k.record.path).isSome := by
    rw [find?, List.find?_isSome]
    exact ⟨k, hk, by simp⟩
  obtain ⟨k', hk'⟩ := Option.isSome_iff_exists.mp hsome
  have hsame : k' = k :=
    List.inj_on_of_nodup_map h (List.mem_of_find?_eq_some hk') hk
      (path_of_find? hk')
  rw [hk', hsame]

namespace Closed

/-- A closed memory stays so while a file is begun. -/
theorem enter (h : m.Closed limit) (path : Path) :
    (m.enter path).Closed limit :=
  fun q k hk r hr => (h q k hk r hr).imp_left fun hr =>
    holds_enter.mpr (.inr hr)

/-- A closed memory stays so when it keeps a record of which it holds all
children that are not cut off. -/
theorem keep (h : m.Closed limit) {path : Path} {k : Kept}
    (hpath : k.record.path = path)
    (hchildren : ∀ r ∈ k.record.children, m.Holds r.path ∨ r.CutOff limit) :
    ((m.keep k).leave path).Closed limit := by
  have hmore : ∀ {r : Record}, m.Holds r.path ∨ r.CutOff limit →
      ((m.keep k).leave path).Holds r.path ∨ r.CutOff limit :=
    fun hr => hr.imp_left fun hr => (holds_keep hpath).mpr (.inr hr)
  intro q k' hk' r hr
  rw [find?_leave, find?_keep] at hk'
  split at hk'
  · cases hk'
    exact hmore (hchildren r hr)
  · exact hmore (h q k' hk' r hr)

end Closed

end Memory

namespace Explored

variable {s : Scene} {room : Nat} {depth : Int} {parent : Option Path}
  {m m' : Memory} {paths : List Path} {records : List Record}
  {opened : List Path}

/-- An exploration ends with the files being analysed that it began with,
whatever the memory knows. -/
theorem active_eq (h : Explored s room depth parent m paths m' records opened) :
    m'.active = m.active := by
  induction h with
  | done => rfl
  | glance look rest ih => exact ih
  | broken hfile fresh hown rest ih => exact ih
  | @full room depth parent m m₁ m₂ path paths children records inner outer file
      facts hfile fresh hown below rest ihBelow ihRest =>
      rw [ihRest]
      change m₁.active.filter (· ≠ path.place) = m.active
      rw [ihBelow]
      exact congrArg Memory.active (Memory.leave_enter fresh.inactive)

/-- An exploration does not give a path two records. -/
theorem distinct (h : Explored s room depth parent m paths m' records opened)
    (hm : m.Distinct) : m'.Distinct := by
  induction h with
  | done => exact hm
  | glance look rest ih => exact ih hm
  | broken hfile fresh hown rest ih => exact ih hm
  | full hfile fresh hown below rest ihBelow ihRest =>
      exact ihRest ((ihBelow hm).keep _)

/-- **Cut off or held.**  An exploration leaves nothing below a kept record out
but what is too deep. -/
theorem closed (h : Explored s room depth parent m paths m' records opened)
    (hsteady : s.Steady m) (hroom : room = s.roomFrom depth)
    (hm : m.Closed s.resolver.config.maxDepth) :
    m'.Closed s.resolver.config.maxDepth ∧
      ∀ r ∈ records, m'.Holds r.path ∨ r.CutOff s.resolver.config.maxDepth := by
  induction h with
  | done => exact ⟨hm, by simp⟩
  | @glance room depth parent m m' path paths found records opened look
      rest ih =>
      obtain ⟨hm', hrecords⟩ := ih hsteady hroom hm
      have hgrows := (rest.grows hsteady).2
      refine ⟨hm', List.forall_mem_append.mpr ⟨?_, hrecords⟩⟩
      rcases look.holds_or_limit with hholds | ⟨hzero, -, rfl⟩
      · exact fun r hr => .inl (hgrows.holds (hholds r hr))
      · have hdeep : s.resolver.config.maxDepth ≤ depth := by
          rw [hzero, Scene.roomFrom] at hroom
          omega
        exact List.forall_mem_singleton.mpr (.inr ⟨rfl, rfl, rfl, hdeep⟩)
  | broken hfile fresh hown rest ih => exact ih (hsteady.fail _) hroom hm
  | @full room depth parent m m₁ m₂ path paths children records inner outer file
      facts hfile fresh hown below rest ihBelow ihRest =>
      have hbelow : room = s.roomFrom (depth + 1) := by
        rw [Scene.roomFrom] at hroom ⊢
        omega
      obtain ⟨hm₁, hchildren⟩ := ihBelow (hsteady.enter _) hbelow (hm.enter _)
      obtain ⟨-, hsteady₂, -⟩ := below.around hsteady fresh
        (k := ⟨s.recordOf path.place depth parent facts children, file.2⟩)
        rfl hfile rfl
      have hm₂ := hm₁.keep
        (k := ⟨s.recordOf path.place depth parent facts children, file.2⟩)
        rfl hchildren
      obtain ⟨hm', hrecords⟩ := ihRest hsteady₂ hroom hm₂
      refine ⟨hm', List.forall_mem_cons.mpr ⟨.inl ?_, hrecords⟩⟩
      apply (rest.grows hsteady₂).2.holds
      exact (Memory.holds_keep rfl).mpr (.inl rfl)

end Explored

namespace Scene

variable {s : Scene} {m : Memory} {p : Progress}

/-- An analysis, nested or from the top, leaves the files that are being
analysed as it found them. -/
theorem active_analyzeWithin (s : Scene) (room : Nat) (p : Progress)
    (path : Path) (depth : Int) (parent : Option Path) :
    (s.analyzeWithin room p path depth parent).1.memory.active =
      p.memory.active := by
  rcases analyzeWithin_cases s room p path depth parent with
    ⟨e, -, hrun⟩ | ⟨p', found, opened, hrun, -, hexp⟩
  · rw [hrun]
  · rw [hrun]
    exact hexp.active_eq

/-- **What a call to analyse does.**  It leaves what is known as it is, or
explores its file. -/
theorem call_analyze_cases (s : Scene) (p : Progress) (text : String)
    (depth : Int) (parent : Option Path) :
    (s.call p (.analyze text depth parent)).memory = p.memory ∨
    ∃ records opened, Explored s (s.roomFrom depth) depth parent p.memory
      [.ofString text]
      (s.call p (.analyze text depth parent)).memory records opened := by
  rw [call, Scene.analyze, ← roomFrom]
  rcases analyzeWithin_cases s (s.roomFrom depth) p (.ofString text)
      depth parent with
    ⟨e, -, hrun⟩ | ⟨p', found, opened, hrun, -, hexp⟩
  · rw [hrun]
    exact .inl rfl
  · rw [hrun]
    exact .inr ⟨found.toList, opened, hexp⟩

/-- What every call preserves. -/
structure Composed (s : Scene) (m : Memory) : Prop where
  steady : s.Steady m
  faithful : s.Faithful m
  closed : m.Closed s.resolver.config.maxDepth
  distinct : m.Distinct
  idle : m.active = []

namespace Composed

/-- An empty memory is composed. -/
theorem empty : s.Composed {} where
  steady := steady_empty
  faithful := .empty
  closed := by
    intro path k hk
    cases hk
  distinct := List.nodup_nil
  idle := rfl

/-- Without its records a memory still knows which files have failed. -/
theorem forget (h : s.Composed m) : s.Composed m.forget where
  steady := by
    intro path k hk
    cases hk
  faithful :=
    { kept := by
        intro path k hk
        cases hk
      active := fun path hpath => ⟨(h.faithful.active path hpath).1, rfl⟩
      failed := h.faithful.failed }
  closed := by
    intro path k hk
    cases hk
  distinct := List.nodup_nil
  idle := h.idle

/-- A call of the analyser leaves its memory composed. -/
theorem analyze (h : s.Composed p.memory) (text : String) (depth : Int)
    (parent : Option Path) :
    s.Composed (s.call p (.analyze text depth parent)).memory := by
  rcases call_analyze_cases s p text depth parent
    with hsame | ⟨records, opened, hexp⟩
  · rw [hsame]
    exact h
  · exact
      { steady := (hexp.grows h.steady).1
        faithful := (hexp.faithful h.steady h.faithful
          (List.forall_mem_singleton.mpr (Path.plain_ofString text))).1
        closed := (hexp.closed h.steady rfl h.closed).1
        distinct := hexp.distinct h.distinct
        idle := hexp.active_eq.trans h.idle }

/-- **Every call preserves it.** -/
theorem call (h : s.Composed p.memory) (c : Call) :
    s.Composed (s.call p c).memory := by
  cases c with
  | reset => exact empty
  | clear => exact h.forget
  | analyze text depth parent => exact h.analyze text depth parent

/-- Any calls of the analyser leave its memory composed. -/
theorem calls (h : s.Composed p.memory) (cs : List Call) :
    s.Composed (cs.foldl s.call p).memory := by
  induction cs generalizing p with
  | nil => exact h
  | cons c cs ih => exact ih (h.call c)

/-- What every call preserves, told of the kept records. -/
theorem orderly (h : s.Composed m) : s.Orderly m := by
  have hfind : ∀ k ∈ m.kept, m.find? k.record.path = some k :=
    fun k hk => h.distinct.find?_eq_some hk
  have htrue : ∀ k ∈ m.kept, s.TrueTo m k.record.path k.record :=
    fun k hk => h.faithful.kept _ k (hfind k hk)
  refine ⟨h.idle, h.distinct, fun k hk hfailed => ?_,
    fun k hk => (htrue k hk).full, fun k hk => (htrue k hk).own, fun k hk => ?_,
    fun k hk r hr => ?_⟩
  · have hown := (htrue k hk).own
    rw [h.faithful.failed _ hfailed] at hown
    cases hown
  · obtain ⟨⟨bytes, time⟩, hfile, hcurrent⟩ :=
      Option.bind_eq_some_iff.mp (h.steady _ k (hfind k hk))
    have htime : k.modified = time := by
      simpa using (Option.filter_eq_some_iff.mp hcurrent).2
    exact ⟨bytes, htime ▸ hfile⟩
  · refine (h.closed _ k (hfind k hk) r hr).imp_left ?_
    rintro (hactive | ⟨k', hk'⟩)
    · rw [h.idle] at hactive
      cases hactive
    · exact ⟨k', List.mem_of_find?_eq_some hk', Memory.path_of_find? hk'⟩

end Composed

/-- **Order between calls.**  Every analysis, nested or from the top, leaves
the files that are being analysed as it found them.  After any calls from
nothing known, no file is being analysed; each path has one record at most, and
none if it has failed; a kept record is full, has the own facts of its file as
it stands and its time; and what is right below it is kept, too, or only refers
to a file at the greatest depth or deeper. -/
theorem orderly_after_calls (s : Scene) (p₀ : Progress) :
    (∀ room p path depth parent,
      (s.analyzeWithin room p path depth parent).1.memory.active =
        p.memory.active) ∧
    ∀ calls : List Call,
      s.Orderly (calls.foldl s.call (p₀.remember fun _ => {})).memory := by
  have hreset : s.Composed (p₀.remember fun _ => {}).memory := .empty
  exact ⟨active_analyzeWithin s, fun calls => (hreset.calls calls).orderly⟩

end Scene

end Relay
