import Relay.Proofs.Exploration

/-!
# What an exploration leaves alone

On a fixed scene the memory only grows: a kept record stays the record of its
path, a failure is not forgotten, and the files that are being analysed are the
same before and after.  The reason is that a file is loaded only when nothing is
known about it, and that a kept record stays current as long as no file changes.
-/

namespace Relay

namespace Memory

variable {m m' m₁ m₂ : Memory}

/-- A record is kept under its own path. -/
theorem path_of_find? {path : Path} {k : Kept} (h : m.find? path = some k) :
    k.record.path = path := by
  simpa using List.find?_some h

/-- A record is kept under its own path, and others are not touched. -/
theorem find?_keep (m : Memory) (k : Kept) (path : Path) :
    (m.keep k).find? path
      = if k.record.path = path then some k else m.find? path := by
  unfold find? keep
  by_cases h : k.record.path = path
  · simp [h]
  · simp only [h, if_false]
    rw [List.find?_cons_of_neg (by simpa using h), List.find?_filter]
    congr 1
    funext other
    by_cases ho : other.record.path = path
    · simp [ho, Ne.symm h]
    · simp [ho]

@[simp] theorem find?_enter (m : Memory) (path q : Path) :
    (m.enter path).find? q = m.find? q := rfl

@[simp] theorem find?_leave (m : Memory) (path q : Path) :
    (m.leave path).find? q = m.find? q := rfl

@[simp] theorem find?_fail (m : Memory) (path q : Path) :
    (m.fail path).find? q = m.find? q := rfl

/-- A later memory: it knows all that an earlier one knows. -/
structure Grows (m m' : Memory) : Prop where
  active : m'.active = m.active
  kept : ∀ path k, m.find? path = some k → m'.find? path = some k
  failed : ∀ path ∈ m.failed, path ∈ m'.failed

namespace Grows

/-- A memory has grown from itself. -/
theorem refl (m : Memory) : Grows m m :=
  ⟨rfl, fun _ _ h => h, fun _ h => h⟩

/-- What has grown twice has grown. -/
theorem trans (h₁ : Grows m m₁) (h₂ : Grows m₁ m₂) : Grows m m₂ where
  active := h₂.active.trans h₁.active
  kept path k h := h₂.kept path k (h₁.kept path k h)
  failed path h := h₂.failed path (h₁.failed path h)

/-- Putting down a failure is growing. -/
theorem fail (m : Memory) (path : Path) : Grows m (m.fail path) :=
  ⟨rfl, fun _ _ h => h, fun _ h => List.mem_cons_of_mem _ h⟩

/-- Keeping the record of a file that nothing was kept for. -/
theorem keep {path : Path} {k : Kept} (hinactive : path ∉ m.active)
    (hunkept : m.find? path = none) (hpath : k.record.path = path)
    (h : Grows (m.enter path) m₁) : Grows m ((m₁.keep k).leave path) where
  active := by
    have hleave := congrArg Memory.active (leave_enter hinactive)
    change m₁.active.filter (· ≠ path) = m.active
    rw [h.active]
    exact hleave
  kept := by
    intro q k' hq
    rw [find?_leave, find?_keep, hpath]
    split
    · rename_i heq
      rw [← heq, hunkept] at hq
      cases hq
    · exact h.kept q k' hq
  failed := h.failed

end Grows

/-- A file is being analysed, or there is a record of it. -/
def Holds (m : Memory) (path : Path) : Prop :=
  path ∈ m.active ∨ ∃ k, m.find? path = some k

/-- Beginning with a file, a memory holds that file and what it has held. -/
theorem holds_enter {path q : Path} :
    (m.enter path).Holds q ↔ q = path ∨ m.Holds q := by
  have hactive : q ∈ (m.enter path).active ↔ q = path ∨ q ∈ m.active := by
    simp [enter]
  rw [Holds, hactive, or_assoc]
  exact Iff.rfl

/-- Of a file that is analysed to its end there is a record. -/
theorem holds_keep {k : Kept} {path q : Path} (hpath : k.record.path = path) :
    ((m.keep k).leave path).Holds q ↔ q = path ∨ m.Holds q := by
  have hactive : q ∈ ((m.keep k).leave path).active ↔
      q ∈ m.active ∧ q ≠ path := by
    simp [leave, keep]
  unfold Holds
  rw [hactive, find?_leave, find?_keep, hpath]
  by_cases hq : path = q
  · simp [hq]
  · simp [hq, Ne.symm hq]

/-- A memory that has grown holds what it has held. -/
theorem Grows.holds (h : m.Grows m') {path : Path} (hpath : m.Holds path) :
    m'.Holds path := by
  rcases hpath with hactive | ⟨k, hk⟩
  · exact .inl (h.active ▸ hactive)
  · exact .inr ⟨k, h.kept path k hk⟩

end Memory

namespace Scene

variable {s : Scene} {m m' : Memory}

/-- Everything that is kept was made from files as they are now. -/
def Steady (s : Scene) (m : Memory) : Prop :=
  ∀ path k, m.find? path = some k → s.current? m path = some k

/-- A record that is still current is kept. -/
theorem find?_of_current? {path : Path} {k : Kept}
    (h : s.current? m path = some k) : m.find? path = some k := by
  obtain ⟨file, -, h⟩ := Option.bind_eq_some_iff.mp h
  exact (Option.filter_eq_some_iff.mp h).1

/-- While no file changes, what is not current is not kept. -/
theorem Steady.find?_eq_none (h : s.Steady m) {path : Path}
    (hunkept : s.current? m path = none) : m.find? path = none := by
  cases hk : m.find? path with
  | none => rfl
  | some k =>
      rw [h path k hk] at hunkept
      cases hunkept

/-- An empty memory is steady. -/
theorem steady_empty : s.Steady {} := by
  intro path k h
  cases h

/-- A memory stays steady while a file is begun. -/
theorem Steady.enter (h : s.Steady m) (path : Path) : s.Steady (m.enter path) :=
  h

/-- A memory stays steady when a file fails. -/
theorem Steady.fail (h : s.Steady m) (path : Path) : s.Steady (m.fail path) :=
  h

/-- A memory stays steady when it keeps a record with the time of its file. -/
theorem Steady.keep (h : s.Steady m) {k : Kept} {file : ByteArray × Int}
    (hfile : s.fileAt? k.record.path = some file) (htime : k.modified = file.2)
    (path : Path) : s.Steady ((m.keep k).leave path) := by
  intro q k' hq
  unfold current?
  rw [hq]
  rw [Memory.find?_leave, Memory.find?_keep] at hq
  split at hq
  · rename_i hpath
    cases hq
    simp [← hpath, hfile, htime]
  · have hcur := h q k' hq
    rwa [current?, hq] at hcur

/-- What is loaded is neither being analysed nor kept. -/
theorem Fresh.not_holds {path : Path} (h : s.Fresh m path)
    (hsteady : s.Steady m) :
    ¬ m.Holds path := by
  rintro (hactive | ⟨k, hk⟩)
  · exact h.inactive hactive
  · rw [hsteady.find?_eq_none h.unkept] at hk
    cases hk

end Scene

/-- **The memory grows.**  An exploration forgets nothing, and what is kept
stays current. -/
theorem Explored.grows {s : Scene} {room : Nat} {depth : Int}
    {parent : Option Path} {m m' : Memory} {paths : List Path}
    {records : List Record} {opened : List Path}
    (h : Explored s room depth parent m paths m' records opened)
    (hsteady : s.Steady m) : s.Steady m' ∧ m.Grows m' := by
  induction h with
  | done => exact ⟨hsteady, .refl _⟩
  | glance look rest ih => exact ih hsteady
  | broken hfile fresh hown rest ih =>
      obtain ⟨hsteady', hgrows⟩ := ih (hsteady.fail _)
      exact ⟨hsteady', (Memory.Grows.fail _ _).trans hgrows⟩
  | full hfile fresh hown below rest ihBelow ihRest =>
      obtain ⟨hsteady₁, hgrows₁⟩ := ihBelow (hsteady.enter _)
      have hunkept := hsteady.find?_eq_none fresh.unkept
      obtain ⟨hsteady₂, hgrows₂⟩ := ihRest (hsteady₁.keep hfile rfl _)
      exact ⟨hsteady₂, (hgrows₁.keep fresh.inactive hunkept rfl).trans hgrows₂⟩

/-- The memory around the analysis of a file that is loaded: the file is being
analysed until its record is kept, and nothing else changes hands. -/
theorem Explored.around {s : Scene} {room : Nat} {depth : Int}
    {parent : Option Path} {m m₁ : Memory} {path : Path} {paths : List Path}
    {children : List Record} {inner : List Path} {k : Kept}
    {file : ByteArray × Int}
    (below : Explored s room depth parent (m.enter path) paths m₁ children
      inner) (hsteady : s.Steady m) (fresh : s.Fresh m path)
      (hpath : k.record.path = path)
    (hfile : s.fileAt? path = some file) (htime : k.modified = file.2) :
    path ∈ m₁.active ∧ s.Steady ((m₁.keep k).leave path) ∧
      m.Grows ((m₁.keep k).leave path) := by
  obtain ⟨hsteady₁, hgrows₁⟩ := below.grows (hsteady.enter path)
  have hunkept := hsteady.find?_eq_none fresh.unkept
  refine ⟨?_, hsteady₁.keep (hpath ▸ hfile) htime path,
    hgrows₁.keep fresh.inactive hunkept hpath⟩
  rw [hgrows₁.active]
  exact List.mem_cons_self

end Relay
