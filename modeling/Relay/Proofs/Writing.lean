import Relay.Proofs.Found

/-!
# Writing files

A file can be written where nothing stands yet, or over a file that is older.
Such writing takes nothing away: directories stay, and every path that has led
to a file leads to a file still, to the same one or to a later one
(`Ages.find`).  Paths are followed through directories only, so it is enough to
know what writing does to single places (`ages_write`).
-/

namespace Relay

namespace Files

variable {fs fs' : Files} {place q : List String} {entry : Entry}

/-- A file can be written at a path: what stands there, if anything, is an older
file. -/
def CanWrite (fs : Files) (path : Path) (modified : Int) : Prop :=
  ∀ entry, fs.entryAt? (fs.placeOf path) = some entry →
    ∃ bytes old, entry = .file bytes old ∧ old < modified

instance (fs : Files) (path : Path) (modified : Int) :
    Decidable (fs.CanWrite path modified) :=
  match h : fs.entryAt? (fs.placeOf path) with
  | none => isTrue fun entry hentry => by
      rw [h] at hentry
      cases hentry
  | some .directory => isFalse fun hwrite => by
      obtain ⟨_, _, heq, -⟩ := hwrite _ h
      cases heq
  | some (.file bytes old) =>
      if hlater : old < modified then isTrue fun entry hentry => by
        rw [h] at hentry
        cases hentry
        exact ⟨bytes, old, rfl, hlater⟩
      else isFalse fun hwrite => by
        obtain ⟨_, _, heq, hlater'⟩ := hwrite _ h
        cases heq
        exact hlater hlater'

/-- Nothing is taken away: directories stay, and files stay or give way to later
ones. -/
structure Ages (fs fs' : Files) : Prop where
  current : fs'.current = fs.current
  directory : ∀ place, fs.entryAt? place = some .directory →
    fs'.entryAt? place = some .directory
  file : ∀ place bytes time, fs.entryAt? place = some (.file bytes time) →
    ∃ bytes' time', fs'.entryAt? place = some (.file bytes' time') ∧
      (time < time' ∨ bytes' = bytes ∧ time' = time)

@[simp] theorem current_put (fs : Files) (place : List String) (entry : Entry) :
    (fs.put place entry).current = fs.current := by
  unfold put
  split <;> rfl

/-- Other places are left alone. -/
theorem entryAt?_put_of_ne (h : q ≠ place) :
    (fs.put place entry).entryAt? q = fs.entryAt? q := by
  have hother : (place == q) = false := beq_false_of_ne (Ne.symm h)
  unfold entryAt?
  rw [current_put]
  congr 1
  unfold put
  split
  · have hsame : ((fun e : List String × Entry => e.1 == q)
        ∘ fun e => if e.1 == place then (place, entry) else e) = fun e =>
          e.1 == q := by
      funext e
      by_cases he : e.1 = place
      · simp [he, hother]
      · simp [he]
    rw [List.find?_map, hsame, Option.map_map]
    refine Option.map_congr fun e he => ?_
    have hq : e.1 = q := by simpa using List.find?_some he
    have hne : e.1 ≠ place := hq ▸ h
    simp [hne]
  · rw [List.find?_append]
    simp [hother]

/-- What was put at a place stands there, unless it is on the way to the present
directory. -/
theorem entryAt?_put_self (h : place.isPrefixOf fs.current = false) :
    (fs.put place entry).entryAt? place = some entry := by
  unfold entryAt?
  rw [current_put, if_neg (by simp [h])]
  unfold put
  split
  · rename_i hany
    have hsame : ((fun e : List String × Entry => e.1 == place)
        ∘ fun e => if e.1 == place then (place, entry) else e)
          = fun e => e.1 == place := by
      funext e
      by_cases he : e.1 = place
      · simp [he]
      · simp [he]
    obtain ⟨e, he, heq⟩ := List.any_eq_true.mp hany
    have hsome : (fs.entries.find? fun e => e.1 == place).isSome := by
      rw [List.find?_isSome]
      exact ⟨e, he, heq⟩
    obtain ⟨found, hfound⟩ := Option.isSome_iff_exists.mp hsome
    have hplace : found.1 = place := by simpa using List.find?_some hfound
    rw [List.find?_map, hsame, hfound]
    simp [hplace]
  · rename_i hany
    have hnone : fs.entries.find? (fun e => e.1 == place) = none := by
      rw [List.find?_eq_none]
      intro e he heq
      exact hany (List.any_eq_true.mpr ⟨e, he, heq⟩)
    rw [List.find?_append, hnone]
    simp

/-- Making directories leaves alone what stands already. -/
theorem makeDirectories_spec (fs : Files) (place : List String) :
    (fs.makeDirectories place).current = fs.current ∧
      ∀ q entry, fs.entryAt? q = some entry →
        (fs.makeDirectories place).entryAt? q = some entry := by
  unfold makeDirectories
  induction List.range (place.length + 1) generalizing fs with
  | nil => exact ⟨rfl, fun _ _ h => h⟩
  | cons k ks ih =>
      rw [List.foldl_cons]
      split
      · exact ih fs
      · rename_i hnone
        obtain ⟨hcurrent, hkept⟩ := ih (fs.put (place.take k) .directory)
        refine ⟨by rw [hcurrent, current_put], fun q entry h =>
          hkept q entry ?_⟩
        have hne : q ≠ place.take k := by
          rintro rfl
          rw [hnone] at h
          cases h
        rw [entryAt?_put_of_ne hne, h]

/-- **Writing takes nothing away.** -/
theorem ages_write {path : Path} {modified : Int}
    (h : fs.CanWrite path modified) (bytes : ByteArray) :
    fs.Ages (fs.write path bytes modified) := by
  obtain ⟨hcurrent, hkept⟩ := makeDirectories_spec fs (fs.placeOf path).dropLast
  have hother : ∀ q entry, q ≠ fs.placeOf path → fs.entryAt? q = some entry →
      (fs.write path bytes modified).entryAt? q = some entry :=
    fun q entry hne hq => (entryAt?_put_of_ne hne).trans (hkept q entry hq)
  refine ⟨by rw [write, current_put, hcurrent], fun q hq => ?_,
    fun q old time hq => ?_⟩
  · refine hother q _ ?_ hq
    rintro rfl
    obtain ⟨_, _, heq, -⟩ := h _ hq
    cases heq
  · by_cases hplace : q = fs.placeOf path
    · subst hplace
      obtain ⟨_, _, heq, hlater⟩ := h _ hq
      cases heq
      -- A file stands here, so the present directory is not below it.
      have hfree : (fs.placeOf path).isPrefixOf fs.current = false := by
        cases hon : (fs.placeOf path).isPrefixOf fs.current with
        | false => rfl
        | true =>
            rw [entryAt?, if_pos hon] at hq
            cases hq
      exact ⟨bytes, modified, entryAt?_put_self (by rw [hcurrent, hfree]),
        .inl hlater⟩
    · exact ⟨old, time, hother q _ hplace hq, .inr ⟨rfl, rfl⟩⟩

namespace Ages

/-- Where a path leads to a file, it leads to that file or a later one after
writing. -/
theorem follow (h : fs.Ages fs') {path : Path} {names place : List String}
    {bytes : ByteArray} {time : Int}
    (hfile : fs.follow path place names = .ok (some (.file bytes time))) :
    ∃ bytes' time', fs'.follow path place names = .ok
      (some (.file bytes' time')) ∧
      (time < time' ∨ bytes' = bytes ∧ time' = time) := by
  induction names generalizing place with
  | nil =>
      obtain ⟨bytes', time', hentry, hlater⟩ :=
        h.file place bytes time (Except.ok.inj hfile)
      exact ⟨bytes', time', congrArg Except.ok hentry, hlater⟩
  | cons name rest ih =>
      unfold Files.follow at hfile ⊢
      split at hfile
      · rename_i hdirectory
        rw [h.directory place hdirectory]
        simp only
        split at hfile
        · rename_i hdots
          rw [if_pos hdots]
          exact ih hfile
        · rename_i hname
          rw [if_neg hname]
          split at hfile
          · cases hfile
          · rename_i hshort
            rw [if_neg hshort]
            exact ih hfile
      · cases hfile

/-- **Paths to files stay.** -/
theorem find (h : fs.Ages fs') {path : Path} {bytes : ByteArray} {time : Int}
    (hfile : fs.find path = .ok (some (.file bytes time))) :
    ∃ bytes' time', fs'.find path = .ok (some (.file bytes' time')) ∧
      (time < time' ∨ bytes' = bytes ∧ time' = time) := by
  unfold Files.find at hfile ⊢
  rw [h.current]
  exact h.follow hfile

end Ages

end Files

end Relay
