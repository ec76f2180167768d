import Relay.Proofs.Mentions

/-!
# Native names at the end of a property

The place of an access in the locals has no native name at its end: they are
dropped when the place is made.  The keys of an object literal are added to a
place afterwards, and nothing is dropped then.  So a property of the locals
ends in a native name just when it is such a key.
-/

namespace Relay.Analysis

open Syntax

/-- What stands after the last dot of a path. -/
def lastStep (path : String) : String :=
  (Text.split '.' path).getLast?.getD ""

/-- A path ends in a native name. -/
def EndsNative (path : String) : Prop :=
  lastStep path ∈ nativeNames

instance (path : String) : Decidable (EndsNative path) :=
  inferInstanceAs (Decidable (_ ∈ nativeNames))

/-- A dot between two paths parts their steps. -/
theorem split_append_dot (path key : String) :
    Text.split '.' (path ++ "." ++ key) = Text.split '.' path ++
      Text.split '.' key := by
  have hdot : (path ++ "." ++ key).toList = path.toList ++
      '.' :: key.toList := by
    rw [String.toList_append, String.toList_append, List.append_assoc]
    rfl
  rw [Text.split, hdot, List.splitOn_append_cons_self, List.map_append,
    Text.split, Text.split]

/-- A key below a place ends as the key does. -/
theorem lastStep_keyPlace (place key : String) :
    lastStep (keyPlace place key) = lastStep key := by
  unfold keyPlace
  split
  · rfl
  · have hne : Text.split '.' key ≠ [] := by
      simp [Text.split, List.splitOn_ne_nil]
    change lastStep (place ++ "." ++ key) = lastStep key
    rw [lastStep, split_append_dot, List.getLast?_append_of_ne_nil _ hne,
      lastStep]

/-- A key below a place ends in a native name just when the key does. -/
theorem endsNative_keyPlace_iff {place key : String} :
    EndsNative (keyPlace place key) ↔ EndsNative key := by
  rw [EndsNative, lastStep_keyPlace, EndsNative]

/-- No native name is left at the end of some steps. -/
theorem getLast?_dropNatives {steps : List String} {name : String}
    (h : (dropNatives steps).getLast? = some name) : name ∉ nativeNames := by
  rw [dropNatives, List.getLast?_reverse] at h
  have hnot := List.head?_dropWhile_not nativeNames.contains steps.reverse
  rw [h] at hnot
  simpa using hnot

/-- The steps that are left of a path are those of the place. -/
theorem split_of_stripNatives? {path place : String}
    (h : stripNatives? path = some place) :
    Text.split '.' place = dropNatives (Text.split '.' path) := by
  have hne : dropNatives (Text.split '.' path) ≠ [] := by
    intro hnil
    rw [stripNatives?, hnil] at h
    cases h
  have hdots : ∀ step ∈ dropNatives (Text.split '.' path),
      '.' ∉ step.toList := by
    intro step hstep
    have hmem := (List.dropWhile_sublist _).subset (List.mem_reverse.mp hstep)
    exact Text.not_mem_of_mem_split (List.mem_reverse.mp hmem)
  have hplace : Text.join "." (dropNatives (Text.split '.' path)) = place := by
    unfold stripNatives? at h
    split at h
    · contradiction
    · exact Option.some.inj h
  rw [← hplace, Text.split_join rfl hne hdots]

/-- A place that native names were stripped from ends in none. -/
theorem not_endsNative_of_stripNatives? {path place : String}
    (h : stripNatives? path = some place) : ¬ EndsNative place := by
  rw [EndsNative, lastStep, split_of_stripNatives? h]
  cases hlast : (dropNatives (Text.split '.' path)).getLast? with
  | none => decide
  | some name => exact getLast?_dropNatives hlast

/-- **Places have no native names at their end.** -/
theorem not_endsNative_of_placeOf? {c : Chain} {place : String}
    (h : Bag.locals.placeOf? c = some place) : ¬ EndsNative place := by
  unfold Bag.placeOf? at h
  cases hpath : c.pathBelow? Bag.locals.roots Bag.locals.inner with
  | none => simp [hpath] at h
  | some path =>
      rw [hpath] at h
      exact not_endsNative_of_stripNatives? h

/-- **Only keys end in a native name.**  No read of the locals does.  A
property that ends in a native name is written on a line just when object
literals count and a node on that line writes a literal with such a key.  So no
usage of the locals ends in a native name if and only if no key of a literal
that counts does. -/
theorem endsNative_iff_key {r : Resolver} {fs : Files} {source : Source}
    {log : List LogEntry} {facts : Facts}
    (h : factsOf r fs source = (log, .ok facts)) :
    (∀ u ∈ facts.usages.localsReads, ¬ EndsNative u.property) ∧
    (∀ property line, EndsNative property →
      ((∃ u ∈ facts.usages.localsWrites, u.property = property ∧
        u.line = line) ↔
        r.config.expandLiterals = true ∧
          ∃ v ∈ entered (walkAll source.tree), source.lineOf v.node = line ∧
            ∃ place key, WritesKey source .locals v.node place key ∧
              property = keyPlace place key)) ∧
    ((∀ u ∈ facts.usages.localsReads ++ facts.usages.localsWrites,
      ¬ EndsNative u.property) ↔
      (r.config.expandLiterals = true → ∀ v ∈ entered (walkAll source.tree),
        ∀ place key, WritesKey source .locals v.node place key →
          ¬ EndsNative key)) := by
  have husages := usages_of_factsOf h
  have hkey : ∀ {k property line}, EndsNative property →
      facts.usages.Records ⟨.state .locals property, k, line⟩ →
      r.config.expandLiterals = true ∧ k = .write ∧
        ∃ v ∈ entered (walkAll source.tree), source.lineOf v.node = line ∧
          ∃ place key, WritesKey source .locals v.node place key ∧
            property = keyPlace place key := by
    intro k property line hnative hrecords
    rw [husages, Usages.records_of_iff] at hrecords
    obtain ⟨v, hv, hmention⟩ := hrecords
    rcases place_or_key_of_mem_mentionsAt hmention
      with ⟨c, hplace⟩ | ⟨hexpand, hk, hline, hkey⟩
    · exact absurd hnative (not_endsNative_of_placeOf? hplace)
    · exact ⟨hexpand, hk, v, hv, hline.symm, hkey⟩
  have hwritten : ∀ {v : Visit} {place key : String},
    r.config.expandLiterals = true →
      v ∈ entered (walkAll source.tree) →
        WritesKey source .locals v.node place key →
      facts.usages.Records ⟨.state .locals (keyPlace place key), .write,
          source.lineOf v.node⟩ := by
    intro v place key hexpand hv hwrites
    rw [husages, Usages.records_of_iff, hexpand]
    exact ⟨v, hv, hwrites.mem_mentionsAt⟩
  have hreads : ∀ u ∈ facts.usages.localsReads, ¬ EndsNative u.property := by
    intro u hu hnative
    have hrecords : facts.usages.Records ⟨.state .locals u.property, .read,
        u.line⟩ :=
      ⟨u, hu, rfl, rfl⟩
    obtain ⟨-, hk, -⟩ := hkey hnative hrecords
    cases hk
  refine ⟨hreads, ?_, ?_⟩
  · intro property line hnative
    constructor
    · intro hrecords
      have hrecords : facts.usages.Records ⟨.state .locals property, .write,
          line⟩ := hrecords
      obtain ⟨hexpand, -, hkeys⟩ := hkey hnative hrecords
      exact ⟨hexpand, hkeys⟩
    · intro hkeys
      obtain ⟨hexpand, v, hv, rfl, place, key, hwrites, rfl⟩ := hkeys
      exact hwritten hexpand hv hwrites
  · constructor
    · intro hnone hexpand v hv place key hwrites hnative
      obtain ⟨u, hu, hproperty, -⟩ := hwritten hexpand hv hwrites
      apply hnone u (List.mem_append_right _ hu)
      rw [hproperty]
      exact endsNative_keyPlace_iff.mpr hnative
    · intro hkeys u hu hnative
      rcases List.mem_append.mp hu with hu | hu
      · exact hreads u hu hnative
      · have hrecords : facts.usages.Records ⟨.state .locals u.property, .write,
            u.line⟩ :=
          ⟨u, hu, rfl, rfl⟩
        obtain ⟨hexpand, -, v, hv, -, place, key, hwrites, hproperty⟩ :=
          hkey hnative hrecords
        rw [hproperty] at hnative
        exact hkeys hexpand v hv place key hwrites
          (endsNative_keyPlace_iff.mp hnative)

end Relay.Analysis

namespace Relay.Scene

open Analysis Syntax

/-- The file that assigns a literal with the key `length` writes this
property. -/
theorem exists_mem_samples :
    ∃ facts, samples.own? keyedFile = some facts ∧
      ∃ u ∈ facts.usages.localsWrites, u.property = "seed.length" := by
  obtain ⟨hkeyed, -⟩ := layout_samples
  obtain ⟨facts, hown, hwrites⟩ := Option.map_eq_some_iff.mp hkeyed
  have hmem : "seed.length" ∈ facts.usages.localsWrites.map (·.property) := by
    rw [hwrites]
    decide
  exact ⟨facts, hown, List.mem_map.mp hmem⟩

/-- The property of that file comes from a key. -/
theorem endsNative_samples :
    EndsNative "seed.length" ∧ ∃ source log facts,
      factsOf samples.resolver samples.files source = (log, .ok facts) ∧
      (∀ u ∈ facts.usages.localsReads, ¬ EndsNative u.property) ∧
      ∃ v ∈ entered (walkAll source.tree), ∃ place key,
        WritesKey source .locals v.node place key ∧
          keyPlace place key = "seed.length" := by
  have hends : EndsNative "seed.length" := by decide
  obtain ⟨facts, hown, u, hu, hproperty⟩ := exists_mem_samples
  obtain ⟨bytes, modified, source, log, -, -, hfacts⟩ :=
    own?_eq_some_iff.mp hown
  obtain ⟨hreads, hnative, -⟩ := endsNative_iff_key hfacts
  obtain ⟨-, v, hv, -, place, key, hkey, hplace⟩ :=
    (hnative "seed.length" u.line hends).mp ⟨u, hu, hproperty, rfl⟩
  exact ⟨hends, source, log, facts, hfacts, hreads, v, hv, place, key, hkey,
    hplace.symm⟩

/-- **A key that is not stripped.**  A file writes a property of the locals
that ends in a native name. -/
theorem exists_endsNative_samples :
    ∃ facts, samples.own? keyedFile = some facts ∧
      ∃ u ∈ facts.usages.localsWrites, EndsNative u.property := by
  obtain ⟨facts, hown, u, hu, hproperty⟩ := exists_mem_samples
  refine ⟨facts, hown, u, hu, ?_⟩
  rw [hproperty]
  decide

end Relay.Scene
