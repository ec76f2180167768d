import Relay.Flow.Result
import Relay.Proofs.Exploration

/-!
# Middlewares one after the other

The analysis of a middleware explores its file, if it has one, and rolls up what
comes of it.  The analysis of a chain does this for one middleware after the
other.  Both facts are stated here once (`analyzeMiddleware_cases` and
`analyzeChain_eq_ok_iff`), so that nothing else has to open these definitions.
-/

namespace Relay

/-- The middleware that comes of the analysis of its file. -/
def Middleware.made (name : String) (path : Path) (m : Memory) :
    Option Record → Middleware
  | none => { name := name, path := some path, isThere := true }
  | some record =>
    { name := name, path := some path, isThere := true, record := some record :
      Middleware }.rollUp (m.expand record)

@[simp] theorem Middleware.made_name (name : String) (path : Path) (m : Memory)
    (record : Option Record) : (made name path m record).name = name := by
  cases record <;> rfl

@[simp] theorem Middleware.made_record (name : String) (path : Path)
    (m : Memory) (record : Option Record) :
    (made name path m record).record = record := by
  cases record <;> rfl

/-- The middleware of a name that no file has. -/
def Middleware.absent (name : String) : Middleware :=
  { name := name, path := none, isThere := false }

namespace Scene

/-- The number of levels on which files are loaded. -/
def room (s : Scene) : Nat :=
  s.resolver.config.maxDepth.toNat

/-- The file of a middleware. -/
def entry (s : Scene) (specifier : String) : Except NameTooLong (Option Path) :=
  s.resolver.entryPath s.files specifier

variable {s : Scene} {p p' : Progress}

/-- The number of levels on which files are loaded from a depth on. -/
def roomFrom (s : Scene) (depth : Int) : Nat :=
  (s.resolver.config.maxDepth - depth).toNat

/-- From the top there is all the room of the scene. -/
theorem roomFrom_zero (s : Scene) : s.roomFrom 0 = s.room := by
  simp [roomFrom, room]

/-- A path that cannot be looked up is an error, and nothing else happens. -/
theorem analyzeWithin_of_error {path : Path} {e : NameTooLong}
    (h : s.files.find path.place = .error e) (room : Nat) (p : Progress)
    (depth : Int) (parent : Option Path) :
    s.analyzeWithin room p path depth parent = (p, .error e) := by
  cases room with
  | zero => rw [analyzeWithin_zero, approach, h]
  | succ room => rw [analyzeWithin_succ, approach, h]

/-- **What an analysis does.**  The file cannot be looked up, or it is
explored. -/
theorem analyzeWithin_cases (s : Scene) (room : Nat) (p : Progress)
    (path : Path) (depth : Int) (parent : Option Path) :
    (∃ e, s.files.find path.place = .error e ∧
      s.analyzeWithin room p path depth parent = (p, .error e)) ∨
    s.Visits room depth parent p [path] Option.toList
      (s.analyzeWithin room p path depth parent) := by
  cases hfind : s.files.find path.place with
  | error e =>
      exact .inl ⟨e, rfl, analyzeWithin_of_error hfind room p depth parent⟩
  | ok there =>
      exact .inr (analyzeWithin_visits ⟨there, hfind⟩ room p depth parent)

/-- What an analysis from the top does. -/
theorem analyze_cases (s : Scene) (p : Progress) (path : Path)
    (parent : Option Path) :
    (∃ e, s.files.find path.place = .error e ∧
      s.analyze p path 0 parent = (p, .error e)) ∨
    ∃ p' found opened, s.analyze p path 0 parent = (p', .ok found) ∧
      Advance s p p' opened ∧
      Explored s s.room 0 parent p.memory
        [path] p'.memory found.toList opened := by
  rw [← roomFrom_zero]
  exact analyzeWithin_cases s (s.roomFrom 0) p path 0 parent

/-- The file of a middleware is found. -/
theorem found_of_entry {specifier : String} {path : Path}
    (h : s.entry specifier = .ok (some path)) : Found s.files path :=
  Resolver.found_of_entryPath h

/-- **What the analysis of a middleware does.**  Its name cannot be looked up,
or it has no file, or its file is explored. -/
theorem analyzeMiddleware_cases (s : Scene) (p : Progress)
    (specifier : String) :
    (∃ e, s.entry specifier = .error e ∧
      s.analyzeMiddleware p specifier = (p, .error e)) ∨
    (s.entry specifier = .ok none ∧
      s.analyzeMiddleware p specifier = (p, .ok (.absent specifier))) ∨
    ∃ path p' found opened, s.entry specifier = .ok (some path) ∧
      Advance s p p' opened ∧
      Explored s s.room 0 none p.memory [path] p'.memory found.toList opened ∧
      s.analyzeMiddleware p specifier
        = (p', .ok (.made specifier path p'.memory found)) := by
  unfold analyzeMiddleware
  cases hentry : s.entry specifier with
  | error e =>
      rw [entry] at hentry
      exact .inl ⟨e, rfl, by rw [hentry]⟩
  | ok path? =>
      rw [entry] at hentry
      cases path? with
      | none => exact .inr (.inl ⟨rfl, by rw [hentry]; rfl⟩)
      | some path =>
          obtain ⟨there, hfind⟩ := (found_of_entry (s := s) hentry).find_place
          rw [hentry]
          rcases analyze_cases s p path none with
            ⟨e, he, -⟩ | ⟨p', found, opened, hrun, hadv, hexp⟩
          · rw [hfind] at he
            cases he
          · refine .inr (.inr ⟨path, p', found, opened, rfl, hadv, hexp, ?_⟩)
            simp only [hrun]
            cases found <;> rfl

/-- Middlewares that are analysed one after the other, with what comes
of them. -/
inductive Passes (s : Scene) :
    Progress → List String → Progress → List Middleware → Prop
  | nil {p : Progress} : Passes s p [] p []
  | cons {p p₁ p₂ : Progress} {specifier : String} {specifiers : List String}
      {m : Middleware} {ms : List Middleware}
      (first : s.analyzeMiddleware p specifier = (p₁, .ok m))
      (rest : Passes s p₁ specifiers p₂ ms) :
      Passes s p (specifier :: specifiers) p₂ (m :: ms)

/-- A chain that is not cancelled passes all of its middlewares. -/
theorem analyzeChain_eq_ok_iff {t t' : Passed} {specifiers : List String} :
    s.analyzeChain none p t specifiers = (p', .ok t') ↔
      ∃ ms, s.Passes p specifiers p' ms ∧ t' = ms.foldl Passed.add t := by
  induction specifiers generalizing p t with
  | nil =>
      constructor
      · intro h
        cases h
        exact ⟨[], .nil, rfl⟩
      · rintro ⟨ms, hpass, rfl⟩
        cases hpass
        rfl
  | cons specifier specifiers ih =>
      unfold analyzeChain
      rw [if_neg (by simp)]
      constructor
      · intro h
        split at h
        · cases h
        · rename_i p₁ m hm
          obtain ⟨ms, hpass, ht⟩ := ih.mp h
          exact ⟨m :: ms, .cons hm hpass, ht⟩
      · rintro ⟨ms, hpass, rfl⟩
        cases hpass with
        | cons first rest =>
            simp only [first]
            exact ih.mpr ⟨_, rest, rfl⟩

/-- A middleware comes to a result if its name can be looked up. -/
theorem exists_analyzeMiddleware {specifier : String}
    (h : ∃ path?, s.entry specifier = .ok path?) (p : Progress) :
    ∃ p' m, s.analyzeMiddleware p specifier = (p', .ok m) := by
  obtain ⟨path?, hpath⟩ := h
  rcases analyzeMiddleware_cases s p specifier with
    ⟨e, he, -⟩ | ⟨-, hm⟩ | ⟨_, _, _, _, -, -, -, hm⟩
  · rw [he] at hpath
    cases hpath
  · exact ⟨_, _, hm⟩
  · exact ⟨_, _, hm⟩

/-- A chain comes to a result if all of its names can be looked up. -/
theorem exists_passes {specifiers : List String}
    (h : ∀ specifier ∈ specifiers, ∃ path?, s.entry specifier = .ok path?)
    (p : Progress) : ∃ p' ms, s.Passes p specifiers p' ms := by
  induction specifiers generalizing p with
  | nil => exact ⟨p, [], .nil⟩
  | cons specifier specifiers ih =>
      obtain ⟨hfirst, hrest⟩ := List.forall_mem_cons.mp h
      obtain ⟨p₁, m, hm⟩ := exists_analyzeMiddleware hfirst p
      obtain ⟨p₂, ms, hms⟩ := ih hrest p₁
      exact ⟨p₂, m :: ms, .cons hm hms⟩

/-- A chain with a result has only names that can be looked up. -/
theorem Passes.entry_eq_ok {specifiers : List String} {ms : List Middleware}
    (h : s.Passes p specifiers p' ms) :
    ∀ specifier ∈ specifiers, ∃ path?, s.entry specifier = .ok path? := by
  induction h with
  | nil => simp
  | @cons p p₁ p₂ specifier specifiers m ms first rest ih =>
      refine List.forall_mem_cons.mpr ⟨?_, ih⟩
      rcases analyzeMiddleware_cases s p specifier with
        ⟨e, -, hm⟩ | ⟨hentry, -⟩ | ⟨path, -, -, -, hentry, -⟩
      · rw [hm] at first
        cases first
      · exact ⟨none, hentry⟩
      · exact ⟨some path, hentry⟩

/-- Saying something about the flow is no warning of the analyser. -/
theorem advance_tell (s : Scene) (p : Progress) (text : String) :
    Advance s p (p.tell .info text) [] :=
  .quiet p rfl

/-- **What the analysis of an endpoint does.**  With a list of texts it
passes the middlewares from an empty memory, and concludes from what has
come of them. -/
theorem analyzeFlow_eq {endpoint : Endpoint} {specifiers : List String}
    (h : endpoint.specifiers? = some specifiers) (s : Scene)
    (patience : Option Nat) (p : Progress) :
    ∃ start final : Progress, start.memory = {} ∧ Advance s p start [] ∧
      Advance s (s.analyzeChain patience start {} specifiers).1 final [] ∧
      s.analyzeFlow patience p endpoint
        = (final, (s.analyzeChain patience start {} specifiers).2.map
            (conclude (s.analyzeChain patience start {} specifiers).1.memory
              endpoint)) := by
  unfold analyzeFlow
  simp only [h]
  generalize hstart : (p.remember fun _ => {}).tell .info _ = start
  have hmemory : start.memory = {} := hstart ▸ rfl
  have hfirst : Advance s p start [] :=
    hstart ▸ ⟨(List.append_nil _).symm, [_], rfl, rfl⟩
  rcases hrun : s.analyzeChain patience start {} specifiers with ⟨p', e | t⟩
  · refine ⟨start, p', hmemory, hfirst, ?_⟩
    rw [hrun]
    exact ⟨.refl s p', rfl⟩
  · dsimp only
    generalize hend : p'.tell .info _ = final
    refine ⟨start, final, hmemory, hfirst, ?_⟩
    rw [hrun]
    exact ⟨hend ▸ advance_tell s p' _, rfl⟩

end Scene

end Relay
