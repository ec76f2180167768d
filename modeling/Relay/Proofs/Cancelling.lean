import Relay.Proofs.Neighbours

/-!
# Cancelling is truncating

What an exploration does is determined by the memory that it begins with
(`Explored.unique`), so the analysis of a middleware does not depend on what
has been said in the log.  A chain that is cancelled after some middlewares has
therefore done what a chain of these middlewares alone does, and it ends with
the same memory (`analyzeChain_some`).  All that follows from the memory and
from the middlewares is the same, too, and a chain that goes on does not reach
back into the middlewares before (`cancelled_eq_truncated`).
-/

namespace Relay

namespace Scene.Glance

variable {s : Scene} {room : Nat} {depth : Int} {parent : Option Path}
  {m : Memory}
  {path : Path} {found found' : Option Record}

/-- A glance at a place gives one thing only. -/
theorem unique (h : s.Glance room depth parent m path found)
    (h' : s.Glance room depth parent m path found') : found = found' := by
  have hfile : ∀ k, s.current? m path = some k → (s.fileAt? path).isSome := by
    intro k hk
    obtain ⟨file, hfile, -⟩ := Option.bind_eq_some_iff.mp hk
    exact Option.isSome_iff_exists.mpr ⟨file, hfile⟩
  cases h <;> cases h' <;> simp_all

/-- What can be told at a glance is not loaded. -/
theorem not_fresh (h : s.Glance (room + 1) depth parent m path found)
    (hfile : (s.fileAt? path).isSome) : ¬ s.Fresh m path := by
  intro fresh
  cases h with
  | missing hnone => simp [hnone] at hfile
  | cycle _ hactive => exact fresh.inactive hactive
  | again _ hkept => simp [fresh.unkept] at hkept
  | limit _ _ _ hroom => omega
  | failed _ _ _ _ hfailed => exact fresh.untried hfailed

end Scene.Glance

/-- **Explorations are determined.** -/
theorem Explored.unique {s : Scene} {room : Nat} {depth : Int}
    {parent : Option Path} {m m₁ m₂ : Memory} {paths : List Path}
    {rs₁ rs₂ : List Record} {o₁ o₂ : List Path}
    (h₁ : Explored s room depth parent m paths m₁ rs₁ o₁)
    (h₂ : Explored s room depth parent m paths m₂ rs₂ o₂) :
    m₁ = m₂ ∧ rs₁ = rs₂ ∧ o₁ = o₂ := by
  induction h₁ generalizing m₂ rs₂ o₂ with
  | done =>
      cases h₂
      exact ⟨rfl, rfl, rfl⟩
  | glance look rest ih =>
      cases h₂ with
      | glance look' rest' =>
          obtain ⟨rfl, rfl, rfl⟩ := ih rest'
          rw [look.unique look']
          exact ⟨rfl, rfl, rfl⟩
      | broken hfile' fresh' =>
          exact absurd fresh' (look.not_fresh (by simp [hfile']))
      | full hfile' fresh' =>
          exact absurd fresh' (look.not_fresh (by simp [hfile']))
  | broken hfile fresh hown rest ih =>
      cases h₂ with
      | glance look' => exact absurd fresh (look'.not_fresh (by simp [hfile]))
      | broken hfile' fresh' hown' rest' =>
          obtain ⟨rfl, rfl, rfl⟩ := ih rest'
          exact ⟨rfl, rfl, rfl⟩
      | full hfile' fresh' hown' => simp [hown] at hown'
  | full hfile fresh hown below rest ihBelow ihRest =>
      cases h₂ with
      | glance look' => exact absurd fresh (look'.not_fresh (by simp [hfile]))
      | broken hfile' fresh' hown' => simp [hown] at hown'
      | full hfile' fresh' hown' below' rest' =>
          obtain rfl := Option.some.inj (hfile.symm.trans hfile')
          obtain rfl := Option.some.inj (hown.symm.trans hown')
          obtain ⟨rfl, rfl, rfl⟩ := ihBelow below'
          obtain ⟨rfl, rfl, rfl⟩ := ihRest rest'
          exact ⟨rfl, rfl, rfl⟩

namespace Scene

variable {s : Scene} {p q p' : Progress}

/-- The analysis of a middleware depends on the memory only. -/
theorem analyzeMiddleware_congr (h : p.memory = q.memory) (name : String) :
    (s.analyzeMiddleware p name).1.memory =
      (s.analyzeMiddleware q name).1.memory ∧
      (s.analyzeMiddleware p name).2 = (s.analyzeMiddleware q name).2 := by
  rcases analyzeMiddleware_cases s p name with
    ⟨e, he, hp⟩ | ⟨he, hp⟩ | ⟨path, p₁, found, opened, he, -, hexp, hp⟩ <;>
  rcases analyzeMiddleware_cases s q name with
    ⟨e', he', hq⟩ | ⟨he', hq⟩ | ⟨path', q₁, found', opened', he', -,
      hexp', hq⟩ <;>
  rw [he] at he' <;> cases he' <;> rw [hp, hq]
  · exact ⟨h, rfl⟩
  · exact ⟨h, rfl⟩
  · rw [h] at hexp
    obtain ⟨hmemory, hfound, -⟩ := hexp.unique hexp'
    have hsame : found = found' := by
      cases found <;> cases found' <;> simp_all
    rw [hsame, hmemory]
    exact ⟨rfl, rfl⟩

/-- **A cancelled chain is a chain cut short.**  It comes to what the
middlewares before its cancellation come to. -/
theorem analyzeChain_some (h : p.memory = q.memory) (k : Nat) (t : Passed)
    (names : List String) :
    (s.analyzeChain (some k) p t names).1.memory
        = (s.analyzeChain none q t (names.take k)).1.memory ∧
      (s.analyzeChain (some k) p t names).2
        = (s.analyzeChain none q t (names.take k)).2.map fun t =>
          { t with cancelled := t.cancelled || decide (k < names.length) } := by
  induction names generalizing k p q t with
  | nil => simp [analyzeChain, h, Except.map]
  | cons name names ih =>
      cases k with
      | zero => simp [analyzeChain, Progress.tell, h, Except.map]
      | succ k =>
          obtain ⟨hmemory, hresult⟩ := analyzeMiddleware_congr (s := s) h name
          rw [List.take_succ_cons, analyzeChain, analyzeChain, if_neg (by simp),
            if_neg (by simp)]
          rcases hp : s.analyzeMiddleware p name with ⟨p₁, e | m⟩ <;>
          rcases hq : s.analyzeMiddleware q name with ⟨q₁, e' | m'⟩ <;>
          rw [hp, hq] at hmemory hresult <;> cases hresult
          · exact ⟨hmemory, rfl⟩
          · simpa using ih hmemory k (t.add m)

/-- A chain that comes to no result has a name that cannot be looked up. -/
theorem exists_entry_eq_error {patience : Option Nat} {t : Passed}
    {names : List String} {e : NameTooLong}
    (h : (s.analyzeChain patience p t names).2 = .error e) :
    ∃ name ∈ names, s.entry name = .error e := by
  induction names generalizing patience p t with
  | nil => cases h
  | cons name names ih =>
      rw [analyzeChain] at h
      split at h
      · cases h
      · split at h
        · rename_i p₁ e' hrun
          cases h
          rcases analyzeMiddleware_cases s p name with
            ⟨e', he, hp⟩ | ⟨-, hp⟩ | ⟨_, _, _, _, -, -, -, hp⟩ <;>
          rw [hp] at hrun <;> cases hrun
          exact ⟨name, List.mem_cons_self, he⟩
        · obtain ⟨name', hname, he⟩ := ih h
          exact ⟨name', List.mem_cons_of_mem _ hname, he⟩

/-- The first middlewares of a chain are passed by themselves. -/
theorem Passes.take {names : List String} {ms : List Middleware}
    (h : s.Passes p names p' ms) (k : Nat) :
    ∃ p₁, s.Passes p (names.take k) p₁ (ms.take k) := by
  induction h generalizing k with
  | nil => exact ⟨_, by simpa using .nil⟩
  | cons first rest ih =>
      cases k with
      | zero => exact ⟨_, .nil⟩
      | succ k =>
          obtain ⟨p₁, hpass⟩ := ih k
          exact ⟨p₁, .cons first hpass⟩

/-- The edges between the first middlewares are the first edges. -/
theorem edgesBetween_take (ms : List Middleware) (k : Nat) :
    edgesBetween (ms.take k) = (edgesBetween ms).take (k - 1) := by
  refine List.ext_getElem? fun i => Option.ext fun e => ?_
  rw [getElem?_edgesBetween, List.getElem?_take, List.getElem?_take,
    List.getElem?_take]
  by_cases hi : i < k - 1
  · rw [if_pos hi, if_pos (by omega), if_pos (by omega), getElem?_edgesBetween]
  · rw [if_neg hi, if_neg (by omega : ¬ i + 1 < k)]
    simp

/-- Passing middlewares does not change whether the chain was cancelled. -/
theorem cancelled_foldl_add (ms : List Middleware) (t : Passed) :
    (ms.foldl Passed.add t).cancelled = t.cancelled := by
  induction ms generalizing t with
  | nil => rfl
  | cons m ms ih => exact ih (t.add m)

/-- The result of a cancelled analysis follows from a chain of the middlewares
before the cancellation, with nothing known at its beginning. -/
theorem analyzeFlow_some {endpoint : Endpoint} {names : List String}
    (h : endpoint.specifiers? = some names) (k : Nat) {start : Progress}
    (hstart : start.memory = {}) :
    (s.analyzeFlow (some k) p endpoint).2
      = (s.analyzeChain none start {} (names.take k)).2.map fun t =>
        conclude (s.analyzeChain none start {} (names.take k)).1.memory endpoint
          { t with cancelled := t.cancelled || decide (k < names.length) } := by
  obtain ⟨first, final, hfirst, -, -, hflow⟩ := analyzeFlow_eq h s (some k) p
  obtain ⟨hmemory, hresult⟩ :=
    analyzeChain_some (s := s) (hfirst.trans hstart.symm) k {} names
  rw [hflow, hmemory, hresult]
  cases (s.analyzeChain none start {} (names.take k)).2 <;> rfl

/-- **Cancelling is truncating.**  Let an analysis be cancelled after some
middlewares of a list.  If a name among these cannot be looked up, it ends with
the same error as an analysis of these middlewares alone.  Otherwise both have
results, which agree in the middlewares, in the edges between them and between
their files, and in who writes and who reads the properties of both bags.  The
middlewares and the edges are also the first ones of an analysis of the whole
list, if that has a result. -/
theorem cancelled_eq_truncated (s : Scene) (p q : Progress)
    (endpoint cut : Endpoint) (names : List String) (k : Nat)
    (hlist : endpoint.specifiers? = some names)
    (hcut : cut.specifiers? = some (names.take k)) :
    ((∃ e, (∃ name ∈ names.take k, s.entry name = .error e) ∧
        (s.analyzeFlow (some k) p endpoint).2 = .error e ∧
        (s.analyzeFlow none q cut).2 = .error e) ∨
      ∃ r r', (s.analyzeFlow (some k) p endpoint).2 = .ok r ∧
        (s.analyzeFlow none q cut).2 = .ok r' ∧
        r.middlewares = r'.middlewares ∧ r.edges = r'.edges ∧
        r.locals = r'.locals ∧ r.transaction = r'.transaction ∧
        r.componentEdges = r'.componentEdges ∧
        r.cancelled = decide (k < names.length) ∧ r'.cancelled = false) ∧
    ∀ whole, (s.analyzeFlow none q endpoint).2 = .ok whole →
      ∃ r, (s.analyzeFlow (some k) p endpoint).2 = .ok r ∧
        whole.middlewares.take k = r.middlewares ∧
          whole.edges.take (k - 1) = r.edges := by
  constructor
  · obtain ⟨start, final, hstart, -, -, hflow⟩ := analyzeFlow_eq hcut s none q
    rw [hflow, analyzeFlow_some hlist k hstart]
    rcases hrun : s.analyzeChain none start {} (names.take k) with ⟨p', e | t⟩
    · exact .inl ⟨e, exists_entry_eq_error (congrArg Prod.snd hrun), rfl, rfl⟩
    · obtain ⟨ms, -, rfl⟩ := analyzeChain_eq_ok_iff.mp hrun
      have hgoing : (ms.foldl Passed.add {}).cancelled = false :=
        cancelled_foldl_add ms {}
      refine .inr ⟨_, _, rfl, rfl, rfl, rfl, rfl, rfl, rfl, ?_, hgoing⟩
      simp only [conclude, hgoing, Bool.false_or]
  · intro whole hwhole
    obtain ⟨start, p', hstart, hpass⟩ := passes_of_analyzeFlow_none hlist hwhole
    obtain ⟨p₁, hfirst⟩ := hpass.take k
    have hrun : s.analyzeChain none start {} (names.take k)
        = (p₁, .ok ((whole.middlewares.take k).foldl Passed.add {})) :=
      analyzeChain_eq_ok_iff.mpr ⟨_, hfirst, rfl⟩
    refine ⟨_, by rw [analyzeFlow_some hlist k hstart, hrun]; rfl, ?_⟩
    have hmiddlewares :
      ((whole.middlewares.take k).foldl Passed.add {}).middlewares
        = whole.middlewares.take k := by
      rw [middlewares_foldl_add, List.nil_append]
    rw [edges_of_analyzeFlow hwhole, ← edgesBetween_take]
    simp only [conclude, hmiddlewares, and_self]

/-- Of two middlewares the first alone is analysed, and what is known of it is
what is known when the second has been analysed, too. -/
theorem cancelled_eq_truncated_twins :
    ({ middleware := .array [.string "a", .string "b"] } : Endpoint).specifiers?
      = some ["a", "b"] ∧
    ({ middleware := .array [.string "a"] } : Endpoint).specifiers?
      = some (["a", "b"].take 1) ∧
    ∃ r whole, (twins.analyzeFlow (some 1) {}
        { middleware := .array [.string "a", .string "b"] }).2 = .ok r ∧
      (twins.analyzeFlow none {}
        { middleware := .array [.string "a", .string "b"] }).2 = .ok whole ∧
      r.cancelled = true ∧ r.middlewares.map (·.name) = ["a"] ∧
      whole.middlewares.take 1 = r.middlewares := by
  have hlist :
    ({ middleware := .array [.string "a", .string "b"] } : Endpoint).specifiers?
      = some ["a", "b"] := rfl
  have hcut : ({ middleware := .array [.string "a"] } : Endpoint).specifiers?
      = some (["a", "b"].take 1) := rfl
  have hentry : ∀ name ∈ ["a", "b"], ∃ path?, twins.entry name = .ok path? :=
    fun name hname => ⟨_, (entry_twins name hname).1⟩
  obtain ⟨whole, hwhole, hnames⟩ :=
    exists_analyzeFlow (s := twins) hlist hentry {}
  obtain ⟨hboth, hfirst⟩ :=
    cancelled_eq_truncated twins {} {} _ _ ["a", "b"] 1 hlist hcut
  obtain ⟨r, hr, hmiddlewares, -⟩ := hfirst whole hwhole
  refine ⟨hlist, hcut, r, whole, hr, hwhole, ?_, ?_, hmiddlewares⟩
  · rcases hboth with ⟨e, -, he, -⟩ | ⟨r', -, hr', -, -, -, -, -, -,
      hcancelled, -⟩
    · rw [hr] at he
      cases he
    · rw [hr, Except.ok.injEq] at hr'
      rw [hr', hcancelled]
      decide
  · rw [← hmiddlewares, List.map_take, hnames]
    rfl

end Scene

end Relay
