import Relay.Proofs.HangingCalls

/-!
# Which calls are drawn

The middlewares tell their calls apart by the paths of files, and a chart by
the keys of these paths.  Of the reported calls that look alike to the chart
the first is drawn, so a call is drawn just when the first one that looks like
it is of the same file (`drawn_iff`).  All reported calls are drawn if and only
if no two of different files look alike (`all_drawn_iff`); where a scene tells
its files apart, none do (`reported_drawn`).

Two files whose names differ in nothing but case do look alike, and the call of
the second one is lost (`not_drawn_alike`).
-/

namespace Relay

open Analysis Chart

namespace Chart

/-- The calls with templates that the middlewares of a result report. -/
def reported (r : FlowResult) : List ServiceCall :=
  r.middlewares.flatMap templated

/-- A chart has a call with the family, template, line and path of some call. -/
def Drawn (f : Folding) (r : FlowResult) (c : ServiceCall) : Prop :=
  ∃ entry ∈ (draw f r).calls, entry.2.mark = c.mark

section Drawn

variable {f : Folding} {r : FlowResult} {c c' : ServiceCall}

/-- The calls of a chart are the first ones that look alike. -/
theorem exists_mem_calls_iff :
    (∃ entry ∈ (draw f r).calls, entry.2 = c) ↔
      (reported r).find? (callMark · = callMark c) = some c := by
  have hperm := (map_owner_calls_perm f r).map (·.2)
  rw [List.map_map, map_snd_placedCalls] at hperm
  rw [← mem_uniqueBy_iff, reported, ← hperm.mem_iff, List.mem_map]
  rfl

/-- Calls that look alike are told apart by their paths only. -/
theorem mark_eq_iff (h : callMark c = callMark c') :
    c.mark = c'.mark ↔ c.path = c'.path := by
  simp only [callMark, Prod.mk.injEq] at h
  simp only [ServiceCall.mark, Prod.mk.injEq, h, true_and]

/-- Calls with the same mark look alike. -/
theorem callMark_eq_of_mark_eq (h : c.mark = c'.mark) :
    callMark c = callMark c' := by
  simp only [ServiceCall.mark, Prod.mk.injEq] at h
  simp only [callMark, h]

/-- **When a call is drawn.**  The first reported call that looks like it is of
its file. -/
theorem drawn_iff : Drawn f r c ↔
    ∃ first, (reported r).find? (callMark · = callMark c) = some first ∧
      first.path = c.path := by
  constructor
  · rintro ⟨entry, hentry, hmark⟩
    have hlook := callMark_eq_of_mark_eq hmark
    have hfind := exists_mem_calls_iff.mp ⟨entry, hentry, rfl⟩
    rw [hlook] at hfind
    exact ⟨entry.2, hfind, (mark_eq_iff hlook).mp hmark⟩
  · rintro ⟨first, hfind, hpath⟩
    have hlook : callMark first = callMark c := by
      simpa using List.find?_some hfind
    rw [← hlook] at hfind
    obtain ⟨entry, hentry, rfl⟩ := exists_mem_calls_iff.mpr hfind
    exact ⟨entry, hentry, (mark_eq_iff hlook).mpr hpath⟩

/-- **When all calls are drawn.**  No two reported calls of different files
look alike. -/
theorem all_drawn_iff : (∀ c ∈ reported r, Drawn f r c) ↔
    ∀ c ∈ reported r, ∀ c' ∈ reported r, callMark c = callMark c' →
      c.path = c'.path := by
  constructor
  · intro hall c hc c' hc' hlook
    obtain ⟨first, hfind, hpath⟩ := drawn_iff.mp (hall c hc)
    obtain ⟨first', hfind', hpath'⟩ := drawn_iff.mp (hall c' hc')
    rw [hlook, hfind', Option.some.injEq] at hfind
    rw [← hpath, ← hpath', hfind]
  · intro hall c hc
    have hsome : ((reported r).find? (callMark · = callMark c)).isSome :=
      List.find?_isSome.mpr ⟨c, hc, by simp⟩
    obtain ⟨first, hfind⟩ := Option.isSome_iff_exists.mp hsome
    have hlook : callMark first = callMark c := by
      simpa using List.find?_some hfind
    exact drawn_iff.mpr ⟨first, hfind,
      hall first (List.mem_of_find?_eq_some hfind) c hc hlook⟩

end Drawn

end Chart

namespace Scene

/-- Every reported call is of a file, which is at its place. -/
theorem isFile_of_mem_calls {s : Scene} {patience : Option Nat} {p : Progress}
    {endpoint : Endpoint} {r : FlowResult}
    (h : (s.analyzeFlow patience p endpoint).2 = .ok r) :
    ∀ (i : Nat) (m : Middleware), r.middlewares[i]? = some m → ∀ c ∈ m.calls,
      c.path.Plain ∧ (s.fileAt? c.path).isSome ∧ c.path.place = c.path := by
  obtain ⟨start, p', names, hmemory, hpass, -⟩ := passes_of_analyzeFlow h
  have hstart : s.Knows [] start.memory := hmemory ▸ .empty
  have htold : s.Reported [] start.memory := hmemory ▸ .empty
  intro i
  induction i using Nat.strong_induction_on with
  | _ i ih =>
      intro m hm c hc
      obtain ⟨hgrounded, hall⟩ := hpass.reports hstart htold i m hm
      rcases hall c hc with ⟨earlier, hearlier, c', hc', hmark⟩ | hfull
      · obtain ⟨j, hj⟩ := List.mem_iff_getElem?.mp hearlier
        rw [List.nil_append, List.getElem?_take] at hj
        split at hj
        · rename_i hlt
          have hpath : c'.path = c.path := congrArg (·.2.2.2) hmark
          rw [← hpath]
          exact ih j hlt earlier hj c' hc'
        · cases hj
      · obtain ⟨record, hrecord, hpath⟩ := List.mem_map.mp hfull
        rw [← hpath]
        exact hgrounded.files record (List.mem_of_mem_filter hrecord)

/-- **Which reported calls are drawn.**  A call with a template that a
middleware of a result reports is in the chart, with its family, template, line
and path, just when the first reported call that looks like it is of the same
file.  So all are drawn if and only if no two of different files look alike,
and all are where the scene tells its files apart. -/
theorem reported_drawn (s : Scene) (patience : Option Nat) (p : Progress)
    (endpoint : Endpoint) (r : FlowResult)
    (h : (s.analyzeFlow patience p endpoint).2 = .ok r) (f : Folding) :
    (∀ c ∈ reported r, Drawn f r c ↔
      ∃ first, (reported r).find? (callMark · = callMark c) = some first ∧
        first.path = c.path) ∧
    ((∀ c ∈ reported r, Drawn f r c) ↔
      ∀ c ∈ reported r, ∀ c' ∈ reported r, callMark c = callMark c' →
        c.path = c'.path) ∧
    (s.TellsApart → ∀ c ∈ reported r, Drawn f r c) := by
  have hfile : ∀ c ∈ reported r,
      c.path.Plain ∧ (s.fileAt? c.path).isSome ∧ c.path.place = c.path := by
    intro c hc
    obtain ⟨m, hm, hc⟩ := List.mem_flatMap.mp hc
    obtain ⟨i, hi⟩ := List.mem_iff_getElem?.mp hm
    exact isFile_of_mem_calls h i m hi c (List.mem_of_mem_filter hc)
  refine ⟨fun c _ => drawn_iff, all_drawn_iff,
    fun hapart => all_drawn_iff.mpr ?_⟩
  intro c hc c' hc' hlook
  have hkey : pathKey c.path = pathKey c'.path := congrArg (·.2.2.2) hlook
  have hplain : ∀ c ∈ reported r, c.path.Plain ∧ (s.fileAt? c.path).isSome :=
    fun c hc => ⟨(hfile c hc).1, (hfile c hc).2.1⟩
  exact (hapart.key_eq_iff (hplain c hc) (hplain c' hc')).mp hkey

/-- The second middleware reports the call of the file that both require, and
the call is drawn, although it hangs on the first middleware. -/
theorem reported_drawn_twins : twins.TellsApart ∧
    ∃ r, (twins.analyzeFlow none {}
        { middleware := .array [.string "a", .string "b"] }).2 = .ok r ∧
      ∃ m c, r.middlewares[1]? = some m ∧ c ∈ m.calls ∧ c.path = loopFile "c" ∧
        Drawn ["MW1_collapsed"] r c := by
  have hlist :
    ({ middleware := .array [.string "a", .string "b"] } : Endpoint).specifiers?
      = some ["a", "b"] := rfl
  obtain ⟨r, hr, hnames⟩ := exists_analyzeFlow (s := twins) hlist
    (fun name hname => ⟨_, (entry_twins name hname).1⟩) {}
  obtain ⟨start, p', hmemory, hpass⟩ := passes_of_analyzeFlow_none hlist hr
  have hsettled : twins.Settled start.memory := hmemory ▸ .empty
  obtain ⟨-, hms⟩ :=
    hpass.portrays hsettled (hasRoom_twins fun _ hname => hname)
    fun name hname q hq => ⟨name, hname, hq⟩
  obtain ⟨call, htemplate, hpath, hcalls⟩ := calls_twins
  obtain ⟨m, hm, hname⟩ : ∃ m, r.middlewares[1]? = some m ∧ m.name = "b" := by
    have hsecond : (r.middlewares.map (·.name))[1]? = some "b" := by
      rw [hnames]; rfl
    rw [List.getElem?_map] at hsecond
    exact Option.map_eq_some_iff.mp hsecond
  have hmem := List.mem_of_getElem? hm
  have hcall : call ∈ m.calls :=
    (hcalls m (hms m hmem) (by simp [hname]) call).mpr rfl
  have hreported : call ∈ reported r :=
    List.mem_flatMap.mpr ⟨m, hmem,
      List.mem_filter.mpr ⟨hcall, by rw [htemplate]; decide⟩⟩
  exact ⟨tellsApart_twins, r, hr, m, call, hm, hcall, hpath,
    (reported_drawn twins none {} _ r hr _).2.2 tellsApart_twins call hreported⟩

/-- Two files whose names differ in nothing but case, each of which calls a
service. -/
def alike : Scene where
  files :=
    { entries := [
        (["home", "ws"], .directory),
        (["home", "ws", "agl-m-middleware"], .directory),
        (["home", "ws", "agl-m-middleware", "a.js"],
          .file "forwardRequest()".toUTF8 1000),
        (["home", "ws", "agl-m-middleware", "A.js"],
          .file "forwardRequest()".toUTF8 1000)]
      current := ["home"] }
  resolver := ⟨{ Config.usual (.ofString "ws") "m" with
    maxDepth := 3, libraryPatterns := [] }, []⟩

attribute [irreducible] alike

/-- The two reported calls look alike. -/
theorem reported_alike :
    ((alike.analyzeFlow none {}
      { middleware := .array [.string "a", .string "A"] }).2.toOption.map
        fun r => (reported r).map ServiceCall.mark)
      = some [("http", some "forwardRequest", 1, loopFile "a"),
        ("http", some "forwardRequest", 1, loopFile "A")] ∧
    pathKey (loopFile "a") = pathKey (loopFile "A") ∧
      loopFile "a" ≠ loopFile "A" := by
  decide +kernel

/-- The call of the second file is reported, and no chart has it. -/
theorem not_drawn_alike :
    ∃ r, (alike.analyzeFlow none {}
        { middleware := .array [.string "a", .string "A"] }).2 = .ok r ∧
      ∃ m ∈ r.middlewares, ∃ c ∈ m.calls,
        c.mark = ("http", some "forwardRequest", 1, loopFile "A") ∧
        ∀ f : Folding, ¬ Drawn f r c := by
  obtain ⟨hmap, hkey, hne⟩ := reported_alike
  obtain ⟨r, hr, hmarks⟩ := Option.map_eq_some_iff.mp hmap
  obtain ⟨c, c', hboth, hc, hc'⟩ : ∃ c c', reported r = [c, c'] ∧
      c.mark = ("http", some "forwardRequest", 1, loopFile "a") ∧
      c'.mark = ("http", some "forwardRequest", 1, loopFile "A") := by
    obtain ⟨c, rest, hboth, hc, hrest⟩ := List.map_eq_cons_iff.mp hmarks
    obtain ⟨c', rest', rfl, hc', hnil⟩ := List.map_eq_cons_iff.mp hrest
    rw [List.map_eq_nil_iff.mp hnil] at hboth
    exact ⟨c, c', hboth, hc, hc'⟩
  have hok : (alike.analyzeFlow none {}
      { middleware := .array [.string "a", .string "A"] }).2 = .ok r := by
    cases hrun : (alike.analyzeFlow none {}
        { middleware := .array [.string "a", .string "A"] }).2 with
    | error e =>
        rw [hrun] at hr
        cases hr
    | ok r' =>
        rw [hrun] at hr
        rw [Option.some.inj hr]
  have hmem : c' ∈ reported r := by simp [hboth]
  obtain ⟨m, hm, hcalls⟩ := List.mem_flatMap.mp hmem
  refine ⟨r, hok, m, hm, c', List.mem_of_mem_filter hcalls, hc',
    fun f hdrawn => ?_⟩
  obtain ⟨first, hfind, hpath⟩ := drawn_iff.mp hdrawn
  simp only [ServiceCall.mark, Prod.mk.injEq] at hc hc'
  have hlook : callMark c = callMark c' := by simp [callMark, hc, hc', hkey]
  rw [hboth, List.find?_cons_of_pos (by simp [hlook]), Option.some.injEq]
    at hfind
  rw [← hfind, hc.2.2.2, hc'.2.2.2] at hpath
  exact hne hpath

end Scene

end Relay
