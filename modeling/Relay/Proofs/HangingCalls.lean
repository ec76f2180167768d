import Relay.Proofs.DrawnCalls
import Relay.Proofs.FirstReports
import Relay.Proofs.Neighbours
import Relay.Proofs.PathKeys

/-!
# Where calls hang

Several middlewares may report a call; it is drawn for the first of them only.
That one has the file of the call in its own tree (`Passes.reports`).  So there
is a part for the call to hang on, unless the middleware has lost the file
(`Grounded.isSome_placeOf?_iff`): a middleware is known by the path at which
its file was found, and its record by the place of that path.  The call of a
lost file hangs on the main part for want of a better one (`calls_hang`).  In a
folded middleware all calls hang on the main part (`eq_mainId_of_folded`).
-/

namespace Relay

open Analysis Chart

/-- What is left of a list of blocks is in a block before which no block has
its mark. -/
theorem exists_first_block {α β ι : Type} [DecidableEq β] {mark : α → β}
    {items : List ι} {block : ι → List α} {a : α}
    (h : a ∈ uniqueBy mark (items.flatMap block)) :
    ∃ (i : Nat) (x : ι), items[i]? = some x ∧ a ∈ block x ∧
      ∀ j < i, ∀ y, items[j]? = some y → ∀ b ∈ block y, mark b ≠ mark a := by
  obtain ⟨-, before, after, hsplit, hbefore⟩ := split_of_mem_uniqueFrom h
  clear h
  induction items generalizing before with
  | nil => simp at hsplit
  | cons x items ih =>
      by_cases hmem : a ∈ block x
      · exact ⟨0, x, rfl, hmem, by simp⟩
      · rw [List.flatMap_cons] at hsplit
        obtain ⟨rest, rfl, hrest⟩ : ∃ rest, before = block x ++ rest ∧
            items.flatMap block = rest ++ a :: after := by
          rcases List.append_eq_append_iff.mp hsplit
            with ⟨rest, hb, hr⟩ | ⟨rest, hb, hr⟩
          · exact ⟨rest, hb, hr⟩
          · cases rest with
            | nil => exact ⟨[], by simpa using hb.symm, by simpa using hr.symm⟩
            | cons c rest =>
                have hc : a = c := (List.cons.inj hr).1
                exact absurd (hb ▸ hc ▸
                  List.mem_append_right _ List.mem_cons_self) hmem
        obtain ⟨hx, hlater⟩ := List.forall_mem_append.mp hbefore
        obtain ⟨i, y, hy, hay, hfirst⟩ := ih rest hrest hlater
        refine ⟨i + 1, y, hy, hay, fun j hj z hz => ?_⟩
        cases j with
        | zero =>
            cases hz
            exact hx
        | succ j => exact hfirst j (by omega) z hz

namespace Chart

mutual

/-- The sites of a record are those of the records in its tree, in order. -/
theorem map_record_sitesOf (steps : List Nat) :
    ∀ r : Record, (sitesOf steps r).map Site.record = r.tree
  | ⟨_, _, _, _, _, _, _, children⟩ => by
      rw [sitesOf, Record.tree, List.map_cons, map_record_sitesBelow]

/-- The sites of some trees are those of their records, in the same order. -/
theorem map_record_sitesBelow (steps : List Nat) (position : Nat) :
    ∀ rs : List Record, (sitesBelow steps position rs).map Site.record =
      Record.trees rs
  | [] => rfl
  | r :: rest => by
      rw [sitesBelow, Record.trees, List.map_append, map_record_sitesOf,
        map_record_sitesBelow]

end

/-- The record of a site is in a tree of its middleware. -/
theorem mem_trees_of_mem_sites {m : Middleware} {site : Site}
    (h : site ∈ sites m) :
    site.record ∈ Record.trees m.components := by
  rw [← map_record_sitesBelow [] 0]
  exact List.mem_map_of_mem h

/-- Each record in the trees of a middleware has a site. -/
theorem exists_mem_sites {m : Middleware} {r : Record}
    (h : r ∈ Record.trees m.components) :
    ∃ site ∈ sites m, site.record = r := by
  rw [← map_record_sitesBelow [] 0] at h
  exact List.mem_map.mp h

/-- The middleware that a call is drawn for is the first one that reports it. -/
theorem exists_first_of_mem_placedCalls {f : Folding}
    {middlewares : List Middleware} {placed : NodeId × ServiceCall}
    (h : placed ∈ placedCalls f middlewares) :
    ∃ i m, middlewares[i]? = some m ∧ placed ∈ callsOf f i m ∧
      ∀ j < i, ∀ earlier, middlewares[j]? = some earlier →
        ∀ c ∈ earlier.calls, callMark c ≠ callMark placed.2 := by
  obtain ⟨i, ⟨m, index⟩, hentry, hplaced, hfirst⟩ := exists_first_block h
  rw [List.getElem?_zipIdx, Option.map_eq_some_iff] at hentry
  obtain ⟨m', hm, heq⟩ := hentry
  cases heq
  rw [Nat.zero_add] at hplaced
  refine ⟨i, m, hm, hplaced, fun j hj earlier hearlier c hc hmark => ?_⟩
  obtain ⟨call, hcall, rfl⟩ := List.mem_map.mp hplaced
  have htemplate : c.template = call.template := congrArg (·.2.1) hmark
  have hfilter : c ∈ earlier.calls.filter fun c => c.template.getD "" ≠ "" := by
    rw [List.mem_filter, htemplate]
    exact ⟨hc, (List.mem_filter.mp hcall).2⟩
  have hentry : middlewares.zipIdx[j]? = some (earlier, j) := by
    rw [List.getElem?_zipIdx, hearlier, Option.map_some, Nat.zero_add]
  exact hfirst j hj _ hentry _ (List.mem_map_of_mem hfilter) hmark

/-- Every call with a template that is reported is drawn, or one with
its mark. -/
theorem exists_mem_placedCalls (f : Folding) {middlewares : List Middleware}
    {m : Middleware} (hm : m ∈ middlewares) {c : ServiceCall} (hc : c ∈ m.calls)
    (htemplate : c.template.getD "" ≠ "") :
    ∃ placed ∈ placedCalls f middlewares, callMark placed.2 = callMark c := by
  have hmem : c ∈ middlewares.flatMap templated :=
    List.mem_flatMap.mpr ⟨m, hm,
      List.mem_filter.mpr ⟨hc, by simpa using htemplate⟩⟩
  obtain ⟨c', hc', hmark⟩ :=
    (exists_mem_uniqueFrom callMark [] _ _).mpr ⟨List.not_mem_nil, c, hmem, rfl⟩
  have hdrawn : c' ∈ (placedCalls f middlewares).map (·.2) := by
    rw [map_snd_placedCalls]
    exact hc'
  obtain ⟨placed, hplaced, rfl⟩ := List.mem_map.mp hdrawn
  exact ⟨placed, hplaced, hmark⟩

section Folded

variable {f : Folding} {index : Nat}

/-- Nothing below a folded middleware is drawn. -/
theorem draws_of_folded (h : f.showsMiddleware index = false)
    (steps : List Nat) :
    f.draws index steps = false := by
  rw [Folding.draws, Bool.eq_false_iff]
  intro hshows
  have htop : f.shows index [] = true :=
    Folding.shows_of_suffix List.nil_suffix hshows
  rw [Folding.shows, h] at htop
  cases htop

/-- All calls of a folded middleware hang on the part above its files. -/
theorem eq_mainId_of_folded (h : f.showsMiddleware index = false)
    {m : Middleware} {same : Path → Bool} {node : NodeId}
    (hplace : placeOf? f index m same = some node) :
    node = mainId index m := by
  have hnearest : ∀ steps,
      f.nearest index (mainId index m) steps = mainId index m := by
    intro steps
    rcases Folding.nearest_eq_or (mainId index m) steps
      with htop | ⟨t, -, -, hdraws, -⟩
    · exact htop
    · rw [draws_of_folded h] at hdraws
      cases hdraws
  rw [placeOf?] at hplace
  split at hplace
  · exact (Option.some.inj hplace).symm
  · have hnone : ((sites m).find? fun _ => false) = none :=
      List.find?_eq_none.mpr (by simp)
    simp only [draws_of_folded h, Bool.and_false, hnone, hnearest] at hplace
    obtain ⟨site, -, heq⟩ := Option.map_eq_some_iff.mp hplace
    exact heq.symm

end Folded

end Chart

/-- A middleware loses a file that its own record is of: the middleware has the
path by which its file was found, which names a drive, the record has the place
of that path, and nothing else in the tree is of the file. -/
def Middleware.Loses (m : Middleware) (file : Path) : Prop :=
  (∃ path, m.path = some path ∧ path ≠ file ∧ path.place = file) ∧
    ∀ site ∈ sites m, site.record.path ≠ file

namespace Scene

variable {s : Scene} {mid : Middleware}

/-- Where files are told apart, comparing keys is comparing paths. -/
theorem TellsApart.key_eq_iff (h : s.TellsApart) {p q : Path}
    (hp : p.Plain ∧ (s.fileAt? p).isSome)
    (hq : q.Plain ∧ (s.fileAt? q).isSome) :
    pathKey p = pathKey q ↔ p = q := by
  constructor
  · intro hkey
    exact h p q hp.1 hq.1 hp.2 hq.2 hkey
  · rintro rfl
    rfl

/-- The records of a middleware's tree: its own and those at its sites. -/
theorem trees_toList {record : Record} (h : mid.record = some record) :
    Record.trees mid.record.toList = record :: Record.trees mid.components := by
  simp [h, Record.trees, Record.tree_eq, Middleware.components]

/-- The sites of a middleware are in the tree of its record. -/
theorem mem_trees_toList_of_mem_sites {site : Site} (h : site ∈ sites mid) :
    site.record ∈ Record.trees mid.record.toList := by
  have hbelow := mem_trees_of_mem_sites h
  cases hrecord : mid.record with
  | none =>
      rw [Middleware.components, hrecord] at hbelow
      simp [Record.trees] at hbelow
  | some record =>
      rw [← hrecord, trees_toList hrecord]
      exact List.mem_cons_of_mem _ hbelow

/-- **Keys instead of paths.**  Where files are told apart, the calls of a file
hang on the same part by the keys of paths and by the paths. -/
theorem Grounded.placeOf?_key_eq (h : s.Grounded mid) (hapart : s.TellsApart)
    {q : Path} (hq : q.Plain ∧ (s.fileAt? q).isSome) (f : Folding)
    (index : Nat) :
    placeOf? f index mid (pathKey · = pathKey q)
      = placeOf? f index mid (· = q) := by
  apply placeOf?_congr
  · cases hpath : mid.path with
    | none => rw [Option.any_none, Option.any_none]
    | some path =>
        rw [Option.any_some, Option.any_some, decide_eq_decide]
        exact hapart.key_eq_iff (h.entry path hpath) hq
  · intro site hsite
    obtain ⟨hplain, hfile, -⟩ :=
      h.files site.record (mem_trees_toList_of_mem_sites hsite)
    rw [decide_eq_decide]
    exact hapart.key_eq_iff ⟨hplain, hfile⟩ hq

/-- A file with a full record in the tree of a middleware is a file. -/
theorem Grounded.file_of_mem (h : s.Grounded mid) {q : Path}
    (hq : q ∈ Record.fullPaths mid.record.toList) :
    q.Plain ∧ (s.fileAt? q).isSome := by
  obtain ⟨r, hr, rfl⟩ := List.mem_map.mp hq
  obtain ⟨hplain, hfile, -⟩ := h.files r (List.mem_of_mem_filter hr)
  exact ⟨hplain, hfile⟩

/-- The calls of a file with a full record in the tree of a middleware hang
somewhere, unless the middleware has lost the file. -/
theorem Grounded.isSome_placeOf?_iff (h : s.Grounded mid) {q : Path}
    (hq : q ∈ Record.fullPaths mid.record.toList) (f : Folding) (index : Nat) :
    (placeOf? f index mid (· = q)).isSome ↔ ¬ mid.Loses q := by
  rw [Chart.isSome_placeOf?_iff]
  constructor
  · rintro (hown | ⟨site, hsite, hsame⟩) ⟨⟨path, hpath, hne, -⟩, hsites⟩
    · rw [hpath, Option.any_some, decide_eq_true_eq] at hown
      exact hne hown
    · exact hsites site hsite (of_decide_eq_true hsame)
  · intro hkept
    obtain ⟨r, hr, rfl⟩ := List.mem_map.mp hq
    have htree := List.mem_of_mem_filter hr
    cases hrecord : mid.record with
    | none =>
        rw [hrecord] at htree
        simp [Record.trees] at htree
    | some record =>
        rw [trees_toList hrecord] at htree
        rcases List.mem_cons.mp htree with rfl | hbelow
        · obtain ⟨path, hpath, hplace⟩ :=
            Option.map_eq_some_iff.mp (h.own r hrecord)
          by_cases hsame : path = r.path
          · exact .inl (by simp [hpath, hsame])
          · by_contra hnone
            rw [not_or, not_exists] at hnone
            refine hkept ⟨⟨path, hpath, hsame, hplace⟩,
              fun site hsite heq => ?_⟩
            exact hnone.2 site ⟨hsite, decide_eq_true heq⟩
        · obtain ⟨site, hsite, heq⟩ := exists_mem_sites hbelow
          exact .inr ⟨site, hsite, by simp [heq]⟩

/-- A middleware loses no file if its name stands for the place of its file. -/
theorem Grounded.not_loses (h : s.Grounded mid)
    (hhome : ∀ path, s.entry mid.name = .ok (some path) → path.place = path)
    (q : Path) : ¬ mid.Loses q := by
  rintro ⟨⟨path, hpath, hne, hplace⟩, -⟩
  exact hne ((hhome path (h.named path hpath)).symm.trans hplace)

/-- With room enough, a call that is reported is one of a file that can be
reached. -/
theorem Portrays.of_mem_calls (h : s.Portrays mid) {c : ServiceCall}
    (hc : c ∈ mid.calls) :
    s.ReachedFrom mid.name c.path ∧ ∃ facts, s.own? c.path = some facts ∧
      c ∈ facts.calls := by
  obtain ⟨records, hcovers, hlists⟩ := h
  rw [Middleware.calls_of_lists hlists] at hc
  obtain ⟨r, hr, hcall⟩ := Middleware.mem_calls_rollUp hc
  have hown := (hcovers.own r hr).2
  rw [path_of_mem_calls hown hcall]
  exact ⟨hcovers.mem_iff.mp (List.mem_map_of_mem hr), r.facts, hown, hcall⟩

/-- With room enough, all calls of the files that can be reached are
reported. -/
theorem Portrays.exists_mem_calls (h : s.Portrays mid) {path : Path}
    (hreached : s.ReachedFrom mid.name path) {facts : Facts}
    (hown : s.own? path = some facts) {c : ServiceCall} (hc : c ∈ facts.calls) :
    ∃ c' ∈ mid.calls, c'.mark = c.mark := by
  obtain ⟨records, hcovers, hlists⟩ := h
  obtain ⟨r, hr, rfl⟩ := List.mem_map.mp (hcovers.mem_iff.mpr hreached)
  rw [(hcovers.own r hr).2, Option.some.injEq] at hown
  subst hown
  rw [Middleware.calls_of_lists hlists]
  exact Middleware.exists_mem_calls_rollUp hr hc

/-- A file on a drive and another one whose path starts with the letter of the
drive: the first one calls a service. -/
def drives : Scene where
  files :=
    { entries := [
        (["c"], .directory),
        (["c", "x.js"], .file "1".toUTF8 1000),
        (["home", "C:"], .directory),
        (["home", "C:", "x.js"], .file "forwardRequest()".toUTF8 1000)]
      current := ["home"] }
  resolver := ⟨{ Config.usual (.ofString "ws") "m" with
    maxDepth := 3, libraryPatterns := [] }, []⟩

attribute [irreducible] drives

/-- The path by which the file is found, and the path at which it is kept. -/
def drivePath : Path := ⟨.root, ["c", "x.js"]⟩

/-- The place of the file. -/
def drivePlace : Path := ⟨.here, ["C:", "x.js"]⟩

/-- The names of the two scenes have different keys.  In the second one, the
middleware has the path, and the call that it reports the place. -/
theorem evaluated_drives :
    twins.files.NamesApart ∧ drives.files.NamesApart ∧
    pathKey drivePath ≠ pathKey drivePlace ∧
    ((drives.analyzeFlow none {}
        { middleware := .array [.string "/c/x"] }).2.toOption.map
      fun r => (r.middlewares.map (·.path),
        r.middlewares.flatMap fun m => m.components.map (·.path),
        r.middlewares.flatMap fun m =>
          m.calls.map fun c => (c.template, c.path)))
      = some ([some drivePath], [],
          [(some "forwardRequest", drivePlace)]) := by
  decide +kernel

/-- The scene with two files that require a third one tells its files apart. -/
theorem tellsApart_twins : twins.TellsApart :=
  tellsApart_of_names evaluated_drives.1

/-- Both middlewares report the one call that there is, and nothing else. -/
theorem calls_twins :
    ∃ call : ServiceCall, call.template = some "forwardRequest" ∧
    call.path = loopFile "c" ∧
    ∀ m, twins.Portrays m → m.name ∈ ["a", "b"] → ∀ c, c ∈ m.calls ↔
      c = call := by
  obtain ⟨hall, -, -, hc⟩ := layout_twins
  obtain ⟨facts, hown, htemplates⟩ := Option.map_eq_some_iff.mp hc
  have hone : facts.calls.length = 1 := by
    rw [← List.length_map (·.template), htemplates, List.length_singleton]
  obtain ⟨call, hcalls⟩ := List.length_eq_one_iff.mp hone
  have hmem : call ∈ facts.calls := by
    rw [hcalls]; exact List.mem_singleton_self _
  rw [hcalls] at htemplates
  refine ⟨call, (List.cons.inj htemplates).1, path_of_mem_calls hown hmem,
    fun m hm hname => ?_⟩
  have honly : ∀ c ∈ m.calls, c = call := by
    intro c hcm
    obtain ⟨⟨root, hroot, -, hway⟩, facts', hown', hc'⟩ := hm.of_mem_calls hcm
    have hwithin :
        c.path ∈ twins.within {q | ∃ name ∈ [m.name], q ∈ twins.entries name} :=
      ⟨root, ⟨m.name, List.mem_singleton_self _, hroot⟩,
        Relation.ReflTransGen.mono (fun _ _ => Leads.requires) _ _ hway⟩
    have hnone : ∀ name ∈ ["a", "b"], c.path ≠ loopFile name := by
      intro name hname hpath
      have hempty := (hall name hname).2.2.2
      rw [← hpath, hown', Option.map_some, Option.some.injEq] at hempty
      rw [hempty] at hc'
      cases hc'
    rcases within_twins (by simpa using hname) hwithin with ha | hb | hthird
    · exact absurd ha (hnone "a" (by simp))
    · exact absurd hb (hnone "b" (by simp))
    · rw [hthird, hown, Option.some.injEq] at hown'
      rw [← hown', hcalls] at hc'
      exact List.mem_singleton.mp hc'
  intro c
  refine ⟨honly c, ?_⟩
  rintro rfl
  obtain ⟨c', hc', -⟩ :=
    hm.exists_mem_calls (reachedFrom_twins m.name hname) hown hmem
  rw [← honly c' hc']
  exact hc'

/-- **Where calls hang.**  Let a scene tell its files apart.  A call in the
chart of a result is drawn for the first middleware that reports it.

Unless that middleware has lost the file of the call, it hangs on the
middleware's own part if the file is the middleware's, else on the first drawn
part of its file, else on the nearest drawn part above the first place of its
file in the middleware's tree.  There is such a part, so that the spots of the
middleware have one for the file, and it is the same whether paths are compared
or their keys.

If the middleware has lost the file, its spots have none for the file, and the
call hangs on the middleware's own part for want of a better one. -/
theorem calls_hang (s : Scene) (hapart : s.TellsApart) (patience : Option Nat)
    (p : Progress) (endpoint : Endpoint) (r : FlowResult)
    (h : (s.analyzeFlow patience p endpoint).2 = .ok r) (f : Folding) :
    ∀ placed ∈ placedCalls f r.middlewares, ∃ i m,
      r.middlewares[i]? = some m ∧ placed.2 ∈ m.calls ∧
      (∀ j < i, ∀ earlier, r.middlewares[j]? = some earlier →
        placed.2 ∉ earlier.calls) ∧
      (¬ m.Loses placed.2.path →
        ((spotsOf f i m).lookup (pathKey placed.2.path)).isSome ∧
        placeOf? f i m (pathKey · = pathKey placed.2.path) = some placed.1 ∧
        placeOf? f i m (· = placed.2.path) = some placed.1) ∧
      (m.Loses placed.2.path →
        (spotsOf f i m).lookup (pathKey placed.2.path) = none ∧
        placeOf? f i m (pathKey · = pathKey placed.2.path) = none ∧
        placeOf? f i m (· = placed.2.path) = none ∧
        placed.1 = mainId i m) := by
  intro placed hplaced
  obtain ⟨start, p', names, hmemory, hpass, -⟩ := passes_of_analyzeFlow h
  have hstart : s.Knows [] start.memory := hmemory ▸ .empty
  have htold : s.Reported [] start.memory := hmemory ▸ .empty
  obtain ⟨i, m, hm, hcalls, hfirst⟩ := exists_first_of_mem_placedCalls hplaced
  obtain ⟨hreported, hplace⟩ := of_mem_callsOf hcalls
  refine ⟨i, m, hm, hreported, fun j hj earlier hearlier hmem =>
    hfirst j hj earlier hearlier _ hmem rfl, ?_⟩
  obtain ⟨hgrounded, hall⟩ := hpass.reports hstart htold i m hm
  have hfull : placed.2.path ∈ Record.fullPaths m.record.toList := by
    refine (hall _ hreported).resolve_left ?_
    rintro ⟨earlier, hearlier, c, hc, hmark⟩
    obtain ⟨j, hj⟩ := List.mem_iff_getElem?.mp hearlier
    rw [List.nil_append, List.getElem?_take] at hj
    split at hj
    · rename_i hlt
      obtain ⟨hfamily, htemplate, hline, hpath⟩ := by
        simpa only [ServiceCall.mark, Prod.mk.injEq] using hmark
      refine hfirst j hlt earlier hj c hc ?_
      rw [callMark, callMark, hfamily, htemplate, hline, hpath]
    · cases hj
  have hsome := hgrounded.isSome_placeOf?_iff hfull f i
  have hkey :=
    hgrounded.placeOf?_key_eq hapart (hgrounded.file_of_mem hfull) f i
  have hlookup := lookup_spotsOf f i m (pathKey placed.2.path)
  rw [hkey] at hplace hlookup ⊢
  constructor
  · intro hkept
    obtain ⟨node, hnode⟩ := Option.isSome_iff_exists.mp (hsome.mpr hkept)
    rw [hnode, Option.getD_some] at hplace
    rw [hnode, hplace, ← Option.isSome_map, hlookup, hnode]
    exact ⟨rfl, rfl, rfl⟩
  · intro hlost
    have hnone : placeOf? f i m (· = placed.2.path) = none := by
      rw [← Option.not_isSome_iff_eq_none, hsome, not_not]
      exact hlost
    rw [hnone, Option.getD_none] at hplace
    rw [hnone, Option.map_eq_none_iff] at hlookup
    exact ⟨hlookup, hnone, hnone, hplace⟩

/-- Two middlewares report the call of the file that both require.  With the
first one folded, the call hangs on the part above the first one's files,
although the second one is open. -/
theorem calls_hang_twins : twins.TellsApart ∧
    ∃ r, (twins.analyzeFlow none {}
        { middleware := .array [.string "a", .string "b"] }).2 = .ok r ∧
      ∃ m placed, r.middlewares[0]? = some m ∧
        placed ∈ placedCalls ["MW1_collapsed"] r.middlewares ∧
        ¬ m.Loses placed.2.path ∧
        placed.2.path = loopFile "c" ∧ placed.1 = mainId 0 m := by
  have hlist :
    ({ middleware := .array [.string "a", .string "b"] } : Endpoint).specifiers?
      = some ["a", "b"] := rfl
  obtain ⟨r, hr, hnames⟩ := exists_analyzeFlow (s := twins) hlist
    (fun name hname => ⟨_, (entry_twins name hname).1⟩) {}
  obtain ⟨start, p', hmemory, hpass⟩ := passes_of_analyzeFlow_none hlist hr
  have hsettled : twins.Settled start.memory := hmemory ▸ .empty
  obtain ⟨-, hms⟩ :=
    hpass.portrays hsettled (hasRoom_twins fun _ hname => hname)
    fun name hname q hq => ⟨name, hname, hq⟩
  obtain ⟨call, htemplate, hpath, hcalls⟩ := calls_twins
  have hreport : ∀ m ∈ r.middlewares, ∀ c, c ∈ m.calls ↔ c = call := by
    intro m hm
    refine hcalls m (hms m hm) ?_
    rw [← hnames]
    exact List.mem_map_of_mem hm
  obtain ⟨first, hfirst⟩ : ∃ first, r.middlewares[0]? = some first := by
    cases hempty : r.middlewares with
    | nil => simp [hempty] at hnames
    | cons first rest => exact ⟨first, rfl⟩
  obtain ⟨placed, hplaced, -⟩ := exists_mem_placedCalls ["MW1_collapsed"]
    (List.mem_of_getElem? hfirst)
    ((hreport first (List.mem_of_getElem? hfirst) _).mpr rfl)
    (by rw [htemplate]; decide)
  obtain ⟨i, m, hm, hmem, hearlier, hkept, -⟩ :=
    calls_hang twins tellsApart_twins none {} _ r hr ["MW1_collapsed"]
      placed hplaced
  have hcall : placed.2 = call :=
    (hreport m (List.mem_of_getElem? hm) _).mp hmem
  have hzero : i = 0 := by
    by_contra hi
    refine hearlier 0 (by omega) first hfirst ?_
    exact (hreport first (List.mem_of_getElem? hfirst) _).mpr hcall
  subst hzero
  rw [hfirst, Option.some.injEq] at hm
  subst hm
  have hknows : twins.Knows [] start.memory := hmemory ▸ .empty
  have htold : twins.Reported [] start.memory := hmemory ▸ .empty
  have hfound : ¬ first.Loses placed.2.path := by
    refine (hpass.reports hknows htold 0 first hfirst).1.not_loses ?_ _
    intro path hentry
    have hname : first.name ∈ ["a", "b"] := by
      rw [← hnames]
      exact List.mem_map_of_mem (List.mem_of_getElem? hfirst)
    rw [(entry_twins first.name hname).1] at hentry
    cases hentry
    exact (layout_twins.1 first.name hname).2.1
  exact ⟨tellsApart_twins, r, hr, first, placed, hfirst, hplaced, hfound,
    hcall ▸ hpath, eq_mainId_of_folded (by decide) (hkept hfound).2.2⟩

/-- **A file that is lost.**  The files of the second scene are told apart, and
its one middleware reports the call of the file at the place of its path.  The
spots of the middleware have none for that file, however the chart is folded,
and no part of the chart is that of the file. -/
theorem calls_lost_drives : drives.TellsApart ∧
    ∃ r, (drives.analyzeFlow none {}
        { middleware := .array [.string "/c/x"] }).2 = .ok r ∧
      ∃ m placed, r.middlewares = [m] ∧ m.path = some drivePath ∧
        placed ∈ placedCalls [] r.middlewares ∧ placed.2.path = drivePlace ∧
        ∀ f : Folding,
          (spotsOf f 0 m).lookup (pathKey placed.2.path) = none ∧
          placeOf? f 0 m (pathKey · = pathKey placed.2.path) = none := by
  obtain ⟨-, hnames, hkeys, hrun⟩ := evaluated_drives
  obtain ⟨r, hr, hms⟩ := Option.map_eq_some_iff.mp hrun
  simp only [Prod.mk.injEq] at hms
  obtain ⟨hpaths, hcomponents, hcalls⟩ := hms
  obtain ⟨m, rest, hm, hpath, hnil⟩ := List.map_eq_cons_iff.mp hpaths
  rw [List.map_eq_nil_iff.mp hnil] at hm
  simp only [hm, List.flatMap_singleton, List.map_eq_nil_iff]
    at hcomponents hcalls
  obtain ⟨call, others, hcall, hmark, hnone⟩ := List.map_eq_cons_iff.mp hcalls
  rw [List.map_eq_nil_iff.mp hnone] at hcall
  obtain ⟨htemplate, hplace⟩ := Prod.mk.inj hmark
  have hmem : m ∈ r.middlewares := by simp [hm]
  obtain ⟨placed, hplaced, -⟩ := exists_mem_placedCalls [] hmem
    (c := call) (by simp [hcall]) (by rw [htemplate]; decide)
  obtain ⟨i, m', hm', hcalls', -⟩ := exists_first_of_mem_placedCalls hplaced
  have hsame : m' = m := by
    rw [hm] at hm'
    exact List.mem_singleton.mp (List.mem_of_getElem? hm')
  have hreported := (of_mem_callsOf hcalls').1
  rw [hsame, hcall, List.mem_singleton] at hreported
  have hfile : placed.2.path = drivePlace := by rw [hreported, hplace]
  refine ⟨tellsApart_of_names hnames, r, eq_ok_of_toOption hr, m, placed,
    hm, hpath, hplaced, hfile, fun f => ?_⟩
  have hlost : placeOf? f 0 m (pathKey · = pathKey placed.2.path) = none := by
    rw [← Option.not_isSome_iff_eq_none, Chart.isSome_placeOf?_iff,
      hfile, hpath]
    simp [sites, hcomponents, sitesBelow, hkeys]
  have hlookup := lookup_spotsOf f 0 m (pathKey placed.2.path)
  rw [hlost, Option.map_eq_none_iff] at hlookup
  exact ⟨hlookup, hlost⟩

end Scene

end Relay
