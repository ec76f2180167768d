import Relay.Proofs.Chains
import Relay.Proofs.SingleAnalysis

/-!
# Which middleware reports a call first

A call is reported by every middleware that leads to its file.  The file is
analysed only once, and its full record stands in the tree of the middleware
during which that happened.  Along a chain, whatever is kept has been reported
(`Reported`), and a file that is kept anew has a full record in the new tree
(`Explored.kept_or_full`).  So the first middleware that reports a call has the
call's file in its own tree (`Passes.reports`); only later ones may know the
file from a reference.
-/

namespace Relay

open Analysis

/-- What tells the calls of a middleware apart. -/
def Analysis.ServiceCall.mark (c : ServiceCall) :
    String × Option String × Nat × Path :=
  (c.family, c.template, c.line, c.path)

/-- Calls in own facts name the file. -/
theorem Scene.path_of_mem_calls {s : Scene} {path : Path} {facts : Facts}
    (h : s.own? path = some facts) {c : ServiceCall} (hc : c ∈ facts.calls) :
    c.path = path := by
  obtain ⟨bytes, modified, source, log, -, hread, hfacts⟩ :=
    own?_eq_some_iff.mp h
  obtain ⟨dependencies, -, rfl⟩ := eq_of_factsOf hfacts
  rw [← read_path hread]
  exact ServiceCalls.path_of_mem_of hc

namespace Middleware

/-- The calls of a middleware come from the files that it expands to. -/
theorem mem_calls_rollUp {m : Middleware} {records : List Record}
    {c : ServiceCall} (h : c ∈ (m.rollUp records).calls) :
    ∃ r ∈ records, c ∈ r.facts.calls := by
  exact List.mem_flatMap.mp (mem_of_mem_uniqueFrom h)

/-- Each call of such a file is among them, or one that cannot be told apart
from it. -/
theorem exists_mem_calls_rollUp {m : Middleware} {records : List Record}
    {r : Record} (hr : r ∈ records) {c : ServiceCall} (hc : c ∈ r.facts.calls) :
    ∃ c' ∈ (m.rollUp records).calls, c'.mark = c.mark := by
  refine (exists_mem_uniqueFrom ServiceCall.mark [] _ c.mark).mpr
    ⟨List.not_mem_nil, c, ?_, rfl⟩
  exact List.mem_flatMap.mpr ⟨r, hr, hc⟩

end Middleware

namespace Memory

variable {m : Memory}

mutual

/-- From the root of a tree that stands for what is kept, a way through the
memory leads to every record of the tree. -/
theorem way_of_mem_tree (hm : m.Anchored) :
    ∀ {r t : Record}, m.Anchors r →
      (∀ u ∈ r.tree, u.shallow = true → u.children = []) → t ∈ r.tree →
      m.Anchors t ∧ Relation.ReflTransGen
        (fun a b => b ∈ m.below a) r.path t.path
  | ⟨name, displayName, path, depth, parent, facts, shallow, children⟩, t, hr,
    hsound, ht => by
      rw [Record.tree] at ht hsound
      obtain ⟨hroot, hbelow⟩ := List.forall_mem_cons.mp hsound
      rcases List.mem_cons.mp ht with rfl | ht
      · exact ⟨hr, .refl⟩
      · have hne : children ≠ [] := by
          rintro rfl
          simp [Record.trees] at ht
        have hkept : ∃ k, m.find? path = some k ∧
            k.record.children = children := by
          cases hk : m.find? path with
          | none => exact absurd (hr.bare hk).2.2 hne
          | some k =>
              rcases hr.kept k hk with hshallow | hrecord
              · exact absurd (hroot hshallow) hne
              · exact ⟨k, rfl, by rw [← hrecord]⟩
        obtain ⟨k, hk, rfl⟩ := hkept
        obtain ⟨hanchors, c, hc, hway⟩ :=
          way_of_mem_trees hm (hm path k hk) hbelow ht
        refine ⟨hanchors, Relation.ReflTransGen.head ?_ hway⟩
        rw [below, hk]
        exact List.mem_map_of_mem hc

/-- From one of the roots of some trees, a way leads to every record of the
trees. -/
theorem way_of_mem_trees (hm : m.Anchored) :
    ∀ {rs : List Record} {t : Record}, (∀ r ∈ rs, m.Anchors r) →
      Record.Sound rs → t ∈ Record.trees rs → m.Anchors t ∧
        ∃ r ∈ rs, Relation.ReflTransGen (fun a b => b ∈ m.below a) r.path t.path
  | [], t, _, _, ht => by simp [Record.trees] at ht
  | r :: rest, t, hrs, hsound, ht => by
      obtain ⟨hr, hrest⟩ := List.forall_mem_cons.mp hrs
      rw [Record.Sound, Record.trees] at hsound
      obtain ⟨hfirst, hlast⟩ := List.forall_mem_append.mp hsound
      rw [Record.trees] at ht
      rcases List.mem_append.mp ht with ht | ht
      · obtain ⟨hanchors, hway⟩ := way_of_mem_tree hm hr hfirst ht
        exact ⟨hanchors, r, List.mem_cons_self, hway⟩
      · obtain ⟨hanchors, root, hroot, hway⟩ :=
          way_of_mem_trees hm hrest hlast ht
        exact ⟨hanchors, root, List.mem_cons_of_mem _ hroot, hway⟩

end

end Memory

/-- What a glance gives is of the file that is looked at, and nothing is below
it. -/
theorem Scene.Glance.of_mem {s : Scene} {room : Nat} {depth : Int}
    {parent : Option Path} {m : Memory} {path : Path} {found : Option Record}
    (look : s.Glance room depth parent m path found) :
    ∀ r ∈ found.toList, r.path = path ∧ (s.fileAt? path).isSome ∧
      r.children = [] := by
  cases look with
  | missing => simp
  | cycle hfile => exact List.forall_mem_singleton.mpr ⟨rfl, hfile, rfl⟩
  | again _ hkept =>
      have hpath := Memory.path_of_find? (find?_of_current? hkept)
      obtain ⟨file, hfile, -⟩ := Option.bind_eq_some_iff.mp hkept
      exact List.forall_mem_singleton.mpr
        ⟨hpath, Option.isSome_iff_exists.mpr ⟨file, hfile⟩, rfl⟩
  | limit hfile => exact List.forall_mem_singleton.mpr ⟨rfl, hfile, rfl⟩
  | failed => simp

namespace Explored

variable {s : Scene} {room : Nat} {depth : Int} {parent : Option Path}
  {m m' : Memory} {paths : List Path} {records : List Record}
  {opened : List Path}

/-- **What is kept anew has a full record.** -/
theorem kept_or_full
    (h : Explored s room depth parent m paths m' records opened) :
    ∀ q ∈ m'.keptPaths, q ∈ m.keptPaths ∨ q ∈ Record.fullPaths records := by
  induction h with
  | done => exact fun q hq => .inl hq
  | glance look rest ih =>
      intro q hq
      refine (ih q hq).imp_right fun hfull => ?_
      rw [Record.fullPaths_append]
      exact List.mem_append_right _ hfull
  | broken hfile fresh hown rest ih => exact ih
  | @full room depth parent m m₁ m₂ path paths children records inner outer file
      facts hfile fresh hown below rest ihBelow ihRest =>
      intro q hq
      have hpaths : Record.fullPaths
            (s.recordOf path.place depth parent facts children :: records)
          = path.place :: Record.fullPaths children ++
              Record.fullPaths records := by
        rw [← List.singleton_append, Record.fullPaths_append, (Record.of_full
          (r := s.recordOf path.place depth parent facts children) rfl
          below.fullPaths_sublist.2).1]
        rfl
      rw [hpaths]
      rcases ihRest q hq with ⟨k, hk⟩ | hfull
      · rw [Memory.find?_leave, Memory.find?_keep] at hk
        split at hk
        · rename_i heq
          exact .inr (List.mem_append_left _ (heq ▸ List.mem_cons_self))
        · refine (ihBelow q ⟨k, hk⟩).imp id fun hinner => ?_
          exact List.mem_append_left _ (List.mem_cons_of_mem _ hinner)
      · exact .inr (List.mem_append_right _ hfull)

/-- The records that come of some paths are of the files at their places. -/
theorem path_of_mem
    (h : Explored s room depth parent m paths m' records opened) :
    ∀ r ∈ records, r.path ∈ paths.map Path.place := by
  induction h with
  | done => simp
  | @glance room depth parent m m' path paths found records opened look
      rest ih =>
      rw [List.map_cons]
      refine List.forall_mem_append.mpr ⟨fun r hr => ?_, fun r hr => ?_⟩
      · rw [(look.of_mem r hr).1]
        exact List.mem_cons_self
      · exact List.mem_cons_of_mem _ (ih r hr)
  | broken hfile fresh hown rest ih =>
      exact fun r hr => List.mem_cons_of_mem _ (ih r hr)
  | full hfile fresh hown below rest ihBelow ihRest =>
      exact List.forall_mem_cons.mpr ⟨List.mem_cons_self,
        fun r hr => List.mem_cons_of_mem _ (ihRest r hr)⟩

/-- Every record of an exploration is of a file. -/
theorem isFile_of_mem_trees
    (h : Explored s room depth parent m paths m' records opened) :
    ∀ r ∈ Record.trees records, r.path.Plain ∧ (s.fileAt? r.path).isSome := by
  induction h with
  | done => simp [Record.trees]
  | @glance room depth parent m m' path paths found records opened look
      rest ih =>
      rw [Record.trees_append]
      refine List.forall_mem_append.mpr ⟨?_, ih⟩
      cases found with
      | none => simp [Record.trees]
      | some record =>
          obtain ⟨hpath, hfile, hchildren⟩ := look.of_mem record (by simp)
          have htrees : Record.trees [record] = [record] := by
            simp [Record.trees, Record.tree_eq, hchildren]
          rw [Option.toList_some, htrees, List.forall_mem_singleton, hpath]
          exact ⟨Path.plain_place path, hfile⟩
  | broken hfile fresh hown rest ih => exact ih
  | @full room depth parent m m₁ m₂ path paths children records inner outer file
      facts hfile fresh hown below rest ihBelow ihRest =>
      rw [Record.trees, Record.tree_eq]
      refine List.forall_mem_append.mpr ⟨List.forall_mem_cons.mpr ⟨?_, ihBelow⟩,
        ihRest⟩
      exact ⟨Path.plain_place path, Option.isSome_iff_exists.mpr ⟨file, hfile⟩⟩

end Explored

namespace Scene

variable {s : Scene} {m : Memory}

/-- A way through the memory to a kept file leads to a record with the file's
own facts. -/
theorem Faithful.exists_mem_expand_of_way (h : s.Faithful m) {record : Record}
    (hr : m.Anchors record) {q : Path} (hq : q ∈ m.keptPaths)
    (hway : Relation.ReflTransGen (fun a b => b ∈ m.below a) record.path q) :
    ∃ r ∈ m.expand record, s.own? q = some r.facts := by
  obtain ⟨hsearch, htells⟩ := Memory.expand_depthFirst h.anchored hr
  have hmem := hsearch.mem_iff.mpr ⟨_, List.mem_singleton_self _, hway⟩
  obtain ⟨r, hr, rfl⟩ := List.mem_map.mp hmem
  rcases h.tells (htells r hr) with ⟨-, -, hown⟩ | ⟨hnone, -⟩
  · exact ⟨r, hr, hown⟩
  · obtain ⟨k, hk⟩ := hq
    rw [hnone] at hk
    cases hk

/-- The path of a middleware is that of its name, and it and the paths of the
records in the middleware's tree lead to files; the records are at the places of
their files, and the first one is at that of the middleware. -/
structure Grounded (s : Scene) (mid : Middleware) : Prop where
  named : ∀ path, mid.path = some path → s.entry mid.name = .ok (some path)
  entry : ∀ path, mid.path = some path → path.Plain ∧ (s.fileAt? path).isSome
  own : ∀ record, mid.record = some record →
    mid.path.map Path.place = some record.path
  files : ∀ r ∈ Record.trees mid.record.toList,
    r.path.Plain ∧ (s.fileAt? r.path).isSome ∧ r.path.place = r.path

/-- Every call in the own facts of a kept file is reported by one of some
middlewares. -/
def Reported (s : Scene) (ms : List Middleware) (m : Memory) : Prop :=
  ∀ q ∈ m.keptPaths, ∀ facts, s.own? q = some facts → ∀ c ∈ facts.calls,
    ∃ mid ∈ ms, ∃ c' ∈ mid.calls, c'.mark = c.mark

/-- What a middleware reports: the calls of kept files, and all calls of those
files that are kept anew, which have full records in its tree. -/
structure Reports (s : Scene) (before after : Memory) (mid : Middleware) :
    Prop where
  sound : ∀ c ∈ mid.calls, c.path ∈ after.keptPaths ∧
    ∃ facts, s.own? c.path = some facts ∧ c ∈ facts.calls
  fresh : ∀ q ∈ after.keptPaths, q ∈ before.keptPaths ∨
    q ∈ Record.fullPaths mid.record.toList
  complete : ∀ q ∈ Record.fullPaths mid.record.toList, q ∈ after.keptPaths →
    ∀ facts, s.own? q = some facts → ∀ c ∈ facts.calls, ∃ c' ∈ mid.calls,
      c'.mark = c.mark

variable {names before : List String} {p p' : Progress} {name : String}
  {mid : Middleware}

/-- A name that no file has reports nothing. -/
theorem reports_absent (s : Scene) (m : Memory) (name : String) :
    s.Grounded (.absent name) ∧ s.Reports m m (.absent name) := by
  refine ⟨⟨?_, ?_, ?_, ?_⟩, ⟨?_, fun q hq => .inl hq, ?_⟩⟩
  · intro path hpath
    cases hpath
  · intro path hpath
    cases hpath
  · intro record hrecord
    cases hrecord
  · simp [Middleware.absent, Record.trees]
  · simp [Middleware.absent]
  · simp [Middleware.absent, Record.fullPaths, Record.trees]

section Made

variable {m' : Memory} {path : Path} {found : Option Record}
  {opened : List Path}

/-- What exploring an entry leaves: the memory is faithful, and a way through
it leads from the record of the entry to every record of the tree. -/
theorem Knows.ways (h : s.Knows names m)
    (hexp : Explored s s.room 0 none m [path] m' found.toList opened)
    (hplain : path.Plain) :
    s.Faithful m' ∧ ∀ r ∈ Record.trees found.toList, m'.Anchors r ∧
      ∃ root ∈ found.toList, m'.Anchors root ∧
        Relation.ReflTransGen (fun a b => b ∈ m'.below a) root.path r.path := by
  obtain ⟨hfaithful, hanchors, -⟩ := hexp.faithful h.steady h.faithful
    (List.forall_mem_singleton.mpr hplain)
  refine ⟨hfaithful, fun r hr => ?_⟩
  obtain ⟨hr', root, hroot, hway⟩ :=
    Memory.way_of_mem_trees hfaithful.anchored hanchors
      hexp.fullPaths_sublist.2 hr
  exact ⟨hr', root, hroot, hanchors root hroot, hway⟩

/-- A middleware made of an explored entry is grounded. -/
theorem Knows.grounded_made (h : s.Knows names m)
    (hexp : Explored s s.room 0 none m [path] m' found.toList opened)
    (hnamed : s.entry name = .ok (some path)) :
    s.Grounded (.made name path m' found) := by
  have hentry := found_of_entry hnamed
  have hpath : (Middleware.made name path m' found).path = some path := by
    cases found <;> rfl
  refine ⟨?_, ?_, ?_, ?_⟩
  · intro path' hpath'
    rw [hpath] at hpath'
    cases hpath'
    rw [Middleware.made_name, hnamed]
  · intro path' hpath'
    rw [hpath] at hpath'
    cases hpath'
    obtain ⟨bytes, modified, hfind⟩ := Files.isFile_eq_true_iff.mp hentry.isFile
    exact ⟨hentry.plain, by simp [fileAt?, hfind]⟩
  · intro record hrecord
    rw [Middleware.made_record] at hrecord
    have hroot := hexp.path_of_mem record (by simp [hrecord])
    rw [List.map_singleton, List.mem_singleton] at hroot
    rw [hpath, hroot, Option.map_some]
  · rw [Middleware.made_record]
    intro r hr
    obtain ⟨hplain, hfile⟩ := hexp.isFile_of_mem_trees r hr
    exact ⟨hplain, hfile, ((h.ways hexp hentry.plain).2 r hr).1.home⟩

/-- A middleware made of an explored entry reports what is kept anew. -/
theorem Knows.reports_made (h : s.Knows names m)
    (hexp : Explored s s.room 0 none m [path] m' found.toList opened)
    (hentry : Found s.files path) :
    s.Reports m m' (.made name path m' found) := by
  obtain ⟨hfaithful, hways⟩ := h.ways hexp hentry.plain
  refine ⟨?_, ?_, ?_⟩
  · intro c hc
    cases found with
    | none => cases hc
    | some record =>
        have hanchors :=
          (hways record (by simp [Record.trees, Record.tree_eq])).1
        obtain ⟨r, hr, hcr⟩ := Middleware.mem_calls_rollUp hc
        obtain ⟨-, htells⟩ :=
          Memory.expand_depthFirst hfaithful.anchored hanchors
        rcases hfaithful.tells (htells r hr) with ⟨k, hk, hown⟩ | ⟨-, hbare⟩
        · rw [path_of_mem_calls hown hcr]
          exact ⟨⟨k, hk⟩, r.facts, hown, hcr⟩
        · rw [hbare] at hcr
          cases hcr
  · rw [Middleware.made_record]
    exact hexp.kept_or_full
  · rw [Middleware.made_record]
    intro q hq hkept facts hown c hc
    obtain ⟨r, hr, rfl⟩ := List.mem_map.mp hq
    obtain ⟨-, root, hroot, hanchors, hway⟩ :=
      hways r (List.mem_of_mem_filter hr)
    cases found with
    | none => cases hroot
    | some record =>
        rw [Option.toList_some, List.mem_singleton] at hroot
        subst hroot
        obtain ⟨t, ht, hfacts⟩ :=
          hfaithful.exists_mem_expand_of_way hanchors hkept hway
        rw [hown, Option.some.injEq] at hfacts
        exact Middleware.exists_mem_calls_rollUp ht (hfacts ▸ hc)

end Made

/-- **One more middleware reports.** -/
theorem Knows.reports (h : s.Knows names p.memory)
    (hrun : s.analyzeMiddleware p name = (p', .ok mid)) :
    s.Grounded mid ∧ s.Reports p.memory p'.memory mid := by
  rcases analyzeMiddleware_cases s p name with
    ⟨e, -, hrun'⟩ | ⟨-, hrun'⟩ | ⟨path, p₁, found, opened, hentry, -,
      hexp, hrun'⟩
  · cases hrun'.symm.trans hrun
  · cases hrun'.symm.trans hrun
    exact reports_absent s p.memory name
  · cases hrun'.symm.trans hrun
    exact ⟨h.grounded_made hexp hentry,
      h.reports_made hexp (found_of_entry hentry)⟩

/-- Before any middleware nothing has to be reported. -/
theorem Reported.empty : s.Reported [] {} := by
  rintro q ⟨k, hk⟩
  cases hk

/-- One more middleware reports what is new in the memory since the last one.
-/
theorem Reported.step {ms : List Middleware} {m' : Memory} (h : s.Reported ms m)
    (hmid : s.Reports m m' mid) : s.Reported (ms ++ [mid]) m' := by
  intro q hq facts hown c hc
  rcases hmid.fresh q hq with hold | hfull
  · obtain ⟨other, hother, hreport⟩ := h q hold facts hown c hc
    exact ⟨other, List.mem_append_left _ hother, hreport⟩
  · exact ⟨mid, by simp, hmid.complete q hfull hq facts hown c hc⟩

/-- **Along a chain.**  A call of a middleware has been reported before, or its
file has a full record in the middleware's tree. -/
theorem Passes.reports {ms told : List Middleware} (h : s.Passes p names p' ms)
    (hbefore : s.Knows before p.memory) (htold : s.Reported told p.memory) :
    ∀ i mid, ms[i]? = some mid → s.Grounded mid ∧ ∀ c ∈ mid.calls,
      (∃ earlier ∈ told ++ ms.take i, ∃ c' ∈ earlier.calls, c'.mark = c.mark) ∨
        c.path ∈ Record.fullPaths mid.record.toList := by
  induction h generalizing before told with
  | nil => simp
  | @cons p p₁ p₂ name names mid ms first rest ih =>
      obtain ⟨hgrounded, hreports⟩ := hbefore.reports first
      have hrest := ih (hbefore.analyzeMiddleware first).1 (htold.step hreports)
      intro i mid' hmid
      cases i with
      | zero =>
          cases hmid
          refine ⟨hgrounded, fun c hc => ?_⟩
          obtain ⟨hkept, facts, hown, hcalls⟩ := hreports.sound c hc
          refine (hreports.fresh c.path hkept).imp_left fun hold => ?_
          obtain ⟨earlier, hearlier, hreport⟩ :=
            htold c.path hold facts hown c hcalls
          exact ⟨earlier, List.mem_append_left _ hearlier, hreport⟩
      | succ i =>
          obtain ⟨hgrounded', hcalls⟩ := hrest i mid' hmid
          refine ⟨hgrounded', fun c hc => ?_⟩
          rw [List.take_succ_cons]
          simpa only [List.append_assoc, List.singleton_append]
            using hcalls c hc

end Scene

end Relay
