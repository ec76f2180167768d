import Relay.Proofs.Growth
import Relay.Proofs.Middlewares

/-!
# Every file is analysed once

A file that is being analysed, has failed or has a current record is known, and
known files are never loaded.  An exploration loads unknown files only and makes
them known, so it loads no file twice (`opened_once`).  Its full records are
made in the order in which their files are loaded, so the paths of the full
records of all trees are part of the list of loaded files (`fullPaths_sublist`).
-/

namespace Relay

namespace Record

mutual

/-- All records of a tree, the upper ones first. -/
def tree : Record → List Record
  | ⟨name, displayName, path, depth, parent, facts, shallow, children⟩ =>
    ⟨name, displayName, path, depth, parent, facts, shallow, children⟩
      :: trees children

/-- All records of some trees. -/
def trees : List Record → List Record
  | [] => []
  | r :: rest => r.tree ++ trees rest

end

/-- The tree of a record has the record and the trees of its children. -/
theorem tree_eq (r : Record) : r.tree = r :: trees r.children := by
  cases r
  simp [tree]

/-- The trees of two lists are those of each. -/
theorem trees_append (rs ss : List Record) :
    trees (rs ++ ss) = trees rs ++ trees ss := by
  induction rs with
  | nil => simp [trees]
  | cons r rs ih => simp [trees, ih]

/-- The paths of the full records of some trees. -/
def fullPaths (rs : List Record) : List Path :=
  ((trees rs).filter fun r => !r.shallow).map (·.path)

/-- The full paths of two lists are those of each. -/
theorem fullPaths_append (rs ss : List Record) :
    fullPaths (rs ++ ss) = fullPaths rs ++ fullPaths ss := by
  simp [fullPaths, trees_append]

/-- Shallow records have nothing below them. -/
def Sound (rs : List Record) : Prop :=
  ∀ r ∈ trees rs, r.shallow = true → r.children = []

/-- Two sound lists make a sound one. -/
theorem Sound.append {rs ss : List Record} (hrs : Sound rs) (hss : Sound ss) :
    Sound (rs ++ ss) := by
  intro r hr
  rw [trees_append] at hr
  exact (List.mem_append.mp hr).elim (hrs r) (hss r)

/-- A shallow record by itself. -/
theorem of_shallow {r : Record} (hshallow : r.shallow = true)
    (hchildren : r.children = []) : fullPaths [r] = [] ∧ Sound [r] := by
  have htrees : trees [r] = [r] := by simp [trees, tree_eq, hchildren]
  constructor
  · simp [fullPaths, htrees, hshallow]
  · intro t ht _
    rw [htrees, List.mem_singleton] at ht
    rw [ht, hchildren]

/-- A full record with sound trees below it. -/
theorem of_full {r : Record} (hfull : r.shallow = false)
    (hchildren : Sound r.children) :
    fullPaths [r] = r.path :: fullPaths r.children ∧ Sound [r] := by
  have htrees : trees [r] = r :: trees r.children := by simp [trees, tree_eq]
  constructor
  · simp [fullPaths, htrees, hfull]
  · intro t ht hshallow
    rw [htrees] at ht
    rcases List.mem_cons.mp ht with rfl | ht
    · rw [hfull] at hshallow
      cases hshallow
    · exact hchildren t ht hshallow

end Record

namespace Memory

/-- A file that is never loaded again. -/
def Known (m : Memory) (path : Path) : Prop :=
  m.Holds path ∨ path ∈ m.failed

/-- A memory that has grown knows what it has known. -/
theorem Grows.known {m m' : Memory} (h : m.Grows m') {path : Path}
    (hknown : m.Known path) : m'.Known path :=
  hknown.imp h.holds (h.failed path)

/-- Beginning with a file, a memory knows what it has known. -/
theorem known_enter {m : Memory} {path q : Path} (h : m.Known q) :
    (m.enter path).Known q :=
  h.imp_left fun hq => holds_enter.mpr (.inr hq)

/-- Keeping a record and leaving its file forgets no file. -/
theorem known_keep {m : Memory} {k : Kept} {path q : Path}
    (hpath : k.record.path = path) (h : m.Known q) :
    ((m.keep k).leave path).Known q :=
  h.imp_left fun hq => (holds_keep hpath).mpr (.inr hq)

end Memory

/-- What is loaded is not known before. -/
theorem Scene.Fresh.not_known {s : Scene} {m : Memory} {path : Path}
    (h : s.Fresh m path) (hsteady : s.Steady m) : ¬ m.Known path := by
  rintro (hholds | hfailed)
  · exact h.not_holds hsteady hholds
  · exact h.untried hfailed

namespace Explored

variable {s : Scene} {room : Nat} {depth : Int} {parent : Option Path}
  {m m' : Memory} {paths : List Path} {records : List Record}
  {opened : List Path}

/-- **No file is loaded twice.**  An exploration loads files that are not known,
each once, and knows them afterwards. -/
theorem opened_once (h : Explored s room depth parent m paths m' records opened)
    (hsteady : s.Steady m) :
    opened.Nodup ∧ (∀ q ∈ opened, ¬ m.Known q) ∧ ∀ q ∈ opened, m'.Known q := by
  induction h with
  | done => simp
  | glance look rest ih => exact ih hsteady
  | @broken room depth parent m m' path paths records opened file hfile
      fresh hown
      rest ih =>
      have hsteady' := hsteady.fail path.place
      obtain ⟨hnodup, hbefore, hafter⟩ := ih hsteady'
      have hgrows := (rest.grows hsteady').2
      have hknown : (m.fail path.place).Known path.place :=
        .inr List.mem_cons_self
      refine ⟨List.nodup_cons.mpr ⟨fun hmem => hbefore _ hmem hknown, hnodup⟩,
        List.forall_mem_cons.mpr ⟨fresh.not_known hsteady, ?_⟩,
        List.forall_mem_cons.mpr ⟨hgrows.known hknown, hafter⟩⟩
      exact fun q hq hq' => hbefore q hq ((Memory.Grows.fail m _).known hq')
  | @full room depth parent m m₁ m₂ path paths children records inner outer file
      facts hfile fresh hown below rest ihBelow ihRest =>
      obtain ⟨hnodup₁, hbefore₁, hafter₁⟩ := ihBelow (hsteady.enter path.place)
      obtain ⟨hactive, hsteady₂, hgrows₂⟩ := below.around hsteady fresh
        (k := ⟨s.recordOf path.place depth parent facts children, file.2⟩)
          rfl hfile rfl
      obtain ⟨hnodup₂, hbefore₂, hafter₂⟩ := ihRest hsteady₂
      have hgrows₃ := (rest.grows hsteady₂).2
      have hentered : (m.enter path.place).Known path.place :=
        .inl (.inl List.mem_cons_self)
      have hkept : ∀ {q}, m₁.Known q →
        ((m₁.keep ⟨s.recordOf path.place depth parent
          facts children, file.2⟩).leave path.place).Known q :=
        Memory.known_keep rfl
      have hpath := hkept (.inl (.inl hactive))
      have hdisjoint : ∀ q ∈ inner, q ∉ outer :=
        fun q hq hq' => hbefore₂ q hq' (hkept (hafter₁ q hq))
      refine ⟨?_, ?_, ?_⟩
      · refine List.nodup_cons.mpr ⟨?_, ?_⟩
        · rw [List.mem_append, not_or]
          exact ⟨fun hq => hbefore₁ _ hq hentered,
            fun hq => hbefore₂ _ hq hpath⟩
        · exact List.nodup_append'.mpr ⟨hnodup₁, hnodup₂, hdisjoint⟩
      · refine List.forall_mem_cons.mpr ⟨fresh.not_known hsteady, ?_⟩
        refine List.forall_mem_append.mpr ⟨fun q hq hknown => ?_,
          fun q hq hknown => ?_⟩
        · exact hbefore₁ q hq (Memory.known_enter hknown)
        · exact hbefore₂ q hq (hgrows₂.known hknown)
      · refine List.forall_mem_cons.mpr ⟨hgrows₃.known hpath, ?_⟩
        refine List.forall_mem_append.mpr ⟨fun q hq => ?_, hafter₂⟩
        exact hgrows₃.known (hkept (hafter₁ q hq))

/-- **Full records follow the loaded files.**  The full records of an
exploration are of loaded files, in the same order, and shallow records are
leaves. -/
theorem fullPaths_sublist
    (h : Explored s room depth parent m paths m' records opened) :
    (Record.fullPaths records).Sublist opened ∧ Record.Sound records := by
  induction h with
  | done => exact ⟨List.Sublist.refl [], fun r hr => by cases hr⟩
  | @glance room depth parent m m' path paths found records opened look
      rest ih =>
      have hfound : Record.fullPaths found.toList = [] ∧
          Record.Sound found.toList := by
        cases look with
        | missing => exact ⟨rfl, fun r hr => by cases hr⟩
        | cycle => exact Record.of_shallow rfl rfl
        | again => exact Record.of_shallow rfl rfl
        | limit => exact Record.of_shallow rfl rfl
        | failed => exact ⟨rfl, fun r hr => by cases hr⟩
      rw [Record.fullPaths_append, hfound.1]
      exact ⟨ih.1, hfound.2.append ih.2⟩
  | broken hfile fresh hown rest ih => exact ⟨ih.1.cons _, ih.2⟩
  | @full room depth parent m m₁ m₂ path paths children records inner outer file
      facts hfile fresh hown below rest ihBelow ihRest =>
      obtain ⟨hpaths, hsound⟩ := Record.of_full
        (r := s.recordOf path.place depth parent facts children) rfl ihBelow.2
      rw [← List.singleton_append, Record.fullPaths_append, hpaths]
      exact ⟨(ihBelow.1.append ihRest.1).cons_cons path.place,
        hsound.append ihRest.2⟩

/-- Files are loaded at their places, which are plain. -/
theorem opened_plain
    (h : Explored s room depth parent m paths m' records opened) :
    ∀ q ∈ opened, q.Plain := by
  induction h with
  | done => simp
  | glance look rest ih => exact ih
  | broken hfile fresh hown rest ih =>
      exact List.forall_mem_cons.mpr ⟨Path.plain_place _, ih⟩
  | full hfile fresh hown below rest ihBelow ihRest =>
      exact List.forall_mem_cons.mpr ⟨Path.plain_place _,
        List.forall_mem_append.mpr ⟨ihBelow, ihRest⟩⟩

end Explored

/-- The text before the last blank is the same in equal texts. -/
theorem eq_of_append_blank_eq {xs ys ds es : List Char} (hds : ' ' ∉ ds)
    (hes : ' ' ∉ es) (h : xs ++ ' ' :: ds = ys ++ ' ' :: es) : xs = ys := by
  have hlast : ∀ rest cs : List Char, ' ' ∉ cs →
      (rest ++ ' ' :: cs).reverse.takeWhile (· ≠ ' ') = cs.reverse := by
    intro rest cs hcs
    rw [List.reverse_append, List.reverse_cons, List.append_assoc,
      List.singleton_append, List.takeWhile_append_of_pos]
    · simp
    · intro c hc
      simpa using fun he : c = ' ' => hcs (he ▸ List.mem_reverse.mp hc)
  have hsame : ds = es := by
    apply List.reverse_injective
    rw [← hlast xs ds hds, h, hlast ys es hes]
  rw [hsame] at h
  exact List.append_cancel_right h

/-- A number is written without blanks. -/
theorem blank_not_mem_toString (n : Nat) : ' ' ∉ (toString n).toList := by
  intro h
  have hdigit := Nat.isDigit_of_mem_toDigits (b := 10) (n := n) (c := ' ')
    (by decide) (by decide) (by simpa [Nat.toString_eq_repr] using h)
  exact absurd hdigit (by decide)

/-- The characters of a warning about a file that is no program: the number of
the line comes after the last blank. -/
theorem toList_message (f : ParseFailure) : f.message.toList
    = ("Failed to parse ".toList ++ (f.path.text.toList ++ " near line".toList))
      ++ ' ' :: (toString f.line).toList := by
  have hmessage : f.message
      = "Failed to parse " ++ f.path.text ++ " near line " ++ toString f.line :=
        rfl
  have hblank : (" near line " : String).toList = " near line".toList ++
      [' '] := by
    decide
  rw [hmessage, String.toList_append, String.toList_append,
    String.toList_append, hblank]
  simp only [List.append_assoc, List.singleton_append]

/-- The warning about a file that is no program tells which file it is. -/
theorem path_of_message_eq {f g : ParseFailure} (hf : f.path.Plain)
    (hg : g.path.Plain) (h : f.message = g.message) : f.path = g.path := by
  have hchars := congrArg String.toList h
  rw [toList_message, toList_message] at hchars
  have htext := eq_of_append_blank_eq (blank_not_mem_toString _)
    (blank_not_mem_toString _) hchars
  have htext := List.append_cancel_right (List.append_cancel_left htext)
  exact Path.eq_of_text_eq hf hg (String.toList_inj.mp htext)

/-- Being no program is not told like any other failure: the first words differ
in their eleventh character. -/
theorem message_ne_failed (f : ParseFailure) (path : Path) (e : NameTooLong) :
    f.message ≠ s!"Failed to analyze {path}: {e.message}" := by
  intro h
  have hfront : ∀ start rest : String, 10 < start.toList.length →
      (start ++ rest).toList[10]? = start.toList[10]? := by
    intro start rest hlen
    rw [String.toList_append, List.getElem?_append_left hlen]
  have hparse : f.message.toList[10]? = some 'p' := by
    rw [show f.message = "Failed to parse " ++ f.path.text ++ " near line "
      ++ toString f.line from rfl, String.append_assoc, String.append_assoc,
      hfront _ _ (by decide)]
    decide
  have hanalyze : (s!"Failed to analyze {path}: {e.message}").toList[10]?
      = some 'a' := by
    rw [show s!"Failed to analyze {path}: {e.message}"
      = "Failed to analyze " ++ path.text ++ ": " ++ e.message from rfl,
      String.append_assoc, String.append_assoc, hfront _ _ (by decide)]
    decide
  rw [h, hanalyze] at hparse
  exact absurd hparse (by decide)

/-- A file that is complained about with the text of some failure to read is the
file of that failure. -/
theorem Scene.read_of_complaint? {s : Scene} {path : Path} {f : ParseFailure}
    (h : s.complaint? path = some ⟨.warning, .modules, f.message⟩) :
    ∃ g : ParseFailure, g.path = path ∧ g.message = f.message := by
  unfold Scene.complaint? at h
  split at h
  · rename_i bytes modified hfile
    split at h
    · rename_i g hread
      refine ⟨g, ?_, by simpa using h⟩
      unfold Source.read at hread
      split at hread
      · cases hread
      · cases hread
        rfl
    · split at h
      · rename_i e he
        have htext := (LogEntry.mk.inj (Option.some.inj h)).2.2
        exact absurd htext.symm (message_ne_failed f path e)
      · cases h
  · cases h

/-- What is said of one member only is said at most once. -/
theorem count_filterMap_le_one {α β : Type} [DecidableEq β] {f : α → Option β}
    {b : β} {items : List α} (hnodup : items.Nodup)
    (h : ∀ x ∈ items, ∀ y ∈ items, f x = some b → f y = some b → x = y) :
    (items.filterMap f).count b ≤ 1 := by
  induction items with
  | nil => simp
  | cons x items ih =>
      obtain ⟨hx, hnodup⟩ := List.nodup_cons.mp hnodup
      have hrest := ih hnodup fun y hy z hz =>
        h y (List.mem_cons_of_mem _ hy) z (List.mem_cons_of_mem _ hz)
      by_cases hb : f x = some b
      · have hnone : b ∉ items.filterMap f := by
          intro hmem
          obtain ⟨y, hy, hyb⟩ := List.mem_filterMap.mp hmem
          have heq :=
            h x List.mem_cons_self y (List.mem_cons_of_mem _ hy) hb hyb
          exact hx (heq ▸ hy)
        rw [List.filterMap_cons_some hb, List.count_cons_self,
          List.count_eq_zero.mpr hnone]
      · cases hc : f x with
        | none =>
            rw [List.filterMap_cons_none hc]
            exact hrest
        | some c =>
            have hne : c ≠ b := fun he => hb (by rw [hc, he])
            rw [List.filterMap_cons_some hc, List.count_cons_of_ne hne]
            exact hrest

/-- Each failure to read a file is warned about at most once, if no file is
loaded twice. -/
theorem count_message_le_one {s : Scene} {opened : List Path}
    {entries : List LogEntry} (hnodup : opened.Nodup)
    (hplain : ∀ q ∈ opened, q.Plain)
    (hwarn : warnings entries = opened.filterMap s.complaint?)
    (f : ParseFailure) :
    entries.count ⟨.warning, .modules, f.message⟩ ≤ 1 := by
  have hcount : entries.count ⟨.warning, .modules, f.message⟩
      = (warnings entries).count ⟨.warning, .modules, f.message⟩ :=
    (List.count_filter (by simp)).symm
  rw [hcount, hwarn]
  refine count_filterMap_le_one hnodup ?_
  intro x hx y hy hxf hyf
  obtain ⟨g, rfl, hg⟩ := Scene.read_of_complaint? hxf
  obtain ⟨g', rfl, hg'⟩ := Scene.read_of_complaint? hyf
  exact path_of_message_eq (hplain _ hx) (hplain _ hy) (hg.trans hg'.symm)

/-- From one progress to a later one no file is loaded twice, and the full
records that are made on the way are of loaded files. -/
structure LoadsOnce (s : Scene) (p p' : Progress) (records : List Record)
    (opened : List Path) : Prop where
  advance : Advance s p p' opened
  steady : s.Steady p'.memory
  grows : p.memory.Grows p'.memory
  nodup : opened.Nodup
  unknown : ∀ q ∈ opened, ¬ p.memory.Known q
  known : ∀ q ∈ opened, p'.memory.Known q
  plain : ∀ q ∈ opened, q.Plain
  full : (Record.fullPaths records).Sublist opened
  sound : Record.Sound records

namespace LoadsOnce

variable {s : Scene} {p p₁ p₂ : Progress} {rs₁ rs₂ : List Record}
  {o₁ o₂ : List Path}

/-- A step that changes nothing in the memory loads nothing. -/
theorem of_quiet (hsteady : s.Steady p.memory) (hadv : Advance s p p₁ [])
    (hmem : p₁.memory = p.memory) : LoadsOnce s p p₁ [] [] where
  advance := hadv
  steady := hmem ▸ hsteady
  grows := hmem ▸ .refl _
  nodup := List.nodup_nil
  unknown := by simp
  known := by simp
  plain := by simp
  full := List.Sublist.refl []
  sound := fun r hr => by cases hr

/-- An exploration loads each file once. -/
theorem of_explored {room : Nat} {depth : Int} {parent : Option Path}
    {paths : List Path} (hsteady : s.Steady p.memory) (hadv : Advance s p p₁ o₁)
    (h : Explored s room depth parent p.memory paths p₁.memory rs₁ o₁) :
    LoadsOnce s p p₁ rs₁ o₁ where
  advance := hadv
  steady := (h.grows hsteady).1
  grows := (h.grows hsteady).2
  nodup := (h.opened_once hsteady).1
  unknown := (h.opened_once hsteady).2.1
  known := (h.opened_once hsteady).2.2
  plain := h.opened_plain
  full := h.fullPaths_sublist.1
  sound := h.fullPaths_sublist.2

/-- Two steps that load files once do so together. -/
theorem trans (h₁ : LoadsOnce s p p₁ rs₁ o₁) (h₂ : LoadsOnce s p₁ p₂ rs₂ o₂) :
    LoadsOnce s p p₂ (rs₁ ++ rs₂) (o₁ ++ o₂) where
  advance := h₁.advance.trans h₂.advance
  steady := h₂.steady
  grows := h₁.grows.trans h₂.grows
  nodup := List.nodup_append'.mpr ⟨h₁.nodup, h₂.nodup,
    fun q hq hq' => h₂.unknown q hq' (h₁.known q hq)⟩
  unknown := List.forall_mem_append.mpr ⟨h₁.unknown,
    fun q hq hknown => h₂.unknown q hq (h₁.grows.known hknown)⟩
  known := List.forall_mem_append.mpr
    ⟨fun q hq => h₂.grows.known (h₁.known q hq), h₂.known⟩
  plain := List.forall_mem_append.mpr ⟨h₁.plain, h₂.plain⟩
  full := by
    rw [Record.fullPaths_append]
    exact h₁.full.append h₂.full
  sound := h₁.sound.append h₂.sound

end LoadsOnce

/-- The records of some middlewares. -/
def recordsOf (middlewares : List Middleware) : List Record :=
  middlewares.filterMap (·.record)

namespace Scene

variable {s : Scene}

/-- The analysis of a middleware loads each file once, and the record that it
gives is the one of that step. -/
theorem analyzeMiddleware_loadsOnce {p p' : Progress} {specifier : String}
    {result : Except NameTooLong Middleware} (hsteady : s.Steady p.memory)
    (h : s.analyzeMiddleware p specifier = (p', result)) :
    ∃ records opened, LoadsOnce s p p' records opened ∧
      ∀ m, result = .ok m → m.record.toList = records := by
  rcases analyzeMiddleware_cases s p specifier with
    ⟨e, -, he⟩ | ⟨-, he⟩ | ⟨path, p₁, found, opened, -, hadv, hexp, he⟩
  · rw [he] at h
    cases h
    exact ⟨[], [], .of_quiet hsteady (.refl s p) rfl, fun m hm => by cases hm⟩
  · rw [he] at h
    cases h
    refine ⟨[], [], .of_quiet hsteady (.refl s p) rfl, fun m hm => ?_⟩
    cases hm
    rfl
  · rw [he] at h
    cases h
    refine ⟨found.toList, opened, .of_explored hsteady hadv hexp,
      fun m hm => ?_⟩
    cases hm
    rw [Middleware.made_record]

/-- A chain loads no file twice, whether it is cancelled, fails or comes to its
end. -/
theorem analyzeChain_loadsOnce {patience : Option Nat}
    {specifiers : List String} {p p' : Progress} {t : Passed}
    {result : Except NameTooLong Passed} (hsteady : s.Steady p.memory)
    (h : s.analyzeChain patience p t specifiers = (p', result)) :
    ∃ records opened, LoadsOnce s p p' records opened ∧
      ∀ t', result = .ok t' →
        recordsOf t'.middlewares = recordsOf t.middlewares ++ records := by
  induction specifiers generalizing patience p t with
  | nil =>
      cases h
      refine ⟨[], [], .of_quiet hsteady (.refl s _) rfl, fun t' ht => ?_⟩
      cases ht
      simp
  | cons specifier specifiers ih =>
      unfold analyzeChain at h
      split at h
      · cases h
        refine ⟨[], [], .of_quiet hsteady (advance_tell s p _) rfl,
          fun t' ht => ?_⟩
        cases ht
        simp
      · split at h
        · rename_i p₁ e hm
          cases h
          obtain ⟨records, opened, honce, -⟩ :=
            analyzeMiddleware_loadsOnce hsteady hm
          exact ⟨records, opened, honce, fun t' ht => by cases ht⟩
        · rename_i p₁ m hm
          obtain ⟨rs₁, o₁, honce₁, hrs₁⟩ :=
            analyzeMiddleware_loadsOnce hsteady hm
          obtain ⟨rs₂, o₂, honce₂, hrs₂⟩ := ih honce₁.steady h
          refine ⟨rs₁ ++ rs₂, o₁ ++ o₂, honce₁.trans honce₂, fun t' ht => ?_⟩
          have hmiddlewares : (t.add m).middlewares = t.middlewares ++ [m] :=
            rfl
          rw [hrs₂ t' ht, hmiddlewares, ← hrs₁ m rfl]
          cases hrecord : m.record <;> simp [recordsOf, hrecord]

/-- **Every file is analysed once.**  A run loads no file twice and warns at
most once about each file that is no program.  In the trees of all its
middlewares every path has at most one full record, and every other record of
it is a shallow one without anything below. -/
theorem analyzeFlow_loads_once (s : Scene) (patience : Option Nat)
    (p : Progress) (endpoint : Endpoint) :
    ∃ opened entries,
      (s.analyzeFlow patience p endpoint).1.loads = p.loads ++ opened ∧
      opened.Nodup ∧
      (s.analyzeFlow patience p endpoint).1.log = p.log ++ entries ∧
      (∀ failure : ParseFailure,
        entries.count ⟨.warning, .modules, failure.message⟩ ≤ 1) ∧
      ∀ r, (s.analyzeFlow patience p endpoint).2 = .ok r →
        (Record.fullPaths (recordsOf r.middlewares)).Nodup ∧
        ∀ record ∈ Record.trees (recordsOf r.middlewares),
          record.shallow = true → record.children = [] := by
  cases hlist : endpoint.specifiers? with
  | none =>
      simp only [analyzeFlow, hlist]
      refine ⟨[], [_], (List.append_nil _).symm, List.nodup_nil, rfl, ?_, ?_⟩
      · intro failure
        rw [List.count_singleton]
        simp
      · intro r hr
        cases hr
        exact ⟨List.nodup_nil, fun record hrecord => by cases hrecord⟩
  | some specifiers =>
      obtain ⟨start, final, hmemory, hfirst, hlast, hflow⟩ :=
        analyzeFlow_eq hlist s patience p
      have hsteady : s.Steady start.memory := hmemory ▸ steady_empty
      rcases hrun : s.analyzeChain patience start {} specifiers
        with ⟨p', result⟩
      rw [hrun] at hlast hflow
      obtain ⟨records, opened, honce, hrecords⟩ :=
        analyzeChain_loadsOnce hsteady hrun
      have hadvance : Advance s p final opened := by
        have hall := (hfirst.trans honce.advance).trans hlast
        rwa [List.nil_append, List.append_nil] at hall
      obtain ⟨entries, hlog, hwarn⟩ := hadvance.log
      rw [hflow]
      refine ⟨opened, entries, hadvance.loads, honce.nodup, hlog,
        count_message_le_one honce.nodup honce.plain hwarn, fun r hr => ?_⟩
      cases result with
      | error e => cases hr
      | ok t =>
          cases hr
          have hall : recordsOf t.middlewares = records := hrecords t rfl
          rw [show (conclude p'.memory endpoint t).middlewares =
            t.middlewares from rfl, hall]
          exact ⟨honce.full.nodup honce.nodup, honce.sound⟩

end Scene

end Relay
