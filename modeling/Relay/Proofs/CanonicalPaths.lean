import Mathlib.Data.List.Induction
import Relay.Proofs.Found

/-!
# Canonical paths

A path is normal if two dots stand only at its front, and there only in a
relative path.  The normal paths are just the fixed points of `normalize`
(`normalize_eq_self_iff`), and a plain path is normal if and only if its text
is its own normal form (`canonical_iff`).

The resolver normalizes the path that a specifier leads to before it tries
extensions, and what it tries after that keeps the path normal.  The one
exception is a specifier that is the name of a package: the index of the
package is looked for in its directory as it is configured.  So a path that is
found is canonical unless that directory is not (`found_canonical_iff`).

Two normal paths below the same directory that lead to one place are equal
(`eq_of_placeOf_eq`), so canonical paths are good names for files.
-/

namespace Relay

namespace Path

/-- Two dots stand only at the front of the path, and only if it is relative. -/
def Normal (p : Path) : Prop :=
  (".." ∈ p.names → p.anchor = .here) ∧ p.names.Pairwise fun a b => b = ".." →
    a = ".."

instance (p : Path) : Decidable p.Normal :=
  inferInstanceAs (Decidable (_ ∧ _))

section

variable {anchor : Anchor} {names : List String} {name : String}

/-- A last name other than two dots does not matter. -/
theorem normal_snoc_iff (h : name ≠ "..") :
    Normal ⟨anchor, names ++ [name]⟩ ↔ Normal ⟨anchor, names⟩ := by
  simp [Normal, List.pairwise_append, h, h.symm]

/-- The names in front of the last one. -/
theorem Normal.of_snoc (h : Normal ⟨anchor, names ++ [name]⟩) :
    Normal ⟨anchor, names⟩ :=
  ⟨fun hdots => h.1 (List.mem_append_left _ hdots),
    (List.pairwise_append.mp h.2).1⟩

/-- If the last name is two dots, then the path is relative and all of its
names are. -/
theorem normal_snoc_dots_iff :
    Normal ⟨anchor, names ++ [".."]⟩ ↔
      anchor = .here ∧ ∀ n ∈ names, n = ".." := by
  constructor
  · intro h
    refine ⟨h.1 (by simp), fun n hn => ?_⟩
    exact (List.pairwise_append.mp h.2).2.2 n hn ".." (by simp) rfl
  · rintro ⟨hhere, hall⟩
    refine ⟨fun _ => hhere, List.pairwise_of_forall_mem_list fun a ha b _ _ =>
      ?_⟩
    rcases List.mem_append.mp ha with ha | ha
    · exact hall a ha
    · exact List.mem_singleton.mp ha

/-- One name more on the way leads from a normal path to a normal path. -/
theorem Normal.step (h : Normal ⟨anchor, names⟩) (name : String) :
    Normal ⟨anchor, Path.step anchor names name⟩ := by
  unfold Path.step
  split
  · rename_i hname
    exact (normal_snoc_iff hname).mpr h
  · rcases List.eq_nil_or_concat names with rfl | ⟨init, last, rfl⟩
    · simp only [List.getLast?_nil]
      split
      · rename_i hhere
        exact ⟨fun _ => hhere, List.pairwise_singleton _ _⟩
      · exact h
    · simp only [List.concat_eq_append, List.getLast?_append,
        List.getLast?_singleton, Option.some_or, List.dropLast_concat] at h ⊢
      split
      · rename_i hlast
        subst hlast
        obtain ⟨hhere, hall⟩ := normal_snoc_dots_iff.mp h
        refine normal_snoc_dots_iff.mpr ⟨hhere, fun n hn => ?_⟩
        rcases List.mem_append.mp hn with hn | hn
        · exact hall n hn
        · exact List.mem_singleton.mp hn
      · exact h.of_snoc

/-- Nothing is taken away on the way along a normal path. -/
theorem step_of_normal (h : Normal ⟨anchor, names ++ [name]⟩) :
    Path.step anchor names name = names ++ [name] := by
  unfold Path.step
  split
  · rfl
  · rename_i hdots
    obtain rfl : name = ".." := Decidable.not_not.mp hdots
    obtain ⟨hhere, hall⟩ := normal_snoc_dots_iff.mp h
    rcases List.eq_nil_or_concat names with rfl | ⟨init, last, rfl⟩
    · simp [hhere]
    · have hlast : last = ".." := hall last (by simp)
      simp [hlast]

end

/-- **Normalizing makes a path normal.** -/
theorem normal_normalize (p : Path) : p.normalize.Normal := by
  have hfold : ∀ (names done : List String), Normal ⟨p.anchor, done⟩ →
      Normal ⟨p.anchor, names.foldl (Path.step p.anchor) done⟩ := by
    intro names
    induction names with
    | nil => intro done h; exact h
    | cons name rest ih => intro done h; exact ih _ (h.step name)
  exact hfold p.names [] ⟨by simp, List.Pairwise.nil⟩

/-- A normal path stays as it is. -/
theorem normalize_of_normal {p : Path} (h : p.Normal) : p.normalize = p := by
  obtain ⟨anchor, names⟩ := p
  have hfold : names.foldl (Path.step anchor) [] = names := by
    induction names using List.reverseRecOn with
    | nil => rfl
    | append_singleton init last ih =>
        rw [List.foldl_append, ih h.of_snoc, List.foldl_cons, List.foldl_nil,
          step_of_normal h]
  simp only [normalize, hfold]

/-- **Fixed points.**  The normal paths are those that normalizing leaves as
they are. -/
theorem normalize_eq_self_iff {p : Path} : p.normalize = p ↔ p.Normal :=
  ⟨fun h => h ▸ normal_normalize p, normalize_of_normal⟩

/-- The normal form of a path that is given as text. -/
def normalText (s : String) : String :=
  (ofString s).normalize.text

/-- The text of the path is its own normal form. -/
def Canonical (p : Path) : Prop :=
  normalText p.text = p.text

instance (p : Path) : Decidable p.Canonical :=
  inferInstanceAs (Decidable (_ = _))

/-- **Canonical plain paths** are the normal ones. -/
theorem canonical_iff {p : Path} (h : p.Plain) : p.Canonical ↔ p.Normal := by
  rw [Canonical, normalText, ofString_text h, ← normalize_eq_self_iff]
  exact ⟨eq_of_text_eq h.normalize h, congrArg text⟩

/-- The directory that a path does not go above: its anchor with the dots at
its front. -/
def top (p : Path) : Path :=
  ⟨p.anchor, p.names.takeWhile (· = "..")⟩

/-- The names of a path after the dots at its front. -/
def inside (p : Path) : List String :=
  p.names.dropWhile (· = "..")

/-- The names of a path are those of its top and those inside. -/
theorem names_top_append_inside (p : Path) :
    p.top.names ++ p.inside = p.names :=
  List.takeWhile_append_dropWhile

/-- A normal path does not go up once it is inside. -/
theorem Normal.notMem_inside {p : Path} (h : p.Normal) : ".." ∉ p.inside := by
  unfold inside
  have hpairs := h.2.sublist (List.dropWhile_sublist (· = ".."))
  cases hrest : p.names.dropWhile (· = "..") with
  | nil => simp
  | cons first rest =>
      have hfirst : first ≠ ".." := by
        have := List.head?_dropWhile_not (· = "..") p.names
        simpa [hrest] using this
      rw [hrest] at hpairs
      intro hdots
      rcases List.mem_cons.mp hdots with hdots | hdots
      · exact hfirst hdots.symm
      · exact hfirst (List.rel_of_pairwise_cons hpairs hdots rfl)

/-- Without dots every name stays. -/
theorem foldl_step_of_notMem {anchor : Anchor} {names : List String}
    (h : ".." ∉ names) (done : List String) :
    names.foldl (Path.step anchor) done = done ++ names := by
  induction names generalizing done with
  | nil => simp
  | cons name rest ih =>
      obtain ⟨hname, hrest⟩ := not_or.mp (mt List.mem_cons.mpr h)
      have hstep : Path.step anchor done name = done ++ [name] :=
        if_pos (Ne.symm hname)
      rw [List.foldl_cons, hstep, ih hrest, List.append_assoc,
        List.singleton_append]

end Path

/-- A normal path leads to a place below the place of the directory that it
does not leave. -/
theorem Files.placeOf_of_normal (fs : Files) {p : Path} (h : p.Normal) :
    fs.placeOf p = fs.placeOf p.top ++ p.inside := by
  have hbase : p.top.isAbsolute = p.isAbsolute := rfl
  simp only [Files.placeOf, hbase]
  rw [← p.names_top_append_inside, ← List.append_assoc, List.foldl_append]
  exact Path.foldl_step_of_notMem h.notMem_inside _

/-- **One place, one path.**  Two normal paths that lead to one place and do
not go above the same directory are equal. -/
theorem Path.eq_of_placeOf_eq {fs : Files} {p q : Path} (hp : p.Normal)
    (hq : q.Normal) (htop : p.top = q.top) (h : fs.placeOf p = fs.placeOf q) :
    p = q := by
  rw [fs.placeOf_of_normal hp, fs.placeOf_of_normal hq, htop,
    List.append_cancel_left_eq] at h
  have hanchor : p.top.anchor = q.top.anchor := congrArg Path.anchor htop
  have hnames : p.names = q.names := by
    rw [← p.names_top_append_inside, ← q.names_top_append_inside, htop, h]
  exact (Path.mk.injEq ..).mpr ⟨hanchor, hnames⟩

namespace Path

/-- A text without slashes after an anchor is one name, or none. -/
theorem ofString_anchor_append (a : Anchor) {name : String}
    (h : '/' ∉ name.toList) :
    ofString (a.text ++ name) =
      ⟨a, [name].filter fun name => !isIdle name⟩ := by
  have hhead : name.toList.head? ≠ some '/' :=
    fun hhead => h (List.mem_of_head? hhead)
  have hsplit : Text.split '/' name = [name] := by
    rw [Text.split, List.splitOn_eq_singleton h, List.map_singleton,
      String.ofList_toList]
  rw [ofString, anchorOf_append a hhead, names_anchor, hsplit]

/-- A name without slashes below a directory. -/
theorem below_of_plainName (directory : Path) {name : String}
    (h : PlainName name) :
    directory.below name = ⟨directory.anchor, directory.names ++ [name]⟩ := by
  have hname : ofString name = ⟨.here, [name]⟩ := by
    have := ofString_anchor_append .here h.2
    simpa [Anchor.text, h.1] using this
  change Path.append directory (ofString name) = _
  rw [hname, Path.append, if_pos rfl]

end Path

/-- An extension is put after the last name of a path. -/
theorem Text.join_snoc_append (init : List String) (last e : String) :
    Text.join "/" (init ++ [last]) ++ e = Text.join "/"
      (init ++ [last ++ e]) := by
  induction init with
  | nil => simp [Text.join]
  | cons name init ih =>
      simp only [Text.join, List.cons_append] at ih ⊢
      rw [String.intercalate_cons_of_ne_nil (by simp),
        String.intercalate_cons_of_ne_nil (by simp), String.append_assoc, ih]

namespace Path

/-- A plain name at the front of two dots is all of them. -/
theorem PlainName.eq_dots {name : String} (h : PlainName name)
    (hfront : name.toList <+: ['.', '.']) : name = ".." := by
  have htake := List.prefix_iff_eq_take.mp hfront
  have hlength : name.toList.length ≤ 2 := hfront.length_le
  obtain hlength | hlength | hlength : name.toList.length = 0 ∨
      name.toList.length = 1 ∨ name.toList.length = 2 := by omega
  · exact absurd (List.length_eq_zero_iff.mp hlength) h.toList_ne_nil
  · have hdot : name = "." := String.toList_inj.mp (by rw [htake, hlength]; rfl)
    simp [PlainName, hdot, isIdle] at h
  · exact String.toList_inj.mp (by rw [htake, hlength]; rfl)

/-- A plain name that becomes two dots with an extension has been two dots
before. -/
theorem PlainName.eq_dots_of_append {name e : String} (h : PlainName name)
    (heq : name ++ e = "..") : name = ".." := by
  refine h.eq_dots ⟨e.toList, ?_⟩
  rw [← String.toList_append, heq]
  rfl

/-- A plain name with an extension is a plain name. -/
theorem PlainName.append {name e : String} (h : PlainName name)
    (he : '/' ∉ e.toList) :
    PlainName (name ++ e) := by
  have hempty : name ++ e ≠ "" := by
    intro heq
    have := congrArg String.toList heq
    simp [h.toList_ne_nil] at this
  have hdot : name ++ e ≠ "." := by
    intro heq
    have hlist : name.toList ++ e.toList = ['.'] := by
      rw [← String.toList_append, heq]
      rfl
    have hname :=
      h.eq_dots ⟨e.toList ++ ['.'], by rw [← List.append_assoc, hlist]; rfl⟩
    simp [hname] at hlist
  exact ⟨by simp [isIdle, hempty, hdot], by simp [h.2, he]⟩

/-- The path with an extension at the end of its last name. -/
theorem ofString_text_append {anchor : Anchor} {init : List String}
    {last e : String} (h : Plain ⟨anchor, init ++ [last]⟩)
    (he : '/' ∉ e.toList) :
    ofString ((⟨anchor, init ++ [last]⟩ : Path).text ++ e) =
      ⟨anchor, init ++ [last ++ e]⟩ := by
  have hplain : Plain ⟨anchor, init ++ [last ++ e]⟩ := by
    intro name hname
    rcases List.mem_append.mp hname with hname | hname
    · exact h name (List.mem_append_left _ hname)
    · rw [List.mem_singleton.mp hname]
      exact (h last (by simp)).append he
  rw [← ofString_text hplain]
  simp [text, String.append_assoc, Text.join_snoc_append]

/-- The path to a directory without names, with an extension, is one name or
none. -/
theorem exists_ofString_text_append (anchor : Anchor) {e : String}
    (he : '/' ∉ e.toList) :
    ∃ name, ofString ((⟨anchor, []⟩ : Path).text ++ e)
      = ⟨anchor, [name].filter fun name => !isIdle name⟩ := by
  by_cases hhere : anchor = .here
  · subst hhere
    have hname : '/' ∉ ("." ++ e).toList := by simp [he]
    refine ⟨"." ++ e, ?_⟩
    rw [← ofString_anchor_append .here hname]
    simp [text, Anchor.text]
  · refine ⟨e, ?_⟩
    rw [← ofString_anchor_append anchor he]
    simp [text, hhere, Text.join]

/-- **Extensions keep a path normal**, but for one that makes the root its own
parent. -/
theorem Normal.extend {base : Path} (h : base.Normal) (hplain : base.Plain)
    {e : String} (he : '/' ∉ e.toList) :
    (ofString (base.text ++ e)).Normal ∨
      ∃ anchor, anchor ≠ .here ∧
        ofString (base.text ++ e) = ⟨anchor, [".."]⟩ := by
  obtain ⟨anchor, names⟩ := base
  rcases List.eq_nil_or_concat names with rfl | ⟨init, last, rfl⟩
  · obtain ⟨name, hname⟩ := exists_ofString_text_append anchor he
    rw [hname]
    by_cases hidle : isIdle name = true
    · exact .inl (by simp [hidle, Normal])
    · have hfilter : ([name].filter fun name => !isIdle name) = [name] := by
        simp [hidle]
      rw [hfilter]
      by_cases hdots : name = ".." ∧ anchor ≠ .here
      · exact .inr ⟨anchor, hdots.2, by rw [hdots.1]⟩
      · refine .inl ⟨fun hmem => ?_, List.pairwise_singleton _ _⟩
        by_contra hanchor
        exact hdots ⟨(List.mem_singleton.mp hmem).symm, hanchor⟩
  · rw [List.concat_eq_append] at h hplain ⊢
    rw [ofString_text_append hplain he]
    by_cases hdots : last ++ e = ".."
    · have hlast := (hplain last (by simp)).eq_dots_of_append hdots
      rw [hdots, ← hlast]
      exact .inl h
    · exact .inl ((normal_snoc_iff hdots).mpr h.of_snoc)

end Path

/-- The directory above the root is no file. -/
theorem Files.not_isFile_above_root (fs : Files) {anchor : Anchor}
    (h : anchor ≠ .here) :
    fs.isFile ⟨anchor, [".."]⟩ = .ok false := by
  have habsolute : (⟨anchor, [".."]⟩ : Path).isAbsolute = true := by
    simp [Path.isAbsolute, h]
  simp [Files.isFile, Files.find, habsolute, Files.follow, Files.entryAt?]
  rfl

namespace Resolver

variable {r : Resolver} {fs : Files}

/-- The first file among some paths is one of them. -/
theorem mem_of_firstFile {paths : List Path} {q : Path}
    (h : firstFile fs paths = .ok (some q)) :
    q ∈ paths := by
  induction paths with
  | nil => cases h
  | cons p rest ih =>
      obtain ⟨isFile, -, h⟩ := exists_of_bind_eq_ok h
      split at h
      · cases h
        exact List.mem_cons_self
      · exact List.mem_cons_of_mem _ (ih h)

/-- An index is as normal as its directory. -/
theorem normal_index_iff {directory : Path} {e : String} (he : '/' ∉ e.toList) :
    (directory.below s!"index{e}").Normal ↔ directory.Normal := by
  have hindex : Path.PlainName "index" := by decide
  have hdots : "index" ++ e ≠ ".." := fun heq =>
    absurd (hindex.eq_dots_of_append heq) (by decide)
  have hbelow := directory.below_of_plainName (hindex.append he)
  have hname : s!"index{e}" = "index" ++ e := rfl
  rw [hname, hbelow]
  exact Path.normal_snoc_iff hdots

section

variable (hext : ∀ e ∈ r.config.extensions, '/' ∉ e.toList)

include hext

/-- What is tried for a normal path is normal. -/
theorem normal_of_locate {base q : Path} {specifier : String}
    (hplain : base.Plain) (hnormal : base.Normal)
    (h : r.locate fs base specifier = .ok (some q)) : q.Normal := by
  have hfile := (found_of_locate hplain h).isFile
  unfold locate at h
  split at h
  · obtain ⟨isFile, -, h⟩ := exists_of_bind_eq_ok h
    split at h
    · cases h
      exact hnormal
    · cases h
  · rcases List.mem_append.mp (mem_of_firstFile h) with hq | hq
    · obtain ⟨e, he, rfl⟩ := List.mem_map.mp hq
      rcases hnormal.extend hplain (hext e he) with hq | ⟨anchor, hanchor, hq⟩
      · exact hq
      · rw [hq, fs.not_isFile_above_root hanchor] at hfile
        cases hfile
    · obtain ⟨e, he, rfl⟩ := List.mem_map.mp hq
      exact (normal_index_iff (hext e he)).mpr hnormal

/-- The file of a middleware has a normal path. -/
theorem normal_of_entryPath {specifier : String} {q : Path}
    (h : r.entryPath fs specifier = .ok (some q)) : q.Normal :=
  normal_of_locate hext (plain_middlewares.below _).normalize
    (Path.normal_normalize _) h

/-- A file inside a package has a normal path. -/
theorem normal_of_resolveIn {specifier : String}
    {packages : List (String × String)} {q : Path}
    (h : r.resolveIn fs specifier packages = .ok (some q)) : q.Normal := by
  obtain ⟨package, root, inside, hroot, hfound⟩ := exists_of_resolveIn h
  exact normal_of_locate hext ((plain_of_packageRoot hroot).below _).normalize
    (Path.normal_normalize _) hfound

end

/-- The specifier is the name of a package whose directory, as it is
configured, has a path that is not canonical. -/
def NamesStray (r : Resolver) (fs : Files) (specifier : String) : Prop :=
  isLocalSpecifier specifier = false ∧
    ∃ package root, r.config.packages.lookup specifier = some package ∧
      r.packageRoot fs package = .ok (some root) ∧ ¬ root.Canonical

/-- A path that the resolver finds, for a middleware or for a specifier in a
file. -/
def Finds (r : Resolver) (fs : Files) (p : Path) : Prop :=
  (∃ specifier, r.entryPath fs specifier = .ok (some p)) ∨
    ∃ specifier file, file.Plain ∧ r.resolve fs specifier file = .ok (.found p)

/-- A path that is found is plain. -/
theorem Finds.plain {p : Path} (h : r.Finds fs p) : p.Plain := by
  rcases h with ⟨specifier, h⟩ | ⟨specifier, file, hfile, h⟩
  · exact (found_of_entryPath h).plain
  · exact (found_of_resolve hfile h).plain

/-- A file of a package has a normal path, unless the specifier is the name of
the package and the package has a directory that is not normal. -/
theorem normal_of_resolveNamespaced_iff
    (hext : ∀ e ∈ r.config.extensions, '/' ∉ e.toList)
    {specifier : String} {q : Path}
    (hlocal : isLocalSpecifier specifier = false)
    (h : r.resolveNamespaced fs specifier = .ok (some q)) :
    q.Normal ↔ ¬ r.NamesStray fs specifier := by
  unfold resolveNamespaced at h
  split at h
  · rename_i package hpackage
    obtain ⟨root?, hroot, h⟩ := exists_of_bind_eq_ok h
    split at h
    · rename_i root
      obtain ⟨e, he, rfl⟩ := List.mem_map.mp (mem_of_firstFile h)
      rw [normal_index_iff (hext e he), ← Path.canonical_iff
        (plain_of_packageRoot hroot)]
      constructor
      · rintro hcanonical ⟨-, package', root', hpackage', hroot', hstray⟩
        rw [hpackage, Option.some.injEq] at hpackage'
        rw [← hpackage', hroot, Except.ok.injEq, Option.some.injEq] at hroot'
        exact hstray (hroot' ▸ hcanonical)
      · intro hstray
        by_contra hcanonical
        exact hstray ⟨hlocal, package, root, hpackage, hroot, hcanonical⟩
    · cases h
  · rename_i hnone
    refine ⟨?_, fun _ => normal_of_resolveIn hext h⟩
    rintro - ⟨-, package, root, hpackage, -⟩
    rw [hnone] at hpackage
    cases hpackage

/-- **Paths that are found are canonical**, but for the index of a package
whose directory is not.  The path of a middleware is canonical.  The path that
a specifier in a file stands for is canonical if and only if the specifier is
not the name of a package whose directory, as it is configured, has a path that
is not canonical.  Two canonical paths that are found, lead to one place and do
not go above the same directory are equal. -/
theorem found_canonical_iff (hext : ∀ e ∈ r.config.extensions, '/' ∉ e.toList) :
    (∀ specifier p, r.entryPath fs specifier = .ok (some p) → p.Canonical) ∧
    (∀ specifier file p, file.Plain →
      r.resolve fs specifier file = .ok (.found p) →
      (p.Canonical ↔ ¬ r.NamesStray fs specifier)) ∧
    (∀ p q, r.Finds fs p → r.Finds fs q → p.Canonical → q.Canonical →
      p.top = q.top → fs.placeOf p = fs.placeOf q → p = q) := by
  refine ⟨fun specifier p h => ?_, fun specifier file p hfile h => ?_,
    fun p q hp hq hpc hqc htop hplace => ?_⟩
  · exact (Path.canonical_iff (found_of_entryPath h).plain).mpr
      (normal_of_entryPath hext h)
  · rw [Path.canonical_iff (found_of_resolve hfile h).plain]
    rcases cases_of_resolve h with ⟨hlocal, h⟩ | ⟨hlocal, h⟩
    · have hnormal := normal_of_locate hext (hfile.parent.below _).normalize
        (Path.normal_normalize _) h
      refine ⟨?_, fun _ => hnormal⟩
      rintro - ⟨hforeign, -⟩
      rw [hlocal] at hforeign
      cases hforeign
    · exact normal_of_resolveNamespaced_iff hext hlocal h
  · exact Path.eq_of_placeOf_eq ((Path.canonical_iff hp.plain).mp hpc)
      ((Path.canonical_iff hq.plain).mp hqc) htop hplace

/-- A workspace with one package, whose directory is configured with a
detour. -/
def roundabout : Resolver :=
  ⟨{ Config.usual (.ofString "ws") "m" with
    extensions := [".js"], packages :=
      [("lib", "../ws/lib")], libraryPatterns := [] }, []⟩

/-- The files of the workspace: the index of the package. -/
def roundaboutFiles : Files where
  entries := [
    (["R", "ws"], .directory),
    (["R", "ws", "lib"], .directory),
    (["R", "ws", "lib", "index.js"], .file "".toUTF8 1000)]
  current := ["R"]

/-- The path of the index by way of the detour. -/
def roundaboutIndex : Path :=
  ⟨.here, ["ws", "..", "ws", "lib", "index.js"]⟩

/-- The normal path of the index. -/
def straightIndex : Path :=
  ⟨.here, ["ws", "lib", "index.js"]⟩

/-- The package is found through the directory in its configuration, which
takes a detour; a file of the package is found straight. -/
theorem resolve_roundabout :
    roundabout.resolve roundaboutFiles "lib" ⟨.here, ["ws", "a.js"]⟩
      = .ok (.found roundaboutIndex) ∧
    roundabout.resolve roundaboutFiles "lib/index" ⟨.here, ["ws", "a.js"]⟩
      = .ok (.found straightIndex) :=
  ⟨rfl, rfl⟩

/-- The name of the package is looked up in a directory that takes a detour.
-/
theorem namesStray_roundabout : roundabout.NamesStray roundaboutFiles "lib" :=
  ⟨rfl, "../ws/lib", ⟨.here, ["ws", "..", "ws", "lib"]⟩, rfl, rfl, by decide⟩

/-- The name of the package stands for a path that is not canonical, and a
specifier that goes on after the name for one that is. -/
theorem found_canonical_roundabout :
    (∀ e ∈ roundabout.config.extensions, '/' ∉ e.toList) ∧
    roundabout.resolve roundaboutFiles "lib" ⟨.here, ["ws", "a.js"]⟩
      = .ok (.found roundaboutIndex) ∧ ¬ roundaboutIndex.Canonical ∧
    roundabout.resolve roundaboutFiles "lib/index" ⟨.here, ["ws", "a.js"]⟩
      = .ok (.found straightIndex) ∧ straightIndex.Canonical := by
  have hext : ∀ e ∈ roundabout.config.extensions, '/' ∉ e.toList := by
    intro e he
    obtain rfl : e = ".js" := List.mem_singleton.mp he
    decide
  have hfile : Path.Plain ⟨.here, ["ws", "a.js"]⟩ :=
    Path.plain_ofString "ws/a.js"
  obtain ⟨hstray, hstraight⟩ := resolve_roundabout
  obtain ⟨-, hiff, -⟩ := @found_canonical_iff roundabout roundaboutFiles hext
  refine ⟨hext, hstray, fun hcanonical => ?_, hstraight, ?_⟩
  · exact (hiff _ _ _ hfile hstray).mp hcanonical namesStray_roundabout
  · refine (hiff _ _ _ hfile hstraight).mpr ?_
    rintro ⟨-, package, root, hpackage, -⟩
    cases hpackage

/-- **One file under two names.**  Two specifiers in one file lead to one place
and do not go above the same directory, but the path that one of them stands
for is not canonical, and the file is kept under two names. -/
theorem exists_two_names :
    ∃ p q, roundabout.resolve roundaboutFiles "lib" ⟨.here, ["ws", "a.js"]⟩ =
      .ok (.found p) ∧
      roundabout.resolve roundaboutFiles "lib/index" ⟨.here, ["ws", "a.js"]⟩ =
        .ok (.found q) ∧
      roundaboutFiles.placeOf p = roundaboutFiles.placeOf q ∧ p.top = q.top ∧
      ¬ p.Canonical ∧ p.place ≠ q.place := by
  obtain ⟨hstray, hstraight⟩ := resolve_roundabout
  have hp : roundaboutIndex.place = roundaboutIndex :=
    Path.place_of_here (Path.plain_ofString "ws/../ws/lib/index.js") rfl
  have hq : straightIndex.place = straightIndex :=
    Path.place_of_here (Path.plain_ofString "ws/lib/index.js") rfl
  refine ⟨roundaboutIndex, straightIndex, hstray, hstraight, rfl,
    rfl, by decide, ?_⟩
  rw [hp, hq]
  decide

end Resolver

end Relay
