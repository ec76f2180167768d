import Relay.Chart.Placement
import Relay.Proofs.Requires

/-!
# Telling files apart

A chart tells files apart by the keys of their paths, in which case and the
kind of slashes are lost.  That is the same as telling the paths apart if no
two paths that lead to files have the same key (`Scene.TellsApart`).

The key of a path is made of the keys of its names (`pathKey_eq_text`), so it
is enough that the names in use have different keys (`tellsApart_of_names`).
-/

namespace Relay

open Chart (pathKey)

/-- No two paths that lead to files differ in nothing but case and the kind of
slashes. -/
def Scene.TellsApart (s : Scene) : Prop :=
  ∀ p q : Path, p.Plain → q.Plain →
    (s.fileAt? p).isSome → (s.fileAt? q).isSome → pathKey p = pathKey q → p = q

namespace Text

/-- A text without the one letter whose lower case depends on what stands
around it. -/
def Even (t : String) : Prop :=
  ∀ c ∈ t.toList, c.toNat ≠ 0x3A3

instance (t : String) : Decidable (Even t) :=
  List.decidableBAll (fun c : Char => c.toNat ≠ 0x3A3) t.toList

/-- A text in lower case and with all slashes of one kind. -/
def keyOf (t : String) : String :=
  replaceChar '\\' '/' (lower t)

/-- Without that letter, the lower case goes character by character. -/
theorem lowerAfter_of_even {cs : List Char} (h : ∀ c ∈ cs, c.toNat ≠ 0x3A3)
    (before : List Char) : lowerAfter before cs = cs.flatMap lowerChar := by
  induction cs generalizing before with
  | nil => rfl
  | cons c cs ih =>
      obtain ⟨hc, hrest⟩ := List.forall_mem_cons.mp h
      simp [lowerAfter, hc, ih hrest]

/-- The characters of a key. -/
theorem toList_keyOf {t : String} (h : Even t) :
    (keyOf t).toList = (t.toList.flatMap lowerChar).map
      fun c => if c = '\\' then '/' else c := by
  rw [keyOf, lower, lowerAfter_of_even h, replaceChar, String.toList_ofList,
    String.toList_ofList]

/-- A text is even if its two parts are. -/
theorem Even.append {a b : String} (ha : Even a) (hb : Even b) :
    Even (a ++ b) := by
  rw [Even, String.toList_append]
  exact List.forall_mem_append.mpr ⟨ha, hb⟩

/-- The key of a text is made of the keys of its parts. -/
theorem keyOf_append {a b : String} (ha : Even a) (hb : Even b) :
    keyOf (a ++ b) = keyOf a ++ keyOf b := by
  apply String.toList_inj.mp
  rw [String.toList_append, toList_keyOf (ha.append hb), toList_keyOf ha,
    toList_keyOf hb, String.toList_append, List.flatMap_append, List.map_append]

/-- The mark between the names of a path is even. -/
theorem even_slash : Even "/" := by
  decide

/-- Joined parts are even if the parts are. -/
theorem even_join {parts : List String} (h : ∀ part ∈ parts, Even part) :
    Even (join "/" parts) := by
  induction parts with
  | nil => decide
  | cons part rest ih =>
      obtain ⟨hpart, hrest⟩ := List.forall_mem_cons.mp h
      cases rest with
      | nil => simpa [join] using hpart
      | cons next rest =>
          have hjoin : join "/" (part :: next :: rest)
              = part ++ "/" ++ join "/" (next :: rest) :=
            String.intercalate_cons_cons
          rw [hjoin]
          exact (hpart.append even_slash).append (ih hrest)

/-- The key of joined parts joins the keys of the parts. -/
theorem keyOf_join {parts : List String} (h : ∀ part ∈ parts, Even part) :
    keyOf (join "/" parts) = join "/" (parts.map keyOf) := by
  have hslash : keyOf "/" = "/" := by decide
  induction parts with
  | nil => decide
  | cons part rest ih =>
      obtain ⟨hpart, hrest⟩ := List.forall_mem_cons.mp h
      cases rest with
      | nil => simp [join]
      | cons next rest =>
          have hjoin : join "/" (part :: next :: rest)
              = part ++ ("/" ++ join "/" (next :: rest)) := by
            rw [← String.append_assoc]
            exact String.intercalate_cons_cons
          have heven : Even (join "/" (next :: rest)) := even_join hrest
          rw [hjoin, keyOf_append hpart (even_slash.append heven),
            keyOf_append even_slash heven, ih hrest, hslash,
            ← String.append_assoc]
          exact String.intercalate_cons_cons.symm

/-- Texts are told by their keys where no two of those in use have the same
one. -/
theorem eq_of_map_keyOf_eq {known as bs : List String}
    (hkeys : ∀ a ∈ known, ∀ b ∈ known, keyOf a = keyOf b → a = b)
    (ha : ∀ a ∈ as, a ∈ known) (hb : ∀ b ∈ bs, b ∈ known)
    (h : as.map keyOf = bs.map keyOf) : as = bs := by
  induction as generalizing bs with
  | nil =>
      rw [List.map_nil] at h
      exact (List.map_eq_nil_iff.mp h.symm).symm
  | cons a as ih =>
      obtain ⟨b, bs', rfl, hfirst, hrest⟩ := List.map_eq_cons_iff.mp h.symm
      obtain ⟨haknown, ha⟩ := List.forall_mem_cons.mp ha
      obtain ⟨hbknown, hb⟩ := List.forall_mem_cons.mp hb
      rw [hkeys b hbknown a haknown hfirst, ih ha hb hrest.symm]

end Text

namespace Path

/-- The path with the keys of its names. -/
def keyed (p : Path) : Path :=
  ⟨p.anchor, p.names.map Text.keyOf⟩

/-- **Keys of paths.**  The key of a path is the text of the path with the
keys of its names. -/
theorem pathKey_eq_text {p : Path} (h : ∀ name ∈ p.names, Text.Even name) :
    pathKey p = p.keyed.text := by
  have hanchor : ∀ a : Anchor, Text.Even a.text ∧
      Text.keyOf a.text = a.text := by
    intro a
    cases a <;> decide
  have hkey : pathKey p = Text.keyOf p.text := rfl
  rw [hkey]
  by_cases hempty : p.anchor = .here ∧ p.names = []
  · have hkeyed : p.keyed.anchor = .here ∧ p.keyed.names = [] := by
      simp [keyed, hempty]
    rw [text, text, if_pos hempty, if_pos hkeyed]
    decide
  · have hkeyed : ¬ (p.keyed.anchor = .here ∧ p.keyed.names = []) := by
      simpa [keyed] using hempty
    rw [text, text, if_neg hempty, if_neg hkeyed,
      Text.keyOf_append (hanchor p.anchor).1 (Text.even_join h),
      (hanchor p.anchor).2, Text.keyOf_join h]
    rfl

end Path

namespace Files

/-- The names that stand in the places of some files. -/
def names (fs : Files) : List String :=
  fs.current ++ fs.entries.flatMap (·.1)

/-- The names in use, and two dots, have different keys, which are names. -/
def NamesApart (fs : Files) : Prop :=
  (∀ name ∈ ".." :: fs.names,
      Text.Even name ∧ Path.PlainName (Text.keyOf name)) ∧
    ∀ a ∈ ".." :: fs.names, ∀ b ∈ ".." :: fs.names,
      Text.keyOf a = Text.keyOf b → a = b

instance (fs : Files) : Decidable fs.NamesApart :=
  inferInstanceAs (Decidable (_ ∧ _))

variable {fs : Files} {path : Path}

/-- The last name of a place where something stands is in use. -/
theorem mem_names_of_entryAt? {above : List String} {name : String}
    {entry : Entry} (h : fs.entryAt? (above ++ [name]) = some entry) :
    name ∈ fs.names := by
  unfold entryAt? at h
  split at h
  · rename_i hstart
    have hmem := (List.isPrefixOf_iff_prefix.mp hstart).subset (a := name)
      (by simp)
    exact List.mem_append_left _ hmem
  · obtain ⟨e, he, -⟩ := Option.map_eq_some_iff.mp h
    have hplace : e.1 = above ++ [name] := by simpa using List.find?_some he
    refine List.mem_append_right _
      (List.mem_flatMap.mpr ⟨e, List.mem_of_find?_eq_some he, ?_⟩)
    rw [hplace]
    simp

/-- Where a way that leads somewhere starts, something stands. -/
theorem exists_entryAt?_of_follow {place names : List String} {entry : Entry}
    (h : fs.follow path place names = .ok (some entry)) :
    ∃ e, fs.entryAt? place = some e := by
  cases names with
  | nil => exact ⟨entry, by simpa [follow] using h⟩
  | cons name rest =>
      unfold follow at h
      split at h
      · rename_i hdirectory
        exact ⟨_, hdirectory⟩
      · cases h

/-- Every name on a way that leads somewhere is two dots or in use. -/
theorem mem_names_of_follow {place names : List String} {entry : Entry}
    (h : fs.follow path place names = .ok (some entry)) :
    ∀ name ∈ names, name ∈ ".." :: fs.names := by
  induction names generalizing place with
  | nil => simp
  | cons name rest ih =>
      unfold follow at h
      split at h
      · split at h
        · rename_i hdots
          exact List.forall_mem_cons.mpr ⟨by simp [hdots], ih h⟩
        · split at h
          · cases h
          · obtain ⟨e, he⟩ := exists_entryAt?_of_follow h
            exact List.forall_mem_cons.mpr
              ⟨List.mem_cons_of_mem _ (mem_names_of_entryAt? he), ih h⟩
      · cases h

end Files

/-- **Names with different keys tell files apart.** -/
theorem Scene.tellsApart_of_names {s : Scene} (h : s.files.NamesApart) :
    s.TellsApart := by
  obtain ⟨hnames, hkeys⟩ := h
  have hused : ∀ p : Path, (s.fileAt? p).isSome →
      ∀ name ∈ p.names, name ∈ ".." :: s.files.names := by
    intro p hp
    obtain ⟨entry, hfind⟩ : ∃ entry, s.files.find p = .ok (some entry) := by
      unfold fileAt? at hp
      split at hp
      · rename_i hfind
        exact ⟨_, hfind⟩
      · cases hp
    exact Files.mem_names_of_follow hfind
  have hplain : ∀ p : Path, (s.fileAt? p).isSome → p.keyed.Plain := by
    intro p hp key hkey
    obtain ⟨name, hname, rfl⟩ := List.mem_map.mp hkey
    exact (hnames name (hused p hp name hname)).2
  intro p q _ _ hp hq hkey
  have heven : ∀ p : Path, (s.fileAt? p).isSome →
      ∀ name ∈ p.names, Text.Even name :=
    fun p hp name hname => (hnames name (hused p hp name hname)).1
  rw [Path.pathKey_eq_text (heven p hp), Path.pathKey_eq_text (heven q hq)]
    at hkey
  obtain ⟨hanchor, hmap⟩ := Path.mk.inj
    (Path.eq_of_text_eq (hplain p hp) (hplain q hq) hkey)
  have hlist : p.names = q.names :=
    Text.eq_of_map_keyOf_eq hkeys (hused p hp) (hused q hq) hmap
  exact congr (congrArg Path.mk hanchor) hlist

end Relay
