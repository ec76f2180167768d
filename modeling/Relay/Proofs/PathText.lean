import Relay.Resolver

/-!
# Paths and their texts

A path that was read from a text has plain names only: none is empty, a single
dot, or holds a slash.  Such a path is read back from its own text, and all
operations of the resolver lead from plain paths to plain paths.

The key fact for the analyser is `place_place`: spelling out the drive of a
plain path twice changes nothing more, so the key that a file is kept under is
the key that it is looked up under.
-/

namespace Relay

namespace Text

/-- No part of a list between separators holds the separator. -/
theorem not_mem_of_mem_splitOn {sep : Char} {text cs : List Char}
    (h : cs ∈ text.splitOn sep) : sep ∉ cs := by
  induction text generalizing cs with
  | nil =>
      have : cs = [] := by simpa [List.splitOn_nil] using h
      simp [this]
  | cons c text ih =>
      rw [List.splitOn_cons_eq_if_modifyHead] at h
      split at h
      · rcases List.mem_cons.mp h with rfl | h
        · simp
        · exact ih h
      · rename_i hc
        obtain ⟨d, ds, hd⟩ :=
          List.exists_cons_of_ne_nil (List.splitOn_ne_nil sep text)
        rw [hd, List.modifyHead_cons] at h
        rcases List.mem_cons.mp h with rfl | h
        · have hds : sep ∉ d := ih (by simp [hd])
          simp only [List.mem_cons, not_or]
          exact ⟨fun he => hc (by simp [he]), hds⟩
        · exact ih (by simp [hd, h])

/-- A part between separators holds no separator. -/
theorem not_mem_of_mem_split {sep : Char} {s piece : String}
    (h : piece ∈ split sep s) : sep ∉ piece.toList := by
  obtain ⟨cs, hcs, rfl⟩ := List.mem_map.mp h
  rw [String.toList_ofList]
  exact not_mem_of_mem_splitOn hcs

/-- Parts without the separator are found again in what they are joined to. -/
theorem split_join {sep : Char} {mark : String} (hmark : mark.toList = [sep])
    {names : List String} (hne : names ≠ [])
    (h : ∀ name ∈ names, sep ∉ name.toList) :
    split sep (join mark names) = names := by
  have hparts : ∀ cs ∈ names.map String.toList, sep ∉ cs := by
    intro cs hcs
    obtain ⟨name, hname, rfl⟩ := List.mem_map.mp hcs
    exact h name hname
  rw [split, join, String.toList_intercalate, hmark,
    List.splitOn_intercalate sep hparts (by simpa using hne), List.map_map]
  simp [Function.comp_def]

end Text

namespace Path

/-- A name that reading a path can give. -/
def PlainName (name : String) : Prop :=
  isIdle name = false ∧ '/' ∉ name.toList

instance (name : String) : Decidable (PlainName name) :=
  inferInstanceAs (Decidable (_ ∧ _))

/-- A path whose names are all plain. -/
def Plain (p : Path) : Prop :=
  ∀ name ∈ p.names, PlainName name

/-- Reading a path gives plain names. -/
theorem plain_ofString (s : String) : (ofString s).Plain := by
  intro name hname
  obtain ⟨hpiece, hidle⟩ := List.mem_filter.mp hname
  exact ⟨by simpa using hidle, Text.not_mem_of_mem_split hpiece⟩

/-- A plain name has characters. -/
theorem PlainName.toList_ne_nil {name : String} (h : PlainName name) :
    name.toList ≠ [] := by
  intro hnil
  have : name = "" := String.toList_eq_nil_iff.mp hnil
  simp [PlainName, this, isIdle] at h

/-- The joined text of plain names does not start with a slash. -/
theorem head_join_ne_slash {names : List String}
    (h : ∀ name ∈ names, PlainName name) :
    (Text.join "/" names).toList.head? ≠ some '/' := by
  cases names with
  | nil => simp [Text.join]
  | cons name rest =>
      have hname := h name (by simp)
      obtain ⟨c, cs, hc⟩ := List.exists_cons_of_ne_nil hname.toList_ne_nil
      have hslash : c ≠ '/' := fun he => hname.2 (by simp [hc, he])
      cases rest with
      | nil => simpa [Text.join, hc] using hslash
      | cons next rest =>
          simpa [Text.join, String.intercalate_cons_cons, hc] using hslash

/-- Plain names are found again in their joined text. -/
theorem names_join {names : List String} (h : ∀ name ∈ names, PlainName name) :
    ((Text.split '/' (Text.join "/" names)).filter fun name => !isIdle name)
      = names := by
  cases names with
  | nil => rfl
  | cons name rest =>
      rw [Text.split_join rfl (by simp) fun n hn => (h n hn).2]
      exact List.filter_eq_self.mpr fun n hn => by simp [(h n hn).1]

/-- Slashes in front say nothing about the names. -/
theorem names_anchor (a : Anchor) (s : String) :
    ((Text.split '/' (a.text ++ s)).filter fun name => !isIdle name)
      = (Text.split '/' s).filter fun name => !isIdle name := by
  have hcons : ∀ cs : List Char,
      ('/' :: cs).splitOn '/' = [] :: cs.splitOn '/' := by
    intro cs
    rw [List.splitOn_cons_eq_if_modifyHead]
    simp
  cases a <;> simp [Text.split, Anchor.text, hcons, isIdle]

/-- The anchor of a text is read back, unless a slash follows. -/
theorem anchorOf_append (a : Anchor) {s : String}
    (h : s.toList.head? ≠ some '/') : anchorOf (a.text ++ s) = a := by
  generalize hcs : s.toList = cs at h
  cases a <;> simp only [anchorOf, Anchor.text, String.toList_append, hcs] <;>
    rcases cs with _ | ⟨c, cs⟩ <;> simp_all

/-- **Round trip.**  A plain path is read back from its text. -/
theorem ofString_text {p : Path} (h : p.Plain) : ofString p.text = p := by
  unfold text
  split
  · rename_i hempty
    obtain ⟨anchor, names⟩ := p
    obtain ⟨rfl, rfl⟩ : anchor = .here ∧ names = [] := hempty
    rfl
  · simp only [ofString, anchorOf_append p.anchor (head_join_ne_slash h),
      names_anchor, names_join h]

/-- Different plain paths have different texts. -/
theorem eq_of_text_eq {p q : Path} (hp : p.Plain) (hq : q.Plain)
    (h : p.text = q.text) : p = q := by
  rw [← ofString_text hp, ← ofString_text hq, h]

/-- A plain path below a plain one is plain. -/
theorem Plain.append {base p : Path} (hbase : base.Plain) (hp : p.Plain) :
    (base ++ p).Plain := by
  change (Path.append base p).Plain
  unfold Path.append
  split
  · intro name hname
    exact (List.mem_append.mp hname).elim (hbase name) (hp name)
  · exact hp

/-- A text below a plain path gives a plain path. -/
theorem Plain.below {base : Path} (h : base.Plain) (s : String) :
    (base.below s).Plain :=
  h.append (plain_ofString s)

/-- The directory of a plain path is plain. -/
theorem Plain.parent {p : Path} (h : p.Plain) : p.parent.Plain :=
  fun name hname => h name (List.dropLast_subset _ hname)

/-- Each name of a normal path is one of the names on the way. -/
theorem plainName_of_mem_step {anchor : Anchor} {done : List String}
    {name : String} (hdone : ∀ n ∈ done, PlainName n) (hname : PlainName name) :
    ∀ n ∈ step anchor done name, PlainName n := by
  have hdots : PlainName ".." := by decide
  unfold step
  split
  · intro n hn
    rcases List.mem_append.mp hn with hn | hn
    · exact hdone n hn
    · exact (List.mem_singleton.mp hn) ▸ hname
  · split
    · split <;> intro n hn
      · exact (List.mem_singleton.mp hn) ▸ hdots
      · cases hn
    · split <;> intro n hn
      · rcases List.mem_append.mp hn with hn | hn
        · exact hdone n hn
        · exact (List.mem_singleton.mp hn) ▸ hdots
      · exact hdone n (List.dropLast_subset _ hn)

/-- A plain path stays plain without its detours. -/
theorem Plain.normalize {p : Path} (h : p.Plain) : p.normalize.Plain := by
  have hfold : ∀ (names done : List String), (∀ n ∈ names, PlainName n) →
      (∀ n ∈ done, PlainName n) →
      ∀ n ∈ names.foldl (step p.anchor) done, PlainName n := by
    intro names
    induction names with
    | nil => intro done _ hdone; exact hdone
    | cons name rest ih =>
        intro done hnames hdone
        exact ih _ (fun n hn => hnames n (List.mem_cons_of_mem _ hn))
          (plainName_of_mem_step hdone (hnames name List.mem_cons_self))
  exact hfold p.names [] h (by simp)

/-- The place of a path: the path with its drive spelled out.  Files are kept
and looked up by their places. -/
def place (p : Path) : Path :=
  placeOfText p.text

/-- Every place is plain. -/
theorem plain_place (p : Path) : p.place.Plain :=
  plain_ofString _

/-- A text that names a drive, and what it is spelled out to. -/
theorem withDrive_cases (s : String) :
    withDrive s = s ∨ ∃ letter rest, s.toList = '/' :: letter :: '/' :: rest ∧
      letter.isAlpha = true ∧
      withDrive s = String.ofList (letter.toUpper :: ':' :: '/' :: rest) := by
  unfold withDrive
  split
  · rename_i letter rest hs
    split
    · exact .inr ⟨letter, rest, hs, by assumption, rfl⟩
    · exact .inl rfl
  · exact .inl rfl

/-- The letter of a drive does not become a slash. -/
theorem toUpper_ne_slash {letter : Char} (h : letter.isAlpha = true) :
    letter.toUpper ≠ '/' := by
  intro he
  unfold Char.toUpper at he
  split at he
  · rename_i hlower
    have hval := congrArg Char.val he
    revert hval hlower
    simp only [UInt32.le_iff_toNat_le, ← UInt32.toNat_inj, UInt32.toNat_add,
      Char.reduceVal, UInt32.reduceToNat, UInt32.reduceSub]
    omega
  · subst he
    exact absurd h (by decide)

/-- A relative plain path has no drive to spell out. -/
theorem place_of_here {p : Path} (h : p.Plain) (ha : p.anchor = .here) :
    p.place = p := by
  have htext : p.text.toList.head? ≠ some '/' := by
    unfold text
    split
    · simp
    · simpa [ha, Anchor.text] using head_join_ne_slash h
  rcases withDrive_cases p.text with hd | ⟨letter, rest, hs, -, -⟩
  · rw [place, placeOfText, hd, ofString_text h]
  · simp [hs] at htext

/-- The place of a plain path is the path itself or relative. -/
theorem place_eq_or_here {p : Path} (h : p.Plain) :
    p.place = p ∨ p.place.anchor = .here := by
  rcases withDrive_cases p.text with hd | ⟨letter, rest, -, halpha, hd⟩
  · exact .inl (by rw [place, placeOfText, hd, ofString_text h])
  · refine .inr ?_
    rw [place, placeOfText, hd]
    simp [ofString, anchorOf, toUpper_ne_slash halpha]

/-- **Places are settled.**  The place of a plain path is its own place. -/
theorem place_place {p : Path} (h : p.Plain) : p.place.place = p.place := by
  rcases place_eq_or_here h with hp | hp
  · rw [hp, hp]
  · exact place_of_here (plain_place p) hp

/-- Spelling out a drive makes one short name and keeps the others. -/
theorem mem_names_place {p : Path} (h : p.Plain) {name : String}
    (hname : name ∈ p.place.names) :
    name ∈ p.names ∨ name.utf8ByteSize ≤ 5 := by
  rcases withDrive_cases p.text with hd | ⟨letter, rest, hs, halpha, hd⟩
  · rw [place, placeOfText, hd, ofString_text h] at hname
    exact .inl hname
  · rw [place, placeOfText, hd] at hname
    obtain ⟨hpiece, hidle⟩ := List.mem_filter.mp hname
    have hdrive : ([letter.toUpper, ':'] : List Char).splitOn '/'
        = [[letter.toUpper, ':']] :=
      List.splitOn_eq_singleton (by simp [(toUpper_ne_slash halpha).symm])
    have hsplit : (letter.toUpper :: ':' :: '/' :: rest).splitOn '/'
        = [letter.toUpper, ':'] :: rest.splitOn '/' := by
      have :=
        List.splitOn_append_cons_self (a := '/') [letter.toUpper, ':'] rest
      rwa [hdrive] at this
    rw [Text.split, String.toList_ofList, hsplit] at hpiece
    rcases List.mem_cons.mp hpiece with rfl | hpiece
    · have hname : String.ofList [letter.toUpper, ':']
          = String.singleton letter.toUpper ++ ":" := by
        apply String.toList_inj.mp
        simp
      have hsize := letter.toUpper.utf8Size_le_four
      have hcolon : (":" : String).utf8ByteSize = 1 := rfl
      rw [hname, String.utf8ByteSize_append,
        String.utf8ByteSize_singleton, hcolon]
      exact .inr (by omega)
    · refine .inl ?_
      rw [← ofString_text h]
      refine List.mem_filter.mpr ⟨?_, hidle⟩
      rw [Text.split, hs]
      refine List.mem_map.mpr ?_
      obtain ⟨cs, hcs, rfl⟩ := List.mem_map.mp hpiece
      have hrest : ('/' :: letter :: '/' :: rest).splitOn '/'
          = ['/', letter].splitOn '/' ++ rest.splitOn '/' :=
        List.splitOn_append_cons_self ['/', letter] rest
      exact ⟨cs, by rw [hrest]; exact List.mem_append_right _ hcs, rfl⟩

-- From here on a place is a name; its text is not looked into.
attribute [irreducible] place

end Path

end Relay
