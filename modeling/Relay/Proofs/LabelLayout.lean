import Mathlib.Tactic.MkIffOfInductiveProp
import Relay.Proofs.LabelTexts

/-!
# How the label of an arrow is laid out

The entries on an arrow are the properties that it carries.  With more than
twelve of them the first eleven are written, and a twelfth entry announces how
many are left out.  The entries stand in lines of three, of which the last may
be shorter (`edgeLabel_layout`).

The announcement does not go through the grouping: it is added to the last line
afterwards.  That comes to the same only because eleven is not a multiple of
three, so that the last line of the first eleven properties has a free place
(`inGroups_append_singleton`).
-/

namespace Relay.Chart

section Groups

variable {α : Type} {size n : Nat} {a : α} {group last items : List α}
  {groups front : List (List α)}

/-- Values in consecutive groups: put together the groups are the values in
their order, no group is empty or larger than `size`, and all but the last one
are full. -/
@[mk_iff]
structure Grouped (size : Nat) (items : List α) (groups : List (List α)) :
    Prop where
  flatten : groups.flatten = items
  nonempty : ∀ group ∈ groups, group ≠ []
  length_le : ∀ group ∈ groups, group.length ≤ size
  full : ∀ group ∈ groups.dropLast, group.length = size

/-- Only nothing is parted into no groups. -/
theorem grouped_nil : Grouped size items [] ↔ items = [] := by
  simp [grouped_iff, eq_comm]

/-- The first group stands in front of the others, and is full if there are
others. -/
theorem grouped_cons : Grouped size items (group :: groups) ↔
    group ≠ [] ∧ group.length ≤ size ∧ (groups ≠ [] → group.length = size) ∧
      ∃ rest, items = group ++ rest ∧ Grouped size rest groups := by
  cases groups with
  | nil =>
      simp only [grouped_iff, List.flatten_cons, List.flatten_nil,
        List.dropLast_singleton]
      grind
  | cons next groups =>
      simp only [grouped_iff, List.flatten_cons, List.dropLast_cons_cons,
        List.forall_mem_cons]
      grind

/-- The groups of the layout are consecutive groups of the given size. -/
theorem grouped_inGroups (n : Nat) (items : List α) :
    Grouped (n + 1) items (inGroups n items) := by
  fun_induction inGroups n items with
  | case1 => exact grouped_nil.mpr rfl
  | case2 a rest ih =>
      refine grouped_cons.mpr ⟨by simp, by simp, ?_, rest.drop n, by simp, ih⟩
      intro hothers
      have hleft : rest.drop n ≠ [] := by
        intro hnone
        rw [hnone, inGroups] at hothers
        exact hothers rfl
      have hlength := List.length_pos_of_ne_nil hleft
      rw [List.length_drop] at hlength
      simp only [List.length_cons, List.length_take]
      omega

/-- There is only one way to part values into consecutive groups of a given
size. -/
theorem Grouped.eq_inGroups (h : Grouped (n + 1) items groups) :
    groups = inGroups n items := by
  induction groups generalizing items with
  | nil => rw [grouped_nil.mp h, inGroups]
  | cons group groups ih =>
      obtain ⟨hne, hle, hfull, rest, rfl, hrest⟩ := grouped_cons.mp h
      obtain ⟨a, group, rfl⟩ := List.exists_cons_of_ne_nil hne
      rw [List.length_cons, Nat.add_le_add_iff_right] at hle
      rw [List.cons_append, inGroups]
      by_cases hgroups : groups = []
      · subst hgroups
        rw [grouped_nil.mp hrest, List.append_nil, List.take_of_length_le hle,
          List.drop_of_length_le hle, inGroups]
      · have hlength : group.length = n := Nat.succ.inj (hfull hgroups)
        rw [List.take_left' hlength, List.drop_left' hlength, ← ih hrest]

/-- **There is one way to group values.** -/
theorem grouped_iff_eq_inGroups :
    Grouped (n + 1) items groups ↔ groups = inGroups n items := by
  constructor
  · exact Grouped.eq_inGroups
  · rintro rfl
    exact grouped_inGroups n items

/-- A last group that is not full has a place for one more value. -/
theorem Grouped.append_singleton (h : Grouped size items (front ++ [last]))
    (hlast : last.length < size) :
    Grouped size (items ++ [a]) (front ++ [last ++ [a]]) := by
  obtain ⟨hflatten, hnonempty, hle, hfull⟩ := h
  rw [List.forall_mem_append] at hnonempty hle
  rw [List.dropLast_concat] at hfull
  constructor
  · simp [← hflatten]
  · exact List.forall_mem_append.mpr ⟨hnonempty.1, by simp⟩
  · exact List.forall_mem_append.mpr ⟨hle.1, by simpa using hlast⟩
  · rwa [List.dropLast_concat]

/-- The last group is not full, unless all of them are. -/
theorem Grouped.length_last_lt (h : Grouped size items (front ++ [last]))
    (hitems : ¬ size ∣ items.length) : last.length < size := by
  have hfull := h.full
  rw [List.dropLast_concat] at hfull
  have hle : last.length ≤ size := h.length_le last (by simp)
  apply lt_of_le_of_ne hle
  intro hlast
  have hall : ∀ group ∈ front ++ [last], group.length = size :=
    List.forall_mem_append.mpr ⟨hfull, by simpa using hlast⟩
  apply hitems
  rw [← h.flatten, List.length_flatten, List.map_eq_replicate_iff.mpr hall,
    List.sum_replicate_nat]
  exact Nat.dvd_mul_left size _

/-- **One more value goes to the last group**, unless all groups are full. -/
theorem inGroups_append_singleton (hitems : ¬ (n + 1) ∣ items.length) (a : α) :
    ∃ front last, last ≠ [] ∧ inGroups n items = front ++ [last] ∧
      inGroups n (items ++ [a]) = front ++ [last ++ [a]] := by
  have hgrouped := grouped_inGroups n items
  have hsome : inGroups n items ≠ [] := by
    intro hnone
    rw [hnone, grouped_nil] at hgrouped
    rw [hgrouped] at hitems
    exact hitems (dvd_zero _)
  obtain ⟨front, last, hgroups⟩ :=
    List.eq_nil_or_concat' (inGroups n items) |>.resolve_left hsome
  rw [hgroups] at hgrouped
  have hlast := hgrouped.length_last_lt hitems
  exact ⟨front, last, hgrouped.nonempty last (by simp), hgroups,
    (hgrouped.append_singleton hlast).eq_inGroups.symm⟩

end Groups

/-- A text is added to the last line. -/
theorem addToLast_append_singleton (text line : String) (front : List String) :
    addToLast text (front ++ [line]) = front ++ [line ++ text] := by
  induction front with
  | nil => rfl
  | cons first front ih =>
      have hsome : front ++ [line] ≠ [] := by simp
      rw [List.cons_append, addToLast, ih, List.cons_append]
      exact hsome

/-- A text that is added to the last line, after a separator, is one more entry
of its group. -/
theorem addToLast_map_join (sep entry : String) (front : List (List String))
    {last : List String} (h : last ≠ []) :
    addToLast (sep ++ entry) ((front ++ [last]).map (Text.join sep))
      = (front ++ [last ++ [entry]]).map (Text.join sep) := by
  have hjoin : Text.join sep (last ++ [entry]) = Text.join sep last ++
      (sep ++ entry) := by
    simp only [Text.join,
      String.intercalate_append_of_ne_nil h (List.cons_ne_nil entry []),
      String.intercalate_singleton, String.append_assoc]
  simp only [List.map_append, List.map_singleton,
    addToLast_append_singleton, hjoin]

/-- The entry that announces how many properties are left out. -/
def announcement (hidden : Nat) : String :=
  s!"+{hidden} more"

/-- The announcement after a comma, as it ends a label. -/
theorem comma_announcement (hidden : Nat) :
    ", " ++ announcement hidden = s!", +{hidden} more" := by
  have htext : ∀ t : String, toString t = t := fun _ => rfl
  apply String.toList_inj.mp
  simp [announcement, htext]

/-- The entries for some properties, at most a given number: the properties
themselves or, if they are too many, the first of them and how many more there
are. -/
def entriesWithin (most : Nat) (properties : List String) : List String :=
  if properties.length ≤ most then properties
  else properties.take (most - 1) ++
    [announcement (properties.length - (most - 1))]

/-- No label has more entries than there is place for. -/
theorem length_entriesWithin_le {most : Nat} (h : 0 < most)
    (properties : List String) :
    (entriesWithin most properties).length ≤ most := by
  unfold entriesWithin
  split
  · assumption
  · simp only [List.length_append, List.length_take, List.length_singleton]
    omega

/-- **The lines hold the entries in groups**, the announcement among them. -/
theorem edgeLines_eq (properties : List String) : edgeLines properties
    = (inGroups (entriesPerLine - 1)
      (entriesWithin greatestEntries properties)).map
        (Text.join ", ") := by
  unfold edgeLines entriesWithin
  split
  · rfl
  · rename_i hmany
    have hlength : (properties.take (greatestEntries - 1)).length =
        greatestEntries - 1 := by
      rw [List.length_take]
      omega
    -- Here the two numbers meet: eleven entries leave a place on a line.
    have hplace : ¬ (entriesPerLine - 1 + 1) ∣ greatestEntries - 1 := by decide
    rw [← hlength] at hplace
    obtain ⟨front, last, hlast, hgroups, happend⟩ :=
      inGroups_append_singleton hplace
      (announcement (properties.length - (greatestEntries - 1)))
    simp only [happend, hgroups, ← addToLast_map_join ", " _ front hlast,
      comma_announcement]

/-- What is written and what is announced are all the properties. -/
theorem exists_announcement (properties : List String) :
    ∃ hidden, (entriesShown properties).length + hidden = properties.length ∧
      entriesWithin greatestEntries properties
        = entriesShown properties ++ if hidden = 0 then []
          else [announcement hidden] := by
  unfold entriesShown entriesWithin
  split
  · exact ⟨0, rfl, by simp⟩
  · rename_i hmany
    refine ⟨properties.length - (greatestEntries - 1), ?_, ?_⟩
    · rw [List.length_take]
      omega
    · have hsome : properties.length - (greatestEntries - 1) ≠ 0 := by omega
      rw [if_neg hsome]

/-- **The layout of the label of an arrow.**  There is one way to put the
entries for the properties, which are at most twelve, into consecutive groups
of three.  The label has a line for every group, so no line has more than three
entries.  The properties that are written and the number that is announced make
up the number of all properties. -/
theorem edgeLabel_layout (properties : List String) :
    ∃ groups,
      (∀ other, Grouped 3 (entriesWithin 12 properties) other ↔
        other = groups) ∧
      edgeLabel properties = Text.join "\\n" (groups.map (Text.join ", ")) ∧
      (∀ group ∈ groups, group.length ≤ 3) ∧
      (entriesWithin 12 properties).length ≤ 12 ∧
      ∃ hidden, (entriesShown properties).length + hidden = properties.length ∧
        entriesWithin 12 properties
          = entriesShown properties ++ if hidden = 0 then []
            else [announcement hidden] := by
  have hlines := edgeLines_eq properties
  refine ⟨inGroups 2 (entriesWithin 12 properties),
    fun _ => grouped_iff_eq_inGroups, ?_, (grouped_inGroups 2 _).length_le,
    length_entriesWithin_le (by decide) properties,
    exists_announcement properties⟩
  rw [edgeLabel, hlines]
  rfl

end Relay.Chart
