import Mathlib.Data.List.Nodup
import Relay.Chart.Placement

/-!
# Where the files of a middleware stand

The files below a middleware are walked through from the top, each before those
below it.  A site is a file with the positions that lead to it; which of the
sites are drawn, and which drawn part is nearest to one that is not, depends on
the folding.

The spots of a middleware are gathered on this walk, and of the sites of a file
the first one that is drawn counts, or else the first one at all
(`lookup_spotsOf`).
-/

namespace Relay.Chart

open Analysis

/-- A file below a middleware, with its positions on the way from the top, the
last one first. -/
structure Site where
  steps : List Nat
  record : Record

mutual

/-- The sites of a file and of those below it. -/
def sitesOf (steps : List Nat) : Record → List Site
  | ⟨name, displayName, path, depth, parent, facts, shallow, children⟩ =>
    ⟨steps, ⟨name, displayName, path, depth, parent, facts, shallow, children⟩⟩
      :: sitesBelow steps 0 children

/-- The sites of files that stand below one another, from a position on, and of
those below them. -/
def sitesBelow (steps : List Nat) (position : Nat) : List Record → List Site
  | [] => []
  | r :: rest =>
      sitesOf (position :: steps) r ++ sitesBelow steps (position + 1) rest

end

/-- The sites of the files below a middleware. -/
def sites (m : Middleware) : List Site :=
  sitesBelow [] 0 m.components

mutual

/-- A site of a tree stands below its root. -/
theorem suffix_of_mem_sitesOf {steps : List Nat} {site : Site} :
    ∀ {r : Record}, site ∈ sitesOf steps r → steps <:+ site.steps
  | ⟨_, _, _, _, _, _, _, children⟩, h => by
      rw [sitesOf] at h
      rcases List.mem_cons.mp h with rfl | hbelow
      · exact List.suffix_rfl
      · obtain ⟨k, -, hk⟩ := suffix_of_mem_sitesBelow hbelow
        exact (List.suffix_cons k steps).trans hk

/-- A site of some trees stands below one of their roots. -/
theorem suffix_of_mem_sitesBelow {steps : List Nat} {position : Nat}
    {site : Site} :
    ∀ {rs : List Record}, site ∈ sitesBelow steps position rs →
      ∃ k, position ≤ k ∧ (k :: steps) <:+ site.steps
  | [], h => by simp [sitesBelow] at h
  | r :: rest, h => by
      rw [sitesBelow] at h
      rcases List.mem_append.mp h with hfirst | hrest
      · exact ⟨position, Nat.le_refl position, suffix_of_mem_sitesOf hfirst⟩
      · obtain ⟨k, hk, hsteps⟩ := suffix_of_mem_sitesBelow hrest
        exact ⟨k, by omega, hsteps⟩

end

mutual

/-- Different sites of a tree have different positions. -/
theorem nodup_sitesOf {steps : List Nat} :
    ∀ r : Record, ((sitesOf steps r).map Site.steps).Nodup
  | ⟨_, _, _, _, _, _, _, children⟩ => by
      rw [sitesOf, List.map_cons, List.nodup_cons]
      refine ⟨?_, nodup_sitesBelow children⟩
      intro hmem
      obtain ⟨site, hsite, heq⟩ : ∃ site ∈ sitesBelow steps 0 children,
          site.steps = steps :=
        List.mem_map.mp hmem
      obtain ⟨k, -, hk⟩ := suffix_of_mem_sitesBelow hsite
      have hlength := hk.length_le
      rw [heq, List.length_cons] at hlength
      omega

/-- Different sites of some trees have different positions. -/
theorem nodup_sitesBelow {steps : List Nat} {position : Nat} :
    ∀ rs : List Record, ((sitesBelow steps position rs).map Site.steps).Nodup
  | [] => by simp [sitesBelow]
  | r :: rest => by
      rw [sitesBelow, List.map_append]
      refine List.nodup_append'.mpr ⟨nodup_sitesOf r, nodup_sitesBelow rest, ?_⟩
      intro t hfirst hrest
      obtain ⟨site, hsite, rfl⟩ := List.mem_map.mp hfirst
      obtain ⟨other, hother, hsteps⟩ := List.mem_map.mp hrest
      obtain ⟨k, hk, hsuffix⟩ := suffix_of_mem_sitesBelow hother
      have hroot := suffix_of_mem_sitesOf hsite
      rw [← hsteps] at hroot
      have heq := List.IsSuffix.eq_of_length
        (List.suffix_of_suffix_length_le hroot hsuffix (by simp)) (by simp)
      have hposition : position = k := (List.cons.inj heq).1
      omega

end

mutual

/-- The way from the root of a tree to a site goes over sites. -/
theorem exists_mem_sitesOf_of_suffix {steps t : List Nat} {site : Site} :
    ∀ {r : Record}, site ∈ sitesOf steps r → t <:+ site.steps →
      steps.length ≤ t.length → ∃ above ∈ sitesOf steps r, above.steps = t
  | ⟨_, _, _, _, _, _, _, children⟩, h, ht, hlength => by
      have hroot := suffix_of_mem_sitesOf h
      rw [sitesOf] at h ⊢
      rcases Nat.eq_or_lt_of_le hlength with heq | hlt
      · have hsuffix := List.suffix_of_suffix_length_le hroot ht hlength
        exact ⟨_, List.mem_cons_self, hsuffix.eq_of_length heq⟩
      · rcases List.mem_cons.mp h with rfl | hbelow
        · have hle : t.length ≤ steps.length := ht.length_le
          omega
        · obtain ⟨above, habove, hsteps⟩ :=
            exists_mem_sitesBelow_of_suffix hbelow ht hlt
          exact ⟨above, List.mem_cons_of_mem _ habove, hsteps⟩

/-- The way from one of the roots of some trees to a site goes over sites. -/
theorem exists_mem_sitesBelow_of_suffix {steps t : List Nat} {position : Nat}
    {site : Site} :
    ∀ {rs : List Record}, site ∈ sitesBelow steps position rs →
      t <:+ site.steps →
      steps.length < t.length → ∃ above ∈ sitesBelow steps position rs,
        above.steps = t
  | [], h, _, _ => by simp [sitesBelow] at h
  | r :: rest, h, ht, hlength => by
      rw [sitesBelow] at h ⊢
      rcases List.mem_append.mp h with hfirst | hrest
      · obtain ⟨above, habove, hsteps⟩ :=
          exists_mem_sitesOf_of_suffix hfirst ht hlength
        exact ⟨above, List.mem_append_left _ habove, hsteps⟩
      · obtain ⟨above, habove, hsteps⟩ :=
          exists_mem_sitesBelow_of_suffix hrest ht hlength
        exact ⟨above, List.mem_append_right _ habove, hsteps⟩

end

namespace Folding

variable (f : Folding) (index : Nat)

/-- The files right below a place are drawn. -/
def shows : List Nat → Bool
  | [] => f.showsMiddleware index
  | step :: above => shows above && f.isOpen index (step :: above)

/-- The file at a place is drawn. -/
def draws (steps : List Nat) : Bool :=
  f.shows index steps.tail

/-- The drawn part that is nearest to a place, which is the file's own if it is
drawn; `top` is the one above all files. -/
def nearest (top : NodeId) : List Nat → NodeId
  | [] => top
  | step :: above =>
    if f.draws index (step :: above) then .component index (step :: above)
    else nearest top above

variable {f index}

/-- Where files below a place are shown, they are shown at every place above
it. -/
theorem shows_of_suffix {s t : List Nat} (h : t <:+ s)
    (hs : f.shows index s = true) :
    f.shows index t = true := by
  obtain ⟨more, rfl⟩ := h
  induction more with
  | nil => exact hs
  | cons step more ih =>
      rw [List.cons_append, shows, Bool.and_eq_true] at hs
      exact ih hs.1

/-- A file that is drawn is the part nearest to itself. -/
theorem nearest_of_draws {top : NodeId} {steps : List Nat} (hne : steps ≠ [])
    (h : f.draws index steps = true) :
    f.nearest index top steps = .component index steps := by
  cases steps with
  | nil => exact absurd rfl hne
  | cons step above => rw [nearest, if_pos h]

/-- The nearest drawn part is the one above all files or a drawn file on the
way. -/
theorem nearest_eq_or (top : NodeId) (steps : List Nat) :
    f.nearest index top steps = top ∨
      ∃ t, t <:+ steps ∧ t ≠ [] ∧ f.draws index t = true ∧
        f.nearest index top steps = .component index t := by
  induction steps with
  | nil => exact .inl rfl
  | cons step above ih =>
      rw [nearest]
      split
      · rename_i hdrawn
        exact .inr ⟨_, List.suffix_rfl, List.cons_ne_nil step above,
          hdrawn, rfl⟩
      · rcases ih with htop | ⟨t, ht, hne, hdrawn, heq⟩
        · exact .inl htop
        · exact .inr ⟨t, ht.trans (List.suffix_cons step above), hne,
            hdrawn, heq⟩

end Folding

namespace Spots

/-- The spots with a spot of a file, which counts if the file has no better
one. -/
def put (spots : Spots) (key : String) (spot : Spot) : Spots :=
  if spot.isOwn then spots.putOwn key spot.node
  else spots.putAbove key spot.node

/-- Of some spots the first one that is the file's own counts, or else the
first one. -/
def best (spots : List Spot) : Option Spot :=
  (spots.find? (·.isOwn)).or spots.head?

/-- A spot of its own for a key is weighed against the one that is there. -/
theorem lookup_putOwn (key : String) (node : NodeId) (spots : Spots)
    (k : String) :
    (spots.putOwn key node).lookup k
      = if k = key then best ((spots.lookup k).toList ++ [⟨node, true⟩])
        else spots.lookup k := by
  induction spots with
  | nil =>
      by_cases hk : k = key
      · simp [putOwn, hk, best]
      · simp [putOwn, hk, List.lookup_cons, beq_eq_false_iff_ne.mpr hk]
  | cons entry rest ih =>
      obtain ⟨name, spot⟩ := entry
      rw [putOwn]
      by_cases hname : name = key
      · by_cases hk : k = key
        · cases hown : spot.isOwn <;> simp [hname, hk, hown, best]
        · simp [hname, hk, List.lookup_cons, beq_eq_false_iff_ne.mpr hk]
      · rw [if_neg hname]
        by_cases hk : k = name
        · simp [hk, hname]
        · simp only [List.lookup_cons, beq_eq_false_iff_ne.mpr hk, ih]

/-- A spot from above is taken for a key that has none. -/
theorem lookup_putAbove (spots : Spots) (key : String) (node : NodeId)
    (k : String) :
    (spots.putAbove key node).lookup k
      = if k = key then (spots.lookup k).or (some ⟨node, false⟩)
        else spots.lookup k := by
  unfold putAbove
  split
  · rename_i hsome
    split
    · rename_i hk
      obtain ⟨spot, hspot⟩ := Option.isSome_iff_exists.mp hsome
      rw [hk, hspot, Option.some_or]
    · rfl
  · rename_i hnone
    rw [List.lookup_append]
    by_cases hk : k = key
    · simp [hk]
    · simp [hk, List.lookup_cons, beq_eq_false_iff_ne.mpr hk]

/-- One spot more. -/
theorem lookup_put (spots : Spots) (key : String) (spot : Spot) (k : String) :
    (spots.put key spot).lookup k
      = if k = key then best ((spots.lookup k).toList ++ [spot])
        else spots.lookup k := by
  obtain ⟨node, own⟩ := spot
  cases own with
  | true => exact lookup_putOwn key node spots k
  | false =>
      rw [put, if_neg Bool.false_ne_true, lookup_putAbove]
      cases hspot : spots.lookup k with
      | none => simp [best]
      | some known => cases hown : known.isOwn <;> simp [best, hown]

/-- The best of at most one spot is that spot. -/
theorem best_toList (known : Option Spot) : best known.toList = known := by
  cases known with
  | none => rfl
  | some spot => cases hown : spot.isOwn <;> simp [best, hown]

/-- The best of some spots can be found in two steps. -/
theorem best_append (spots more : List Spot) :
    best ((best spots).toList ++ more) = best (spots ++ more) := by
  unfold best
  cases hfind : spots.find? (·.isOwn) with
  | some spot =>
      have hown := List.find?_some hfind
      simp [List.find?_append, hfind, hown]
  | none =>
      cases spots with
      | nil => simp
      | cons first rest =>
          have hfirst : first.isOwn = false := by
            simpa using (List.find?_eq_none.mp hfind) first List.mem_cons_self
          rw [List.find?_cons_of_neg (by simp [hfirst])] at hfind
          simp [List.find?_append, hfind, hfirst]

/-- **Many spots more.**  The best of the spots of a file is the one that
counts. -/
theorem lookup_foldl_put {α : Type} (key : α → String) (spot : α → Spot)
    (k : String) (items : List α) (spots : Spots) :
    (items.foldl (fun known a => known.put (key a) (spot a)) spots).lookup k
      = best ((spots.lookup k).toList ++
        (items.filter (key · = k)).map spot) := by
  induction items generalizing spots with
  | nil =>
      rw [List.foldl_nil, List.filter_nil, List.map_nil, List.append_nil,
        best_toList]
  | cons a items ih =>
      rw [List.foldl_cons, ih, lookup_put]
      by_cases hk : k = key a
      · rw [if_pos hk, best_append, List.filter_cons_of_pos (by simp [hk])]
        simp
      · rw [if_neg hk, List.filter_cons_of_neg (by simpa using Ne.symm hk)]

end Spots

/-- The spot of a site. -/
def Site.spot (f : Folding) (index : Nat) (top : NodeId) (site : Site) : Spot :=
  ⟨f.nearest index top site.steps, f.draws index site.steps⟩

section Gathering

variable (f : Folding) (index : Nat) (top : NodeId)

/-- The spots with that of a site. -/
def Spots.putSite (spots : Spots) (site : Site) : Spots :=
  spots.put (pathKey site.record.path) (site.spot f index top)

mutual

/-- The spots of a tree are gathered site by site. -/
theorem addSpots_eq_foldl (step : Nat) (above : List Nat) (spots : Spots) :
    ∀ r : Record, addSpots f index (step :: above) (f.shows index above)
        (f.nearest index top above) spots r
      = (sitesOf (step :: above) r).foldl (Spots.putSite f index top) spots
  | ⟨_, _, path, _, _, _, _, children⟩ => by
      rw [addSpots, sitesOf, List.foldl_cons, ← addAllSpots_eq_foldl]
      have hnearest : (if f.shows index above = true then
            NodeId.component index (step :: above)
          else f.nearest index top above)
          = f.nearest index top (step :: above) := rfl
      have hput : (if f.shows index above = true then
            spots.putOwn (pathKey path) (.component index (step :: above))
          else spots.putAbove (pathKey path) (f.nearest index top above))
          = spots.put (pathKey path)
            ⟨f.nearest index top (step :: above),
                f.draws index (step :: above)⟩ := by
        rw [← hnearest]
        unfold Spots.put Folding.draws
        cases hdrawn : f.shows index above <;> simp [hdrawn]
      simp only [hnearest, hput]
      rfl

/-- The spots of some trees are gathered site by site. -/
theorem addAllSpots_eq_foldl (steps : List Nat) (position : Nat)
    (spots : Spots) :
    ∀ rs : List Record, addAllSpots f index steps position (f.shows index steps)
        (f.nearest index top steps) spots rs
      = (sitesBelow steps position rs).foldl (Spots.putSite f index top) spots
  | [] => by simp [addAllSpots, sitesBelow]
  | r :: rest => by
      rw [addAllSpots, sitesBelow, List.foldl_append, addSpots_eq_foldl,
        addAllSpots_eq_foldl]

end

end Gathering

/-- The part that the calls of a file hang on: that of the middleware if the
file is its own, else the first drawn site of the file, else the drawn part
nearest to its first site.  A test tells the paths of the file. -/
def placeOf? (f : Folding) (index : Nat) (m : Middleware) (same : Path → Bool) :
    Option NodeId :=
  if m.path.any same then some (mainId index m)
  else match (sites m).find?
      fun site => same site.record.path && f.draws index site.steps with
    | some site => some (.component index site.steps)
    | none =>
      ((sites m).find? (same ·.record.path)).map fun site =>
        f.nearest index (mainId index m) site.steps

/-- Only the paths of the middleware and of its sites are tested. -/
theorem placeOf?_congr {f : Folding} {index : Nat} {m : Middleware}
    {same same' : Path → Bool} (hown : m.path.any same = m.path.any same')
    (hsites : ∀ site ∈ sites m,
      same site.record.path = same' site.record.path) :
    placeOf? f index m same = placeOf? f index m same' := by
  have hfind : (sites m).find? (same ·.record.path) =
      (sites m).find? (same' ·.record.path) := by
    rw [← List.head?_filter, ← List.head?_filter, List.filter_congr hsites]
  have hdrawn : ((sites m).find? fun site => same site.record.path &&
    f.draws index site.steps)
      = (sites m).find? fun site => same' site.record.path &&
          f.draws index site.steps := by
    rw [← List.head?_filter, ← List.head?_filter]
    exact congrArg
      _ (List.filter_congr fun site hsite => by rw [hsites site hsite])
  rw [placeOf?, placeOf?, hown, hfind, hdrawn]

/-- The calls of a file hang somewhere just when it is the middleware's own or
has a site. -/
theorem isSome_placeOf?_iff {f : Folding} {index : Nat} {m : Middleware}
    {same : Path → Bool} : (placeOf? f index m same).isSome ↔
      m.path.any same = true ∨ ∃ site ∈ sites m,
        same site.record.path = true := by
  unfold placeOf?
  split
  · rename_i hown
    exact iff_of_true rfl (.inl hown)
  · rename_i hother
    rw [or_iff_right hother]
    split
    · rename_i site hsite
      have hboth := List.find?_some hsite
      rw [Bool.and_eq_true] at hboth
      exact iff_of_true rfl ⟨site, List.mem_of_find?_eq_some hsite, hboth.1⟩
    · rw [Option.isSome_map, List.find?_isSome]

/-- A file below a middleware is at some position. -/
theorem steps_ne_nil_of_mem_sites {m : Middleware} {site : Site}
    (h : site ∈ sites m) :
    site.steps ≠ [] := by
  obtain ⟨k, -, hk⟩ := suffix_of_mem_sitesBelow h
  intro hnil
  rw [hnil, List.suffix_nil] at hk
  cases hk

/-- Of the spots of a file's sites, the one that counts. -/
theorem map_node_best_sites (f : Folding) (index : Nat) (m : Middleware)
    (same : Path → Bool) :
    (Spots.best (((sites m).filter (same ·.record.path)).map
        (Site.spot f index (mainId index m)))).map Spot.node
      = match (sites m).find? fun site => same site.record.path &&
        f.draws index site.steps with
        | some site => some (.component index site.steps)
        | none =>
          ((sites m).find? (same ·.record.path)).map fun site =>
            f.nearest index (mainId index m) site.steps := by
  have hdrawn : (((sites m).filter (same ·.record.path)).map
        (Site.spot f index (mainId index m))).find? (·.isOwn)
      = ((sites m).find? fun site => same site.record.path &&
        f.draws index site.steps).map
        (Site.spot f index (mainId index m)) := by
    rw [List.find?_map, List.find?_filter]
    congr 2
    funext site
    cases same site.record.path <;> simp [Site.spot]
  rw [Spots.best, hdrawn, List.head?_map, List.head?_filter]
  cases hsite : (sites m).find? fun site => same site.record.path &&
      f.draws index site.steps with
  | none =>
      rw [Option.map_none, Option.none_or, Option.map_map]
      rfl
  | some site =>
      have hboth := List.find?_some hsite
      rw [Bool.and_eq_true] at hboth
      have hne := steps_ne_nil_of_mem_sites (List.mem_of_find?_eq_some hsite)
      simp [Site.spot, Folding.nearest_of_draws hne hboth.2]

/-- **The spots of a middleware.**  What is found among them is the part that
the calls of the file hang on. -/
theorem lookup_spotsOf (f : Folding) (index : Nat) (m : Middleware)
    (key : String) :
    ((spotsOf f index m).lookup key).map Spot.node
      = placeOf? f index m (pathKey · = key) := by
  have hgathered : ∀ own : Spots,
      ((addAllSpots f index [] 0 (f.showsMiddleware index) (mainId index m) own
        m.components).lookup key)
        = Spots.best ((own.lookup key).toList
          ++ ((sites m).filter (pathKey ·.record.path = key)).map
            (Site.spot f index (mainId index m))) := by
    intro own
    have hfold :=
      addAllSpots_eq_foldl f index (mainId index m) [] 0 own m.components
    exact (congrArg (List.lookup key) hfold).trans
      (Spots.lookup_foldl_put _ _ _ _ _)
  have hsites := map_node_best_sites f index m (pathKey · = key)
  unfold placeOf?
  cases hpath : m.path with
  | none =>
      simp only [spotsOf, hpath, hgathered, List.lookup_nil, Option.toList_none,
        List.nil_append]
      exact hsites
  | some path =>
      simp only [spotsOf, hpath, hgathered, Option.any_some, decide_eq_true_eq]
      by_cases hkey : pathKey path = key
      · simp [hkey, Spots.best]
      · have hlookup :
            List.lookup key [(pathKey path, Spot.mk (mainId index m) true)] =
                none := by
          rw [List.lookup_cons, beq_eq_false_iff_ne.mpr (Ne.symm hkey),
            List.lookup_nil]
        rw [if_neg hkey, hlookup, Option.toList_none, List.nil_append]
        exact hsites

end Relay.Chart
