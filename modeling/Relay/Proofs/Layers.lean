import Relay.Proofs.KeyPaths
import Relay.Settings.Load

/-!
# Layers of settings

What an upper layer makes of a lower one is told way by way.  A leaf of the
upper layer is a leaf of the result; where the upper layer is silent the result
is as the lower layer; and at every level the names of the lower layer keep
their order, and new names follow in the order of the upper one (`Overlays`).
Merging a layer twice is merging it once, and the empty layer changes nothing.

The settings of a workspace come of four layers, and of the leaves at the end
of a way the one of the topmost layer counts, if the layers above it are silent
(`layers_settle`).
-/

namespace Relay.Settings

open Json

@[simp] theorem mergeValue_none (value : Json) :
    mergeValue none value = value := by
  cases value <;> rfl

/-- A value that is no object takes the place of what is below. -/
theorem mergeValue_of_leaf {value : Json} (h : ¬ value.IsObject)
    (below : Option Json) :
    mergeValue below value = value := by
  cases value with
  | object fields => exact absurd trivial h
  | _ => rfl

theorem mergeValue_object (fields updates : Fields) :
    mergeValue (some (.object fields))
    (.object updates) = .object (merge fields updates) := rfl

/-- Over a leaf the upper object stays as it is. -/
theorem mergeValue_of_leaf_below {below : Json} (h : ¬ below.IsObject)
    (value : Json) :
    mergeValue (some below) value = value := by
  cases value with
  | object updates =>
      cases below with
      | object fields => exact absurd trivial h
      | _ => rfl
  | _ => rfl

variable {fields updates : Fields}

/-- In a merged object stands what is given under a key, merged into what is
below; what is given nothing for stays. -/
theorem get?_merge (h : updates.keys.Nodup) (fields : Fields) (key : String) :
    (merge fields updates).get? key
      = ((updates.get? key).map (mergeValue (fields.get? key))).or
        (fields.get? key) := by
  induction updates generalizing fields with
  | nil => rfl
  | cons update rest ih =>
      obtain ⟨name, value⟩ := update
      obtain ⟨hname, hrest⟩ := List.nodup_cons.mp h
      rw [merge, ih hrest, Fields.get?_set, Fields.get?_cons]
      by_cases hkey : key = name
      · have hnone : Fields.get? rest name = none :=
          Fields.get?_eq_none_iff.mpr hname
        subst hkey
        simp [hnone]
      · simp [hkey]

/-- **Names in order.**  The names of the lower layer stay where they are, and
new names follow in the order of the upper layer. -/
theorem keys_merge (h : updates.keys.Nodup) (fields : Fields) :
    (merge fields updates).keys
      = fields.keys ++ updates.keys.filter
        (fun name => name ∉ fields.keys) := by
  induction updates generalizing fields with
  | nil => simp [merge, Fields.keys]
  | cons update rest ih =>
      obtain ⟨name, value⟩ := update
      obtain ⟨hname, hrest⟩ := List.nodup_cons.mp h
      have hcons : Fields.keys ((name, value) :: rest) =
          name :: Fields.keys rest := rfl
      rw [merge, ih hrest, Fields.keys_set, hcons]
      by_cases hmem : name ∈ fields.keys
      · simp [hmem]
      · rw [if_neg hmem, List.filter_cons_of_pos (by simpa using hmem),
          List.append_assoc, List.singleton_append]
        congr 2
        refine List.filter_congr fun other hother => ?_
        have hne : other ≠ name := fun heq => hname (heq ▸ hother)
        simp [hne]

/-- Fields that say what a layer says already stay as they are. -/
theorem merge_of_settled
    (h : ∀ update ∈ updates, ∃ value, fields.get? update.1 = some value ∧
      mergeValue (some value) update.2 = value) :
      merge fields updates = fields := by
  induction updates with
  | nil => rfl
  | cons update rest ih =>
      obtain ⟨name, upper⟩ := update
      obtain ⟨⟨value, hvalue, hsettled⟩, hrest⟩ := List.forall_mem_cons.mp h
      rw [merge, hvalue, hsettled, Fields.set_of_get? hvalue]
      exact ih hrest

/-- A layer over fields of other names goes to their end. -/
theorem merge_of_disjoint (h : updates.keys.Nodup)
    (hnew : ∀ name ∈ updates.keys, name ∉ fields.keys) :
    merge fields updates = fields ++ updates := by
  induction updates generalizing fields with
  | nil => simp [merge]
  | cons update rest ih =>
      obtain ⟨name, value⟩ := update
      obtain ⟨hname, hrest⟩ := List.nodup_cons.mp h
      obtain ⟨hfirst, hothers⟩ := List.forall_mem_cons.mp hnew
      rw [merge, Fields.get?_eq_none_iff.mpr hfirst, mergeValue_none,
        Fields.set_of_notMem hfirst, ih hrest, List.append_assoc,
        List.singleton_append]
      intro other hother
      have hne : other ≠ name := fun heq => hname (heq ▸ hother)
      have := hothers other hother
      simp_all [Fields.keys]

/-- Distinct fields merged into nothing are themselves. -/
theorem merge_nil_left (h : updates.keys.Nodup) : merge [] updates = updates :=
  merge_of_disjoint h (by simp [Fields.keys])

/-- What stands in a field of a merged object. -/
theorem field?_mergeValue (h : updates.keys.Nodup) (below : Option Json)
    (key : String) :
    (mergeValue below (.object updates)).field? key
      = ((updates.get? key).map (mergeValue (below.bind (·.field? key)))).or
          (below.bind (·.field? key)) := by
  have hnone : mergeValue none = id := funext mergeValue_none
  cases below with
  | none => simp [hnone]
  | some b =>
      by_cases hobject : b.IsObject
      · obtain ⟨fields, rfl⟩ := hobject.exists_fields
        rw [mergeValue_object, field?_object, get?_merge h]
        rfl
      · simp [mergeValue_of_leaf_below hobject, field?_eq_none hobject, hnone]

/-- A leaf of the upper value is a leaf of the result. -/
theorem at?_mergeValue_of_leaf {value leaf : Json} (hvalue : value.Distinct)
    (hleaf : ¬ leaf.IsObject) {path : List String}
    (h : value.at? path = some leaf) (below : Option Json) :
    (mergeValue below value).at? path = some leaf := by
  induction path generalizing value below with
  | nil =>
      cases h
      rw [mergeValue_of_leaf hleaf, at?_nil]
  | cons key rest ih =>
      obtain ⟨inner, hinner, hrest⟩ := Option.bind_eq_some_iff.mp h
      by_cases hobject : value.IsObject
      · obtain ⟨updates, rfl⟩ := hobject.exists_fields
        obtain ⟨hkeys, hvalues⟩ := distinct_object_iff.mp hvalue
        rw [field?_object] at hinner
        rw [at?_cons, field?_mergeValue hkeys, hinner]
        exact ih (hvalues key inner hinner) hrest _
      · rw [field?_eq_none hobject] at hinner
        cases hinner

/-- Where the upper value is silent the result is as the lower value. -/
theorem at?_mergeValue_of_silent {value : Json} (hvalue : value.Distinct)
    {path : List String} (h : value.Silent path) (below : Option Json) :
    (mergeValue below value).at? path = below.bind (·.at? path) := by
  induction path generalizing value below with
  | nil => cases h.1
  | cons key rest ih =>
      obtain ⟨updates, rfl⟩ := h.2.isObject.exists_fields
      obtain ⟨hkeys, hvalues⟩ := distinct_object_iff.mp hvalue
      rw [at?_cons, field?_mergeValue hkeys, bind_at?_cons]
      cases hinner : updates.get? key with
      | none => rfl
      | some inner => exact ih (hvalues key inner hinner) (h.field hinner) _

/-- **Names in order, at every level.** -/
theorem namesOf_at?_mergeValue {value : Json} (hvalue : value.Distinct)
    {path : List String} (h : value.OpenTo path) (below : Option Json) :
    namesOf ((mergeValue below value).at? path)
      = namesOf (below.bind (·.at? path)) ++ (namesOf (value.at? path)).filter
          (fun name => name ∉ namesOf (below.bind (·.at? path))) := by
  induction path generalizing value below with
  | nil =>
      obtain ⟨updates, rfl⟩ := h.isObject.exists_fields
      have hkeys := (distinct_object_iff.mp hvalue).1
      have hall : ∀ names : List String,
          names.filter (fun name => name ∉ ([] : List String)) = names :=
        fun names => List.filter_eq_self.mpr (by simp)
      cases below with
      | none => exact (hall updates.keys).symm
      | some b =>
          by_cases hobject : b.IsObject
          · obtain ⟨fields, rfl⟩ := hobject.exists_fields
            exact keys_merge hkeys fields
          · rw [mergeValue_of_leaf_below hobject, Option.bind_some, at?_nil,
              at?_nil, namesOf_leaf hobject, hall, List.nil_append]
  | cons key rest ih =>
      obtain ⟨updates, rfl⟩ := h.isObject.exists_fields
      obtain ⟨hkeys, hvalues⟩ := distinct_object_iff.mp hvalue
      rw [at?_cons, at?_cons, field?_mergeValue hkeys, bind_at?_cons,
        field?_object]
      cases hinner : updates.get? key with
      | none => simp [namesOf]
      | some inner => exact ih (hvalues key inner hinner) (h.field hinner) _

/-- An object merged into anything is an object. -/
theorem exists_mergeValue_object (below : Option Json) (updates : Fields) :
    ∃ fields : Fields, mergeValue below (.object updates) = .object fields := by
  cases below with
  | none => exact ⟨updates, rfl⟩
  | some b =>
      by_cases hobject : b.IsObject
      · obtain ⟨fields, rfl⟩ := hobject.exists_fields
        exact ⟨merge fields updates, rfl⟩
      · exact ⟨updates, mergeValue_of_leaf_below hobject _⟩

/-- **Merging twice.**  Over its own result a layer changes nothing. -/
theorem mergeValue_mergeValue {value : Json} (hvalue : value.Distinct)
    (below : Option Json) :
    mergeValue (some (mergeValue below value)) value =
      mergeValue below value := by
  induction value using induction_on_fields generalizing below with
  | leaf value hleaf => simp only [mergeValue_of_leaf hleaf]
  | object updates ih =>
      obtain ⟨hkeys, hvalues⟩ := distinct_object_iff.mp hvalue
      have hfield := field?_mergeValue hkeys below
      obtain ⟨fields, hfields⟩ := exists_mergeValue_object below updates
      rw [hfields] at hfield ⊢
      rw [mergeValue_object]
      congr 1
      refine merge_of_settled fun update hupdate => ?_
      have hget := Fields.get?_of_mem hkeys hupdate
      refine ⟨_, ?_,
        ih _ _ hget (hvalues _ _ hget) (below.bind (·.field? update.1))⟩
      rw [← field?_object, hfield, hget]
      rfl

/-- An upper value over a lower one, told way by way. -/
structure Overlays (lower upper result : Json) : Prop where
  /-- At every level the names of the lower value keep their order, and new
  names follow in the order of the upper value. -/
  names : ∀ path, upper.OpenTo path →
    namesOf (result.at? path) = namesOf (lower.at? path) ++
      (namesOf (upper.at? path)).filter fun name =>
        name ∉ namesOf (lower.at? path)
  /-- Leaves of the upper value count. -/
  leaf : ∀ path leaf, ¬ leaf.IsObject → upper.at? path = some leaf →
    result.at? path = some leaf
  /-- Where the upper value is silent the lower value counts. -/
  silent : ∀ path, upper.Silent path → result.at? path = lower.at? path

/-- Merging an object with distinct fields lays it over the one below. -/
theorem overlays_merge (h : (Json.object updates).Distinct) (fields : Fields) :
    Overlays (.object fields) (.object updates)
    (.object (merge fields updates)) where
  names _ hopen := namesOf_at?_mergeValue h hopen (some (.object fields))
  leaf _ _ hleaf hpath :=
    at?_mergeValue_of_leaf h hleaf hpath (some (.object fields))
  silent _ hsilent := at?_mergeValue_of_silent h hsilent (some (.object fields))

/-- Merging the same fields twice is merging them once. -/
theorem merge_merge (h : (Json.object updates).Distinct) (fields : Fields) :
    merge (merge fields updates) updates = merge fields updates :=
  Json.object.inj (mergeValue_mergeValue h (some (.object fields)))

/-- The layer that a file gives, if there is one to look for. -/
def layerOf (fs : Files) : Option Path → Except Fault Fields
  | some path => withFile fs path []
  | none => .ok []

/-- The layers of the settings of a workspace, the lowest first: the usual
ones, those of the file in the workspace, those of a file that is named, and
those that are given. -/
def layers (fs : Files) (root : Path) (file : Option Path) (given : Fields) :
    Except Fault (List Fields) := do
  let found ← layerOf fs (some (root.below fileName))
  let named ← layerOf fs (file.map root.append)
  return [usual, found, named, given]

/-- Layers merged one after the other. -/
def stack (layers : List Fields) : Fields :=
  layers.foldl merge []

/-- What a file makes of some fields: nothing, or a layer with distinct fields
over them. -/
theorem withFile_cases (fs : Files) (path : Path) :
    (∃ fault, ∀ fields, withFile fs path fields = .error fault) ∨
      ∃ layer, (Json.object layer).Distinct ∧
        ∀ fields, withFile fs path fields = .ok (merge fields layer) := by
  unfold withFile
  cases fs.exists? path with
  | error e => exact .inl ⟨_, fun _ => rfl⟩
  | ok isThere =>
      cases isThere with
      | false => exact .inr ⟨[], distinct_nil, fun _ => rfl⟩
      | true =>
          cases fs.readText path with
          | error fault => exact .inl ⟨_, fun _ => rfl⟩
          | ok text =>
              dsimp only
              cases hread : Json.read text with
              | error e => exact .inl ⟨_, fun _ => rfl⟩
              | ok value =>
                  cases value with
                  | object layer =>
                      exact .inr ⟨layer, distinct_of_read hread, fun _ => rfl⟩
                  | _ => exact .inl ⟨_, fun _ => rfl⟩

/-- The layer of a file has distinct fields everywhere. -/
theorem distinct_of_layerOf {fs : Files} {file : Option Path} {layer : Fields}
    (h : layerOf fs file = .ok layer) : (Json.object layer).Distinct := by
  cases file with
  | none =>
      cases h
      exact distinct_nil
  | some path =>
      rw [layerOf] at h
      rcases withFile_cases fs path
        with ⟨fault, hfault⟩ | ⟨found, hdistinct, hfound⟩
      · rw [hfault] at h
        cases h
      · rw [hfound, merge_nil_left (distinct_object_iff.mp hdistinct).1,
          Except.ok.injEq] at h
        rwa [← h]

/-- The usual settings have distinct fields everywhere. -/
theorem distinct_usual : (Json.object usual).Distinct := by
  have hpackages : (Json.object
      (Config.usualPackages.map fun package =>
          (package.1, Json.string package.2))).Distinct := by
    refine distinct_of_forall_mem (by decide) fun field hfield => ?_
    obtain ⟨package, -, rfl⟩ := List.mem_map.mp hfield
    exact distinct_of_leaf id
  refine distinct_of_forall_mem (by decide) fun field hfield => ?_
  simp only [usual, List.mem_cons, List.not_mem_nil, or_false] at hfield
  obtain rfl | rfl | rfl | rfl | rfl | rfl := hfield
  case inr.inr.inr.inl => exact hpackages
  all_goals exact distinct_of_leaf id

/-- **Loading is stacking.**  The settings of a workspace are read off its
layers, merged one after the other. -/
theorem load_eq (fs : Files) (workspace : Path) (name : String)
    (file : Option Path) (given : Fields) :
    load fs workspace name file given
      = layers fs (fs.resolve workspace) file given >>= fun all =>
          ofFields (fs.resolve workspace) name (stack all) := by
  have husual : merge [] usual = usual :=
    merge_nil_left (distinct_object_iff.mp distinct_usual).1
  rcases withFile_cases fs ((fs.resolve workspace).below fileName) with
    ⟨fault, hfault⟩ | ⟨found, hdistinct, hfound⟩
  · simp only [load, layers, layerOf, hfault]
    rfl
  · have hbelow := merge_nil_left (distinct_object_iff.mp hdistinct).1
    cases file with
    | none =>
        simp only [load, layers, layerOf, hfound, hbelow, Option.map_none]
        change _ = ofFields _ name
          (merge (merge (merge (merge [] usual) found) []) given)
        rw [husual]
        rfl
    | some path =>
        rcases withFile_cases fs ((fs.resolve workspace).append path) with
          ⟨fault, hfault⟩ | ⟨named, hdistinct', hnamed⟩
        · simp only [load, layers, layerOf, hfound, Option.map_some, hfault]
          rfl
        · have habove := merge_nil_left (distinct_object_iff.mp hdistinct').1
          simp only [load, layers, layerOf, hfound, hnamed, hbelow, habove,
            Option.map_some]
          change _ = ofFields _ name
            (merge (merge (merge (merge [] usual) found) named) given)
          rw [husual]
          rfl

/-- Each layer of a workspace has distinct fields everywhere if the given one
has. -/
theorem distinct_of_mem_layers {fs : Files} {root : Path} {file : Option Path}
    {given : Fields} (hgiven : (Json.object given).Distinct) {all : List Fields}
    (h : layers fs root file given = .ok all) :
    ∀ layer ∈ all, (Json.object layer).Distinct := by
  obtain ⟨found, hfound, h⟩ := exists_of_bind_eq_ok h
  obtain ⟨named, hnamed, h⟩ := exists_of_bind_eq_ok h
  cases h
  simp only [List.forall_mem_cons]
  exact ⟨distinct_usual, distinct_of_layerOf hfound, distinct_of_layerOf hnamed,
    hgiven, by simp⟩

/-- Silent layers leave a value as it is. -/
theorem at?_foldl_merge_of_silent {upper : List Fields} {path : List String}
    (hdistinct : ∀ layer ∈ upper, (Json.object layer).Distinct)
    (h : ∀ layer ∈ upper, (Json.object layer).Silent path) (fields : Fields) :
    (Json.object (upper.foldl merge fields)).at? path =
      (Json.object fields).at? path := by
  induction upper generalizing fields with
  | nil => rfl
  | cons layer rest ih =>
      obtain ⟨hfirst, hothers⟩ := List.forall_mem_cons.mp hdistinct
      obtain ⟨hsilent, hrest⟩ := List.forall_mem_cons.mp h
      rw [List.foldl_cons, ih hothers hrest,
        (overlays_merge hfirst fields).silent path hsilent]

/-- **The topmost leaf counts**, if the layers above it are silent. -/
theorem at?_stack {lower upper : List Fields} {layer : Fields}
    (hdistinct : ∀ l ∈ lower ++ layer :: upper, (Json.object l).Distinct)
    {path : List String} {leaf : Json} (hleaf : ¬ leaf.IsObject)
    (h : (Json.object layer).at? path = some leaf)
    (hsilent : ∀ l ∈ upper, (Json.object l).Silent path) :
    (Json.object (stack (lower ++ layer :: upper))).at? path = some leaf := by
  have hlayer := hdistinct layer (by simp)
  have hupper : ∀ l ∈ upper, (Json.object l).Distinct :=
    fun l hl => hdistinct l (by simp [hl])
  rw [stack, List.foldl_append, List.foldl_cons,
    at?_foldl_merge_of_silent hupper hsilent]
  exact (overlays_merge hlayer _).leaf path leaf hleaf h

/-- **Layers of settings.**  Merging a layer is laying it over the fields below
it, way by way; to do it twice is to do it once, and the empty layer changes
nothing, below or above.  The settings of a workspace are read off its four
layers merged one after the other.  Of the leaves at the end of a way the one
of the topmost layer counts, where the layers above it are silent. -/
theorem layers_settle :
    (∀ base updates : Fields, (Json.object updates).Distinct →
      Overlays (.object base) (.object updates) (.object (merge base updates)) ∧
      merge (merge base updates) updates = merge base updates ∧
      merge base [] = base ∧ merge [] updates = updates) ∧
    ∀ fs workspace name file given, (Json.object given).Distinct →
      load fs workspace name file given
        = layers fs (fs.resolve workspace) file given >>= (fun all =>
            ofFields (fs.resolve workspace) name (stack all)) ∧
      ∀ lower layer upper,
        layers fs (fs.resolve workspace) file given
          = .ok (lower ++ layer :: upper) →
        ∀ path leaf, ¬ leaf.IsObject →
          (Json.object layer).at? path = some leaf →
          (∀ l ∈ upper, (Json.object l).Silent path) →
          (Json.object (stack (lower ++ layer :: upper))).at? path =
            some leaf := by
  constructor
  · intro base updates h
    exact ⟨overlays_merge h base, merge_merge h base, rfl,
      merge_nil_left (distinct_object_iff.mp h).1⟩
  · intro fs workspace name file given hgiven
    refine ⟨load_eq fs workspace name file given, ?_⟩
    intro lower layer upper hlayers path leaf hleaf hpath hsilent
    exact at?_stack (distinct_of_mem_layers hgiven hlayers) hleaf hpath hsilent

/-- A workspace with a file of settings, and a further file of settings that
says nothing. -/
def shallowFiles : Files where
  entries := [
    (["R", "ws"], .directory),
    (["R", "ws", ".mwflowrc.json"],
      .file "\x7b\"max_depth\":4\x7d".toUTF8 1000),
    (["R", "ws", "c.json"], .file "\x7b\x7d".toUTF8 1000)]
  current := ["R"]

/-- What the file of the workspace says. -/
theorem read_shallow :
    Json.read "\x7b\"max_depth\":4\x7d" = .ok
      (.object [("max_depth", .int 4)]) := by
  have hname : readString 1 [] "max_depth\":4\x7d".toList 2
      = .ok ("max_depth", ⟨":4\x7d".toList, 12⟩) := by
    simp [readString]
  have hfields : readFields 31 [] ⟨"\"max_depth\":4\x7d".toList, 1⟩
      = .ok (.object [("max_depth", .int 4)], ⟨[], 15⟩) := by
    rw [readFields]
    change (readString 1 [] "max_depth\":4\x7d".toList 2 >>= _) = _
    rw [hname]
    rfl
  unfold Json.read
  change (readFields 31 [] ⟨"\"max_depth\":4\x7d".toList, 1⟩ >>= _) = _
  rw [hfields]
  rfl

/-- The layers of the workspace, with some settings that are given. -/
def shallowLayers (given : Fields) : List Fields :=
  [usual, [("max_depth", .int 4)], [], given]

/-- The layers are found as they stand in the files. -/
theorem layers_shallow (given : Fields) :
    layers shallowFiles (shallowFiles.resolve (.ofString "ws"))
      (some (.ofString "c.json")) given = .ok (shallowLayers given) := by
  have hfound : layerOf shallowFiles
      (some ((shallowFiles.resolve (.ofString "ws")).below fileName))
        = .ok [("max_depth", .int 4)] := by
    have hthere : shallowFiles.exists?
        ((shallowFiles.resolve (.ofString "ws")).below fileName)
          = .ok true := rfl
    have htext : shallowFiles.readText
        ((shallowFiles.resolve (.ofString "ws")).below fileName)
          = .ok "\x7b\"max_depth\":4\x7d" := rfl
    simp only [layerOf, withFile, hthere, htext, read_shallow]
    rfl
  rw [layers, hfound]
  rfl

/-- Settings with objects: one where the usual settings have an object, and one
where they have a list. -/
def deepGiven : Fields :=
  [("expand_object_literals", .bool false),
    ("namespace_packages", .object [("mine", .string "p")]),
    ("library_patterns", .object [("kept", .null)])]

/-- Settings with no object where the usual settings have one. -/
def flatGiven : Fields :=
  [("namespace_packages", .null)]

/-- The file of the workspace counts against the usual depth.  What is given
joins the usual packages if it is an object, and takes their place if it is
not; an object takes the place of a list. -/
theorem layers_settle_shallow :
    (Json.object deepGiven).Distinct ∧ (Json.object flatGiven).Distinct ∧
    (∀ given, layers shallowFiles (shallowFiles.resolve (.ofString "ws"))
      (some (.ofString "c.json")) given = .ok (shallowLayers given)) ∧
    merge (merge usual deepGiven) deepGiven = merge usual deepGiven ∧
    (let all := Json.object (stack (shallowLayers deepGiven))
    all.at? ["max_depth"] = some (.int 4) ∧
      all.at? ["expand_object_literals"] = some (.bool false) ∧
      all.at? ["namespace_packages", "mine"] = some (.string "p") ∧
      all.at? ["namespace_packages", "@opus/agl-core"]
        = some (.string "agl-core") ∧
      all.at? ["library_patterns", "kept"] = some .null) ∧
    (Json.object (stack (shallowLayers flatGiven))).at? ["namespace_packages"]
      = some .null := by
  have hsingle : ∀ (key : String) (value : Json), ¬ value.IsObject →
      (Json.object [(key, value)]).Distinct := by
    intro key value hvalue
    refine distinct_of_forall_mem (by simp [Fields.keys]) fun field hfield => ?_
    rw [List.mem_singleton.mp hfield]
    exact distinct_of_leaf hvalue
  have hdeep : (Json.object deepGiven).Distinct := by
    refine distinct_of_forall_mem (by decide) fun field hfield => ?_
    simp only [deepGiven, List.mem_cons, List.not_mem_nil, or_false] at hfield
    obtain rfl | rfl | rfl := hfield
    · exact distinct_of_leaf id
    · exact hsingle _ _ id
    · exact hsingle _ _ id
  have hflat : (Json.object flatGiven).Distinct := hsingle _ _ id
  obtain ⟨hmerge, hload⟩ := layers_settle
  have hleaf := fun given hgiven => (hload shallowFiles (.ofString "ws") "m"
    (some (.ofString "c.json")) given hgiven).2
  have hnone : ∀ l ∈ ([] : List Fields), ∀ path,
      (Json.object l).Silent path := by
    simp
  refine ⟨hdeep, hflat, layers_shallow, (hmerge usual deepGiven hdeep).2.1,
    ⟨?_, ?_, ?_, ?_, ?_⟩, ?_⟩
  · refine hleaf deepGiven hdeep [usual] [("max_depth", .int 4)] [[], deepGiven]
      (layers_shallow deepGiven) ["max_depth"] (.int 4) id rfl ?_
    intro layer hlayer
    simp only [List.mem_cons, List.not_mem_nil, or_false] at hlayer
    obtain rfl | rfl := hlayer <;> exact silent_of_get? rfl []
  · exact hleaf deepGiven hdeep [usual, [("max_depth", .int 4)], []] deepGiven
      [] (layers_shallow deepGiven) ["expand_object_literals"] (.bool false) id
      rfl fun l hl => hnone l hl _
  · exact hleaf deepGiven hdeep [usual, [("max_depth", .int 4)], []] deepGiven
      [] (layers_shallow deepGiven) ["namespace_packages", "mine"]
      (.string "p") id rfl fun l hl => hnone l hl _
  · refine hleaf deepGiven hdeep [] usual
      [[("max_depth", .int 4)], [], deepGiven] (layers_shallow deepGiven)
      ["namespace_packages", "@opus/agl-core"] (.string "agl-core") id rfl ?_
    intro layer hlayer
    simp only [List.mem_cons, List.not_mem_nil, or_false] at hlayer
    obtain rfl | rfl | rfl := hlayer
    · exact silent_of_get? rfl _
    · exact silent_of_get? rfl _
    · exact silent_of_field rfl (silent_of_get? rfl [])
  · exact hleaf deepGiven hdeep [usual, [("max_depth", .int 4)], []] deepGiven
      [] (layers_shallow deepGiven) ["library_patterns", "kept"] .null id rfl
      fun l hl => hnone l hl _
  · exact hleaf flatGiven hflat [usual, [("max_depth", .int 4)], []] flatGiven
      [] (layers_shallow flatGiven) ["namespace_packages"] .null id rfl
      fun l hl => hnone l hl _

end Relay.Settings
