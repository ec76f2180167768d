import Relay.Endpoint
import Relay.Proofs.KeyPaths

/-!
# Descriptions of endpoints pass through

The description of an endpoint is read from the fields of an object and written
back as fields.  Three names are always written, four are written unless they
have no value, and all other fields are handed on as they are.

What is written under a name is told for all names at once
(`get?_fields_ofFields`): the value that was read, unless it is the missing
value of an optional name, or else the value that the name has by default.
Hence what is written is read back as the same description (`ofFields_fields`).
-/

namespace Relay.Endpoint

open Json

/-- The names that are always written, with the values that they have by
default. -/
def defaults : Fields :=
  [("endpointUri", .string ""), ("method", .string ""),
    ("middleware", .array [])]

/-- The names that are written only with a value. -/
def optionalNames : List String :=
  ["template", "panic", "panicConfigKey", "nanoConfigKey"]

theorem knownFields_eq : knownFields = defaults.keys ++ optionalNames := rfl

/-- There is no value. -/
def isNull : Json → Bool
  | .null => true
  | _ => false

/-- Only null is null. -/
theorem isNull_iff {value : Json} : isNull value = true ↔ value = .null := by
  cases value <;> simp [isNull]

/-- A value that is written under a name, if it is read under it. -/
def isKept (name : String) (value : Json) : Bool :=
  !(optionalNames.contains name && isNull value)

/-- A field is left out only if it is an optional one that is null. -/
theorem isKept_iff {name : String} {value : Json} :
    isKept name value = true ↔ ¬ (name ∈ optionalNames ∧ value = .null) := by
  rw [← isNull_iff, isKept]
  cases isNull value <;> simp

/-- An optional field that is null is left out. -/
theorem filter_isKept_null {name : String} (h : name ∈ optionalNames) :
    (some Json.null).filter (isKept name) = none := by
  rw [Option.filter_some, if_neg fun hkept => isKept_iff.mp hkept ⟨h, rfl⟩]

/-- Any other value is kept. -/
theorem filter_isKept {name : String} {read : Option Json}
    (h : ∀ value, read = some value →
      ¬ (name ∈ optionalNames ∧ value = .null)) :
    read.filter (isKept name) = read := by
  cases read with
  | none => rfl
  | some value => rw [Option.filter_some, if_pos (isKept_iff.mpr (h value rfl))]

/-- No name is both always written and optional. -/
theorem get?_defaults_of_optional {name : String} (h : name ∈ optionalNames) :
    defaults.get? name = none := by
  have hapart : ∀ name ∈ optionalNames, name ∉ defaults.keys := by decide
  exact Fields.get?_eq_none_iff.mpr (hapart name h)

/-- An optional field is there just when its value is not null. -/
theorem get?_optionalField (name : String) (value : Json) (key : String) :
    (optionalField name value).get? key
      = if key = name ∧ isNull value = false then some value else none := by
  have hwritten : isNull value = false →
      optionalField name value = [(name, value)] := by
    cases value <;> simp [isNull, optionalField]
  cases hnull : isNull value with
  | true =>
      rw [isNull_iff.mp hnull]
      simp [optionalField, Fields.get?]
  | false =>
      rw [hwritten hnull, Fields.get?_cons]
      simp [Fields.get?]

/-- Among optional fields a name is found just when its value is not null. -/
theorem get?_optionalFields (read : String → Json) (names : List String)
    (key : String) :
    Fields.get? (names.flatMap fun name => optionalField name (read name)) key
      = if key ∈ names ∧ isNull (read key) = false then some
        (read key) else none := by
  induction names with
  | nil => simp [Fields.get?]
  | cons name names ih =>
      rw [List.flatMap_cons, Fields.get?_append, get?_optionalField, ih]
      by_cases hkey : key = name
      · subst hkey
        by_cases hnull : isNull (read key) = false <;> simp [hnull]
      · simp [hkey]

/-- The fields that are written, with the known names as two lists. -/
theorem fields_ofFields (fields : Fields) :
    (ofFields fields).fields
      = (fields.filter fun field => !knownFields.contains field.1)
        ++ (defaults.map fun field =>
          (field.1, (fields.get? field.1).getD field.2))
        ++ optionalNames.flatMap fun name =>
          optionalField name ((fields.get? name).getD .null) := by
  simp [Endpoint.fields, ofFields, defaults, optionalNames]

/-- **What is written under a name.** -/
theorem get?_fields_ofFields (fields : Fields) (key : String) :
    (ofFields fields).fields.get? key
      = ((fields.get? key).filter (isKept key)).or (defaults.get? key) := by
  have hapart : ∀ name ∈ defaults.keys, name ∉ optionalNames := by decide
  rw [fields_ofFields, Fields.get?_append, Fields.get?_append,
    Fields.get?_filter (fun name => !knownFields.contains name),
    Fields.get?_map (fun name value => (fields.get? name).getD value),
    get?_optionalFields (fun name => (fields.get? name).getD .null)]
  by_cases halways : key ∈ defaults.keys
  · obtain ⟨value, hvalue⟩ : ∃ value, defaults.get? key = some value :=
      Option.ne_none_iff_exists'.mp fun hnone =>
        Fields.get?_eq_none_iff.mp hnone halways
    have hknown : key ∈ knownFields :=
      List.mem_append_left optionalNames halways
    rw [filter_isKept fun _ _ hnull => hapart key halways hnull.1]
    cases fields.get? key <;> simp [hknown, hapart key halways, hvalue]
  · have hnone : defaults.get? key = none := Fields.get?_eq_none_iff.mpr halways
    by_cases hoptional : key ∈ optionalNames
    · have hknown : key ∈ knownFields :=
        List.mem_append_right defaults.keys hoptional
      cases fields.get? key with
      | none => simp [hknown, hnone, isNull]
      | some value =>
          cases hnull : isNull value <;>
            simp [Option.filter_some, isKept, hknown, hoptional, hnone, hnull]
    · have hknown : key ∉ knownFields := fun h =>
        (List.mem_append.mp h).elim halways hoptional
      rw [filter_isKept fun _ _ hnull => hoptional hnull.1]
      cases fields.get? key <;> simp [hknown, hoptional, hnone]

/-- What is read under a name, with the value that the name has by default. -/
theorem getD_get?_fields_ofFields (fields : Fields) (key : String) :
    ((ofFields fields).fields.get? key).getD ((defaults.get? key).getD .null)
      = (fields.get? key).getD ((defaults.get? key).getD .null) := by
  rw [get?_fields_ofFields]
  cases fields.get? key with
  | none => cases defaults.get? key <;> rfl
  | some value =>
      by_cases hnull : key ∈ optionalNames ∧ value = .null
      · obtain ⟨hkey, rfl⟩ := hnull
        rw [filter_isKept_null hkey, get?_defaults_of_optional hkey]
        rfl
      · rw [filter_isKept fun _ heq => Option.some.inj heq ▸ hnull]
        rfl

/-- An optional field has its own name. -/
theorem fst_of_mem_optionalField {name : String} {value : Json}
    {field : String × Json} (h : field ∈ optionalField name value) :
    field.1 = name := by
  cases value with
  | null => cases h
  | _ => rw [List.mem_singleton.mp h]

/-- Nothing but fields of known names is added to those that are handed on. -/
theorem filter_fields_ofFields (fields : Fields) :
    ((ofFields fields).fields.filter fun field => !knownFields.contains field.1)
      = (ofFields fields).extra := by
  have halways :
    ((defaults.map fun field =>
      (field.1, (fields.get? field.1).getD field.2)).filter
      fun field => !knownFields.contains field.1) = [] := by
    refine List.filter_eq_nil_iff.mpr fun field hfield => ?_
    obtain ⟨source, hsource, rfl⟩ := List.mem_map.mp hfield
    have hknown : source.1 ∈ knownFields :=
      List.mem_append_left optionalNames (List.mem_map_of_mem hsource)
    simp [hknown]
  have hoptional : ((optionalNames.flatMap fun name =>
      optionalField name ((fields.get? name).getD .null)).filter
        fun field => !knownFields.contains field.1) = [] := by
    refine List.filter_eq_nil_iff.mpr fun field hfield => ?_
    obtain ⟨name, hname, hfield⟩ := List.mem_flatMap.mp hfield
    have hknown : field.1 ∈ knownFields := by
      rw [fst_of_mem_optionalField hfield]
      exact List.mem_append_right defaults.keys hname
    simp [hknown]
  rw [fields_ofFields, List.filter_append, List.filter_append,
    List.filter_filter, halways, hoptional]
  simp [ofFields]

/-- **Round trip.**  What is written is read back as the same description. -/
theorem ofFields_fields (fields : Fields) :
    ofFields (ofFields fields).fields = ofFields fields := by
  have hread := getD_get?_fields_ofFields fields
  have hextra := filter_fields_ofFields fields
  generalize (ofFields fields).fields = written at hread hextra ⊢
  simp only [ofFields, Endpoint.mk.injEq]
  exact ⟨hread "endpointUri", hread "method", hread "middleware",
    hread "template", hread "panic", hread "panicConfigKey",
    hread "nanoConfigKey", hextra⟩

/-- Optional fields come in the order of their names, each at most once. -/
theorem keys_optionalFields_sublist (read : String → Json)
    (names : List String) :
    (Fields.keys (names.flatMap fun name =>
      optionalField name (read name))).Sublist names := by
  induction names with
  | nil => exact List.Sublist.refl _
  | cons name names ih =>
      rw [List.flatMap_cons, Fields.keys, List.map_append]
      cases read name with
      | null => exact ih.cons name
      | _ => exact ih.cons_cons name

/-- No name is written twice, if none is read twice. -/
theorem nodup_keys_fields_ofFields {fields : Fields} (h : fields.keys.Nodup) :
    (ofFields fields).fields.keys.Nodup := by
  have hextra :
    (Fields.keys (fields.filter fun field =>
      !knownFields.contains field.1)).Sublist
      fields.keys := List.filter_sublist.map _
  have hkeys : (ofFields fields).fields.keys.Sublist
      (Fields.keys (fields.filter fun field => !knownFields.contains field.1)
        ++ knownFields) := by
    rw [fields_ofFields, Fields.keys, List.map_append, List.map_append,
      List.append_assoc, knownFields_eq]
    exact (List.Sublist.refl _).append
      ((List.Sublist.refl _).append
        (keys_optionalFields_sublist _ optionalNames))
  refine List.Nodup.sublist hkeys
    (List.nodup_append.mpr ⟨h.sublist hextra, by decide, ?_⟩)
  intro name hname other hother heq
  obtain ⟨field, hfield, rfl⟩ := List.mem_map.mp hname
  have hunknown := (List.mem_filter.mp hfield).2
  rw [heq] at hunknown
  simp [hother] at hunknown

/-- **Descriptions pass through.**  Every object is read as a description, and
what is written of it is read back as the same one.  A name has a value in what
is written if and only if it has that value in the object, other than the
missing value of an optional name, or it has none there and the value is its
default.  The fields of unknown names come first, as they are, and no name is
written twice if none is in the object. -/
theorem ofJson_passes_through (fields : Fields) :
    ∃ e, ofJson (.object fields) = .ok e ∧ ofJson e.toJson = .ok e ∧
      (∀ key value, e.toJson.field? key = some value ↔
        (fields.get? key = some value ∧
          ¬ (key ∈ optionalNames ∧ value = .null)) ∨
          (fields.get? key = none ∧ defaults.get? key = some value)) ∧
      (fields.filter fun field => !knownFields.contains field.1) <+: e.fields ∧
      (fields.keys.Nodup → e.fields.keys.Nodup) := by
  refine ⟨ofFields fields, rfl, congrArg Except.ok (ofFields_fields fields), ?_,
    ?_, nodup_keys_fields_ofFields⟩
  · intro key value
    have hwritten := get?_fields_ofFields fields key
    rw [toJson, field?_object, hwritten]
    cases fields.get? key with
    | none => simp
    | some read =>
        by_cases hnull : key ∈ optionalNames ∧ read = .null
        · obtain ⟨hkey, rfl⟩ := hnull
          rw [filter_isKept_null hkey, get?_defaults_of_optional hkey]
          simp [hkey, eq_comm]
        · rw [filter_isKept fun _ heq => Option.some.inj heq ▸ hnull,
            Option.some_or, Option.some.injEq]
          constructor
          · intro heq
            exact .inl ⟨heq, heq ▸ hnull⟩
          · intro h
            exact h.elim (fun h => h.1) fun h => by cases h.1
  · rw [fields_ofFields, List.append_assoc]
    exact List.prefix_append _ _

/-- An unknown name with no value is handed on, an optional one is not, and the
method comes by default. -/
theorem passes_through_owner :
    ∃ e, ofJson (.object [("owner", .null), ("panic", .null)]) = .ok e ∧
      ofJson e.toJson = .ok e ∧ e.toJson.field? "owner" = some .null ∧
      e.toJson.field? "panic" ≠ some .null ∧
        e.toJson.field? "method" = some (.string "") ∧
      e.fields.keys.Nodup := by
  obtain ⟨e, hread, hback, hvalue, -, hnodup⟩ :=
    ofJson_passes_through [("owner", .null), ("panic", .null)]
  refine ⟨e, hread, hback,
    (hvalue _ _).mpr (.inl ⟨rfl, fun h => absurd h.1 (by decide)⟩), ?_,
    (hvalue _ _).mpr (.inr ⟨rfl, rfl⟩), hnodup (by decide)⟩
  intro hpanic
  rcases (hvalue _ _).mp hpanic with ⟨-, hkept⟩ | ⟨hnone, -⟩
  · exact hkept ⟨by decide, rfl⟩
  · cases hnone

end Relay.Endpoint
