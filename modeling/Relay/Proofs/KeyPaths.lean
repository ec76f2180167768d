import Mathlib.Logic.Basic
import Relay.Json.Read
import Relay.Proofs.Found

/-!
# Values at the end of a way of keys

A way of keys leads from an object through the objects in it to a value, or
nowhere (`Json.at?`).  Values that are not objects are leaves: no way goes on
from them.

No object that a text stands for has two fields of one name, because the reader
sets the fields one after the other (`distinct_of_read`).
-/

namespace Relay.Json

namespace Fields

variable {fields : Fields} {key : String}

/-- The first of two fields with one name is found. -/
theorem get?_cons (name : String) (value : Json) (fields : Fields)
    (key : String) :
    get? ((name, value) :: fields) key = if key = name then some value
      else fields.get? key := by
  rw [get?, List.lookup_cons]
  by_cases h : key = name
  · simp [h]
  · rw [beq_eq_false_iff_ne.mpr h, if_neg h, get?]

/-- What is found in the first of two lists of fields hides what is in the
second. -/
theorem get?_append (fields more : Fields) (key : String) :
    get? (fields ++ more) key = (fields.get? key).or (more.get? key) :=
  List.lookup_append

/-- Fields that are picked by their names. -/
theorem get?_filter (pick : String → Bool) (fields : Fields) (key : String) :
    get? (fields.filter fun field => pick field.1) key
      = if pick key then fields.get? key else none := by
  induction fields with
  | nil => simp [get?]
  | cons field fields ih =>
      obtain ⟨name, value⟩ := field
      rw [List.filter_cons, get?_cons]
      by_cases hname : pick name
      · rw [if_pos hname, get?_cons, ih]
        by_cases hkey : key = name <;> simp [hkey, hname]
      · rw [if_neg hname, ih]
        by_cases hkey : key = name <;> simp [hkey, hname]

/-- Values that are changed under their names. -/
theorem get?_map (change : String → Json → Json) (fields : Fields)
    (key : String) :
    get? (fields.map fun field => (field.1, change field.1 field.2)) key
      = (fields.get? key).map (change key) := by
  induction fields with
  | nil => rfl
  | cons field fields ih =>
      obtain ⟨name, value⟩ := field
      rw [List.map_cons, get?_cons, get?_cons, ih]
      by_cases hkey : key = name <;> simp [hkey]

/-- After a field is set, its value is found, and all else as before. -/
theorem get?_set (fields : Fields) (name : String) (value : Json)
    (key : String) :
    (fields.set name value).get? key = if key = name then some value
      else fields.get? key := by
  induction fields with
  | nil => exact get?_cons name value [] key
  | cons field fields ih =>
      obtain ⟨k, v⟩ := field
      rw [set]
      split
      · rename_i hk
        subst hk
        simp only [get?_cons]
        split <;> rfl
      · rename_i hk
        simp only [get?_cons, ih]
        split
        · rename_i hkey
          subst hkey
          rw [if_neg hk]
        · rfl

/-- Setting a field adds its name at the end unless it is there. -/
theorem keys_set (fields : Fields) (name : String) (value : Json) :
    (fields.set name value).keys
      = if name ∈ fields.keys then fields.keys else fields.keys ++ [name] := by
  induction fields with
  | nil => rfl
  | cons field fields ih =>
      obtain ⟨k, v⟩ := field
      rw [set]
      split
      · rename_i hk
        simp [keys, hk]
      · rename_i hk
        have hname : name ≠ k := fun h => hk h.symm
        have hcons : ∀ rest : Fields, keys ((k, v) :: rest) = k :: rest.keys :=
          fun _ => rfl
        rw [hcons, hcons, ih]
        by_cases hmem : name ∈ keys fields
        · rw [if_pos hmem, if_pos (List.mem_cons_of_mem _ hmem)]
        · rw [if_neg hmem, if_neg (by simp [hname, hmem]), List.cons_append]

/-- Setting a field to the value that it has changes nothing. -/
theorem set_of_get? {value : Json} (h : fields.get? key = some value) :
    fields.set key value = fields := by
  induction fields with
  | nil => cases h
  | cons field fields ih =>
      obtain ⟨k, v⟩ := field
      rw [get?_cons] at h
      rw [set]
      split
      · rename_i hk
        rw [if_pos hk.symm, Option.some.injEq] at h
        rw [h]
      · rename_i hk
        rw [if_neg fun heq => hk heq.symm] at h
        rw [ih h]

/-- A new field goes to the end. -/
theorem set_of_notMem {value : Json} (h : key ∉ fields.keys) :
    fields.set key value = fields ++ [(key, value)] := by
  induction fields with
  | nil => rfl
  | cons field fields ih =>
      obtain ⟨k, v⟩ := field
      obtain ⟨hk, hrest⟩ := not_or.mp (mt List.mem_cons.mpr h)
      rw [set, if_neg fun heq => hk heq.symm, ih hrest, List.cons_append]

/-- A name is not found just when it is not a key. -/
theorem get?_eq_none_iff : fields.get? key = none ↔ key ∉ fields.keys := by
  induction fields with
  | nil => simp [get?, keys]
  | cons field fields ih =>
      obtain ⟨k, v⟩ := field
      rw [get?_cons]
      by_cases h : key = k
      · simp [h, keys]
      · rw [if_neg h, ih]
        simp [keys, h]

/-- What is found under a name is a field. -/
theorem mem_of_get? {value : Json} (h : fields.get? key = some value) :
    (key, value) ∈ fields := by
  induction fields with
  | nil => cases h
  | cons field fields ih =>
      obtain ⟨k, v⟩ := field
      rw [get?_cons] at h
      split at h
      · rename_i hk
        rw [hk, Option.some.inj h]
        exact List.mem_cons_self
      · exact List.mem_cons_of_mem _ (ih h)

/-- Among fields of different names each one is found. -/
theorem get?_of_mem (h : fields.keys.Nodup) {value : Json}
    (hmem : (key, value) ∈ fields) :
    fields.get? key = some value := by
  induction fields with
  | nil => cases hmem
  | cons field fields ih =>
      obtain ⟨k, v⟩ := field
      obtain ⟨hk, hrest⟩ := List.nodup_cons.mp h
      rw [get?_cons]
      rcases List.mem_cons.mp hmem with heq | hmem
      · cases heq
        exact if_pos rfl
      · have hkey : key ∈ keys fields := List.mem_map_of_mem hmem
        rw [if_neg fun heq : key = k => hk (heq ▸ hkey)]
        exact ih hrest hmem

/-- Setting a field does not repeat a name. -/
theorem nodup_keys_set (h : fields.keys.Nodup) (name : String) (value : Json) :
    (fields.set name value).keys.Nodup := by
  rw [keys_set]
  split
  · exact h
  · rename_i hname
    exact List.nodup_append.mpr ⟨h, by simp, by
      rintro a ha b hb rfl
      exact hname (List.mem_singleton.mp hb ▸ ha)⟩

end Fields

/-- The value is an object. -/
def IsObject : Json → Prop
  | .object _ => True
  | _ => False

instance : DecidablePred IsObject
  | .object _ => isTrue trivial
  | .null | .bool _ | .int _ | .double _ | .string _ | .array _ => isFalse id

/-- An object has fields. -/
theorem IsObject.exists_fields {value : Json} (h : value.IsObject) :
    ∃ fields : Fields, value = .object fields := by
  cases value with
  | object fields => exact ⟨fields, rfl⟩
  | _ => cases h

/-- The value at the end of a way of keys. -/
def at? : Json → List String → Option Json
  | value, [] => some value
  | value, key :: rest => (value.field? key).bind (at? · rest)

@[simp] theorem at?_nil (value : Json) : value.at? [] = some value := rfl

theorem at?_cons (value : Json) (key : String) (rest : List String) :
    value.at? (key :: rest) = (value.field? key).bind (at? · rest) := rfl

/-- A way that begins with a key goes on from the field of that key. -/
theorem bind_at?_cons (value : Option Json) (key : String)
    (rest : List String) :
    value.bind (·.at? (key :: rest)) = (value.bind (·.field? key)).bind
      (·.at? rest) := by
  rw [Option.bind_assoc]
  rfl

@[simp] theorem field?_object (fields : Fields) (key : String) :
    (Json.object fields).field? key = fields.get? key := rfl

/-- What is no object has no fields. -/
theorem field?_eq_none {value : Json} (h : ¬ value.IsObject) (key : String) :
    value.field? key = none := by
  cases value with
  | object fields => exact absurd trivial h
  | _ => rfl

/-- The names of the fields of what may be an object. -/
def namesOf : Option Json → List String
  | some (.object fields) => Fields.keys fields
  | _ => []

/-- What is no object has no names of fields. -/
theorem namesOf_leaf {value : Json} (h : ¬ value.IsObject) :
    namesOf (some value) = [] := by
  cases value with
  | object fields => exact absurd trivial h
  | _ => rfl

/-- Nothing but objects stands on a way, its end included. -/
def OpenTo (value : Json) (path : List String) : Prop :=
  ∀ front, front <+: path → ∀ inner, value.at? front = some inner →
    inner.IsObject

/-- Nothing stands at the end of a way, and nothing but objects on it. -/
def Silent (value : Json) (path : List String) : Prop :=
  value.at? path = none ∧ value.OpenTo path

/-- A value that is open to a way is an object. -/
theorem OpenTo.isObject {value : Json} {path : List String}
    (h : value.OpenTo path) :
    value.IsObject :=
  h [] List.nil_prefix value rfl

/-- What is open to a way is open to the rest of it below the first field. -/
theorem OpenTo.field {value inner : Json} {key : String} {rest : List String}
    (h : value.OpenTo (key :: rest)) (hinner : value.field? key = some inner) :
    inner.OpenTo rest := by
  intro front hfront v hv
  refine h (key :: front) ((List.prefix_cons_inj key).mpr hfront) v ?_
  rw [at?_cons, hinner]
  exact hv

/-- What is silent about a way is silent about the rest of it below the first
field. -/
theorem Silent.field {value inner : Json} {key : String} {rest : List String}
    (h : value.Silent (key :: rest)) (hinner : value.field? key = some inner) :
    inner.Silent rest := by
  refine ⟨?_, h.2.field hinner⟩
  have hnone := h.1
  rwa [at?_cons, hinner] at hnone

/-- An object is silent about a way if the field it starts with is silent about
the rest. -/
theorem silent_of_field {fields : Fields} {inner : Json} {key : String}
    {rest : List String} (h : fields.get? key = some inner)
    (hinner : inner.Silent rest) :
    (Json.object fields).Silent (key :: rest) := by
  refine ⟨by rw [at?_cons, field?_object, h]; exact hinner.1, ?_⟩
  intro front hfront value hvalue
  cases front with
  | nil =>
      cases hvalue
      trivial
  | cons first front =>
      obtain ⟨rfl, hrest⟩ := List.cons_prefix_cons.mp hfront
      rw [at?_cons, field?_object, h] at hvalue
      exact hinner.2 front hrest value hvalue

/-- An object without a field is silent about all ways that start with its
name. -/
theorem silent_of_get? {fields : Fields} {key : String}
    (h : fields.get? key = none) (rest : List String) :
    (Json.object fields).Silent (key :: rest) := by
  refine ⟨by simp [at?_cons, h], fun front hfront inner hinner => ?_⟩
  cases front with
  | nil =>
      cases hinner
      trivial
  | cons first front =>
      obtain ⟨heq, -⟩ := List.cons_prefix_cons.mp hfront
      rw [heq, at?_cons, field?_object, h] at hinner
      cases hinner

/-- Values are made of leaves and of objects whose fields are made so. -/
theorem induction_on_fields {P : Json → Prop}
    (leaf : ∀ value, ¬ value.IsObject → P value)
    (object : ∀ fields : Fields,
      (∀ key value, fields.get? key = some value → P value) →
      P (.object fields)) (value : Json) : P value := by
  by_cases h : value.IsObject
  · obtain ⟨fields, hfields⟩ := h.exists_fields
    rw [hfields]
    exact object fields fun key inner hinner =>
      induction_on_fields leaf object inner
  · exact leaf value h
termination_by sizeOf value
decreasing_by
  have hmem := List.sizeOf_lt_of_mem (Fields.mem_of_get? hinner)
  rw [hfields]
  simp only [Prod.mk.sizeOf_spec, Json.object.sizeOf_spec] at hmem ⊢
  omega

/-- No way leads to an object with two fields of one name. -/
def Distinct (value : Json) : Prop :=
  ∀ path (fields : Fields), value.at? path = some (.object fields) →
    fields.keys.Nodup

/-- What is no object has distinct fields everywhere. -/
theorem distinct_of_leaf {value : Json} (h : ¬ value.IsObject) :
    value.Distinct := by
  intro path fields hpath
  cases path with
  | nil =>
      cases hpath
      exact absurd trivial h
  | cons key rest =>
      rw [at?_cons, field?_eq_none h] at hpath
      cases hpath

/-- An object has distinct fields everywhere just when its own are distinct
and each value has distinct fields everywhere. -/
theorem distinct_object_iff {fields : Fields} :
    (Json.object fields).Distinct ↔
      fields.keys.Nodup ∧ ∀ key value, fields.get? key = some value →
        value.Distinct := by
  constructor
  · intro h
    refine ⟨h [] fields rfl, fun key value hvalue path inner hpath =>
      h (key :: path) inner ?_⟩
    rw [at?_cons, field?_object, hvalue]
    exact hpath
  · rintro ⟨hkeys, hvalues⟩ path inner hpath
    cases path with
    | nil =>
        cases hpath
        exact hkeys
    | cons key rest =>
        obtain ⟨value, hvalue, hrest⟩ := Option.bind_eq_some_iff.mp hpath
        exact hvalues key value hvalue rest inner hrest

/-- It is enough that each of the fields has such a value. -/
theorem distinct_of_forall_mem {fields : Fields} (h : fields.keys.Nodup)
    (hall : ∀ field ∈ fields, field.2.Distinct) :
    (Json.object fields).Distinct :=
  distinct_object_iff.mpr ⟨h, fun _ _ hvalue =>
    hall _ (Fields.mem_of_get? hvalue)⟩

/-- Setting a field to such a value keeps the fields distinct everywhere. -/
theorem Distinct.set {fields : Fields} (h : (Json.object fields).Distinct)
    {value : Json} (hvalue : value.Distinct) (name : String) :
    (Json.object (fields.set name value)).Distinct := by
  obtain ⟨hkeys, hvalues⟩ := distinct_object_iff.mp h
  refine distinct_object_iff.mpr ⟨Fields.nodup_keys_set hkeys name value,
    fun key w hw => ?_⟩
  rw [Fields.get?_set] at hw
  split at hw
  · cases hw
    exact hvalue
  · exact hvalues key w hw

/-- The items of an array are read to an array. -/
theorem isArray_of_readItems {fuel : Nat} {items : List Json} {c d : Cursor}
    {value : Json} (h : readItems fuel items c = .ok (value, d)) :
    ∃ all, value = .array all := by
  induction fuel generalizing items c with
  | zero => cases h
  | succ fuel ih =>
      rw [readItems] at h
      obtain ⟨⟨item, e⟩, -, h⟩ := exists_of_bind_eq_ok h
      dsimp only at h
      split at h
      · cases h
        exact ⟨_, rfl⟩
      · split at h
        · exact ih h
        · cases h

/-- A number is read to a leaf. -/
theorem leaf_of_readNumber {c d : Cursor} {value : Json}
    (h : readNumber c = .ok (value, d)) :
    ¬ value.IsObject := by
  simp only [readNumber] at h
  rcases ite_eq_iff.mp h with ⟨-, h⟩ | ⟨-, h⟩
  · cases h
  · rcases ite_eq_iff.mp h with ⟨-, h⟩ | ⟨-, h⟩ <;>
    · have hvalue : _ = value := congrArg Prod.fst (Except.ok.inj h)
      rw [← hvalue]
      exact id

/-- The empty object has distinct fields everywhere. -/
theorem distinct_nil : (Json.object []).Distinct :=
  distinct_of_forall_mem List.nodup_nil (by simp)

/-- A value is read with distinct fields if the fields of objects are. -/
theorem distinct_of_readValue_step {fuel : Nat}
    (ih : ∀ fields c value d, (Json.object fields).Distinct →
      readFields fuel fields c = .ok (value, d) → value.Distinct)
    {c d : Cursor} {value : Json}
    (h : readValue (fuel + 1) c = .ok (value, d)) :
    value.Distinct := by
  rw [readValue] at h
  split at h
  · generalize readString c.position [] _ _ = result at h
    cases result with
    | error e => cases h
    | ok pair =>
        cases h
        exact distinct_of_leaf id
  · rcases ite_eq_iff.mp h with ⟨-, h⟩ | ⟨-, h⟩
    · cases h
      exact distinct_nil
    · exact ih _ _ _ _ distinct_nil h
  · rcases ite_eq_iff.mp h with ⟨-, h⟩ | ⟨-, h⟩
    · cases h
      exact distinct_of_leaf id
    · obtain ⟨all, rfl⟩ := isArray_of_readItems h
      exact distinct_of_leaf id
  · refine distinct_of_leaf ?_
    iterate 6
      rcases ite_eq_iff.mp h with ⟨-, h⟩ | ⟨-, h⟩
      · cases h
        exact id
    exact leaf_of_readNumber h

/-- What comes after a guard that did not refuse the text. -/
theorem eq_of_guard {α β : Type} {refused : Prop} [Decidable refused]
    {c : Cursor} {fault : Fault} {next : β → Except ReadError α}
    {rest : Except ReadError α} {a : α}
    (h : (if refused then c.fail fault >>= next else rest) = .ok a) :
    rest = .ok a := by
  split at h
  · cases h
  · exact h

/-- One field more is read with a name of its own, if the value is read with
distinct fields. -/
theorem distinct_of_readFields_step {fuel : Nat}
    (hvalues : ∀ c value d, readValue fuel c = .ok (value, d) → value.Distinct)
    (ih : ∀ fields c value d, (Json.object fields).Distinct →
      readFields fuel fields c = .ok (value, d) → value.Distinct)
    {fields : Fields} {c d : Cursor} {value : Json}
    (hfields : (Json.object fields).Distinct)
    (h : readFields (fuel + 1) fields c = .ok (value, d)) : value.Distinct := by
  rw [readFields] at h
  replace h := eq_of_guard h
  obtain ⟨⟨key, e⟩, -, h⟩ := exists_of_bind_eq_ok h
  replace h := eq_of_guard h
  obtain ⟨⟨inner, e⟩, hinner, h⟩ := exists_of_bind_eq_ok h
  have hset := hfields.set (hvalues _ _ _ hinner) key
  rcases ite_eq_iff.mp h with ⟨-, h⟩ | ⟨-, h⟩
  · cases h
    exact hset
  · rcases ite_eq_iff.mp h with ⟨-, h⟩ | ⟨-, h⟩
    · exact ih _ _ _ _ hset h
    · cases h

/-- Whatever is read has distinct fields everywhere, also what is read into
fields that are there. -/
theorem distinct_of_readValue (fuel : Nat) :
    (∀ c value d, readValue fuel c = .ok (value, d) → value.Distinct) ∧
    ∀ fields c value d, (Json.object fields).Distinct →
      readFields fuel fields c = .ok (value, d) → value.Distinct := by
  induction fuel with
  | zero =>
      refine ⟨fun c value d h => ?_, fun fields c value d _ h => ?_⟩
      · cases h
      · cases h
  | succ fuel ih =>
      exact ⟨fun c value d h => distinct_of_readValue_step ih.2 h,
        fun fields c value d hfields h =>
          distinct_of_readFields_step ih.1 ih.2 hfields h⟩

/-- **What a text stands for has distinct fields.** -/
theorem distinct_of_read {text : String} {value : Json}
    (h : read text = .ok value) :
    value.Distinct := by
  unfold read at h
  replace h := eq_of_guard h
  obtain ⟨⟨v, c⟩, hv, h⟩ := exists_of_bind_eq_ok h
  rcases ite_eq_iff.mp h with ⟨-, h⟩ | ⟨-, h⟩
  · cases h
    exact (distinct_of_readValue _).1 _ _ _ hv
  · cases h

end Relay.Json
