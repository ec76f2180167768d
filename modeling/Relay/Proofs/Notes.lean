import Mathlib.Logic.Function.Basic
import Relay.Flow.Result
import Relay.Proofs.Requires

/-!
# Taking notes of usages

Who writes and who reads a property is worked out from the usages of all
middlewares, taken in one after the other.  A note is such a usage with the
middleware that it comes from; taking in a middleware is noting its usages one
by one (`tally_add`).  Three things hold of the owners and the flows after any
notes (`Tally.Records`): the owner of a file is where its first note comes
from, the properties of a bag are those that are noted, and the members of a
property are the owners of the files that it is noted in, each with the file.
-/

namespace Relay

open Analysis

section AddOnce

variable {α : Type} [DecidableEq α] {items : List α} {a b : α}

/-- A list with one member added has that member and its own. -/
theorem mem_addOnce : b ∈ addOnce items a ↔ b ∈ items ∨ b = a := by
  unfold addOnce
  split
  · rename_i hmem
    constructor
    · exact .inl
    · rintro (hb | rfl)
      · exact hb
      · exact hmem
  · rw [List.mem_append, List.mem_singleton]

/-- Adding a member does not repeat one. -/
theorem nodup_addOnce (h : items.Nodup) : (addOnce items a).Nodup := by
  unfold addOnce
  split
  · exact h
  · rename_i hnew
    refine List.nodup_append'.mpr ⟨h, List.nodup_singleton a,
      fun b hb hb' => ?_⟩
    exact hnew (List.mem_singleton.mp hb' ▸ hb)

end AddOnce

/-- The members of a flow on the side of writers or readers. -/
def PropertyFlow.members (flow : PropertyFlow) : UsageKind → List String
  | .write => flow.producers
  | .read => flow.consumers

/-- A member that is added is on its own side of the flow. -/
theorem PropertyFlow.members_add (flow : PropertyFlow) (kind : UsageKind)
    (member : String) (k : UsageKind) : (flow.add kind member).members k
      = if k = kind then addOnce (flow.members k) member
        else flow.members k := by
  cases kind <;> cases k <;> rfl

namespace PropertyFlows

variable {f : PropertyFlow → PropertyFlow} {property q : String}
  {flow : PropertyFlow} {flows : PropertyFlows}

/-- Updating a property adds it at the end unless it is there. -/
theorem keys_update :
    (update f property flows).map (·.1) = addOnce
      (flows.map (·.1)) property := by
  induction flows with
  | nil => rfl
  | cons head rest ih =>
      obtain ⟨p, old⟩ := head
      by_cases hp : p = property
      · simp [update, addOnce, hp]
      · have hp' : property ≠ p := Ne.symm hp
        simp only [update, if_neg hp, List.map_cons, ih, addOnce,
          List.mem_cons, hp', false_or]
        split
        · rfl
        · rfl

/-- Other properties are left alone. -/
theorem mem_update_of_ne (hq : q ≠ property) :
    (q, flow) ∈ update f property flows ↔ (q, flow) ∈ flows := by
  induction flows with
  | nil => simp [update, hq]
  | cons head rest ih =>
      obtain ⟨p, old⟩ := head
      by_cases hp : p = property
      · simp [update, hp, hq]
      · simp only [update, if_neg hp, List.mem_cons, ih]

/-- The flow of the property itself is changed from what it was, or from
nothing. -/
theorem exists_of_mem_update (h : (property, flow) ∈ update f property flows)
    (hnodup : (flows.map (·.1)).Nodup) :
    (∃ old, (property, old) ∈ flows ∧ flow = f old) ∨
      (property ∉ flows.map (·.1) ∧ flow = f {}) := by
  induction flows with
  | nil =>
      simp only [update, List.mem_singleton, Prod.mk.injEq, true_and] at h
      exact .inr ⟨by simp, h⟩
  | cons head rest ih =>
      obtain ⟨p, old⟩ := head
      rw [List.map_cons, List.nodup_cons] at hnodup
      by_cases hp : p = property
      · subst hp
        rw [update, if_pos rfl, List.mem_cons, Prod.mk.injEq] at h
        rcases h with ⟨-, hflow⟩ | hrest
        · exact .inl ⟨old, List.mem_cons_self, hflow⟩
        · exact absurd (List.mem_map_of_mem (f := Prod.fst) hrest) hnodup.1
      · have hp' : property ≠ p := Ne.symm hp
        rw [update, if_neg hp, List.mem_cons, Prod.mk.injEq] at h
        rcases h with ⟨heq, -⟩ | hrest
        · exact absurd heq hp'
        · rcases ih hrest hnodup.2 with ⟨old', hold, hflow⟩ | ⟨hnew, hflow⟩
          · exact .inl ⟨old', List.mem_cons_of_mem _ hold, hflow⟩
          · exact .inr ⟨by simpa [hp'] using hnew, hflow⟩

end PropertyFlows

/-- A claim counts for files without an owner only. -/
theorem Owners.lookup_claim (owners : Owners) (path : Path) (specifier : String)
    (q : Path) : List.lookup q (owners.claim path specifier)
      = (List.lookup q owners).or
        (if q = path then some specifier else none) := by
  unfold claim
  split
  · rename_i hsome
    by_cases hq : q = path
    · subst hq
      obtain ⟨owner, howner⟩ := Option.isSome_iff_exists.mp hsome
      rw [howner]
      rfl
    · simp [hq]
  · rw [List.lookup_append]
    by_cases hq : q = path
    · simp [hq]
    · have hother : List.lookup q [(path, specifier)] = none := by
        rw [List.lookup_cons, beq_false_of_ne hq]
        rfl
      rw [hother, if_neg hq]

/-- A usage with the middleware that it comes from. -/
structure Note where
  specifier : String
  bag : Bag
  kind : UsageKind
  usage : PropertyUsage

/-- The usages of a middleware in the order in which they are taken in. -/
def Middleware.notes (m : Middleware) : List Note :=
  (m.inBag .locals .write).map (⟨m.name, .locals, .write, ·⟩)
    ++ (m.inBag .locals .read).map (⟨m.name, .locals, .read, ·⟩)
    ++ (m.inBag .transaction .write).map (⟨m.name, .transaction, .write, ·⟩)
    ++ (m.inBag .transaction .read).map (⟨m.name, .transaction, .read, ·⟩)

/-- The notes of a middleware are its usages under its name. -/
theorem Middleware.mem_notes {m : Middleware} {n : Note} :
    n ∈ m.notes ↔ n.specifier = m.name ∧ n.usage ∈ m.inBag n.bag n.kind := by
  obtain ⟨specifier, bag, kind, usage⟩ := n
  cases bag <;> cases kind <;> simp [notes, eq_comm, and_comm]

/-- The middleware that the first note of a file comes from. -/
def owner? (notes : List Note) (path : Path) : Option String :=
  (notes.find? (·.usage.path = path)).map (·.specifier)

/-- What a note adds to the flow of its property: the file with its owner. -/
def Note.member (notes : List Note) (n : Note) : String :=
  s!"{(owner? notes n.usage.path).getD n.specifier}::{n.usage.path.short}"

/-- The owners of files and the flows of both bags. -/
structure Tally where
  owners : Owners := []
  flows : Bag → PropertyFlows := fun _ => []

/-- Takes in one note. -/
def Tally.note (t : Tally) (n : Note) : Tally where
  owners := t.owners.claim n.usage.path n.specifier
  flows := Function.update t.flows n.bag
    (Ledger.add n.kind n.specifier ⟨t.owners, t.flows n.bag⟩ n.usage).flows

/-- What is known after some middlewares, as far as notes tell. -/
def Passed.tally (t : Passed) : Tally where
  owners := t.owners
  flows
    | .locals => t.locals
    | .transaction => t.transaction

/-- Noting usages of one bag and kind is taking them into the ledger of the
bag. -/
theorem Tally.foldl_note (specifier : String) (bag : Bag) (kind : UsageKind)
    (usages : List PropertyUsage) (t : Tally) :
    (usages.map (⟨specifier, bag, kind, ·⟩)).foldl note t
      = ⟨(usages.foldl (Ledger.add kind specifier) ⟨t.owners,
        t.flows bag⟩).owners,
        Function.update t.flows bag
          (usages.foldl (Ledger.add kind specifier) ⟨t.owners,
            t.flows bag⟩).flows⟩ := by
  induction usages generalizing t with
  | nil => simp
  | cons u usages ih =>
      rw [List.map_cons, List.foldl_cons, List.foldl_cons, ih]
      simp [note, Ledger.add]

/-- **Taking in a middleware is noting its usages.** -/
theorem Passed.tally_add (t : Passed) (m : Middleware) :
    (t.add m).tally = m.notes.foldl Tally.note t.tally := by
  rw [Middleware.notes, List.foldl_append, List.foldl_append, List.foldl_append,
    Tally.foldl_note, Tally.foldl_note, Tally.foldl_note, Tally.foldl_note]
  simp only [Function.update_self, ne_eq, reduceCtorEq, not_false_eq_true,
    Function.update_of_ne, Function.update_idem]
  simp only [tally, add, Ledger.addAll, Middleware.inBag, Tally.mk.injEq,
    true_and]
  funext b
  cases b
  · simp
  · simp

/-- The owner of a file is found in the earlier notes first. -/
theorem owner?_append (notes more : List Note) (path : Path) :
    owner? (notes ++ more) path = (owner? notes path).or
      (owner? more path) := by
  rw [owner?, List.find?_append, Option.map_or]
  rfl

/-- One note makes its middleware the owner of its file. -/
theorem owner?_singleton (n : Note) (path : Path) :
    owner? [n] path = if path = n.usage.path then some n.specifier
      else none := by
  by_cases hpath : path = n.usage.path
  · simp [owner?, hpath]
  · simp [owner?, hpath, Ne.symm hpath]

/-- A file that is noted has an owner. -/
theorem exists_owner? {notes : List Note} {n : Note} (h : n ∈ notes) :
    ∃ specifier, owner? notes n.usage.path = some specifier := by
  have hsome : (notes.find? (·.usage.path = n.usage.path)).isSome := by
    rw [List.find?_isSome]
    exact ⟨n, h, by simp⟩
  obtain ⟨first, hfirst⟩ := Option.isSome_iff_exists.mp hsome
  exact ⟨first.specifier, by rw [owner?, hfirst]; rfl⟩

/-- Later notes do not change what a note adds. -/
theorem Note.member_append {notes : List Note} {n : Note} (h : n ∈ notes)
    (n' : Note) :
    n.member (notes ++ [n']) = n.member notes := by
  obtain ⟨specifier, howner⟩ := exists_owner? h
  rw [member, member, owner?_append, howner]
  rfl

/-- A new note names the owner of its file, which is its own middleware if
there is none yet. -/
theorem Note.member_self (notes : List Note) (n : Note) :
    n.member (notes ++ [n])
      = s!"{(owner? notes n.usage.path).getD n.specifier}::{n.usage.path.short}" := by
  rw [member, owner?_append, owner?_singleton, if_pos rfl]
  cases owner? notes n.usage.path <;> rfl

/-- Some note adds a member to one side of a property. -/
def Noted (notes : List Note) (b : Bag) (k : UsageKind)
    (property member : String) :
    Prop :=
  ∃ n ∈ notes, n.bag = b ∧ n.kind = k ∧ n.usage.property = property ∧
    n.member notes = member

/-- With one more note, what is noted is what was noted and what the new note
says. -/
theorem noted_append {notes : List Note} {n : Note} {b : Bag} {k : UsageKind}
    {property member : String} :
    Noted (notes ++ [n]) b k property member ↔ Noted notes b k property member ∨
      (n.bag = b ∧ n.kind = k ∧ n.usage.property = property ∧
        n.member (notes ++ [n]) = member) := by
  constructor
  · rintro ⟨n', hn', hb, hk, hproperty, hmember⟩
    rcases List.mem_append.mp hn' with hn' | hn'
    · rw [Note.member_append hn'] at hmember
      exact .inl ⟨n', hn', hb, hk, hproperty, hmember⟩
    · obtain rfl := List.mem_singleton.mp hn'
      exact .inr ⟨hb, hk, hproperty, hmember⟩
  · rintro (⟨n', hn', hb, hk, hproperty, hmember⟩ | hn)
    · refine ⟨n', List.mem_append_left _ hn', hb, hk, hproperty, ?_⟩
      rw [Note.member_append hn', hmember]
    · exact ⟨n, List.mem_append_right _ List.mem_cons_self, hn⟩

/-- What the owners and the flows are after some notes. -/
structure Tally.Records (t : Tally) (notes : List Note) : Prop where
  owners : ∀ path, List.lookup path t.owners = owner? notes path
  nodup : ∀ b, ((t.flows b).map (·.1)).Nodup
  keys : ∀ b property, property ∈ (t.flows b).map (·.1) ↔
    ∃ n ∈ notes, n.bag = b ∧ n.usage.property = property
  members : ∀ b property flow, (property, flow) ∈ t.flows b → ∀ k,
    (flow.members k).Nodup ∧
      ∀ member, member ∈ flow.members k ↔ Noted notes b k property member

namespace Tally.Records

variable {t : Tally} {notes : List Note}

/-- An empty tally records no notes. -/
theorem empty : Records {} [] where
  owners _ := rfl
  nodup _ := List.nodup_nil
  keys b property := by simp
  members b property flow h := by cases h

/-- A side that notes tell about still does so with one more note. -/
theorem members_add {old : PropertyFlow} {n : Note} {k : UsageKind}
    (h : (old.members k).Nodup ∧ ∀ member, member ∈ old.members k ↔
      Noted notes n.bag k n.usage.property member) :
    ((old.add n.kind (n.member (notes ++ [n]))).members k).Nodup ∧
      ∀ member, member ∈ (old.add n.kind (n.member (notes ++ [n]))).members k ↔
        Noted (notes ++ [n]) n.bag k n.usage.property member := by
  rw [PropertyFlow.members_add]
  by_cases hk : k = n.kind
  · rw [if_pos hk]
    refine ⟨nodup_addOnce h.1, fun member => ?_⟩
    rw [mem_addOnce, h.2, noted_append]
    simp [hk, eq_comm]
  · rw [if_neg hk]
    refine ⟨h.1, fun member => ?_⟩
    rw [h.2, noted_append]
    simp [Ne.symm hk]

/-- **One more note.** -/
theorem note (h : t.Records notes) (n : Note) :
    (t.note n).Records (notes ++ [n]) := by
  have hmember : n.member (notes ++ [n])
      = s!"{t.owners.owner n.usage.path n.specifier}::{n.usage.path.short}" := by
    rw [Note.member_self, Owners.owner, h.owners]
  have hsame : (t.note n).flows n.bag = PropertyFlows.update
      (·.add n.kind (n.member (notes ++ [n]))) n.usage.property
          (t.flows n.bag) := by
    rw [Tally.note, hmember]
    exact Function.update_self ..
  have hother : ∀ b, b ≠ n.bag → (t.note n).flows b = t.flows b :=
    fun b hb => Function.update_of_ne hb ..
  refine ⟨fun path => ?_, fun b => ?_, fun b property => ?_,
    fun b property flow hflow k => ?_⟩
  · rw [owner?_append, owner?_singleton, ← h.owners]
    exact Owners.lookup_claim ..
  · by_cases hb : b = n.bag
    · rw [hb, hsame, PropertyFlows.keys_update]
      exact nodup_addOnce (h.nodup n.bag)
    · rw [hother b hb]
      exact h.nodup b
  · by_cases hb : b = n.bag
    · rw [hb, hsame, PropertyFlows.keys_update, mem_addOnce, h.keys]
      simp [or_and_right, exists_or, eq_comm]
    · rw [hother b hb, h.keys]
      simp [or_and_right, exists_or, Ne.symm hb]
  · by_cases hb : b = n.bag
    · subst hb
      rw [hsame] at hflow
      by_cases hproperty : property = n.usage.property
      · subst hproperty
        rcases PropertyFlows.exists_of_mem_update hflow (h.nodup n.bag) with
          ⟨old, hold, rfl⟩ | ⟨hnew, rfl⟩
        · exact members_add (h.members n.bag _ old hold k)
        · apply members_add
          have hnone : ∀ member,
              ¬ Noted notes n.bag k n.usage.property member := by
            rintro member ⟨n', hn', hbag, -, hproperty, -⟩
            exact hnew ((h.keys n.bag _).mpr ⟨n', hn', hbag, hproperty⟩)
          have hempty : ({} : PropertyFlow).members k = [] := by cases k <;> rfl
          rw [hempty]
          exact ⟨List.nodup_nil, fun member => by simp [hnone member]⟩
      · rw [PropertyFlows.mem_update_of_ne hproperty] at hflow
        refine ⟨(h.members n.bag property flow hflow k).1, fun member => ?_⟩
        rw [(h.members n.bag property flow hflow k).2, noted_append]
        simp [Ne.symm hproperty]
    · rw [hother b hb] at hflow
      refine ⟨(h.members b property flow hflow k).1, fun member => ?_⟩
      rw [(h.members b property flow hflow k).2, noted_append]
      simp [Ne.symm hb]

/-- A tally records all notes that it is given. -/
theorem foldl_note (h : t.Records notes) (more : List Note) :
    (more.foldl Tally.note t).Records (notes ++ more) := by
  induction more generalizing t notes with
  | nil => simpa using h
  | cons n more ih =>
      rw [List.foldl_cons, ← List.singleton_append, ← List.append_assoc]
      exact ih (h.note n)

end Tally.Records

/-- **The tally of a chain.**  After some middlewares the owners and the flows
are what all their notes tell. -/
theorem Passed.records_foldl_add {t : Passed} {notes : List Note}
    (h : t.tally.Records notes) (ms : List Middleware) :
    (ms.foldl Passed.add t).tally.Records (notes ++ ms.flatMap (·.notes)) := by
  induction ms generalizing t notes with
  | nil => simpa using h
  | cons m ms ih =>
      rw [List.foldl_cons, List.flatMap_cons, ← List.append_assoc]
      apply ih
      rw [tally_add]
      exact h.foldl_note m.notes

end Relay
