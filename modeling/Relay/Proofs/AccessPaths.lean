import Mathlib.Data.List.TakeWhile
import Relay.Proofs.CallNames
import Relay.Proofs.InnerAccesses
import Relay.Proofs.NativeKeys

/-!
# The paths of accesses

An access is read from the name that it starts from, through the accesses
inside it, the innermost first (`ReadsFrom`).  Each of them takes a step that
is written out (`StaticStep`) or computed.  The property that a node is said to
use is made of the steps that are written out.  A computed step leaves no trace
in it, and neither does one whose name is empty.

So what a node mentions tells the path of its access just when each step is
written out under a name (`paths_told_iff`).
-/

namespace Relay

namespace Analysis

open Syntax

variable {bytes : ByteArray} {n a : Node} {root name : String}
  {accesses : List Node}

/-- An access takes a step that is written out under a name: as a property, a
string or a number. -/
inductive StaticStep (bytes : ByteArray) (a : Node) (name : String) : Prop
  | property {p : Node} (hkind : a.kind = .memberExpression)
      (hproperty : a.child? .property = some p) (hname : nameOf? bytes p =
        some name)
  | string {index : Node} (hkind : a.kind = .subscriptExpression)
      (hindex : a.inner? .index = some index)
      (hvalue : stringValue? bytes index = some name)
  | number {index : Node} (hkind : a.kind = .subscriptExpression)
      (hindex : a.inner? .index = some index) (hnumber : index.kind = .number)
      (htext : index.text bytes = name)

/-- A step is written out just where the reader of names finds a name. -/
theorem staticStep_iff :
    StaticStep bytes a name ↔ propertyName? bytes a = some name := by
  constructor
  · intro h
    cases h with
    | property hkind hproperty hname =>
        simp [propertyName?, hkind, hproperty, hname]
    | string hkind hindex hvalue => simp [propertyName?, hkind, hindex, hvalue]
    | number hkind hindex hnumber htext =>
        simp [propertyName?, hkind, hindex, stringValue?, hnumber, htext]
  · intro h
    unfold propertyName? at h
    split at h
    · rename_i hkind
      obtain ⟨p, hproperty, hname⟩ := Option.bind_eq_some_iff.mp h
      exact .property hkind hproperty hname
    · rename_i hkind
      split at h
      · rename_i index hindex
        split at h
        · rename_i value hvalue
          cases h
          exact .string hkind hindex hvalue
        · split at h
          · rename_i hnumber
            cases h
            exact .number hkind hindex (by simpa using hnumber) rfl
          · cases h
      · cases h
    · cases h

/-- The name that a step leaves in a chain. -/
def trace? (bytes : ByteArray) (a : Node) : Option String :=
  filled? (propertyName? bytes a)

/-- A step that is written out leaves its name in the chain, unless the name
is empty. -/
theorem StaticStep.trace?_eq (h : StaticStep bytes a name) (hne : name ≠ "") :
    trace? bytes a = some name := by
  rw [trace?, staticStep_iff.mp h, filled?_of_ne hne]

/-- Of steps that are written out, those with a name leave it. -/
theorem filterMap_trace? {names : List String}
    (h : List.Forall₂ (StaticStep bytes) accesses names) :
    accesses.filterMap (trace? bytes) = names.filter (· ≠ "") := by
  induction h with
  | nil => rfl
  | @cons a name accesses names hstep _ ih =>
      by_cases hempty : name = ""
      · have htrace : trace? bytes a = none := by
          simp [trace?, staticStep_iff.mp hstep, filled?, hempty]
        rw [List.filterMap_cons_none htrace, ih,
          List.filter_cons_of_neg (by simpa using hempty)]
      · rw [List.filterMap_cons_some (hstep.trace?_eq hempty), ih,
          List.filter_cons_of_pos (by simpa using hempty)]

/-- Where each access is written out under a name that is not empty, the chain
has these names, one for each access. -/
theorem forall₂_trace? (h : ∀ a ∈ accesses, ∃ name, StaticStep bytes a name ∧
    name ≠ "") :
    List.Forall₂ (StaticStep bytes) accesses
      (accesses.filterMap (trace? bytes)) := by
  induction accesses with
  | nil => exact .nil
  | cons a accesses ih =>
      obtain ⟨⟨name, hstep, hne⟩, hrest⟩ := List.forall_mem_cons.mp h
      rw [List.filterMap_cons_some (hstep.trace?_eq hne)]
      exact .cons hstep (ih hrest)

/-- An access among some that take steps takes one of the steps. -/
theorem exists_staticStep_of_mem {names : List String}
    (h : List.Forall₂ (StaticStep bytes) accesses names) (ha : a ∈ accesses) :
    ∃ name ∈ names, StaticStep bytes a name := by
  induction h with
  | nil => cases ha
  | cons hstep _ ih =>
      rcases List.mem_cons.mp ha with rfl | ha
      · exact ⟨_, List.mem_cons_self, hstep⟩
      · obtain ⟨name, hname, hstep⟩ := ih ha
        exact ⟨name, List.mem_cons_of_mem _ hname, hstep⟩

/-- A node is read from a name through some accesses, the innermost first.
Parentheses do not matter. -/
inductive ReadsFrom (bytes : ByteArray) (root : String) :
    Node → List Node → Prop
  | name {n m : Node} (hunwrap : n.unwrap = some m)
  (hkind : m.kind = .identifier)
      (htext : m.text bytes = root) : ReadsFrom bytes root n []
  | access {n a object : Node} {inner : List Node} (hunwrap : n.unwrap = some a)
      (haccess : a.kind.isAccess = true) (hobject : a.child? .object =
        some object)
      (h : ReadsFrom bytes root object inner) :
        ReadsFrom bytes root n (inner ++ [a])

/-- An access is read through those that its object is read through, and
itself. -/
theorem ReadsFrom.exists_inner (h : ReadsFrom bytes root a accesses)
    (haccess : a.kind.isAccess = true) :
    ∃ object inner, a.child? .object = some object ∧ accesses = inner ++ [a] ∧
      ReadsFrom bytes root object inner := by
  have hunwrap := unwrap_of_isAccess haccess
  cases h with
  | name hunwrap' hkind htext =>
      obtain rfl := Option.some.inj (hunwrap.symm.trans hunwrap')
      rw [hkind] at haccess
      cases haccess
  | access hunwrap' _ hobject h =>
      obtain rfl := Option.some.inj (hunwrap.symm.trans hunwrap')
      exact ⟨_, _, hobject, rfl, h⟩

/-- There is one way to read a node. -/
theorem ReadsFrom.unique {root' : String} {accesses' : List Node}
    (h : ReadsFrom bytes root n accesses)
    (h' : ReadsFrom bytes root' n accesses') :
    accesses = accesses' := by
  induction h generalizing accesses' with
  | name hunwrap hkind _ =>
      cases h' with
      | name => rfl
      | access hunwrap' haccess _ _ =>
          obtain rfl := Option.some.inj (hunwrap.symm.trans hunwrap')
          rw [hkind] at haccess
          cases haccess
  | access hunwrap haccess hobject _ ih =>
      cases h' with
      | name hunwrap' hkind _ =>
          obtain rfl := Option.some.inj (hunwrap.symm.trans hunwrap')
          rw [hkind] at haccess
          cases haccess
      | access hunwrap' _ hobject' h' =>
          obtain rfl := Option.some.inj (hunwrap.symm.trans hunwrap')
          obtain rfl := Option.some.inj (hobject.symm.trans hobject')
          rw [ih h']

/-- What a chain with a root stands for: a name, or an access whose object has
the same root. -/
theorem chainOf_of_root (h : (chainOf bytes n).root = some root) :
    ∃ m, n.unwrap = some m ∧
      ((m.kind = .identifier ∧ m.text bytes = root ∧
        (chainOf bytes n).steps = []) ∨
        (m.kind.isAccess = true ∧ ∃ object, m.child? .object = some object ∧
          (chainOf bytes object).root = some root ∧
          (chainOf bytes n).steps = (chainOf bytes object).steps ++
            (trace? bytes m).toList)) := by
  have hchain := followChain.eq_def bytes [] n
  rw [chainOf] at h ⊢
  split at hchain
  · rw [hchain] at h
    cases h
  · rename_i m hm
    refine ⟨m, hm, ?_⟩
    split at hchain
    · rename_i haccess
      split at hchain
      · rename_i object hobject
        have hsteps : followChain bytes [] n = ⟨(chainOf bytes object).root,
            (chainOf bytes object).steps ++ ((trace? bytes m).toList ++ [])⟩ :=
          hchain.trans (followChain_eq _ object)
        rw [hsteps, List.append_nil] at h ⊢
        exact .inr ⟨haccess, object, hobject, h, rfl⟩
      · rw [hchain] at h
        cases h
    · split at hchain
      · rename_i hkind
        rw [hchain] at h ⊢
        have htext : m.text bytes = root := by
          simpa [nameOf?, hkind] using h
        exact .inl ⟨hkind, htext, rfl⟩
      · rw [hchain] at h
        cases h

/-- **Chains are made of traces.**  A chain with a root is read from it, and
its steps are what the accesses leave. -/
theorem exists_readsFrom (h : (chainOf bytes n).root = some root) :
    ∃ accesses, ReadsFrom bytes root n accesses ∧
      (chainOf bytes n).steps = accesses.filterMap (trace? bytes) := by
  induction hsize : n.size using Nat.strong_induction_on generalizing n with
  | _ size ih =>
      obtain ⟨m, hunwrap,
          ⟨hkind, htext, hsteps⟩ | ⟨haccess, object, hobject, hroot, hsteps⟩⟩ :=
        chainOf_of_root h
      · exact ⟨[], .name hunwrap hkind htext, hsteps⟩
      · have hlt : object.size < size := by
          have hle := Node.size_unwrap_le n hunwrap
          have hlt := Node.size_child?_lt hobject
          omega
        obtain ⟨inner, hreads, hinner⟩ := ih object.size hlt hroot rfl
        refine ⟨inner ++ [m], .access hunwrap haccess hobject hreads, ?_⟩
        rw [hsteps, hinner, List.filterMap_append]
        cases htrace : trace? bytes m with
        | none => simp [htrace]
        | some name => simp [htrace]

namespace Place

/-- The names of what the bag or facet of a place hangs on. -/
def roots : Place → List String
  | .state b _ => b.roots
  | .data f _ => f.roots

/-- The name of the bag or facet of a place. -/
def inner : Place → String
  | .state b _ => b.inner
  | .data f _ => f.inner

/-- The property that a place is. -/
def property : Place → String
  | .state _ p => p
  | .data _ p => p

/-- The property that holds a bag or a facet has a name. -/
theorem inner_ne_empty (p : Place) : p.inner ≠ "" := by
  cases p with
  | state b _ => cases b <;> simp [inner, Bag.inner]
  | data f _ => cases f <;> simp [inner, Facet.inner]

end Place

/-- A place is what is left of a path without the native names at its end. -/
def Strips (path place : String) : Prop :=
  ∃ natives, (∀ name ∈ natives, name ∈ nativeNames) ∧
    Text.split '.' path = Text.split '.' place ++ natives ∧ ¬ EndsNative place

/-- A path without the native names at its end is one that the native names
were stripped from. -/
theorem strips_of_stripNatives? {path place : String}
    (h : stripNatives? path = some place) :
    Strips path place := by
  have hsteps :=
    (Text.split '.' path).reverse.takeWhile_append_dropWhile
      (p := nativeNames.contains)
  refine ⟨((Text.split '.' path).reverse.takeWhile
    nativeNames.contains).reverse, ?_, ?_,
    not_endsNative_of_stripNatives? h⟩
  · intro name hname
    simpa using List.mem_takeWhile_imp (List.mem_reverse.mp hname)
  · rw [split_of_stripNatives? h, dropNatives, ← List.reverse_append, hsteps,
      List.reverse_reverse]

/-- Some steps below a bag or a facet are those of a place there.  They are
joined by dots, native names at the end do not count in the locals, and the
transaction is of interest as a whole. -/
def Place.Spells : Place → List String → Prop
  | .data _ property, steps => steps ≠ [] ∧ property = Text.join "." steps
  | .state .locals property, steps =>
      steps ≠ [] ∧ Strips (Text.join "." steps) property
  | .state .transaction property, steps =>
    (steps ≠ [] ∧ property = Text.join "." steps) ∨
      (steps = [] ∧ property = wholeBag)

/-- A path below an inner property is made of the steps after that property,
of which there is at least one. -/
theorem pathBelow?_eq_some {c : Chain} {roots : List String}
    {inner path : String} (h : c.pathBelow? roots inner = some path) :
    c.startsFrom roots = true ∧
      ∃ steps, c.steps = inner :: steps ∧ steps ≠ [] ∧
        path = Text.join "." steps := by
  unfold Chain.pathBelow? at h
  split at h
  · rename_i first second rest hsteps
    split at h
    · rename_i hform
      cases h
      exact ⟨hform.1, second :: rest, by rw [hsteps, hform.2], by simp, rfl⟩
    · cases h
  · cases h

/-- A place in a bag is spelled by the steps after the property that holds the
bag. -/
theorem spells_of_placeOf? {c : Chain} {b : Bag} {property : String}
    (h : b.placeOf? c = some property) :
    c.startsFrom b.roots = true ∧
      ∃ steps, c.steps = b.inner :: steps ∧
        (Place.state b property).Spells steps := by
  unfold Bag.placeOf? at h
  cases hpath : c.pathBelow? b.roots b.inner with
  | some path =>
      obtain ⟨hstarts, steps, hsteps, hne, rfl⟩ := pathBelow?_eq_some hpath
      refine ⟨hstarts, steps, hsteps, ?_⟩
      cases b with
      | locals =>
          rw [hpath] at h
          exact ⟨hne, strips_of_stripNatives? h⟩
      | transaction =>
          rw [hpath] at h
          exact .inl ⟨hne, (Option.some.inj h).symm⟩
  | none =>
      cases b with
      | locals => simp [hpath] at h
      | transaction =>
          simp only [hpath] at h
          split at h
          · rename_i hitself
            obtain ⟨hstarts, hsteps⟩ := Bool.and_eq_true_iff.mp hitself
            exact ⟨hstarts, [], by simpa using hsteps,
              .inr ⟨rfl, (Option.some.inj h).symm⟩⟩
          · cases h

/-- What a chain is said to use is made of its steps. -/
theorem spells_of_mem_mentions {c : Chain} {kind : UsageKind} {line : Nat}
    {m : Mention}
    (h : m ∈ stateMentions c kind line ++ dataMentions c kind line) :
    c.startsFrom m.place.roots = true ∧
      ∃ steps, c.steps = m.place.inner :: steps ∧ m.place.Spells steps := by
  rcases List.mem_append.mp h with h | h
  · obtain ⟨b, property, rfl, hplace⟩ := mem_stateMentions_iff.mp h
    exact spells_of_placeOf? (Option.filter_eq_some_iff.mp hplace).1
  · obtain ⟨f, property, rfl, hplace⟩ := exists_of_mem_dataMentions h
    obtain ⟨hstarts, steps, hsteps, hspells⟩ :=
      pathBelow?_eq_some (Option.filter_eq_some_iff.mp hplace).1
    exact ⟨hstarts, steps, hsteps, hspells⟩

/-- Splitting joined steps at dots splits each of the steps. -/
theorem split_join_dots {steps : List String} (h : steps ≠ []) :
    Text.split '.' (Text.join "." steps) = steps.flatMap (Text.split '.') := by
  induction steps with
  | nil => exact absurd rfl h
  | cons step steps ih =>
      cases steps with
      | nil => simp [Text.join]
      | cons next rest =>
          have hjoin : Text.join "." (step :: next :: rest)
              = step ++ "." ++ Text.join "." (next :: rest) :=
                String.intercalate_cons_cons
          rw [hjoin, split_append_dot, ih (List.cons_ne_nil _ _)]
          rfl

/-- A place has as many empty pieces as the steps that spell it. -/
theorem Place.Spells.count_empty {p : Place} {steps : List String}
    (h : p.Spells steps) :
    (Text.split '.' p.property).count "" =
      (steps.flatMap (Text.split '.')).count "" := by
  have hwhole : (Text.split '.' wholeBag).count "" = 0 := by decide
  cases p with
  | data f property =>
      obtain ⟨hne, rfl⟩ := h
      rw [Place.property, split_join_dots hne]
  | state b property =>
      cases b with
      | locals =>
          obtain ⟨hne, natives, hnatives, hsplit, -⟩ := h
          have hnone : natives.count "" = 0 := by
            rw [List.count_eq_zero]
            intro hmem
            exact absurd (hnatives _ hmem) (by decide)
          rw [← split_join_dots hne, hsplit, List.count_append, hnone]
          rfl
      | transaction =>
          rcases h with ⟨hne, rfl⟩ | ⟨rfl, rfl⟩
          · rw [Place.property, split_join_dots hne]
          · exact hwhole

/-- An empty step gives one empty piece, and all other empty pieces come from
the steps that are not empty. -/
theorem count_empty_flatMap (steps : List String) :
    (steps.flatMap (Text.split '.')).count ""
      = steps.count "" +
        ((steps.filter (· ≠ "")).flatMap (Text.split '.')).count "" := by
  have hempty : Text.split '.' "" = [""] := by decide
  induction steps with
  | nil => rfl
  | cons step steps ih =>
      by_cases hstep : step = ""
      · simp [hstep, hempty, ih]
        omega
      · simp [hstep, ih]
        omega

/-- Steps that spell a place together with their empty ones and without them
have none. -/
theorem empty_notMem_of_spells {p : Place} {steps : List String}
    (h : p.Spells steps) (hfilter : p.Spells (steps.filter (· ≠ ""))) :
    "" ∉ steps := by
  have hcount := count_empty_flatMap steps
  rw [← h.count_empty, ← hfilter.count_empty] at hcount
  exact List.count_eq_zero.mp (by omega)

/-- The access that an access or a deletion is about. -/
def targetOf? (bytes : ByteArray) (n : Node) (around : List Node) :
    Option Node :=
  if n.kind.isAccess then some (usageTarget bytes n around).1
  else if n.kind = .unaryExpression then n.inner? .argument
  else none

/-- What an access or a deletion mentions, it mentions along the chain of its
target. -/
theorem exists_target {s : Source} {expand : Bool} {around : List Node}
    {m : Mention} (hnode : n.kind.isAccess = true ∨ n.kind = .unaryExpression)
    (hm : m ∈ mentionsAt s expand n around) :
    ∃ target kind line, targetOf? s.bytes n around = some target ∧
      m ∈ stateMentions (chainOf s.bytes target) kind line
        ++ dataMentions (chainOf s.bytes target) kind line := by
  rcases hnode with haccess | hunary
  · rw [mentionsAt_of_isAccess haccess] at hm
    obtain ⟨kind, hm⟩ := exists_of_mem_accessMentions hm
    exact ⟨_, _, _, if_pos haccess, List.mem_append.mpr hm⟩
  · have hnot : n.kind.isAccess = false := by rw [hunary]; rfl
    simp only [mentionsAt, hunary] at hm
    split at hm
    · obtain ⟨argument, hargument, -, hm⟩ := exists_of_mem_deletionMentions hm
      refine ⟨argument, _, _, ?_, List.mem_append_left _ hm⟩
      rw [targetOf?, hnot, if_neg Bool.false_ne_true, if_pos hunary, hargument]
    · cases hm

/-- A mention tells the path of an access: the access is read from a root of
the mentioned bag or facet, all its steps are written out, the first one is the
bag or facet, and the others spell the mentioned place. -/
def Mention.Tells (bytes : ByteArray) (m : Mention) (target : Node) : Prop :=
  ∃ root accesses steps, ReadsFrom bytes root target accesses ∧
    root ∈ m.place.roots ∧
    List.Forall₂ (StaticStep bytes) accesses (m.place.inner :: steps) ∧
      m.place.Spells steps

/-- **Which paths are told.**  What an access or a deletion mentions is spelled
by the steps that are written out, as if the others were not there.  So the
path of the access is told just when each step is written out under a name that
is not empty. -/
theorem paths_told_iff (s : Source) (expand : Bool) {n : Node}
    {around : List Node} {m : Mention}
    (hnode : n.kind.isAccess = true ∨ n.kind = .unaryExpression)
    (hm : m ∈ mentionsAt s expand n around) :
    ∃ target root accesses, targetOf? s.bytes n around = some target ∧
      ReadsFrom s.bytes root target accesses ∧ root ∈ m.place.roots ∧
      (∃ steps, accesses.filterMap (trace? s.bytes) = m.place.inner :: steps ∧
        m.place.Spells steps) ∧
      (m.Tells s.bytes target ↔
        ∀ a ∈ accesses, ∃ name, StaticStep s.bytes a name ∧ name ≠ "") := by
  obtain ⟨target, kind, line, htarget, hmention⟩ := exists_target hnode hm
  obtain ⟨hstarts, steps, hsteps, hspells⟩ := spells_of_mem_mentions hmention
  obtain ⟨root, hroot, hroots⟩ := (Option.any_eq_true _ _).mp hstarts
  obtain ⟨accesses, hreads, htraces⟩ := exists_readsFrom hroot
  rw [hsteps] at htraces
  refine ⟨target, root, accesses, htarget, hreads, by simpa using hroots,
    ⟨steps, htraces.symm, hspells⟩, ?_⟩
  constructor
  · intro h
    obtain ⟨root', accesses', names, hreads', -, hstatic, hnames⟩ := h
    obtain rfl := hreads.unique hreads'
    -- Only empty names can be missing among the traces.
    have hfilter : names.filter (· ≠ "") = steps := by
      have hkept := filterMap_trace? hstatic
      rw [← htraces, List.filter_cons_of_pos
        (by simpa using m.place.inner_ne_empty)] at hkept
      exact (List.cons.inj hkept).2.symm
    have hfull := empty_notMem_of_spells hnames (hfilter ▸ hspells)
    intro a ha
    obtain ⟨name, hname, hstep⟩ := exists_staticStep_of_mem hstatic ha
    refine ⟨name, hstep, ?_⟩
    rcases List.mem_cons.mp hname with rfl | hname
    · exact m.place.inner_ne_empty
    · exact ne_of_mem_of_not_mem hname hfull
  · intro h
    have hstatic := forall₂_trace? h
    rw [← htraces] at hstatic
    exact ⟨root, accesses, steps, hreads, by simpa using hroots, hstatic,
      hspells⟩

end Analysis

namespace Scene

open Analysis Syntax

/-- The first access of the second file, and the computed step inside it. -/
theorem detour_gaps :
    ∃ source, Source.read detourFile detourText.toUTF8 = .ok source ∧
      ∃ v ∈ entered (walkAll source.tree), v.node.kind.isAccess = true ∧
        mentionsAt source true v.node v.enclosing =
          [⟨.state .locals "a", .write, 1⟩] ∧
        targetOf? source.bytes v.node v.enclosing = some v.node ∧
        ∀ root accesses, ReadsFrom source.bytes root v.node accesses →
          ∃ b ∈ accesses, propertyName? source.bytes b = none := by
  obtain ⟨-, -, source, hsource, v, hv, haccess, hcalled, hmentions, a, hobject,
    ha, b, hinner, hb, hcomputed⟩ := layout_gaps
  refine ⟨source, eq_ok_of_toOption hsource, v, hv, haccess, hmentions, ?_, ?_⟩
  · simp [targetOf?, haccess, usageTarget, hcalled]
  · intro root accesses hreads
    obtain ⟨a', first, hobject', rfl, hfirst⟩ := hreads.exists_inner haccess
    obtain rfl := Option.some.inj (hobject.symm.trans hobject')
    obtain ⟨b', second, hinner', rfl, hsecond⟩ := hfirst.exists_inner ha
    obtain rfl := Option.some.inj (hinner.symm.trans hinner')
    obtain ⟨-, third, -, rfl, -⟩ := hsecond.exists_inner hb
    exact ⟨b, by simp, hcomputed⟩

/-- What that access mentions is spelled by the steps that are written out, and
its path is not told. -/
theorem paths_told_gaps :
    ∃ source, Source.read detourFile detourText.toUTF8 = .ok source ∧
      ∃ v ∈ entered (walkAll source.tree), v.node.kind.isAccess = true ∧
        ∃ m ∈ mentionsAt source true v.node v.enclosing, ∃ root accesses steps,
          ReadsFrom source.bytes root v.node accesses ∧
            root ∈ Bag.locals.roots ∧
          accesses.filterMap (trace? source.bytes) = "locals" :: steps ∧
          (Place.state .locals "a").Spells steps ∧
            ¬ m.Tells source.bytes v.node := by
  obtain ⟨source, hread, v, hv, haccess, hmentions, htarget, hcomputed⟩ :=
    detour_gaps
  have hm : ⟨.state .locals "a", .write,
      1⟩ ∈ mentionsAt source true v.node v.enclosing := by
    rw [hmentions]
    exact List.mem_singleton_self _
  obtain ⟨target, root, accesses, htarget', hreads, hroot,
      ⟨steps, hsteps, hspells⟩, htells⟩ :=
    paths_told_iff source true (.inl haccess) hm
  obtain rfl := Option.some.inj (htarget.symm.trans htarget')
  refine ⟨source, hread, v, hv, haccess, _, hm, root, accesses, steps, hreads,
    hroot, hsteps, hspells, ?_⟩
  intro h
  obtain ⟨b, hb, hnone⟩ := hcomputed root accesses hreads
  obtain ⟨name, hstep, -⟩ := htells.mp h b hb
  rw [staticStep_iff.mp hstep] at hnone
  cases hnone

/-- **A step that is passed over.**  In `res[k].locals.a=res.locals[k].b=1`
both accesses take a computed step, and the file writes `a` and `b`.  The first
access does not have the path that it is said to write. -/
theorem exists_path_not_told :
    (gaps.own? detourFile).map (fun f => f.usages.localsWrites.map (·.property))
      = some ["a", "b"] ∧
    ∃ source, Source.read detourFile detourText.toUTF8 = .ok source ∧
      ∃ v ∈ entered (walkAll source.tree), v.node.kind.isAccess = true ∧
        ∃ m ∈ mentionsAt source true v.node v.enclosing, ∃ target,
          targetOf? source.bytes v.node v.enclosing = some target ∧
          ¬ m.Tells source.bytes target := by
  obtain ⟨-, hwrites, -⟩ := layout_gaps
  obtain ⟨source, hread, v, hv, haccess, hmentions, htarget, hcomputed⟩ :=
    detour_gaps
  refine ⟨hwrites, source, hread, v, hv, haccess,
    ⟨.state .locals "a", .write, 1⟩, by simp [hmentions], v.node, htarget, ?_⟩
  intro h
  obtain ⟨root, accesses, steps, hreads, -, hstatic, -⟩ := h
  obtain ⟨b, hb, hnone⟩ := hcomputed root accesses hreads
  obtain ⟨name, -, hstep⟩ := exists_staticStep_of_mem hstatic hb
  rw [staticStep_iff.mp hstep] at hnone
  cases hnone

end Scene

end Relay
