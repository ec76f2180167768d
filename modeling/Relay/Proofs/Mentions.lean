import Relay.Proofs.Ranges
import Relay.Proofs.Requires

/-!
# Mentions become usages

The usages of a file are gathered from what its nodes mention, in the order of
the walk, and a usage that is there already is not added again.  Nothing is
lost by this: the usages are just what some node mentions
(`Usages.records_of_iff`).

A node mentions a property of a bag in one of two ways.  Either a chain of
accesses leads to it, or it is a key of an object literal that the node writes
to a place of the bag (`WritesKey`, `place_or_key_of_mem_mentionsAt`).

The two files of the scene `samples` are evaluated at the end.
-/

namespace Relay

open Analysis Syntax

namespace Analysis.Usages

/-- What a node mentions is among the usages of a file. -/
def Records (us : Usages) (m : Mention) : Prop :=
  match m.place with
  | .state b property => ∃ u ∈ us.inBag b m.kind, u.property = property ∧
      u.line = m.line
  | .data f property => ∃ u ∈ us.data,
      u.facet = f ∧ u.property = property ∧ u.kind = m.kind ∧ u.line = m.line

variable {s : Source} {isLibrary expand : Bool} {m : Mention}

/-- **Nothing is lost.**  The usages of a file are what its nodes mention. -/
theorem records_of_iff :
    (Usages.of s isLibrary expand).Records m ↔
      ∃ v ∈ entered (walkAll s.tree),
        m ∈ mentionsAt s expand v.node v.enclosing := by
  obtain ⟨place, kind, line⟩ := m
  cases place with
  | state b property =>
      have hgathers := gathers_collection s isLibrary b kind
      simp only [Records, Usages.of, Collector.inBag_usages]
      constructor
      · intro h
        obtain ⟨u, hu, rfl, rfl⟩ := h
        obtain ⟨v, hv, m, hm, hpick⟩ := hgathers.exists_of_mem_items_of hu
        rw [(Mention.usage?_eq_some_iff.mp hpick).1] at hm
        exact ⟨v, hv, hm⟩
      · intro h
        obtain ⟨v, hv, hm⟩ := h
        have hpick : Mention.usage? s isLibrary b kind
            ⟨.state b property, kind, line⟩
            = some ⟨property, kind, line, s.snippet line, s.path,
                isLibrary⟩ := by
          simp [Mention.usage?]
        obtain ⟨u, hu, hstamp⟩ := hgathers.exists_mem_items_of hv hm hpick
        simp only [PropertyUsage.stamp, Prod.mk.injEq] at hstamp
        exact ⟨u, hu, hstamp.1, hstamp.2.1⟩
  | data f property =>
      have hgathers := gathers_data s isLibrary
      constructor
      · intro h
        obtain ⟨u, hu, rfl, rfl, hkind, rfl⟩ := h
        obtain ⟨v, hv, m, hm, hpick⟩ := hgathers.exists_of_mem_items_of hu
        rw [(Mention.dataUsage?_eq_some_iff.mp hpick).1, hkind] at hm
        exact ⟨v, hv, hm⟩
      · intro h
        obtain ⟨v, hv, hm⟩ := h
        obtain ⟨u, hu, hstamp⟩ := hgathers.exists_mem_items_of hv hm rfl
        simp only [DataUsage.stamp, Prod.mk.injEq] at hstamp
        exact ⟨u, hu, hstamp.1, hstamp.2.1, hstamp.2.2.2, hstamp.2.2.1⟩

end Analysis.Usages

namespace Analysis

/-- All bags are listed. -/
theorem Bag.mem_all (b : Bag) : b ∈ Bag.all := by
  cases b <;> decide

/-- The property that a key of an object literal stands for, below the place
that the literal is written to.  The bag itself has an empty place. -/
def keyPlace (place key : String) : String :=
  if place = "" then key else s!"{place}.{key}"

/-- A node writes an object literal to a place of a bag, and the literal has a
key. -/
inductive WritesKey (s : Source) (b : Bag) (n : Node) (place key : String) :
    Prop
  | assigned {left object : Node} (hkind : n.kind = .assignmentExpression)
      (hleft : n.inner? .left = some left) (haccess : left.kind.isAccess = true)
      (hplace : innerPlace? b (chainOf s.bytes left) = some place)
      (hright : n.inner? .right = some object) (hobject : object.kind = .object)
      (hkey : key ∈ objectKeys s.bytes object)
  | merged {target extra object : Node} {extras : List Node}
      (hkind : n.kind = .callExpression)
      (hassign : isObjectAssign s.bytes n = true)
      (harguments : callArguments n = target :: extras)
      (hplace : (b.isItself (chainOf s.bytes target) = true ∧ place = "") ∨
        (b.isItself (chainOf s.bytes target) = false ∧
          innerPlace? b (chainOf s.bytes target) = some place))
      (hextra : extra ∈ extras) (hunwrap : extra.unwrap = some object)
      (hobject : object.kind = .object) (hkey : key ∈ objectKeys s.bytes object)

section

variable {s : Source} {b : Bag} {c : Chain} {property : String} {k : UsageKind}
  {line : Nat} {n : Node} {around : List Node} {expand : Bool} {m : Mention}

/-- What a chain is said to use of the bags: the places that it leads to. -/
theorem mem_stateMentions_iff {kind : UsageKind} {here : Nat} :
    m ∈ stateMentions c kind here ↔ ∃ b property,
      m = ⟨.state b property, kind, here⟩ ∧
        filled? (b.placeOf? c) = some property := by
  unfold stateMentions
  rw [List.mem_filterMap]
  constructor
  · intro h
    obtain ⟨b, -, hb⟩ := h
    obtain ⟨property, hplace, hm⟩ := Option.map_eq_some_iff.mp hb
    exact ⟨b, property, hm.symm, hplace⟩
  · intro h
    obtain ⟨b, property, rfl, hplace⟩ := h
    exact ⟨b, b.mem_all, by rw [hplace]; rfl⟩

/-- What a chain is said to use of the facets: a place that it leads to. -/
theorem exists_of_mem_dataMentions {kind : UsageKind} {here : Nat}
    (h : m ∈ dataMentions c kind here) : ∃ f property,
      m = ⟨.data f property, kind, here⟩ ∧
        filled? (f.placeOf? c) = some property := by
  obtain ⟨f, -, hf⟩ :=
    List.exists_of_findSome?_eq_some (Option.mem_toList.mp h)
  obtain ⟨property, hplace, hm⟩ := Option.map_eq_some_iff.mp hf
  exact ⟨f, property, hm.symm, hplace⟩

/-- What the keys of an object literal are said to write. -/
theorem mem_keyMentions_iff {place : String} {object : Node} {here : Nat} :
    m ∈ keyMentions s b place object here ↔ ∃ key ∈ objectKeys s.bytes object,
      m = ⟨.state b (keyPlace place key), .write, here⟩ := by
  unfold keyMentions
  rw [List.mem_map]
  constructor
  · intro h
    obtain ⟨key, hkey, hm⟩ := h
    exact ⟨key, hkey, hm.symm⟩
  · intro h
    obtain ⟨key, hkey, hm⟩ := h
    exact ⟨key, hkey, hm.symm⟩

/-- What literals are merged into: the bag itself, which is not mentioned, or a
place inside it, which is. -/
theorem mergeTarget?_eq_some_iff {here : Nat} {place : String}
    {own : List Mention} :
    mergeTarget? b c here = some (place, own) ↔
      (b.isItself c = true ∧ place = "" ∧ own = []) ∨
      (b.isItself c = false ∧ innerPlace? b c = some place ∧
        own = [⟨.state b place, .write, here⟩]) := by
  unfold mergeTarget?
  cases hitself : b.isItself c with
  | true => simp [eq_comm]
  | false =>
      cases hplace : innerPlace? b c with
      | none => simp
      | some inner =>
          simp only [Bool.false_eq_true, if_false, Option.map_some,
            Option.some.injEq, Prod.mk.injEq, false_and, true_and, false_or]
          constructor
          · intro h
            obtain ⟨rfl, rfl⟩ := h
            exact ⟨rfl, rfl⟩
          · intro h
            obtain ⟨rfl, rfl⟩ := h
            exact ⟨rfl, rfl⟩

/-- A place inside a bag is a place that the chain leads to. -/
theorem placeOf?_of_innerPlace? {place : String}
    (h : innerPlace? b c = some place) :
    filled? (b.placeOf? c) = some place :=
  (Option.filter_eq_some_iff.mp h).1

/-- What an access mentions is where the chain of its target leads to. -/
theorem exists_of_mem_accessMentions (h : m ∈ accessMentions s n around) :
    ∃ kind, m ∈ stateMentions (chainOf s.bytes (usageTarget s.bytes n around).1)
        kind (s.lineOf n) ∨
      m ∈ dataMentions (chainOf s.bytes (usageTarget s.bytes n around).1)
        kind (s.lineOf n) := by
  unfold accessMentions at h
  split at h
  · cases h
  · exact ⟨_, List.mem_append.mp h⟩

/-- What a deletion mentions is where the deleted access leads to. -/
theorem exists_of_mem_deletionMentions (h : m ∈ deletionMentions s n) :
    ∃ argument, n.inner? .argument = some argument ∧
      argument.kind.isAccess = true ∧
      m ∈ stateMentions (chainOf s.bytes argument) .write (s.lineOf n) := by
  unfold deletionMentions at h
  split at h
  · rename_i argument hargument
    split at h
    · rename_i haccess
      exact ⟨argument, hargument, haccess, h⟩
    · cases h
  · cases h

/-- What an assignment of an object literal writes: a place, and the keys below
it. -/
theorem mem_assignmentMentions_iff :
    m ∈ assignmentMentions s expand n ↔ expand = true ∧ ∃ b property,
      m = ⟨.state b property, .write, s.lineOf n⟩ ∧ ∃ left object place,
        n.inner? .left = some left ∧ n.inner? .right = some object ∧
        object.kind = .object ∧ left.kind.isAccess = true ∧
        innerPlace? b (chainOf s.bytes left) = some place ∧
        (property = place ∨ ∃ key ∈ objectKeys s.bytes object,
          property = keyPlace place key) := by
  unfold assignmentMentions
  constructor
  · intro h
    split at h
    · rename_i left object hleft hright
      split at h
      · rename_i hform
        simp only [Bool.and_eq_true, beq_iff_eq] at hform
        obtain ⟨⟨hexpand, hobject⟩, haccess⟩ := hform
        obtain ⟨b, -, hb⟩ := List.mem_flatMap.mp h
        split at hb
        · rename_i place hplace
          rcases List.mem_cons.mp hb with rfl | hm
          · exact ⟨hexpand, b, place, rfl, left, object, place, hleft, hright,
              hobject, haccess, hplace, .inl rfl⟩
          · obtain ⟨key, hkey, rfl⟩ := mem_keyMentions_iff.mp hm
            exact ⟨hexpand, b, _, rfl, left, object, place, hleft, hright,
              hobject, haccess, hplace, .inr ⟨key, hkey, rfl⟩⟩
        · cases hb
      · cases h
    · cases h
  · intro h
    obtain ⟨rfl, b, property, rfl, left, object, place, hleft, hright, hobject,
      haccess, hplace, h⟩ := h
    simp only [hleft, hright, hobject, haccess, beq_self_eq_true, Bool.and_self,
      if_true]
    refine List.mem_flatMap.mpr ⟨b, b.mem_all, ?_⟩
    rw [hplace]
    rcases h with rfl | ⟨key, hkey, rfl⟩
    · exact List.mem_cons_self
    · exact List.mem_cons_of_mem _ (mem_keyMentions_iff.mpr ⟨key, hkey, rfl⟩)

/-- What a merge of object literals writes: a place, unless it is the bag
itself, and the keys. -/
theorem mem_mergeMentions_iff :
    m ∈ mergeMentions s n ↔ ∃ b property,
      m = ⟨.state b property, .write, s.lineOf n⟩ ∧
      ∃ target extra extras place own,
        callArguments n = target :: extra :: extras ∧
        mergeTarget? b (chainOf s.bytes target) (s.lineOf n)
          = some (place, own) ∧
        (⟨.state b property, .write, s.lineOf n⟩ ∈ own ∨
          ∃ e ∈ extra :: extras, ∃ object, e.unwrap = some object ∧
            object.kind = .object ∧ ∃ key ∈ objectKeys s.bytes object,
              property = keyPlace place key) := by
  unfold mergeMentions
  constructor
  · intro h
    split at h
    · rename_i target extra extras harguments
      obtain ⟨b, -, hb⟩ := List.mem_flatMap.mp h
      split at hb
      · rename_i place own htarget
        rcases List.mem_append.mp hb with hm | hm
        · rcases mergeTarget?_eq_some_iff.mp htarget with
            ⟨-, -, rfl⟩ | ⟨-, -, rfl⟩
          · cases hm
          · cases List.mem_singleton.mp hm
            exact ⟨b, place, rfl, target, extra, extras, _, _, harguments,
              htarget, .inl hm⟩
        · obtain ⟨object, hobject, hm⟩ := List.mem_flatMap.mp hm
          obtain ⟨key, hkey, rfl⟩ := mem_keyMentions_iff.mp hm
          obtain ⟨e, he, hunwrap⟩ := List.mem_filterMap.mp hobject
          obtain ⟨hunwrap, hkind⟩ := Option.filter_eq_some_iff.mp hunwrap
          exact ⟨b, _, rfl, target, extra, extras, place, own, harguments,
            htarget, .inr ⟨e, he, object, hunwrap, by simpa using hkind, key,
              hkey, rfl⟩⟩
      · cases hb
    · cases h
  · intro h
    obtain ⟨b, property, rfl, target, extra, extras, place, own, harguments,
      htarget, h⟩ := h
    rw [harguments]
    refine List.mem_flatMap.mpr ⟨b, b.mem_all, ?_⟩
    rw [htarget]
    rcases h with hm | ⟨e, he, object, hunwrap, hkind, key, hkey, rfl⟩
    · exact List.mem_append_left _ hm
    · refine List.mem_append_right _ (List.mem_flatMap.mpr ⟨object, ?_, ?_⟩)
      · exact List.mem_filterMap.mpr ⟨e, he, by simp [hunwrap, hkind]⟩
      · exact mem_keyMentions_iff.mpr ⟨key, hkey, rfl⟩

/-- What a method mentions is a facet, on the line of its call. -/
theorem exists_of_mem_methodMentions {callee : Node}
    (h : m ∈ methodMentions s n callee) :
    ∃ f property kind, m = ⟨.data f property, kind, s.lineOf n⟩ := by
  unfold methodMentions at h
  split at h
  · split at h
    · obtain ⟨f, -, rfl⟩ := List.mem_map.mp h
      exact ⟨_, _, _, rfl⟩
    · split at h
      · exact ⟨_, _, _, List.mem_singleton.mp h⟩
      · cases h
  · cases h

/-- **What a node mentions**, by the kind of the node. -/
theorem cases_of_mem_mentionsAt (h : m ∈ mentionsAt s expand n around) :
    m ∈ accessMentions s n around ∨
    (∃ callee, m ∈ methodMentions s n callee) ∨
    (n.kind = .callExpression ∧ expand = true ∧
      isObjectAssign s.bytes n = true ∧ m ∈ mergeMentions s n) ∨
    (n.kind = .assignmentExpression ∧ m ∈ assignmentMentions s expand n) ∨
    m ∈ deletionMentions s n := by
  unfold mentionsAt at h
  split at h
  case h_1 => exact .inl h
  case h_2 => exact .inl h
  case h_3 hkind =>
    unfold callMentions at h
    split at h
    · rename_i callee hcallee
      split at h
      · split at h
        · rename_i hform
          obtain ⟨hexpand, hassign⟩ := Bool.and_eq_true_iff.mp hform
          exact .inr (.inr (.inl ⟨hkind, hexpand, hassign, h⟩))
        · exact .inr (.inl ⟨callee, h⟩)
      · cases h
    · cases h
  case h_4 hkind => exact .inr (.inr (.inr (.inl ⟨hkind, h⟩)))
  case h_5 =>
    split at h
    · exact .inr (.inr (.inr (.inr h)))
    · cases h
  case h_6 => cases h

/-- **Two ways to be mentioned.**  A property of a bag that a node mentions is
the place that some chain leads to, or a key of an object literal that the node
writes. -/
theorem place_or_key_of_mem_mentionsAt
    (h : ⟨.state b property, k, line⟩ ∈ mentionsAt s expand n around) :
    (∃ c, b.placeOf? c = some property) ∨
      (expand = true ∧ k = .write ∧ line = s.lineOf n ∧
        ∃ place key, WritesKey s b n place key ∧
          property = keyPlace place key) := by
  have hplaced : ∀ {c : Chain}, filled? (b.placeOf? c) = some property →
      ∃ c, b.placeOf? c = some property := by
    intro c hc
    exact ⟨c, (Option.filter_eq_some_iff.mp hc).1⟩
  have hstate : ∀ {c : Chain} {kind : UsageKind} {here : Nat},
      ⟨.state b property, k, line⟩ ∈ stateMentions c kind here →
        ∃ c, b.placeOf? c = some property := by
    intro c kind here h
    obtain ⟨_, _, hm, hplace⟩ := mem_stateMentions_iff.mp h
    cases hm
    exact hplaced hplace
  rcases cases_of_mem_mentionsAt h with
    h | ⟨callee, h⟩ | ⟨hkind, hexpand, hassign, h⟩ | ⟨hkind, h⟩ | h
  · obtain ⟨kind, h | h⟩ := exists_of_mem_accessMentions h
    · exact .inl (hstate h)
    · obtain ⟨f, place, hm, -⟩ := exists_of_mem_dataMentions h
      cases hm
  · obtain ⟨f, place, kind, hm⟩ := exists_of_mem_methodMentions h
    cases hm
  · obtain ⟨_, _, hm, target, extra, extras, place, own, harguments, htarget,
      hwritten⟩ := mem_mergeMentions_iff.mp h
    cases hm
    have htarget := mergeTarget?_eq_some_iff.mp htarget
    rcases hwritten with hm | ⟨e, he, object, hunwrap, hobject, key, hkey, rfl⟩
    · rcases htarget with ⟨-, -, rfl⟩ | ⟨-, hplace, rfl⟩
      · cases hm
      · cases List.mem_singleton.mp hm
        exact .inl (hplaced (placeOf?_of_innerPlace? hplace))
    · refine .inr ⟨hexpand, rfl, rfl, place, key, ?_, rfl⟩
      refine .merged hkind hassign harguments ?_ he hunwrap hobject hkey
      rcases htarget with ⟨hitself, hplace, -⟩ | ⟨hitself, hplace, -⟩
      · exact .inl ⟨hitself, hplace⟩
      · exact .inr ⟨hitself, hplace⟩
  · obtain ⟨hexpand, _, _, hm, left, object, place, hleft, hright, hobject,
      haccess, hplace, hwritten⟩ := mem_assignmentMentions_iff.mp h
    cases hm
    rcases hwritten with rfl | ⟨key, hkey, rfl⟩
    · exact .inl (hplaced (placeOf?_of_innerPlace? hplace))
    · exact .inr ⟨hexpand, rfl, rfl, place, key,
        .assigned hkind hleft haccess hplace hright hobject hkey, rfl⟩
  · obtain ⟨argument, -, -, h⟩ := exists_of_mem_deletionMentions h
    exact .inl (hstate h)

/-- Where object literals count, the keys that a node writes are mentioned. -/
theorem WritesKey.mem_mentionsAt {place key : String}
    (h : WritesKey s b n place key) :
    ⟨.state b (keyPlace place key), .write,
      s.lineOf n⟩ ∈ mentionsAt s true n around := by
  cases h with
  | assigned hkind hleft haccess hplace hright hobject hkey =>
      unfold mentionsAt
      rw [hkind]
      exact mem_assignmentMentions_iff.mpr ⟨rfl, b, _, rfl, _, _, _, hleft,
        hright, hobject, haccess, hplace, .inr ⟨key, hkey, rfl⟩⟩
  | @merged target extra object extras hkind hassign harguments hplace hextra
      hunwrap hobject hkey =>
      have hcallee : ∃ callee, n.inner? .function = some callee ∧
          callee.kind = .memberExpression := by
        unfold isObjectAssign at hassign
        split at hassign
        · rename_i callee hcallee
          simp only [Bool.and_eq_true, beq_iff_eq] at hassign
          exact ⟨callee, hcallee, hassign.1.1⟩
        · cases hassign
      obtain ⟨callee, hcallee, hmember⟩ := hcallee
      obtain ⟨first, rest, rfl⟩ :=
        List.exists_cons_of_ne_nil (List.ne_nil_of_mem hextra)
      have htarget : ∃ own, mergeTarget? b (chainOf s.bytes target) (s.lineOf n)
          = some (place, own) := by
        rcases hplace with ⟨hitself, hplace⟩ | ⟨hitself, hplace⟩
        · exact ⟨_, mergeTarget?_eq_some_iff.mpr (.inl ⟨hitself, hplace, rfl⟩)⟩
        · exact ⟨_, mergeTarget?_eq_some_iff.mpr (.inr ⟨hitself, hplace, rfl⟩)⟩
      obtain ⟨own, htarget⟩ := htarget
      unfold mentionsAt
      rw [hkind]
      simp only [callMentions, hcallee, hmember, hassign, beq_self_eq_true,
        Bool.and_self, if_true]
      exact mem_mergeMentions_iff.mpr ⟨b, _, rfl, target, first, rest, place,
        own, harguments, htarget,
        .inr ⟨extra, hextra, object, hunwrap, hobject, key, hkey, rfl⟩⟩

end

end Analysis

/-- The usages among the facts of a source. -/
theorem usages_of_factsOf {r : Resolver} {fs : Files} {source : Source}
    {log : List LogEntry} {facts : Facts}
    (h : factsOf r fs source = (log, .ok facts)) :
    facts.usages = Usages.of source
      (r.isLibrary source.path.text) r.config.expandLiterals := by
  obtain ⟨dependencies, -, rfl⟩ := eq_of_factsOf h
  rfl

namespace Scene

/-- A file that assigns an object literal. -/
def keyedFile : Path :=
  ⟨.here, ["ws", "a.js"]⟩

/-- A file with an access to what stands in parentheses. -/
def wrappedFile : Path :=
  ⟨.here, ["ws", "b.js"]⟩

/-- The text of the second file. -/
def wrappedText : String :=
  "(res.locals.a).b=1"

/-- A workspace with the two files. -/
def samples : Scene where
  files :=
    { entries := [
        (["R", "ws"], .directory),
        (["R", "ws", "a.js"],
          .file "res.locals.seed=\x7blength:1\x7d".toUTF8 1000),
        (["R", "ws", "b.js"], .file wrappedText.toUTF8 1000)]
      current := ["R"] }
  resolver :=
    ⟨{ Config.usual (.ofString "ws") "m" with libraryPatterns := [] }, []⟩

/-- What the files of the scene use, and what the access in parentheses
mentions. -/
theorem layout_samples :
    (samples.own? keyedFile).map
      (fun f => f.usages.localsWrites.map (·.property))
      = some ["seed", "seed.length"] ∧
    (samples.own? wrappedFile).map
      (fun f => f.usages.localsWrites.map (·.property))
      = some ["a.b", "a"] ∧
    ∃ source ∈ (Source.read wrappedFile wrappedText.toUTF8).toOption,
      source.tree.Ranged ∧
      ∃ v ∈ entered (walkAll source.tree), v.node.kind.isAccess = true ∧
        ∃ parens ∈ v.node.child? .object,
          parens.kind = .parenthesizedExpression ∧
          ∃ n ∈ parens.content.head?, n.kind = .memberExpression ∧
            n.start < n.stop ∧
            mentionsAt source true n (parens :: v.node :: v.enclosing)
              = [⟨.state .locals "a", .write, 1⟩] ∧
            writeContext? source.bytes n (parens :: v.node :: v.enclosing)
              = some .assignment := by
  decide +kernel

/-- The access in parentheses where the walk of its file comes to it. -/
theorem wrapped_samples :
    ∃ source, Source.read wrappedFile wrappedText.toUTF8 = .ok source ∧
      source.tree.Ranged ∧
      ∃ n parens access around, ⟨.enter, n, parens :: access :: around⟩ ∈
          entered (walkAll source.tree) ∧
        access.kind.isAccess = true ∧ access.child? .object = some parens ∧
        parens.kind = .parenthesizedExpression ∧ parens.content.head? = some n ∧
        n.kind = .memberExpression ∧ n.start < n.stop ∧
        mentionsAt source true n (parens :: access :: around)
          = [⟨.state .locals "a", .write, 1⟩] ∧
        writeContext? source.bytes n (parens :: access :: around) =
          some .assignment := by
  obtain ⟨-, -, source, hsource, hranged, v, hv, haccess, parens, hparens,
    hkind, n, hn, hmember, hsome, hmentions, hwritten⟩ := layout_samples
  have hread : Source.read wrappedFile wrappedText.toUTF8 = .ok source :=
    eq_ok_of_toOption hsource
  obtain ⟨-, hstands⟩ := mem_entered_walkAll.mp hv
  have hchild : parens ∈ v.node.children := Node.child?_mem hparens
  have hinner : n ∈ parens.children :=
    List.mem_of_mem_filter (List.mem_of_mem_filter (List.mem_of_mem_head? hn))
  have hvisit : ⟨.enter, n, parens :: v.node :: v.enclosing⟩ ∈
      entered (walkAll source.tree) :=
    mem_entered_walkAll.mpr ⟨rfl, (hstands.child hchild).child hinner⟩
  exact ⟨source, hread, hranged, n, parens, v.node, v.enclosing, hvisit,
    haccess, hparens, hkind, hn, hmember, hsome, hmentions, hwritten⟩

end Scene

end Relay
