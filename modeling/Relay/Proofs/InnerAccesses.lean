import Relay.Proofs.Mentions

/-!
# Accesses inside accesses

An access such as `res.locals.a.b` holds further accesses, each the object of
the next.  The chain of an access goes on from the chain of its object,
whatever parentheses stand around the object (`ObjectIn.exists_chain`), so the
outermost access speaks for all.

An object is passed over for that reason, but only if the access around it is
its parent.  In parentheses it is looked at as if it stood alone, and is
mentioned a second time if its own chain leads to a place
(`object_silent_iff`).
-/

namespace Relay

namespace Analysis

open Syntax

variable {bytes : ByteArray} {n a : Node} {around : List Node} {k : Nat}

/-- Steps that have been met stay at the end of a chain. -/
theorem followChain_eq (steps : List String) (n : Node) :
    followChain bytes steps n
      = ⟨(followChain bytes [] n).root,
        (followChain bytes [] n).steps ++ steps⟩ := by
  induction hsize : n.size using Nat.strong_induction_on
      generalizing n steps with
  | _ size ih =>
      rw [followChain.eq_def bytes steps n, followChain.eq_def bytes [] n]
      split
      · rfl
      · rename_i m hm
        split
        · split
          · rename_i object hobject
            have hlt : object.size < size := by
              have hle := Node.size_unwrap_le n hm
              have hlt := Node.size_child?_lt hobject
              omega
            rw [ih object.size hlt _ object rfl,
              ih object.size hlt ((filled? (propertyName? bytes m)).toList ++
                []) object rfl]
            simp
          · simp
        · split
          · rfl
          · rfl

/-- Only what is inside the parentheses around an access counts for its
chain. -/
theorem chainOf_congr {m : Node} (h : n.unwrap = m.unwrap) :
    chainOf bytes n = chainOf bytes m := by
  rw [chainOf, chainOf, followChain.eq_def, followChain.eq_def bytes [] m, h]

/-- An access has no parentheses around it to be taken off. -/
theorem unwrap_of_isAccess (ha : a.kind.isAccess = true) :
    a.unwrap = some a := by
  apply Node.unwrap_of_ne
  intro hkind
  rw [hkind] at ha
  cases ha

/-- The chain of an access goes on from the chain of its object by its own
step. -/
theorem chainOf_access {object : Node} (ha : a.kind.isAccess = true)
    (hobject : a.child? .object = some object) :
    chainOf bytes a = ⟨(chainOf bytes object).root,
      (chainOf bytes object).steps ++
        (filled? (propertyName? bytes a)).toList⟩ := by
  have hunwrap := unwrap_of_isAccess ha
  rw [chainOf, followChain.eq_def]
  split
  · rename_i hnone
    rw [hunwrap] at hnone
    cases hnone
  · rename_i m hm
    obtain rfl : a = m := Option.some.inj (hunwrap.symm.trans hm)
    rw [if_pos ha]
    split
    · rename_i object' hobject'
      obtain rfl : object = object' :=
        Option.some.inj (hobject.symm.trans hobject')
      rw [followChain_eq, List.append_nil]
      rfl
    · rename_i hnone
      rw [hobject] at hnone
      cases hnone

/-- A node is the object of an access around it, with some parentheses between
the two. -/
inductive ObjectIn : Nat → Node → List Node → Prop
  | access {n a : Node} {around : List Node} (ha : a.kind.isAccess = true)
      (hn : a.child? .object = some n) : ObjectIn 0 n (a :: around)
  | parens {k : Nat} {n parens : Node} {around : List Node}
      (hparens : parens.kind = .parenthesizedExpression)
      (hn : parens.content.head? = some n)
      (h : ObjectIn k parens around) : ObjectIn (k + 1) n (parens :: around)

/-- The access around an object has a chain that goes on from the object's
chain. -/
theorem ObjectIn.exists_chain (h : ObjectIn k n around) :
    ∃ a ∈ around, a.kind.isAccess = true ∧
      chainOf bytes a = ⟨(chainOf bytes n).root,
      (chainOf bytes n).steps ++ (filled? (propertyName? bytes a)).toList⟩ := by
  induction h with
  | @access n a around ha hn => exact ⟨a, by simp, ha, chainOf_access ha hn⟩
  | @parens k n parens around hparens hn h ih =>
      obtain ⟨a, ha, haccess, hchain⟩ := ih
      have hunwrap : parens.unwrap = n.unwrap := by
        rw [Node.unwrap_of_parens hparens, hn]
        rfl
      rw [chainOf_congr hunwrap] at hchain
      exact ⟨a, by simp [ha], haccess, hchain⟩

/-- Without parentheses between, an object is passed over. -/
theorem ObjectIn.isObjectOfAccess_iff (h : ObjectIn k n around) :
    isObjectOfAccess n around = true ↔ k = 0 := by
  cases h with
  | @access n a around ha hn =>
      simp [isObjectOfAccess, ha, hn, Node.same]
  | parens hparens hn h =>
      simp [isObjectOfAccess, hparens, Kind.isAccess]

/-- A chain leads to no place of a bag or of a facet. -/
def Chain.LeadsNowhere (c : Chain) : Prop :=
  (∀ b : Bag, filled? (b.placeOf? c) = none) ∧ ∀ f : Facet,
    filled? (f.placeOf? c) = none

/-- All facets are listed. -/
theorem Facet.mem_all (f : Facet) : f ∈ Facet.all := by
  cases f <;> decide

/-- A chain is no mention just when it leads nowhere. -/
theorem mentions_eq_nil_iff {c : Chain} {kind : UsageKind} {line : Nat} :
    stateMentions c kind line ++ dataMentions c kind line = [] ↔
      c.LeadsNowhere := by
  simp [stateMentions, dataMentions, Chain.LeadsNowhere, Bag.mem_all,
    Facet.mem_all]

/-- At an access only its own chain is mentioned. -/
theorem mentionsAt_of_isAccess {s : Source} {expand : Bool}
    (hn : n.kind.isAccess = true) :
    mentionsAt s expand n around = accessMentions s n around := by
  unfold Kind.isAccess at hn
  unfold mentionsAt
  split at hn
  · rename_i hkind
    rw [hkind]
  · rename_i hkind
    rw [hkind]
  · cases hn

/-- In parentheses an access mentions the places of its own chain. -/
theorem ObjectIn.accessMentions_eq {s : Source}
    (h : ObjectIn (k + 1) n around) :
    ∃ kind, accessMentions s n around
      = stateMentions (chainOf s.bytes n) kind (s.lineOf n)
        ++ dataMentions (chainOf s.bytes n) kind (s.lineOf n) := by
  have hpassed : isObjectOfAccess n around = false := by
    simp [← Bool.not_eq_true, h.isObjectOfAccess_iff]
  cases h with
  | @parens _ _ parens around hparens hinner h =>
      have htarget : usageTarget s.bytes n (parens :: around) =
          (n, parens :: around) := by
        simp [usageTarget, isCalled, hparens]
      unfold accessMentions
      rw [hpassed, htarget]
      exact ⟨_, rfl⟩

/-- **Objects are silent without parentheses.**  Let an access be the object of
an access around it, with `k` parentheses between the two.  It mentions nothing
just when there are none or its own chain leads nowhere, and the access around
it has a chain that goes on from its chain.  So each usage of a file comes from
a node that is not an access with its parent for an access to it. -/
theorem object_silent_iff (s : Source) (isLibrary expand : Bool) :
    (∀ k n around, n.kind.isAccess = true → ObjectIn k n around →
      (mentionsAt s expand n around = [] ↔
        k = 0 ∨ (chainOf s.bytes n).LeadsNowhere) ∧
      ∃ a ∈ around, a.kind.isAccess = true ∧
        chainOf s.bytes a = ⟨(chainOf s.bytes n).root,
        (chainOf s.bytes n).steps ++
          (filled? (propertyName? s.bytes a)).toList⟩) ∧
    ∀ m, (Usages.of s isLibrary expand).Records m ↔
      ∃ v ∈ entered (walkAll s.tree),
        ¬ (v.node.kind.isAccess = true ∧ ObjectIn 0 v.node v.enclosing) ∧
        m ∈ mentionsAt s expand v.node v.enclosing := by
  have hsilent : ∀ k n around, n.kind.isAccess = true → ObjectIn k n around →
      (mentionsAt s expand n around = [] ↔
          k = 0 ∨ (chainOf s.bytes n).LeadsNowhere) := by
    intro k n around hn h
    rw [mentionsAt_of_isAccess hn]
    cases k with
    | zero =>
        have hnil : accessMentions s n around = [] :=
          if_pos (h.isObjectOfAccess_iff.mpr rfl)
        simp [hnil]
    | succ k =>
        obtain ⟨kind, hmentions⟩ := h.accessMentions_eq
        rw [hmentions, mentions_eq_nil_iff]
        simp
  refine ⟨?_, ?_⟩
  · intro k n around hn h
    exact ⟨hsilent k n around hn h, h.exists_chain⟩
  · intro m
    rw [Usages.records_of_iff]
    apply exists_congr
    intro v
    apply and_congr_right
    intro hv
    constructor
    · intro hm
      refine ⟨?_, hm⟩
      intro hobject
      have hnil :=
        (hsilent 0 v.node v.enclosing hobject.1 hobject.2).mpr (.inl rfl)
      rw [hnil] at hm
      cases hm
    · intro h
      exact h.2

end Analysis

namespace Scene

open Analysis Syntax

/-- The access in parentheses is an object with one pair of parentheses around
it. -/
theorem objectIn_samples :
    ∃ source, Source.read wrappedFile wrappedText.toUTF8 = .ok source ∧
      ∃ v ∈ entered (walkAll source.tree), v.node.kind.isAccess = true ∧
        ObjectIn 1 v.node v.enclosing ∧
        mentionsAt source true v.node v.enclosing =
          [⟨.state .locals "a", .write, 1⟩] := by
  obtain ⟨source, hread, -, n, parens, access, around, hv, haccess, hobject,
    hparens, hinner, hkind, -, hmentions, -⟩ := wrapped_samples
  refine ⟨source, hread, _, hv, ?_,
    .parens hparens hinner (.access haccess hobject), hmentions⟩
  simp [hkind, Kind.isAccess]

/-- What that access mentions is a place that its own chain leads to. -/
theorem object_not_silent_samples :
    ∃ source, Source.read wrappedFile wrappedText.toUTF8 = .ok source ∧
      ∃ v ∈ entered (walkAll source.tree), v.node.kind.isAccess = true ∧
        ObjectIn 1 v.node v.enclosing ∧
          ¬ (chainOf source.bytes v.node).LeadsNowhere := by
  obtain ⟨source, hread, v, hv, haccess, hobject, hmentions⟩ := objectIn_samples
  obtain ⟨hsilent, -⟩ := object_silent_iff source false true
  obtain ⟨hiff, -⟩ := hsilent 1 v.node v.enclosing haccess hobject
  refine ⟨source, hread, v, hv, haccess, hobject, ?_⟩
  intro hnowhere
  rw [hiff.mpr (.inr hnowhere)] at hmentions
  cases hmentions

/-- **An object that is not silent.**  In `(res.locals.a).b=1` the access in
parentheses is the object of the other one, and the file writes both `a.b` and
`a`. -/
theorem exists_object_not_silent :
    (samples.own? wrappedFile).map
      (fun f => f.usages.localsWrites.map (·.property))
      = some ["a.b", "a"] ∧
    ∃ source, Source.read wrappedFile wrappedText.toUTF8 = .ok source ∧
      ∃ v ∈ entered (walkAll source.tree), v.node.kind.isAccess = true ∧
        (∃ k, ObjectIn k v.node v.enclosing) ∧
        mentionsAt source true v.node v.enclosing ≠ [] := by
  obtain ⟨-, hwrites, -⟩ := layout_samples
  obtain ⟨source, hread, v, hv, haccess, hobject, hmentions⟩ := objectIn_samples
  refine ⟨hwrites, source, hread, v, hv, haccess, ⟨1, hobject⟩, ?_⟩
  rw [hmentions]
  exact List.cons_ne_nil _ _

end Scene

end Relay
