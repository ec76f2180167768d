import Relay.Proofs.Mentions

/-!
# Positions that write

Whether a node is written is read off the ranges of the nodes around it.  What
is meant is where the node is in the tree: on the left of an assignment, in an
increment, after `delete`, in the object of a method that changes it, or in the
first argument of `Object.assign` (`Writes`).

In a tree whose ranges are in order the two are the same.  The left side of an
assignment is a child of it, and a child covers just what is in its tree.  The
object of a method is further down, but the name of the method has bytes that
the object does not span, so the object covers neither the access nor the
parentheses around it.  Of an argument list the same is known once it has its
parenthesis.
-/

namespace Relay

/-- There is no text between an end and what comes before it. -/
theorem Text.textBetween_of_le (bytes : ByteArray) {start stop : Nat}
    (h : stop ≤ start) :
    textBetween bytes start stop = "" := by
  have hslice : slice bytes start stop = [] := by
    simp [slice, ByteArray.data_extract, h]
  rw [textBetween, hslice]
  rfl

namespace Syntax

section

variable {bytes : ByteArray} {n : Node} {s : String}

/-- A node with a text has bytes. -/
theorem Node.nonempty_of_text (h : n.text bytes ≠ "") : n.start < n.stop := by
  by_contra hle
  exact h (Text.textBetween_of_le bytes (by omega))

/-- A node with a name has bytes. -/
theorem nonempty_of_nameOf? (h : nameOf? bytes n = some s) (hs : s ≠ "")
    (hthis : s ≠ "this") :
    n.start < n.stop := by
  have htext : s = n.text bytes := by
    unfold nameOf? at h
    split at h
    case h_7 => cases h
    case h_6 => exact absurd (Option.some.inj h).symm hthis
    all_goals exact (Option.some.inj h).symm
  exact Node.nonempty_of_text (htext ▸ hs)

/-- A node with a value that is not empty has bytes. -/
theorem nonempty_of_stringValue? (h : stringValue? bytes n = some s)
    (hs : s ≠ "") :
    n.start < n.stop := by
  have hquoted : isQuoted "" = false := rfl
  have htext : n.text bytes ≠ "" := by
    intro htext
    unfold stringValue? at h
    rw [htext] at h
    split at h
    · simp only [hquoted] at h
      exact hs (by simpa using h.symm)
    · split at h
      · cases h
      · exact hs (by simpa using h.symm)
    · cases h
  exact Node.nonempty_of_text htext

/-- A step that is written out has bytes beside the object that it is taken
from. -/
theorem exists_step_beside {callee object : Node} {method : String}
    (hranged : callee.Ranged)
    (hmethod : propertyName? bytes callee = some method) (hne : method ≠ "")
    (hthis : method ≠ "this") (hobject : callee.child? .object = some object) :
    ∃ step ∈ callee.children, step ≠ object ∧ step.start < step.stop := by
  have hrole : ∀ {r : Role} {c : Node}, callee.child? r = some c →
      c.role = some r := by
    intro r c hc
    simpa using List.find?_some hc
  unfold propertyName? at hmethod
  split at hmethod
  · obtain ⟨step, hstep, hname⟩ := Option.bind_eq_some_iff.mp hmethod
    refine ⟨step, Node.child?_mem hstep, ?_,
      nonempty_of_nameOf? hname hne hthis⟩
    intro heq
    have := (hrole hstep).symm.trans (heq ▸ hrole hobject)
    simp at this
  · split at hmethod
    · rename_i index hindex
      obtain ⟨step, hstep, hwithin⟩ := Node.exists_within_of_inner? hindex
      have hsome : index.start < index.stop := by
        split at hmethod
        · rename_i value hvalue
          cases hmethod
          exact nonempty_of_stringValue? hvalue hne
        · split at hmethod
          · cases hmethod
            exact Node.nonempty_of_text hne
          · cases hmethod
      have hrange := (hranged.child (Node.child?_mem hstep)).within hwithin
      refine ⟨step, Node.child?_mem hstep, ?_, by omega⟩
      intro heq
      have := (hrole hstep).symm.trans (heq ▸ hrole hobject)
      simp at this
    · cases hmethod
  · cases hmethod

end

/-- An argument list has its opening parenthesis. -/
def Node.Opens (n : Node) : Prop :=
  ∃ c ∈ n.children, c.kind = .token "(" ∧ c.start < c.stop

instance (n : Node) : Decidable n.Opens :=
  inferInstanceAs (Decidable (∃ c ∈ n.children, c.kind = .token "(" ∧
    c.start < c.stop))

/-- The first argument of a call is a named node in its list of arguments. -/
theorem of_head?_callArguments {call first : Node}
    (h : (callArguments call).head? = some first) :
    ∃ list, call.child? .arguments = some list ∧ list.kind = .arguments ∧
      first ∈ list.children ∧ first.kind.isNamed = true := by
  have hmem : first ∈ callArguments call := List.mem_of_mem_head? h
  unfold callArguments at hmem
  split at hmem
  · rename_i list hlist
    split at hmem
    · rename_i hkind
      have hnamed := List.mem_filter.mp (List.mem_filter.mp hmem).1
      exact ⟨list, hlist, by simpa using hkind, hnamed.1, hnamed.2⟩
    · cases hmem
  · cases hmem

end Syntax

namespace Analysis

open Syntax

/-- How a node around another one writes it, by where the other one is in its
tree. -/
inductive Writes (bytes : ByteArray) (n around : Node) : WriteContext → Prop
  | assigned {left : Node}
      (hkind : around.kind = .assignmentExpression ∨
        around.kind = .augmentedAssignmentExpression)
      (hleft : around.child? .left = some left) (h : n.Within left) :
      Writes bytes n around .assignment
  | updated (hkind : around.kind = .updateExpression) :
      Writes bytes n around .assignment
  | deleted (hkind : around.kind = .unaryExpression)
      (hdelete : hasOperator around ["delete"] = true) :
        Writes bytes n around .deletion
  | mutated {callee object : Node} {method : String}
      (hkind : around.kind = .callExpression)
      (hcallee : around.inner? .function = some callee)
      (haccess : callee.kind.isAccess = true)
      (hmethod : propertyName? bytes callee = some method)
      (hmutates : method ∈ mutationMethods)
      (hobject : callee.child? .object = some object) (h : n.Within object) :
      Writes bytes n around .mutation
  | merged {first : Node} (hkind : around.kind = .callExpression)
      (hassign : isObjectAssign bytes around = true)
      (hfirst : (callArguments around).head? = some first)
      (h : n.Within first) :
      Writes bytes n around .merge

/-- The methods that change an object have a name that is spelled out. -/
theorem spelled_of_mem_mutationMethods :
    ∀ method ∈ mutationMethods, method ≠ "" ∧ method ≠ "this" := by
  decide

/-- An object is changed by a call of one of these methods on it. -/
theorem mutatedObject?_eq_some_iff {bytes : ByteArray} {call object : Node} :
    mutatedObject? bytes call = some object ↔ ∃ callee method,
      call.inner? .function = some callee ∧ callee.kind.isAccess = true ∧
      propertyName? bytes callee = some method ∧ method ∈ mutationMethods ∧
      callee.child? .object = some object := by
  unfold mutatedObject?
  cases hcallee : call.inner? .function with
  | none => simp
  | some callee =>
      cases hmethod : propertyName? bytes callee <;> simp [hmethod, and_assoc]

/-- A call of `Object.assign` names a method that changes nothing by itself. -/
theorem mutatedObject?_of_isObjectAssign {bytes : ByteArray} {call : Node}
    (h : isObjectAssign bytes call = true) :
    mutatedObject? bytes call = none := by
  unfold isObjectAssign at h
  unfold mutatedObject?
  cases hcallee : call.inner? .function with
  | none => rfl
  | some callee =>
      simp only [hcallee, Bool.and_eq_true, beq_iff_eq] at h
      have hunknown : "assign" ∉ mutationMethods := by decide
      simp [h.2, hunknown]

section

variable {bytes : ByteArray} {n a : Node}

/-- The object of a method that changes it covers just what is in its tree. -/
theorem covers_object_iff (ha : a.Ranged) (hn : ∃ c ∈ a.children, n.Within c)
    (hsome : n.start < n.stop) {object : Node}
    (hobject : mutatedObject? bytes a = some object) :
    object.covers n = true ↔ n.Within object := by
  obtain ⟨callee, method, hcallee, -, hmethod, hmutates, hobject⟩ :=
    mutatedObject?_eq_some_iff.mp hobject
  obtain ⟨callable, hcallable, hwithin⟩ := Node.exists_within_of_inner? hcallee
  obtain ⟨c, hc, hnc⟩ := hn
  have hcalleeWithin : callee.Within a :=
    hwithin.child (Node.child?_mem hcallable)
  have hranged : callee.Ranged := (ha.within hcalleeWithin).1
  have hmem : object ∈ callee.children := Node.child?_mem hobject
  constructor
  · intro hcovers
    rcases ha.within_or_above hcalleeWithin hmem (hnc.child hc) hsome hcovers
      with h | habove
    · exact h
    · -- The object would span the name of the method, too.
      have hne := spelled_of_mem_mutationMethods method hmutates
      obtain ⟨step, hstep, hother, hbytes⟩ :=
        exists_step_beside hranged hmethod hne.1 hne.2 hobject
      have hcover := Node.covers_iff.mp hcovers
      have hspan := ((ha.within (hnc.child hc)).1.within habove).2
      have hin := Node.covers_iff.mp (hranged.covers hstep)
      exact absurd (hranged.eq_of_shared hstep hmem (i := step.start) (by omega)
        (by omega))
        hother
  · intro h
    exact Node.covers_iff.mpr ((hranged.child hmem).within h).2

/-- The first argument of a call covers just what is in its tree. -/
theorem covers_first_iff (ha : a.Ranged) (hn : ∃ c ∈ a.children, n.Within c)
    (hsome : n.start < n.stop) (hlist : n.kind = .arguments → n.Opens)
    {first : Node} (hfirst : (callArguments a).head? = some first) :
    first.covers n = true ↔ n.Within first := by
  obtain ⟨list, hlistChild, hkind, hmem, hnamed⟩ :=
    of_head?_callArguments hfirst
  obtain ⟨c, hc, hnc⟩ := hn
  have hlistMem : list ∈ a.children := Node.child?_mem hlistChild
  have hranged : list.Ranged := ha.child hlistMem
  constructor
  · intro hcovers
    have hlistWithin : list.Within a := (Node.Within.refl list).child hlistMem
    rcases ha.within_or_above hlistWithin hmem (hnc.child hc) hsome hcovers
      with h | habove
    · exact h
    · have hcover := Node.covers_iff.mp hcovers
      have hin := Node.covers_iff.mp (hranged.covers hmem)
      have hrange := ((ha.child hc).within hnc).2
      have hsame : c = list :=
        ha.eq_of_shared hc hlistMem (i := n.start) (by omega) (by omega)
      have heq : n = list := (hsame ▸ hnc).antisymm habove
      obtain ⟨mark, hmark, hmarkKind, hbytes⟩ := hlist (heq ▸ hkind)
      have hmarkIn := Node.covers_iff.mp (hranged.covers (heq ▸ hmark))
      have hmarkFirst : mark = first :=
        hranged.eq_of_shared (heq ▸ hmark) hmem (i := mark.start) (by omega)
          (by rw [heq] at hcover; omega)
      rw [← hmarkFirst, hmarkKind] at hnamed
      exact absurd hnamed (by decide)
  · intro h
    exact Node.covers_iff.mpr ((hranged.child hmem).within h).2

/-- Where a part that may be missing covers just what is in its tree, the same
can be said of it as a whole. -/
theorem any_covers_iff {part : Option Node}
    (h : ∀ m, part = some m → (m.covers n = true ↔ n.Within m)) :
    part.any (·.covers n) = true ↔ ∃ m, part = some m ∧ n.Within m := by
  rw [Option.any_eq_true]
  apply exists_congr
  intro m
  apply and_congr_right
  exact h m

/-- **One node around.**  What the ranges say is what the tree says. -/
theorem writeFrom?_eq_some_iff (ha : a.Ranged)
    (hn : ∃ c ∈ a.children, n.Within c) (hsome : n.start < n.stop)
    (hlist : n.kind = .arguments → n.Opens) {w : WriteContext} :
    writeFrom? bytes n a = some w ↔ Writes bytes n a w := by
  have hassigned : (a.child? .left).any (·.covers n) = true ↔
      ∃ left, a.child? .left = some left ∧ n.Within left :=
    any_covers_iff fun _ hleft =>
      ha.covers_child_iff (Node.child?_mem hleft) hn hsome
  have hmutated : (mutatedObject? bytes a).any (·.covers n) = true ↔
      ∃ object, mutatedObject? bytes a = some object ∧ n.Within object :=
    any_covers_iff fun _ hobject => covers_object_iff ha hn hsome hobject
  have hmerged : (callArguments a).head?.any (·.covers n) = true ↔
      ∃ first, (callArguments a).head? = some first ∧ n.Within first :=
    any_covers_iff fun _ hfirst => covers_first_iff ha hn hsome hlist hfirst
  constructor
  · intro h
    unfold writeFrom? at h
    split at h
    case h_1 hkind =>
      rw [Option.ite_none_right_eq_some, hassigned] at h
      obtain ⟨⟨left, hleft, hwithin⟩, hw⟩ := h
      cases hw
      exact .assigned (.inl hkind) hleft hwithin
    case h_2 hkind =>
      rw [Option.ite_none_right_eq_some, hassigned] at h
      obtain ⟨⟨left, hleft, hwithin⟩, hw⟩ := h
      cases hw
      exact .assigned (.inr hkind) hleft hwithin
    case h_3 hkind =>
      cases h
      exact .updated hkind
    case h_4 hkind =>
      rw [Option.ite_none_right_eq_some] at h
      obtain ⟨hdelete, hw⟩ := h
      cases hw
      exact .deleted hkind hdelete
    case h_5 hkind =>
      split at h
      · rename_i hcovers
        cases h
        obtain ⟨object, hobject, hwithin⟩ := hmutated.mp hcovers
        obtain ⟨callee, method, hcallee, haccess, hmethod, hmutates, hobject⟩ :=
          mutatedObject?_eq_some_iff.mp hobject
        exact .mutated hkind hcallee haccess hmethod hmutates hobject hwithin
      · rw [Option.ite_none_right_eq_some, Bool.and_eq_true, hmerged] at h
        obtain ⟨⟨hassign, first, hfirst, hwithin⟩, hw⟩ := h
        cases hw
        exact .merged hkind hassign hfirst hwithin
    case h_6 => cases h
  · intro h
    unfold writeFrom?
    cases h with
    | assigned hkind hleft hwithin =>
        have hcovers := hassigned.mpr ⟨_, hleft, hwithin⟩
        rcases hkind with hkind | hkind
        · simp [hkind, hcovers]
        · simp [hkind, hcovers]
    | updated hkind => simp [hkind]
    | deleted hkind hdelete => simp [hkind, hdelete]
    | mutated hkind hcallee haccess hmethod hmutates hobject hwithin =>
        have hobject := mutatedObject?_eq_some_iff.mpr
          ⟨_, _, hcallee, haccess, hmethod, hmutates, hobject⟩
        have hcovers := hmutated.mpr ⟨_, hobject, hwithin⟩
        simp [hkind, hcovers]
    | merged hkind hassign hfirst hwithin =>
        have hnone := mutatedObject?_of_isObjectAssign hassign
        have hcovers := hmerged.mpr ⟨_, hfirst, hwithin⟩
        simp [hkind, hnone, hassign, hcovers]

/-- How a node writes at all is told by the node alone. -/
theorem Writes.eq_of_kind {w : WriteContext} (h : Writes bytes n a w) :
    w = if a.kind = .callExpression then
        if isObjectAssign bytes a = true then .merge else .mutation
      else if a.kind = .unaryExpression then .deletion else .assignment := by
  cases h with
  | assigned hkind hleft hwithin =>
      rcases hkind with hkind | hkind
      · simp [hkind]
      · simp [hkind]
  | updated hkind => simp [hkind]
  | deleted hkind hdelete => simp [hkind]
  | mutated hkind hcallee haccess hmethod hmutates hobject hwithin =>
      have hassign : ¬ isObjectAssign bytes a = true := by
        intro hassign
        have hsome := mutatedObject?_eq_some_iff.mpr
          ⟨_, _, hcallee, haccess, hmethod, hmutates, hobject⟩
        rw [mutatedObject?_of_isObjectAssign hassign] at hsome
        cases hsome
      rw [if_pos hkind, if_neg hassign]
  | merged hkind hassign hfirst hwithin => rw [if_pos hkind, if_pos hassign]

end

/-- **Written by position.**  Let the ranges of a tree be in order, and let a
walk come to a node that has a byte and that is no argument list without its
parenthesis.  Each node around it writes it in one way at most.  The node is
written just when some node around it writes it by where it is in the tree, and
the innermost such node says how. -/
theorem writeContext_by_position (bytes : ByteArray) {tree : Node}
    (htree : tree.Ranged) {v : Visit} (hv : v ∈ entered (walkAll tree))
    (hsome : v.node.start < v.node.stop)
    (hlist : v.node.kind = .arguments → v.node.Opens) :
    (∀ a w w', Writes bytes v.node a w → Writes bytes v.node a w' → w = w') ∧
    ((writeContext? bytes v.node v.enclosing).isSome = true ↔
      ∃ a ∈ v.enclosing, ∃ w, Writes bytes v.node a w) ∧
    ∀ w, writeContext? bytes v.node v.enclosing = some w ↔
      ∃ inner a outer, v.enclosing = inner ++ a :: outer ∧
        Writes bytes v.node a w ∧
        ∀ b ∈ inner, ∀ w', ¬ Writes bytes v.node b w' := by
  obtain ⟨-, hstands⟩ := mem_entered_walkAll.mp hv
  have hstep : ∀ a ∈ v.enclosing, ∀ w,
      writeFrom? bytes v.node a = some w ↔ Writes bytes v.node a w := by
    intro a ha w
    obtain ⟨hwithin, hn⟩ := hstands.exists_child ha
    exact writeFrom?_eq_some_iff (htree.within hwithin).1 hn hsome hlist
  refine ⟨fun a w w' h h' => h.eq_of_kind.trans h'.eq_of_kind.symm, ?_, ?_⟩
  · rw [writeContext?, List.findSome?_isSome_iff]
    apply exists_congr
    intro a
    apply and_congr_right
    intro ha
    rw [Option.isSome_iff_exists]
    exact exists_congr (hstep a ha)
  · intro w
    rw [writeContext?, List.findSome?_eq_some_iff]
    apply exists_congr
    intro inner
    apply exists_congr
    intro a
    apply exists_congr
    intro outer
    apply and_congr_right
    intro henclosing
    have ha : a ∈ v.enclosing := by simp [henclosing]
    apply and_congr (hstep a ha w)
    apply forall_congr'
    intro b
    apply imp_congr_right
    intro hb
    have hb : b ∈ v.enclosing := by simp [henclosing, hb]
    rw [Option.eq_none_iff_forall_ne_some]
    apply forall_congr'
    intro w'
    rw [ne_eq, hstep b hb w']

end Analysis

/-- An access in parentheses, two accesses deep on the left of an assignment,
is written by the assignment. -/
theorem Scene.writeContext_samples :
    ∃ source, Source.read wrappedFile wrappedText.toUTF8 = .ok source ∧
      source.tree.Ranged ∧
      ∃ v ∈ Syntax.entered (Syntax.walkAll source.tree),
        v.node.kind = .memberExpression ∧ v.node.start < v.node.stop ∧
        ∃ inner a outer, v.enclosing = inner ++ a :: outer ∧
          Analysis.Writes source.bytes v.node a .assignment ∧
          ∀ b ∈ inner, ∀ w, ¬ Analysis.Writes source.bytes v.node b w := by
  obtain ⟨source, hread, hranged, n, parens, access, around, hv, -, -, -, -,
    hkind, hsome, -, hwritten⟩ := wrapped_samples
  have hlist : n.kind = .arguments → n.Opens := by
    intro hlist
    rw [hkind] at hlist
    cases hlist
  obtain ⟨-, -, hhow⟩ :=
    Analysis.writeContext_by_position source.bytes hranged hv hsome hlist
  exact ⟨source, hread, hranged, _, hv, hkind, hsome,
    (hhow .assignment).mp hwritten⟩

end Relay
