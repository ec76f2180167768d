import Mathlib.Data.List.Pairwise
import Relay.Proofs.Walks

/-!
# Ranges tell where nodes are

In a tree whose ranges are in order (`Ranged`) the range of a node holds the
ranges of its children, and no byte belongs to two of them.  Then of two nodes
that share a byte one is in the tree of the other (`within_or_within`), and the
range of a node tells what is in its tree.  That holds of a child as it is
(`covers_child_iff`).  Further down a node may span no more than one of its own
children, and the child then covers its parent as well: `within_or_above` says
that nothing else is in the way.
-/

namespace Relay.Syntax.Node

/-- A node covers another one that lies between its ends. -/
theorem covers_iff {outer inner : Node} :
    outer.covers inner = true ↔ outer.start ≤ inner.start ∧
      inner.stop ≤ outer.stop := by
  simp [covers]

/-- A node is the root of a tree or below it. -/
def Within (n root : Node) : Prop :=
  ∃ around, n.Stands root around

section

variable {n m root : Node}

/-- A node is within itself. -/
theorem Within.refl (n : Node) : n.Within n :=
  ⟨[], .root⟩

/-- What is within a child is within its parent. -/
theorem Within.child {c : Node} (hc : c ∈ root.children) (h : n.Within c) :
    n.Within root := by
  obtain ⟨around, h⟩ := h
  exact ⟨_, .under hc h⟩

/-- A node within another one is that one or within a child of it. -/
theorem within_iff :
    n.Within root ↔ n = root ∨ ∃ c ∈ root.children, n.Within c := by
  constructor
  · intro h
    obtain ⟨around, h⟩ := h
    rcases stands_iff.mp h with ⟨hn, -⟩ | ⟨c, hc, inner, h, -⟩
    · exact .inl hn
    · exact .inr ⟨c, hc, inner, h⟩
  · intro h
    rcases h with rfl | ⟨c, hc, h⟩
    · exact .refl n
    · exact h.child hc

/-- What is below a node is smaller. -/
theorem Within.eq_or_size_lt (h : n.Within root) :
    n = root ∨ n.size < root.size := by
  obtain ⟨around, h⟩ := h
  induction h with
  | root => exact .inl rfl
  | @under parent child around hchild h ih =>
      have hle := size_le_sizeAll hchild
      have hparent := parent.size_eq
      rcases ih with rfl | ih
      · exact .inr (by omega)
      · exact .inr (by omega)

/-- Two nodes within one another are the same. -/
theorem Within.antisymm (h : n.Within m) (h' : m.Within n) : n = m := by
  rcases h.eq_or_size_lt with h | h
  · exact h
  · rcases h'.eq_or_size_lt with h' | h'
    · exact h'.symm
    · omega

mutual

/-- What is inside parentheses is in their tree. -/
theorem within_of_unwrap : (n : Node) → n.unwrap = some m → m.Within n
  | ⟨kind, role, start, stop, children⟩, h => by
    by_cases hkind : kind = .parenthesizedExpression
    · subst hkind
      obtain ⟨c, hc, hm⟩ :=
        within_of_unwrapFirst children (by simpa [unwrap] using h)
      exact hm.child hc
    · have hm : m = ⟨kind, role, start, stop, children⟩ := by
        unfold unwrap at h
        split at h
        · rename_i heq
          simp_all
        · simpa using h.symm
      rw [hm]
      exact .refl _

/-- What is inside the parentheses of the first of some nodes is within one of
them. -/
theorem within_of_unwrapFirst :
    (ns : List Node) → unwrapFirst ns = some m → ∃ c ∈ ns, m.Within c
  | [], h => by simp [unwrapFirst] at h
  | n :: rest, h => by
    simp only [unwrapFirst] at h
    split at h
    · exact ⟨n, by simp, within_of_unwrap n h⟩
    · obtain ⟨c, hc, hm⟩ := within_of_unwrapFirst rest h
      exact ⟨c, by simp [hc], hm⟩

end

/-- What is inside the parentheses of a child is within that child. -/
theorem exists_within_of_inner? {r : Role} (h : root.inner? r = some m) :
    ∃ c, root.child? r = some c ∧ m.Within c := by
  obtain ⟨c, hc, hm⟩ := Option.bind_eq_some_iff.mp h
  exact ⟨c, hc, within_of_unwrap c hm⟩

/-- The nodes that a node stands inside hold it in the trees of their
children. -/
theorem Stands.exists_child {around : List Node} (h : n.Stands root around)
    {a : Node} (ha : a ∈ around) :
    a.Within root ∧ ∃ c ∈ a.children, n.Within c := by
  induction h with
  | root => cases ha
  | @under parent child around hchild h ih =>
      rcases List.mem_append.mp ha with ha | ha
      · exact ⟨(ih ha).1.child hchild, (ih ha).2⟩
      · rw [List.mem_singleton.mp ha]
        exact ⟨.refl parent, child, hchild, around, h⟩

end

/-- No byte belongs to both of two nodes. -/
def Apart (a b : Node) : Prop :=
  min a.stop b.stop ≤ max a.start b.start

instance (a b : Node) : Decidable (a.Apart b) :=
  inferInstanceAs (Decidable (_ ≤ _))

instance : Std.Symm Apart where
  symm a b h := by
    unfold Apart at h ⊢
    omega

mutual

/-- The ranges of a tree are in order: each node's range holds those of its
children, and no byte belongs to two children. -/
def Ranged : Node → Prop
  | ⟨_, _, start, stop, children⟩ => RangedIn start stop children

/-- The ranges of some trees lie in a range, apart from each other, and are in
order. -/
def RangedIn (start stop : Nat) : List Node → Prop
  | [] => True
  | n :: rest =>
    (start ≤ n.start ∧ n.stop ≤ stop) ∧ (∀ m ∈ rest, n.Apart m) ∧ n.Ranged ∧
      RangedIn start stop rest

end

mutual

/-- Goes through a tree to see whether its ranges are in order. -/
def decideRanged : (n : Node) → Decidable n.Ranged
  | ⟨_, _, start, stop, children⟩ => decideRangedIn start stop children

/-- The same for trees side by side. -/
def decideRangedIn (start stop : Nat) :
    (ns : List Node) → Decidable (RangedIn start stop ns)
  | [] => .isTrue trivial
  | n :: rest =>
    haveI := decideRanged n
    haveI := decideRangedIn start stop rest
    inferInstanceAs (Decidable ((start ≤ n.start ∧ n.stop ≤ stop) ∧
      (∀ m ∈ rest, n.Apart m) ∧ n.Ranged ∧ RangedIn start stop rest))

end

instance (n : Node) : Decidable n.Ranged :=
  n.decideRanged

/-- Nodes are ranged between two ends just when they lie between them, apart
from one another, and are ranged themselves. -/
theorem rangedIn_iff {start stop : Nat} {ns : List Node} :
    RangedIn start stop ns ↔ (∀ n ∈ ns, start ≤ n.start ∧ n.stop ≤ stop) ∧
      ns.Pairwise Apart ∧ ∀ n ∈ ns, n.Ranged := by
  induction ns with
  | nil => simp [RangedIn]
  | cons n ns ih =>
      simp only [RangedIn, ih, List.pairwise_cons, List.forall_mem_cons]
      constructor
      · intro h
        exact ⟨⟨h.1, h.2.2.2.1⟩, ⟨h.2.1, h.2.2.2.2.1⟩, h.2.2.1, h.2.2.2.2.2⟩
      · intro h
        exact ⟨h.1.1, h.2.1.1, h.2.2.1, h.1.2, h.2.1.2, h.2.2.2⟩

section

variable {n m t root : Node}

/-- A ranged node covers its children. -/
theorem Ranged.covers (h : root.Ranged) (hn : n ∈ root.children) :
    root.covers n = true := by
  obtain ⟨kind, role, start, stop, children⟩ := root
  exact covers_iff.mpr ((rangedIn_iff.mp h).1 n hn)

/-- The children of a ranged node are ranged. -/
theorem Ranged.child (h : root.Ranged) (hn : n ∈ root.children) : n.Ranged := by
  obtain ⟨kind, role, start, stop, children⟩ := root
  exact (rangedIn_iff.mp h).2.2 n hn

/-- The children of a ranged node are apart. -/
theorem Ranged.pairwise (h : root.Ranged) : root.children.Pairwise Apart := by
  obtain ⟨kind, role, start, stop, children⟩ := root
  exact (rangedIn_iff.mp h).2.1

/-- Children that share a byte are one. -/
theorem Ranged.eq_of_shared (h : root.Ranged) (hn : n ∈ root.children)
    (hm : m ∈ root.children) {i : Nat} (hin : n.start ≤ i ∧ i < n.stop)
    (him : m.start ≤ i ∧ i < m.stop) : n = m := by
  by_contra hne
  have hapart : n.Apart m := h.pairwise.forall hn hm hne
  unfold Apart at hapart
  omega

/-- A node within a ranged one is ranged and lies between its ends. -/
theorem Ranged.within (h : root.Ranged) (hn : n.Within root) :
    n.Ranged ∧ root.start ≤ n.start ∧ n.stop ≤ root.stop := by
  obtain ⟨around, hn⟩ := hn
  induction hn with
  | root => exact ⟨h, Nat.le_refl _, Nat.le_refl _⟩
  | under hchild hn ih =>
      have hcovers := covers_iff.mp (h.covers hchild)
      obtain ⟨hranged, hstart, hstop⟩ := ih (h.child hchild)
      exact ⟨hranged, by omega, by omega⟩

/-- **Trees do not cross.**  Of two nodes that share a byte, one is in the tree
of the other. -/
theorem Ranged.within_or_within (h : root.Ranged) (hn : n.Within root)
    (hm : m.Within root) {i : Nat} (hin : n.start ≤ i ∧ i < n.stop)
    (him : m.start ≤ i ∧ i < m.stop) :
    n.Within m ∨ m.Within n := by
  obtain ⟨around, hn⟩ := hn
  -- Both go down into the same child for as long as neither has been reached.
  induction hn with
  | root => exact .inr hm
  | @under parent child around hchild hn ih =>
      rcases within_iff.mp hm with rfl | ⟨c, hc, hmc⟩
      · exact .inl ⟨_, .under hchild hn⟩
      · have hnchild := (h.child hchild).within ⟨_, hn⟩
        have hmchild := (h.child hc).within hmc
        have hsame : child = c :=
          h.eq_of_shared hchild hc (i := i) (by omega) (by omega)
        exact ih (h.child hchild) (hsame ▸ hmc)

/-- A child covers what is in its tree, and nothing else below its parent that
has a byte. -/
theorem Ranged.covers_child_iff (h : root.Ranged) {part : Node}
    (hpart : part ∈ root.children) (hn : ∃ c ∈ root.children, n.Within c)
    (hsome : n.start < n.stop) :
    part.covers n = true ↔ n.Within part := by
  rw [covers_iff]
  constructor
  · intro hcovers
    obtain ⟨c, hc, hnc⟩ := hn
    have hrange := (h.child hc).within hnc
    have hsame : c = part :=
      h.eq_of_shared hc hpart (i := n.start) (by omega) (by omega)
    exact hsame ▸ hnc
  · intro hwithin
    exact ((h.child hpart).within hwithin).2

/-- A node that is covered by a child of some node is in the child's tree, or
it has that node in its own tree and the child spans it all. -/
theorem Ranged.within_or_above (h : root.Ranged) (hm : m.Within root)
    {part : Node} (hpart : part ∈ m.children) (hn : n.Within root)
    (hsome : n.start < n.stop) (hcovers : part.covers n = true) :
    n.Within part ∨ m.Within n := by
  have hranged := (h.within hm).1
  have hcover := covers_iff.mp hcovers
  have hparent := covers_iff.mp (hranged.covers hpart)
  rcases h.within_or_within hn hm (i := n.start) (by omega) (by omega)
    with hnm | hmn
  · rcases within_iff.mp hnm with rfl | ⟨c, hc, hnc⟩
    · exact .inr (.refl n)
    · exact .inl ((hranged.covers_child_iff hpart ⟨c, hc, hnc⟩ hsome).mp
        hcovers)
  · exact .inr hmn

end

end Relay.Syntax.Node
