import Relay.Syntax.Shape

/-!
# Parts are smaller

The parts of a node that an analysis goes on with (a child, the expression
inside its parentheses) are smaller than the node itself, which is why every
analysis of a tree ends.
-/

namespace Relay.Syntax.Node

/-- The size of a node is one more than that of its children. -/
theorem size_eq (n : Node) : n.size = 1 + sizeAll n.children := by
  cases n
  simp [size]

/-- No node has size zero. -/
theorem size_pos (n : Node) : 0 < n.size := by
  rw [n.size_eq]
  omega

/-- A node is no larger than the nodes that it is among. -/
theorem size_le_sizeAll {n : Node} {ns : List Node} (h : n ∈ ns) :
    n.size ≤ sizeAll ns := by
  induction ns with
  | nil => cases h
  | cons m ns ih =>
    rcases List.mem_cons.1 h with rfl | h
    · simp [sizeAll]
    · simp [sizeAll]
      have := ih h
      omega

/-- A child in a role is a child. -/
theorem child?_mem {n c : Node} {r : Role} (h : n.child? r = some c) :
    c ∈ n.children :=
  List.mem_of_find?_eq_some h

mutual

/-- What is inside parentheses is no larger. -/
theorem size_unwrap_le {m : Node} :
    (n : Node) → n.unwrap = some m → m.size ≤ n.size
  | ⟨kind, role, a, b, children⟩, h => by
    by_cases hk : kind = .parenthesizedExpression
    · subst hk
      have := size_unwrapFirst_le children (by simpa [unwrap] using h)
      simp [size]
      omega
    · have : m = ⟨kind, role, a, b, children⟩ := by
        unfold unwrap at h
        split at h
        · rename_i heq
          simp_all
        · simpa using h.symm
      simp [this]

/-- What is inside the first of some nodes is no larger than all of them. -/
theorem size_unwrapFirst_le {m : Node} :
    (ns : List Node) → unwrapFirst ns = some m → m.size ≤ sizeAll ns
  | [], h => by simp [unwrapFirst] at h
  | n :: rest, h => by
    simp only [unwrapFirst] at h
    split at h
    · have := size_unwrap_le n h
      simp [sizeAll]
      omega
    · have := size_unwrapFirst_le rest h
      simp [sizeAll]
      omega

end

/-- The sizes of two lists add up. -/
theorem sizeAll_append (s t : List Node) :
    sizeAll (s ++ t) = sizeAll s + sizeAll t := by
  induction s with
  | nil => simp [sizeAll]
  | cons n s ih => simp [sizeAll, ih]; omega

/-- Two children in different roles are different nodes, so together they are
smaller than their parent. -/
theorem sizeAll_two_children {n : Node} {r₁ r₂ : Role} (hr : r₁ ≠ r₂) :
    sizeAll ((n.child? r₁).toList ++ (n.child? r₂).toList) < n.size := by
  rw [n.size_eq, sizeAll_append]
  suffices h : ∀ ns : List Node,
      sizeAll (ns.find? fun c => c.role == some r₁).toList
        + sizeAll (ns.find? fun c => c.role == some r₂).toList ≤ sizeAll ns by
    have := h n.children
    simp only [child?]
    omega
  intro ns
  induction ns with
  | nil => simp [sizeAll]
  | cons c ns ih =>
    simp only [List.find?_cons]
    cases h₁ : c.role == some r₁ <;> cases h₂ : c.role == some r₂
    · simp [sizeAll] at ih ⊢
      omega
    · simp [sizeAll] at ih ⊢
      omega
    · simp [sizeAll] at ih ⊢
      omega
    · have e₁ := eq_of_beq h₁
      have e₂ := eq_of_beq h₂
      exact absurd (Option.some.inj (e₁.symm.trans e₂)) hr

/-- A child is smaller than its parent. -/
theorem size_child?_lt {n c : Node} {r : Role} (h : n.child? r = some c) :
    c.size < n.size := by
  have := size_le_sizeAll (child?_mem h)
  have := n.size_eq
  omega

/-- A child without its parentheses is smaller than its parent. -/
theorem size_inner?_lt {n m : Node} {r : Role} (h : n.inner? r = some m) :
    m.size < n.size := by
  obtain ⟨c, hc, hm⟩ := Option.bind_eq_some_iff.1 h
  have := size_child?_lt hc
  have := size_unwrap_le c hm
  omega

end Relay.Syntax.Node
