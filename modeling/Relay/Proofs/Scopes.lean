import Mathlib.Data.List.Infix
import Relay.Analysis.Values
import Relay.Proofs.Walks

/-!
# Where the values of a name come from

A name takes its values from the innermost scope around it whose declarations
give any.  A scope is searched by a walk of its own, which passes over the
functions inside it.  Seen from the whole tree, the walk finds just those
declarations whose innermost scope is the one that is searched
(`declaratorsIn_eq`, `declarations_nodeAt?`).  So a value never comes from a
function that the name does not stand in (`resolveVariable_local`).

Two nodes of a tree can be equal.  What stands where is therefore said by
*positions*, the ways that lead from the root to the nodes.
-/

namespace Relay

/-- Of several blocks of a list, all but one of which are empty, that one is
left. -/
theorem flatMap_eq_of_alone {α β : Type} {block : α → List β} {items : List α}
    {i : Nat} {a : α} (h : items[i]? = some a)
    (hother : ∀ j b, items[j]? = some b → j ≠ i → block b = []) :
    items.flatMap block = block a := by
  induction items generalizing i with
  | nil => cases h
  | cons b items ih =>
      rw [List.flatMap_cons]
      cases i with
      | zero =>
          cases h
          have hrest : items.flatMap block = [] := by
            rw [List.flatMap_eq_nil_iff]
            intro c hc
            obtain ⟨j, hj⟩ := List.mem_iff_getElem?.mp hc
            exact hother (j + 1) c hj (by omega)
          rw [hrest, List.append_nil]
      | succ i =>
          rw [hother 0 b rfl (by omega), List.nil_append]
          apply ih h
          intro j c hc hne
          exact hother (j + 1) c hc (by omega)

namespace Syntax

/-- A way from the root of a tree to a node: which child to go to at
each step. -/
abbrev Position := List Nat

/-- The positions on the way to a position, the innermost first. -/
def Position.around : Position → List Position
  | [] => []
  | step :: rest => (around rest).map (step :: ·) ++ [[]]

namespace Position

/-- The positions around another one are those on the way to it. -/
theorem mem_around_iff {p q : Position} : q ∈ p.around ↔ q <+: p ∧ q ≠ p := by
  induction p generalizing q with
  | nil =>
      rw [around, List.prefix_nil]
      simp
  | cons step rest ih =>
      rw [around, List.mem_append, List.mem_map, List.mem_singleton]
      cases q with
      | nil => simp
      | cons first q =>
          simp only [ih, List.cons.injEq, reduceCtorEq, or_false,
            List.cons_prefix_cons, ne_eq]
          constructor
          · intro h
            obtain ⟨q', ⟨hstart, hne⟩, rfl, rfl⟩ := h
            exact ⟨⟨rfl, hstart⟩, fun h => hne h.2⟩
          · intro h
            obtain ⟨⟨rfl, hstart⟩, hne⟩ := h
            exact ⟨q, ⟨hstart, fun h => hne ⟨rfl, h⟩⟩, rfl, rfl⟩

/-- Of the positions around a position, each lies inside those that come after
it. -/
theorem pairwise_around (p : Position) :
    p.around.Pairwise fun a b => b ∈ Position.around a := by
  induction p with
  | nil => exact .nil
  | cons step rest ih =>
      rw [around, List.pairwise_append, List.pairwise_map]
      refine ⟨ih.imp ?_, List.pairwise_singleton _ _, ?_⟩
      · intro a b hb
        obtain ⟨hstart, hne⟩ := mem_around_iff.mp hb
        apply mem_around_iff.mpr
        exact ⟨List.cons_prefix_cons.mpr ⟨rfl, hstart⟩,
          fun h => hne (List.cons.inj h).2⟩
      · intro a ha b hb
        obtain ⟨a', -, rfl⟩ := List.mem_map.mp ha
        obtain rfl := List.mem_singleton.mp hb
        exact mem_around_iff.mpr ⟨List.nil_prefix, by simp⟩

/-- What is around a position around another one is around that one. -/
theorem around_trans {p q r : Position} (h : r ∈ q.around) (h' : q ∈ p.around) :
    r ∈ p.around := by
  obtain ⟨hstart, hne⟩ := mem_around_iff.mp h
  obtain ⟨hstart', hne'⟩ := mem_around_iff.mp h'
  apply mem_around_iff.mpr
  refine ⟨hstart.trans hstart', ?_⟩
  rintro rfl
  exact hne (hstart.eq_of_length_le hstart'.length_le)

end Position

namespace Node

/-- The node at a position. -/
def nodeAt? (root : Node) : Position → Option Node
  | [] => some root
  | step :: rest => (root.children[step]?).bind (nodeAt? · rest)

/-- The nodes around a position, the innermost first. -/
def above (root : Node) (p : Position) : List Node :=
  p.around.filterMap root.nodeAt?

/-- A scope stands at a position. -/
def scopeAt (root : Node) (p : Position) : Bool :=
  (root.nodeAt? p).any (·.kind.isScope)

/-- The positions of the scopes around a position, the innermost first. -/
def scopesAround (root : Node) (p : Position) : List Position :=
  p.around.filter root.scopeAt

/-- The position of the innermost scope around a position. -/
def home? (root : Node) (p : Position) : Option Position :=
  p.around.find? root.scopeAt

mutual

/-- The positions of all nodes of a tree, in the order of a walk. -/
def positions : Node → List Position
  | ⟨_, _, _, _, children⟩ => [] :: positionsFrom 0 children

/-- The positions of all nodes of some trees that are children from a number
on. -/
def positionsFrom (first : Nat) : List Node → List Position
  | [] => []
  | n :: rest => n.positions.map (first :: ·) ++ positionsFrom (first + 1) rest

end

variable {root c n : Node} {step : Nat} {p : Position}

/-- The positions of a tree are the root and those below its children. -/
theorem positions_eq (n : Node) :
    n.positions = [] :: positionsFrom 0 n.children := by
  cases n
  rw [positions]

section Child

variable (hc : root.children[step]? = some c)

include hc

/-- The node at a position below a child is the one that the child has there.
-/
theorem nodeAt?_child : root.nodeAt? (step :: p) = c.nodeAt? p := by
  rw [nodeAt?, hc, Option.bind_some]

/-- A position below a child is a scope just when it is one in the child. -/
theorem scopeAt_child : root.scopeAt (step :: p) = c.scopeAt p := by
  rw [scopeAt, nodeAt?_child hc, scopeAt]

/-- Above a position below a child is what is above it in the child, and then
the root. -/
theorem above_child : root.above (step :: p) = c.above p ++ [root] := by
  have hinner : root.nodeAt? ∘ (step :: ·) = c.nodeAt? :=
    funext fun q => nodeAt?_child hc
  rw [above, Position.around, List.filterMap_append, List.filterMap_map, hinner]
  rfl

/-- The home of a position below a child is the one in the child, or else the
root. -/
theorem home?_child : root.home? (step :: p)
    = ((c.home? p).map (step :: ·)).or
      (if root.kind.isScope then some [] else none) := by
  have hinner : root.scopeAt ∘ (step :: ·) = c.scopeAt :=
    funext fun q => scopeAt_child hc
  have htop : root.scopeAt [] = root.kind.isScope := rfl
  rw [home?, Position.around, List.find?_append, List.find?_map, hinner,
    List.find?_singleton, htop, home?]

end Child

/-- The nodes around a position are those that the node there stands inside. -/
theorem stands_above (h : root.nodeAt? p = some n) :
    n.Stands root (root.above p) := by
  induction p generalizing root with
  | nil =>
      cases h
      exact .root
  | cons step rest ih =>
      rw [nodeAt?, Option.bind_eq_some_iff] at h
      obtain ⟨c, hc, h⟩ := h
      rw [above_child hc]
      exact .under (List.mem_of_getElem? hc) (ih h)

/-- Each scope around a position is around those before it. -/
theorem pairwise_scopesAround (root : Node) (p : Position) :
    (root.scopesAround p).Pairwise fun a b => b ∈ Position.around a :=
  p.pairwise_around.filter _

/-- The scopes around a position are the innermost one and those around it. -/
theorem mem_scopesAround_of_home? {q scope outer : Position}
    (hhome : root.home? q = some scope) (houter : outer ∈ root.scopesAround q) :
    outer = scope ∨ outer ∈ scope.around := by
  rw [home?, ← List.head?_filter, List.head?_eq_some_iff] at hhome
  obtain ⟨rest, hrest⟩ := hhome
  have hpairs := root.pairwise_scopesAround q
  rw [scopesAround, hrest] at hpairs houter
  rcases List.mem_cons.mp houter with rfl | hrest
  · exact .inl rfl
  · exact .inr ((List.pairwise_cons.mp hpairs).1 outer hrest)

/-- A position below some nodes is one in the node that its first step leads
to. -/
theorem mem_positionsFrom {first : Nat} {ns : List Node} :
    p ∈ positionsFrom first ns ↔
    ∃ i q c, p = (first + i) :: q ∧ ns[i]? = some c ∧ q ∈ c.positions := by
  induction ns generalizing first with
  | nil => simp [positionsFrom]
  | cons n ns ih =>
      rw [positionsFrom, List.mem_append, List.mem_map, ih]
      constructor
      · intro h
        rcases h with ⟨q, hq, rfl⟩ | ⟨i, q, c, rfl, hc, hq⟩
        · exact ⟨0, q, n, rfl, rfl, hq⟩
        · exact ⟨i + 1, q, c, by rw [Nat.add_right_comm, Nat.add_assoc], hc, hq⟩
      · intro h
        obtain ⟨i, q, c, rfl, hc, hq⟩ := h
        cases i with
        | zero =>
            cases hc
            exact .inl ⟨q, hq, rfl⟩
        | succ i =>
            exact .inr ⟨i, q, c, by rw [Nat.add_right_comm, Nat.add_assoc], hc,
              hq⟩

/-- The positions of a tree are those at which there is a node. -/
theorem mem_positions : p ∈ root.positions ↔ (root.nodeAt? p).isSome := by
  induction p generalizing root with
  | nil => simp [positions_eq, nodeAt?]
  | cons step rest ih =>
      rw [positions_eq, List.mem_cons, mem_positionsFrom]
      constructor
      · intro h
        rcases h with h | ⟨i, q, c, h, hc, hq⟩
        · cases h
        · rw [Nat.zero_add] at h
          cases h
          rw [nodeAt?_child hc]
          exact ih.mp hq
      · intro h
        obtain ⟨n, hn⟩ := Option.isSome_iff_exists.mp h
        rw [nodeAt?, Option.bind_eq_some_iff] at hn
        obtain ⟨c, hc, hn⟩ := hn
        have hrest : rest ∈ c.positions :=
          ih.mpr (Option.isSome_iff_exists.mpr ⟨n, hn⟩)
        exact .inr ⟨step, rest, c, by rw [Nat.zero_add], hc, hrest⟩

/-- What is read off the positions of some trees is read off one tree after the
other. -/
theorem filterMap_positionsFrom {α : Type} (read : Position → Option α)
    (first : Nat) (ns : List Node) : (positionsFrom first ns).filterMap read
      = (ns.zipIdx first).flatMap fun (n, i) => n.positions.filterMap fun p =>
        read (i :: p) := by
  induction ns generalizing first with
  | nil => rfl
  | cons n ns ih =>
      rw [positionsFrom, List.filterMap_append, List.filterMap_map, ih,
        List.zipIdx_cons, List.flatMap_cons]
      rfl

/-- The program is nowhere but at the top of a tree. -/
def ProgramAtTop (root : Node) : Prop :=
  ∀ p ∈ root.positions, (root.nodeAt? p).any (·.kind == .program) = true →
    p = []

instance (root : Node) : Decidable root.ProgramAtTop :=
  inferInstanceAs (Decidable (∀ p ∈ root.positions, _))

/-- No program stands in a tree. -/
def ProgramFree (n : Node) : Prop :=
  ∀ p m, n.nodeAt? p = some m → m.kind ≠ .program

/-- Below a node without a program there is none. -/
theorem ProgramFree.child (h : n.ProgramFree) :
    ∀ c ∈ n.children, c.ProgramFree := by
  intro c hc p m hm
  obtain ⟨step, hstep⟩ := List.mem_iff_getElem?.mp hc
  apply h (step :: p) m
  rw [nodeAt?_child hstep]
  exact hm

/-- Below a position that is not the top, there is no program. -/
theorem ProgramAtTop.free_child (h : root.ProgramAtTop) :
    ∀ c ∈ root.children, c.ProgramFree := by
  intro c hc p m hm hkind
  obtain ⟨step, hstep⟩ := List.mem_iff_getElem?.mp hc
  have hnode : root.nodeAt? (step :: p) = some m := by
    rw [nodeAt?_child hstep, hm]
  have hsome : (root.nodeAt? (step :: p)).isSome := by
    rw [hnode]
    rfl
  have htop := h (step :: p) (mem_positions.mpr hsome) (by simp [hnode, hkind])
  cases htop

/-- A program is the root only, so there is none below any child. -/
theorem ProgramAtTop.free_children (h : root.ProgramAtTop)
    (hn : root.nodeAt? p = some n) :
    ∀ c ∈ n.children, c.ProgramFree := by
  induction p generalizing root with
  | nil =>
      cases hn
      exact h.free_child
  | cons step rest ih =>
      rw [nodeAt?, Option.bind_eq_some_iff] at hn
      obtain ⟨c, hc, hn⟩ := hn
      have hfree := h.free_child c (List.mem_of_getElem? hc)
      apply ih _ hn
      intro q _ hq
      obtain ⟨m, hm, hkind⟩ := Option.any_eq_true _ _ |>.mp hq
      exact absurd (by simpa using hkind) (hfree q m hm)

end Node

end Syntax

namespace Analysis

open Syntax

/-- A node declares a variable. -/
def Declares (bytes : ByteArray) (name : String) (n : Node) : Prop :=
  n.kind = .variableDeclarator ∧
    (n.child? .name).bind (nameOf? bytes) = some name

instance (bytes : ByteArray) (name : String) (n : Node) :
    Decidable (Declares bytes name n) :=
  inferInstanceAs (Decidable (_ ∧ _))

section Declarations

variable (bytes : ByteArray) (name : String)

/-- The declarations of a variable in a tree, in source order, whose innermost
scope stands at a position, or around which there is no scope. -/
def declarations (root : Node) (home : Option Position) : List Node :=
  root.positions.filterMap fun p =>
    if root.home? p = home then (root.nodeAt? p).filter (Declares bytes name ·)
    else none

/-- The strings that the declarations of a variable give whose innermost scope
stands at a position, each once, in source order. -/
def valuesFrom (root : Node) (scope : Position) : List String :=
  ((declarations bytes name root (some scope)).flatMap
    (valuesIn bytes · .value)).eraseDups

variable {bytes name} {root c n : Node} {home : Option Position} {p : Position}

/-- A declaration is no scope. -/
theorem Declares.not_isScope (h : Declares bytes name n) :
    n.kind.isScope = false := by
  rw [h.1]
  rfl

/-- The declarations of a tree are its root, if that is one, and those of its
children. -/
theorem declarations_eq (root : Node) (home : Option Position) :
    declarations bytes name root home
    = (if home = none then (some root).filter (Declares bytes name ·)
      else none).toList
      ++ root.children.zipIdx.flatMap fun (c, step) =>
        c.positions.filterMap fun p =>
        if root.home? (step :: p) = home then (c.nodeAt? p).filter
          (Declares bytes name ·)
        else none := by
  have hbelow : ∀ x ∈ root.children.zipIdx, ∀ p,
      root.nodeAt? (x.2 :: p) = x.1.nodeAt? p := by
    intro x hx p
    exact Node.nodeAt?_child (List.mk_mem_zipIdx_iff_getElem?.mp hx)
  have htop : root.home? [] = none := rfl
  rw [declarations, Node.positions_eq, ← List.singleton_append,
    List.filterMap_append, Node.filterMap_positionsFrom]
  congr 1
  · cases home with
    | none => cases h : (some root).filter (Declares bytes name ·) <;>
        simp [htop, Node.nodeAt?, h]
    | some scope => simp [htop]
  · refine List.flatMap_congr fun x hx => ?_
    simp only [hbelow x hx]

/-- Around a node that is no scope, nothing is gained for what is below it. -/
theorem declarations_none (h : n.kind.isScope = false) :
    declarations bytes name n none
    = ((some n).filter (Declares bytes name ·)).toList
      ++ n.children.flatMap (declarations bytes name · none) := by
  have hbelow : ∀ x ∈ n.children.zipIdx, ∀ p, n.home? (x.2 :: p) = none ↔
      x.1.home? p = none := by
    intro x hx p
    rw [Node.home?_child (List.mk_mem_zipIdx_iff_getElem?.mp hx), h]
    simp
  rw [declarations_eq, if_pos rfl]
  congr 1
  have hchildren : n.children = n.children.zipIdx.map Prod.fst := by simp
  conv_rhs => rw [hchildren, List.flatMap_map]
  refine List.flatMap_congr fun x hx => ?_
  simp only [hbelow x hx, declarations]

/-- Whatever stands in a scope has a scope around it. -/
theorem declarations_none_of_isScope (h : n.kind.isScope = true) :
    declarations bytes name n none = [] := by
  rw [declarations, List.filterMap_eq_nil_iff]
  intro p _
  cases p with
  | nil =>
      have hnot : ¬ Declares bytes name n := by
        intro hdeclares
        rw [hdeclares.not_isScope] at h
        cases h
      simp [Node.nodeAt?, hnot]
  | cons step rest =>
      have hsome : n.home? (step :: rest) ≠ none := by
        intro hnone
        have hnot := List.find?_eq_none.mp hnone [] (by simp [Position.around])
        exact hnot (by simpa [Node.scopeAt, Node.nodeAt?] using h)
      rw [if_neg hsome]

/-- The declarations at home in a scope are those of its children without a
scope around them. -/
theorem declarations_here (h : n.kind.isScope = true) :
    declarations bytes name n (some [])
    = n.children.flatMap (declarations bytes name · none) := by
  have hbelow : ∀ x ∈ n.children.zipIdx, ∀ p,
      n.home? (x.2 :: p) = some [] ↔ x.1.home? p = none := by
    intro x hx p
    rw [Node.home?_child (List.mk_mem_zipIdx_iff_getElem?.mp hx), h]
    cases x.1.home? p <;> simp
  have hchildren : n.children = n.children.zipIdx.map Prod.fst := by simp
  rw [declarations_eq]
  conv_rhs => rw [hchildren, List.flatMap_map]
  refine List.flatMap_congr fun x hx => ?_
  simp only [hbelow x hx, declarations]

/-- The declarations at home in a scope further down are those of the child
that it is in. -/
theorem declarations_child {step : Nat} {scope : Position}
    (hc : root.children[step]? = some c) :
    declarations bytes name root (some (step :: scope))
      = declarations bytes name c (some scope) := by
  have hbelow : ∀ x ∈ root.children.zipIdx, ∀ p,
    root.home? (x.2 :: p) = some (step :: scope) ↔
      x.2 = step ∧ x.1.home? p = some scope := by
    intro x hx p
    rw [Node.home?_child (List.mk_mem_zipIdx_iff_getElem?.mp hx)]
    cases x.1.home? p with
    | none => cases root.kind.isScope <;> simp
    | some q => simp
  have halone : root.children.zipIdx[step]? = some (c, step) := by
    rw [List.getElem?_zipIdx, hc]
    simp
  rw [declarations_eq, flatMap_eq_of_alone halone]
  · have hmem := List.mem_of_getElem? halone
    simp [hbelow _ hmem, declarations]
  · intro j x hx hne
    have hmem := List.mem_of_getElem? hx
    have hindex : x.2 = j := by
      rw [List.getElem?_zipIdx, Option.map_eq_some_iff] at hx
      obtain ⟨a, -, rfl⟩ := hx
      simp
    have hnot : x.2 ≠ step := by omega
    simp only [hbelow _ hmem, hnot]
    simp

/-- **A scope keeps its declarations.**  Seen from the whole tree, what is at
home in a scope is what is at home in it by itself. -/
theorem declarations_nodeAt? (h : root.nodeAt? p = some n) :
    declarations bytes name root (some p) = declarations bytes name n
      (some []) := by
  induction p generalizing root with
  | nil =>
      cases h
      rfl
  | cons step rest ih =>
      rw [Node.nodeAt?, Option.bind_eq_some_iff] at h
      obtain ⟨c, hc, h⟩ := h
      rw [declarations_child hc, ih h]

/-- A declaration of a scope is a node at a position that has this scope for
its home. -/
theorem exists_of_mem_declarations (h : n ∈ declarations bytes name root home) :
    ∃ p, root.nodeAt? p = some n ∧ root.home? p = home ∧
      Declares bytes name n := by
  obtain ⟨p, -, hp⟩ := List.mem_filterMap.mp h
  split at hp
  · rename_i hhome
    obtain ⟨hnode, hdeclares⟩ := Option.filter_eq_some_iff.mp hp
    exact ⟨p, hnode, hhome, of_decide_eq_true hdeclares⟩
  · cases hp

/-- The declaration that a moment of a walk comes to. -/
def declarationAt? (bytes : ByteArray) (name : String) (v : Visit) :
    Option Node :=
  (some v.node).filter (Declares bytes name ·)

/-- The declarations among the nodes that some moments of a walk enter. -/
def declarationsIn (bytes : ByteArray) (name : String) (visits : List Visit) :
    List Node :=
  (entered visits).filterMap (declarationAt? bytes name)

/-- The declarations of two parts of a walk are found one after the other. -/
theorem declarationsIn_append (xs ys : List Visit) :
    declarationsIn bytes name (xs ++ ys)
    = declarationsIn bytes name xs ++ declarationsIn bytes name ys := by
  rw [declarationsIn, entered, List.filter_append, List.filterMap_append]
  rfl

/-- A node is found as it is entered if it is a declaration. -/
theorem declarationsIn_enter (n : Node) (around : List Node)
    (rest : List Visit) :
    declarationsIn bytes name (⟨.enter, n, around⟩ :: rest)
      = ((some n).filter (Declares bytes name ·)).toList ++
        declarationsIn bytes name rest := by
  rw [← List.singleton_append, declarationsIn_append]
  congr 1

theorem declarationsIn_leave (n : Node) (around : List Node) :
    declarationsIn bytes name [⟨.leave, n, around⟩] = [] := rfl

mutual

/-- In a tree without a program, a walk that passes over functions comes to the
declarations without a scope around them. -/
theorem declarationsIn_visitsOf (around : List Node) :
    (n : Node) → n.ProgramFree →
    declarationsIn bytes name (visitsOf (fun n _ => n.kind.isFunction) around n)
      = declarations bytes name n none
  | ⟨kind, role, start, stop, children⟩, hfree => by
    have hprogram : kind ≠ .program := hfree [] _ rfl
    have hbelow :=
      declarationsIn_visitsBelow (⟨kind, role, start, stop, children⟩ :: around)
      children hfree.child
    by_cases hskip : kind.isFunction = true
    · rw [visitsOf_of_skip hskip, declarations_none_of_isScope]
      · rfl
      · simp [Kind.isScope, hskip]
    · have hskip : kind.isFunction = false := by simpa using hskip
      rw [visitsOf_of_not_skip hskip, declarationsIn_enter,
        declarationsIn_append, hbelow, declarationsIn_leave, List.append_nil,
        declarations_none]
      simp [Kind.isScope, hskip, hprogram]

/-- The same for trees that stand side by side. -/
theorem declarationsIn_visitsBelow (around : List Node) : (ns : List Node) →
    (∀ n ∈ ns, n.ProgramFree) →
    declarationsIn bytes name
      (visitsBelow (fun n _ => n.kind.isFunction) around ns)
      = ns.flatMap (declarations bytes name · none)
  | [], _ => rfl
  | n :: ns, hfree => by
    rw [List.forall_mem_cons] at hfree
    rw [visitsBelow, declarationsIn_append,
      declarationsIn_visitsOf around n hfree.1,
      declarationsIn_visitsBelow around ns hfree.2, List.flatMap_cons]

end

/-- **What the walk of a scope finds** is what is at home in it. -/
theorem declaratorsIn_eq (hscope : n.kind.isScope = true)
    (hfree : ∀ c ∈ n.children, c.ProgramFree) :
    declaratorsIn bytes name n = declarations bytes name n (some []) := by
  have hwalk : declaratorsIn bytes name n
      = declarationsIn bytes name (walk (fun n _ => n.kind.isFunction) n) := by
    refine List.filterMap_congr fun v _ => ?_
    by_cases h : Declares bytes name v.node
    · have hv : declarationAt? bytes name v = some v.node := by
        simp [declarationAt?, h]
      rw [hv]
      exact if_pos h
    · have hv : declarationAt? bytes name v = none := by
        simp [declarationAt?, h]
      rw [hv]
      exact if_neg h
  have hroot : ¬ Declares bytes name n := by
    intro hdeclares
    rw [hdeclares.not_isScope] at hscope
    cases hscope
  rw [hwalk, walk_eq_visits, declarationsIn_enter, declarationsIn_append,
    declarationsIn_visitsBelow _ _ hfree, declarationsIn_leave,
    declarations_here hscope]
  simp [hroot]

/-- A literal has its own value and no other. -/
theorem stringValues_of_ownValue? {bytes : ByteArray} {n m : Node}
    {value : String} (hunwrap : n.unwrap = some m)
    (hvalue : ownValue? bytes m = some value) :
    stringValues bytes n = [value] := by
  rw [stringValues, collectValues]
  split
  · rename_i hnone
    rw [hnone] at hunwrap
    cases hunwrap
  · rename_i m' hsome
    obtain rfl : m = m' := Option.some.inj (hunwrap.symm.trans hsome)
    simp [hvalue, collectValues, addNew]

/-- Adding values to those of a list gives the values of both, each once. -/
theorem addNew_eraseDups {α : Type} [DecidableEq α] (xs ys : List α) :
    addNew xs.eraseDups ys = (xs ++ ys).eraseDups := by
  induction ys generalizing xs with
  | nil => rw [addNew, List.append_nil]
  | cons a ys ih =>
      have hcons : xs ++ a :: ys = (xs ++ [a]) ++ ys := by simp
      have hlast : (xs ++ [a]).eraseDups = xs.eraseDups ++
          ([a].removeAll xs).eraseDups :=
        List.eraseDups_append
      rw [addNew, hcons, ← ih (xs ++ [a]), hlast]
      by_cases ha : a ∈ xs
      · rw [if_pos (List.mem_eraseDups.mpr ha)]
        simp [List.removeAll, ha]
      · rw [if_neg (fun h => ha (List.mem_eraseDups.mp h))]
        simp [List.removeAll, ha, List.eraseDups_cons]

/-- Adding the new values of each item is adding all values and leaving out
repetitions. -/
theorem foldl_addNew {α β : Type} [DecidableEq α] (values : β → List α)
    (bs : List β) (xs : List α) :
    bs.foldl (fun known b => addNew known (values b)) xs.eraseDups
      = (xs ++ bs.flatMap values).eraseDups := by
  induction bs generalizing xs with
  | nil => rw [List.foldl_nil, List.flatMap_nil, List.append_nil]
  | cons b bs ih =>
      rw [List.foldl_cons, addNew_eraseDups, ih, List.flatMap_cons,
        List.append_assoc]

/-- The values that a scope gives to a variable. -/
theorem variableValues_eq (hroot : root.ProgramAtTop)
    (h : root.scopeAt p = true) :
    (root.nodeAt? p).map (variableValues bytes name) = some
      (valuesFrom bytes name root p) := by
  obtain ⟨n, hn, hscope⟩ := Option.any_eq_true _ _ |>.mp h
  rw [hn, Option.map_some, valuesFrom, declarations_nodeAt? hn,
    ← declaratorsIn_eq hscope (hroot.free_children hn)]
  congr 1
  exact foldl_addNew _ _ []

/-- The values of a variable at a place: those of the first scope around it
that gives any. -/
theorem resolveVariable_eq (hroot : root.ProgramAtTop) (p : Position) :
    resolveVariable bytes name (root.above p)
      = (((root.scopesAround p).map (valuesFrom bytes name root)).find?
        (· ≠ [])).getD [] := by
  have hscopes : (scopes (root.above p)).map (variableValues bytes name)
      = (root.scopesAround p).map (valuesFrom bytes name root) := by
    rw [scopes, Node.above, List.filter_filterMap, List.map_filterMap,
      Node.scopesAround, ← List.filterMap_eq_map, List.filterMap_filter]
    refine List.filterMap_congr fun q _ => ?_
    by_cases hq : root.scopeAt q = true
    · rw [if_pos hq, Function.comp_apply, ← variableValues_eq hroot hq]
      obtain ⟨n, hn, hscope⟩ := Option.any_eq_true _ _ |>.mp hq
      simp [hn, hscope]
    · rw [if_neg hq, Option.map_eq_none_iff, Option.filter_eq_none_iff]
      intro n hn hscope
      exact hq (by simp [Node.scopeAt, hn, hscope])
  rw [resolveVariable, hscopes]

end Declarations

/-- **Values come from the innermost scope that gives any.**  Let the program
of a tree be nowhere but at its top, and let a node stand at a position, inside
the nodes that a walk knows around it.  If a scope around the position gives
values and no scope between the two does, the name has the values of that
scope: those of the declarations whose innermost scope it is.  If no scope
around the position gives any, the name has no values.  So whatever value it
has is that of a declaration which stands in no scope that the node does not
stand in. -/
theorem resolveVariable_local (bytes : ByteArray) (name : String) (root : Node)
    (hroot : root.ProgramAtTop) (p : Position) (n : Node)
    (hn : root.nodeAt? p = some n) :
    ⟨.enter, n, root.above p⟩ ∈ entered (walkAll root) ∧
    (∀ scope ∈ root.scopesAround p, valuesFrom bytes name root scope ≠ [] →
      (∀ inner ∈ root.scopesAround p, scope ∈ inner.around →
        valuesFrom bytes name root inner = []) →
      resolveVariable bytes name (root.above p)
        = valuesFrom bytes name root scope) ∧
    ((∀ scope ∈ root.scopesAround p, valuesFrom bytes name root scope = []) →
      resolveVariable bytes name (root.above p) = []) ∧
    ∀ value ∈ resolveVariable bytes name (root.above p),
      ∃ q d, root.nodeAt? q = some d ∧ Declares bytes name d ∧
        value ∈ valuesIn bytes d .value ∧ root.scopesAround q ≠ [] ∧
        ∀ scope ∈ root.scopesAround q, scope ∈ root.scopesAround p := by
  rw [resolveVariable_eq hroot p]
  refine ⟨?_, ?_, ?_, ?_⟩
  · exact mem_entered_walkAll.mpr ⟨rfl, Node.stands_above hn⟩
  · intro scope hscope hvalues hinner
    obtain ⟨before, after, hsplit⟩ := List.append_of_mem hscope
    have hpairs := root.pairwise_scopesAround p
    rw [hsplit, List.pairwise_append] at hpairs
    have hbefore : (before.map (valuesFrom bytes name root)).find? (· ≠ []) =
        none := by
      rw [List.find?_eq_none]
      intro values hvalues
      obtain ⟨inner, hmem, rfl⟩ := List.mem_map.mp hvalues
      have hscopes : inner ∈ root.scopesAround p := by
        rw [hsplit]
        exact List.mem_append_left _ hmem
      simp [hinner inner hscopes
        (hpairs.2.2 inner hmem scope List.mem_cons_self)]
    rw [hsplit, List.map_append, List.find?_append, hbefore, Option.none_or,
      List.map_cons, List.find?_cons_of_pos (by simpa using hvalues),
      Option.getD_some]
  · intro hnone
    have hfind :
        ((root.scopesAround p).map (valuesFrom bytes name root)).find?
            (· ≠ []) = none := by
      rw [List.find?_eq_none]
      intro values hvalues
      obtain ⟨scope, hscope, rfl⟩ := List.mem_map.mp hvalues
      simp [hnone scope hscope]
    rw [hfind, Option.getD_none]
  · intro value hvalue
    obtain ⟨scope, hscope, hvalue⟩ : ∃ scope ∈ root.scopesAround p,
        value ∈ valuesFrom bytes name root scope := by
      cases hfind :
          ((root.scopesAround p).map (valuesFrom bytes name root)).find?
              (· ≠ []) with
      | none =>
          rw [hfind] at hvalue
          cases hvalue
      | some values =>
          obtain ⟨scope, hscope, rfl⟩ :=
            List.mem_map.mp (List.mem_of_find?_eq_some hfind)
          rw [hfind] at hvalue
          exact ⟨scope, hscope, hvalue⟩
    obtain ⟨d, hd, hvalue⟩ := List.mem_flatMap.mp (List.mem_eraseDups.mp hvalue)
    obtain ⟨q, hq, hhome, hdeclares⟩ := exists_of_mem_declarations hd
    have hmem : scope ∈ root.scopesAround q :=
      List.mem_filter.mpr ⟨List.mem_of_find?_eq_some hhome,
        List.find?_some hhome⟩
    refine ⟨q, d, hq, hdeclares, hvalue, List.ne_nil_of_mem hmem, ?_⟩
    intro outer houter
    rcases Node.mem_scopesAround_of_home? hhome houter with rfl | hout
    · exact hscope
    · obtain ⟨haround, -⟩ := List.mem_filter.mp hscope
      obtain ⟨-, hat⟩ := List.mem_filter.mp houter
      exact List.mem_filter.mpr ⟨Position.around_trans hout haround, hat⟩

/-- The text that the tree below is about. -/
def neighboursText : ByteArray :=
  "n'A''B'".toUTF8

/-- A declaration of the name with a string for its value. -/
def declaring (start stop : Nat) : Node :=
  ⟨.variableDeclarator, none, 0, stop,
    [⟨.identifier, some .name, 0, 1, []⟩,
      ⟨.string, some .value, start, stop, []⟩]⟩

/-- A program that declares a name, and two functions in it, of which the first
declares the name as well.  A name stands in the second. -/
def neighbours : Node :=
  ⟨.program, none, 0, 7, [declaring 1 4,
    ⟨.functionDeclaration, none, 0, 7, [declaring 4 7]⟩,
    ⟨.functionDeclaration, none, 0, 7, [⟨.identifier, some .name, 0, 1, []⟩]⟩]⟩

/-- What the scopes of the program give to the name. -/
theorem valuesFrom_neighbours :
    valuesFrom neighboursText "n" neighbours [] = ["A"] ∧
    valuesFrom neighboursText "n" neighbours [1] = ["B"] ∧
    valuesFrom neighboursText "n" neighbours [2] = [] := by
  have hprogram : declarations neighboursText "n" neighbours (some []) =
      [declaring 1 4] := rfl
  have hfirst : declarations neighboursText "n" neighbours (some [1]) =
      [declaring 4 7] := rfl
  have hsecond : declarations neighboursText "n" neighbours (some [2]) = [] :=
    rfl
  have hA : valuesIn neighboursText (declaring 1 4) .value = ["A"] :=
    stringValues_of_ownValue? rfl (by decide)
  have hB : valuesIn neighboursText (declaring 4 7) .value = ["B"] :=
    stringValues_of_ownValue? rfl (by decide)
  refine ⟨?_, ?_, ?_⟩
  · rw [valuesFrom, hprogram, List.flatMap_singleton, hA]
    rfl
  · rw [valuesFrom, hfirst, List.flatMap_singleton, hB]
    rfl
  · rw [valuesFrom, hsecond]
    rfl

/-- The name in the second function has the value of the program, and not the
one of the first function. -/
theorem resolveVariable_neighbours : neighbours.ProgramAtTop ∧
    neighbours.nodeAt? [2, 0] = some ⟨.identifier, some .name, 0, 1, []⟩ ∧
    neighbours.scopesAround [2, 0] = [[2], []] ∧
    resolveVariable neighboursText "n" (neighbours.above [2, 0]) = ["A"] := by
  have htop : neighbours.ProgramAtTop := by decide
  have hscopes : neighbours.scopesAround [2, 0] = [[2], []] := by decide
  obtain ⟨hprogram, -, hsecond⟩ := valuesFrom_neighbours
  obtain ⟨-, hinnermost, -⟩ :=
    resolveVariable_local neighboursText "n" neighbours htop [2, 0] _ rfl
  refine ⟨htop, rfl, hscopes, ?_⟩
  rw [hinnermost [] (by simp [hscopes]) (by simp [hprogram]) ?_, hprogram]
  intro inner hinner houter
  rw [hscopes, List.mem_pair] at hinner
  rcases hinner with rfl | rfl
  · exact hsecond
  · cases houter

end Analysis

end Relay
