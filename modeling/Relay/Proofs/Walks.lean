import Relay.Syntax.Walk

/-!
# What a walk visits

The walk of a tree keeps the work that is left on a stack of tasks.  Carrying
out the tasks of some nodes is the same as going through the nodes one after
the other, each with all that is below it (`walkTasks_visits`), so the stack
can be forgotten: `walk_eq_visits`.

A node *stands* in a tree inside the nodes that lead from it up to the root.  A
walk that passes over nothing enters just the nodes of the tree, each with the
nodes that it stands inside (`mem_entered_walkAll`).
-/

namespace Relay.Syntax

section

variable (skip : Node → List Node → Bool)

mutual

/-- The moments of a walk at a node that stands inside some nodes, and below
it. -/
def visitsOf (around : List Node) : Node → List Visit
  | ⟨kind, role, start, stop, children⟩ =>
    let n : Node := ⟨kind, role, start, stop, children⟩
    if skip n around then []
    else ⟨.enter, n, around⟩ ::
      (visitsBelow (n :: around) children ++ [⟨.leave, n, around⟩])

/-- The moments of a walk at some nodes, one after the other. -/
def visitsBelow (around : List Node) : List Node → List Visit
  | [] => []
  | n :: rest => visitsOf around n ++ visitsBelow around rest

end

variable {skip} {around : List Node} {n : Node}

/-- A node that is skipped has no visits. -/
theorem visitsOf_of_skip (h : skip n around = true) :
    visitsOf skip around n = [] := by
  cases n
  simp [visitsOf, h]

/-- A node that is not skipped is entered, then come the visits below it, and
then it is left. -/
theorem visitsOf_of_not_skip (h : skip n around = false) :
    visitsOf skip around n = ⟨.enter, n, around⟩ ::
      (visitsBelow skip (n :: around) n.children ++ [⟨.leave, n, around⟩]) := by
  cases n
  simp [visitsOf, h]

end

mutual

/-- One task: the node with all that is below it. -/
theorem walkTasks_visit (skip : Node → List Node → Bool) (around : List Node)
    (rest : List Task) :
    (n : Node) → walkTasks skip around (.visit n :: rest)
      = visitsOf skip around n ++ walkTasks skip around rest
  | ⟨kind, role, start, stop, children⟩ => by
    rw [walkTasks]
    by_cases hskip : skip ⟨kind, role, start, stop, children⟩ around = true
    · rw [if_pos hskip, visitsOf_of_skip hskip, List.nil_append]
    · have hfalse : skip ⟨kind, role, start, stop, children⟩ around =
          false := by
        simpa using hskip
      have hbelow :=
        walkTasks_visits skip (⟨kind, role, start, stop, children⟩ :: around)
        (.finish ⟨kind, role, start, stop, children⟩ :: rest) children
      rw [if_neg hskip, visitsOf_of_not_skip hfalse, hbelow, walkTasks,
        List.tail_cons]
      simp

/-- **The stack can be forgotten.**  The tasks of some nodes: the nodes one
after the other. -/
theorem walkTasks_visits (skip : Node → List Node → Bool) (around : List Node)
    (rest : List Task) :
    (ns : List Node) → walkTasks skip around (ns.map .visit ++ rest)
      = visitsBelow skip around ns ++ walkTasks skip around rest
  | [] => by simp [visitsBelow]
  | n :: ns => by
    rw [List.map_cons, List.cons_append, walkTasks_visit skip around _ n,
      walkTasks_visits skip around rest ns, visitsBelow, List.append_assoc]

end

/-- The walk of a tree: the root, what is below it, and the root again. -/
theorem walk_eq_visits (skip : Node → List Node → Bool) (root : Node) :
    walk skip root = ⟨.enter, root, []⟩ ::
      (visitsBelow skip [root] root.children ++ [⟨.leave, root, []⟩]) := by
  rw [walk, walkTasks_visits, walkTasks, walkTasks, List.tail_cons]

namespace Node

/-- A node stands in a tree inside some nodes, the innermost first. -/
inductive Stands (n : Node) : Node → List Node → Prop
  | root : Stands n n []
  | under {parent child : Node} {around : List Node}
      (hchild : child ∈ parent.children)
      (h : Stands n child around) : Stands n parent (around ++ [parent])

/-- A node stands at the root, or below a child of the root. -/
theorem stands_iff {n root : Node} {around : List Node} :
    n.Stands root around ↔ (n = root ∧ around = []) ∨
      ∃ child ∈ root.children, ∃ inner, n.Stands child inner ∧
        around = inner ++ [root] := by
  constructor
  · intro h
    cases h with
    | root => exact .inl ⟨rfl, rfl⟩
    | under hchild h => exact .inr ⟨_, hchild, _, h, rfl⟩
  · intro h
    rcases h with ⟨rfl, rfl⟩ | ⟨child, hchild, inner, h, rfl⟩
    · exact .root
    · exact .under hchild h

/-- A child stands inside its parent and what the parent stands inside. -/
theorem Stands.child {n c root : Node} {around : List Node}
    (h : n.Stands root around) (hc : c ∈ n.children) :
    c.Stands root (n :: around) := by
  induction h with
  | root => exact .under hc .root
  | under hchild h ih => exact .under hchild ih

end Node

section

variable {m : Node} {places : List Node}

mutual

/-- Below a node that stands inside some nodes, a walk enters the nodes of its
tree. -/
theorem mem_visitsOf (around : List Node) : (n : Node) →
    (⟨.enter, m, places⟩ ∈ visitsOf (fun _ _ => false) around n ↔
      ∃ inner, m.Stands n inner ∧ places = inner ++ around)
  | ⟨kind, role, start, stop, children⟩ => by
    have hbelow :=
      mem_visitsBelow (⟨kind, role, start, stop, children⟩ :: around) children
    rw [visitsOf_of_not_skip rfl, List.mem_cons, List.mem_append, hbelow]
    constructor
    · intro h
      rcases h with h | ⟨child, hchild, inner, h, rfl⟩ | h
      · cases h
        exact ⟨[], .root, rfl⟩
      · exact ⟨_, .under hchild h, by simp⟩
      · cases List.mem_singleton.mp h
    · intro h
      obtain ⟨inner, h, rfl⟩ := h
      rcases Node.stands_iff.mp h
        with ⟨rfl, rfl⟩ | ⟨child, hchild, within, hm, rfl⟩
      · exact .inl rfl
      · exact .inr (.inl ⟨child, hchild, within, hm, by simp⟩)

/-- The same for nodes that stand side by side. -/
theorem mem_visitsBelow (around : List Node) : (ns : List Node) →
    (⟨.enter, m, places⟩ ∈ visitsBelow (fun _ _ => false) around ns ↔
      ∃ n ∈ ns, ∃ inner, m.Stands n inner ∧ places = inner ++ around)
  | [] => by simp [visitsBelow]
  | n :: ns => by
    rw [visitsBelow, List.mem_append, mem_visitsOf around n,
      mem_visitsBelow around ns]
    simp

end

/-- **A walk enters every node where it stands.** -/
theorem mem_entered_walkAll {root : Node} {v : Visit} :
    v ∈ entered (walkAll root) ↔
      v.phase = .enter ∧ v.node.Stands root v.enclosing := by
  have hwalk : walkAll root = visitsOf (fun _ _ => false) [] root := by
    rw [walkAll, walk_eq_visits, visitsOf_of_not_skip rfl]
  rw [entered, hwalk, List.mem_filter, decide_eq_true_eq, and_comm]
  refine and_congr_right ?_
  intro hphase
  obtain ⟨phase, node, enclosing⟩ := v
  cases hphase
  simp [mem_visitsOf]

end

end Relay.Syntax
