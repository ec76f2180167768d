import Relay.Syntax.Measure

/-!
# Walking a tree

A walk enters every node before its children and leaves it after them, and at
each of these moments knows the nodes around it, the innermost first.  `walk`
keeps the work that is left on a stack of tasks, so that a deep tree needs no
deep recursion.
-/

namespace Relay.Syntax

/-- The two moments at which a walk is at a node. -/
inductive Phase where
  | enter | leave
deriving DecidableEq

/-- A moment of a walk, with the nodes around the node, the innermost first. -/
structure Visit where
  phase : Phase
  node : Node
  enclosing : List Node

/-- Work that a walk has left. -/
inductive Task where
  | visit (n : Node)
  | finish (n : Node)

namespace Task

/-- The number of steps that a task takes. -/
def cost : Task → Nat
  | visit n => 2 * n.size
  | finish _ => 1

/-- The number of steps that several tasks take. -/
def total : List Task → Nat
  | [] => 0
  | t :: rest => t.cost + total rest

/-- The work of two lists of tasks adds up. -/
theorem total_append (s t : List Task) :
    total (s ++ t) = total s + total t := by
  induction s with
  | nil => simp [total]
  | cons a s ih => simp [total, ih]; omega

/-- Visiting nodes takes two steps for each of the nodes in their trees. -/
theorem total_visits (ns : List Node) :
    total (ns.map visit) = 2 * Node.sizeAll ns := by
  induction ns with
  | nil => simp [total, Node.sizeAll]
  | cons n ns ih => simp [total, cost, Node.sizeAll, ih]; omega

end Task

/-- Carries out the tasks on a stack inside some enclosing nodes.  A node that
`skip` rejects is passed over with all that is below it. -/
def walkTasks (skip : Node → List Node → Bool) (enclosing : List Node) :
    List Task → List Visit
  | [] => []
  | .finish n :: rest =>
    ⟨.leave, n, enclosing.tail⟩ :: walkTasks skip enclosing.tail rest
  | .visit n :: rest =>
    if skip n enclosing then walkTasks skip enclosing rest
    else
      ⟨.enter, n, enclosing⟩
        :: walkTasks skip (n :: enclosing)
          (n.children.map .visit ++ .finish n :: rest)
termination_by tasks => Task.total tasks
decreasing_by
  · simp [Task.total, Task.cost]
  · have := n.size_eq
    simp [Task.total, Task.cost]
    omega
  · have := n.size_eq
    simp [Task.total_append, Task.total_visits, Task.total, Task.cost]
    omega

/-- The walk of a tree.  Its root is never passed over. -/
def walk (skip : Node → List Node → Bool) (root : Node) : List Visit :=
  ⟨.enter, root, []⟩ ::
    walkTasks skip [root] (root.children.map .visit ++ [.finish root])

/-- A walk that passes over nothing. -/
def walkAll (root : Node) : List Visit :=
  walk (fun _ _ => false) root

/-- The moments at which nodes are entered. -/
def entered (visits : List Visit) : List Visit :=
  visits.filter (·.phase = .enter)

/-- The scopes around a place, the innermost first. -/
def scopes (enclosing : List Node) : List Node :=
  enclosing.filter (·.kind.isScope)

end Relay.Syntax
