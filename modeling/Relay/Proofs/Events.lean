import Relay.Proofs.Scopes

/-!
# The events of a walk

A walk keeps its work on a stack and the nodes around it in a list that grows
and shrinks as it goes.  Here the events of a tree are said by recursion
instead: a node is entered, then come the events of its children, one after the
other, and then it is left.  Nothing is told of a node that is pruned, nor of
what is below it.  The walk tells just these events (`map_event_walk`).

Two things follow from the recursion.  The events are balanced, and at each of
them the ancestors are the nodes that have been entered and not yet left
(`Balanced`).  And what is entered are the nodes that are not pruned, once for
each position at which such a node stands (`arrivals`).
-/

namespace Relay.Syntax

/-- A moment of a walk with the nodes around the node, the outermost first. -/
structure Event where
  phase : Phase
  node : Node
  ancestors : List Node

/-- A moment of a walk as an event. -/
def Visit.event (v : Visit) : Event :=
  ⟨v.phase, v.node, v.enclosing.reverse⟩

/-- An event of a tree that stands inside other nodes. -/
def Event.within (outer : List Node) (e : Event) : Event :=
  { e with ancestors := outer ++ e.ancestors }

/-- An event within some nodes within others is one within all of them. -/
theorem Event.within_comp_within (outer inner : List Node) :
    Event.within outer ∘ Event.within inner = Event.within
      (outer ++ inner) := by
  funext e
  simp [Event.within]

/-- A predicate on a node and its ancestors, as a walk asks it: the innermost
ancestor comes first. -/
def inward (prune : Node → List Node → Bool) (n : Node) (around : List Node) :
    Bool :=
  prune n around.reverse

section

variable (prune : Node → List Node → Bool)

mutual

/-- The events at a node and below it; there are none at a node that is
pruned. -/
def eventsAt (ancestors : List Node) : Node → List Event
  | ⟨kind, role, start, stop, children⟩ =>
    let n : Node := ⟨kind, role, start, stop, children⟩
    if prune n ancestors then []
    else ⟨.enter, n, ancestors⟩
      :: (eventsAmong (ancestors ++ [n]) children ++ [⟨.leave, n, ancestors⟩])

/-- The events at some nodes and below them, one node after the other. -/
def eventsAmong (ancestors : List Node) : List Node → List Event
  | [] => []
  | n :: rest => eventsAt ancestors n ++ eventsAmong ancestors rest

end

/-- The events of a tree.  Its root is never pruned. -/
def events (root : Node) : List Event :=
  ⟨.enter, root, []⟩ ::
    (eventsAmong prune [root] root.children ++ [⟨.leave, root, []⟩])

variable {prune} {ancestors : List Node} {n : Node}

/-- A node that is pruned has no events. -/
theorem eventsAt_of_prune (h : prune n ancestors = true) :
    eventsAt prune ancestors n = [] := by
  cases n
  simp [eventsAt, h]

/-- A node that is not pruned is entered, then come the events of its
children, and then it is left. -/
theorem eventsAt_of_not_prune (h : prune n ancestors = false) :
    eventsAt prune ancestors n = ⟨.enter, n, ancestors⟩
      :: (eventsAmong prune (ancestors ++ [n]) n.children ++
        [⟨.leave, n, ancestors⟩]) := by
  cases n
  simp [eventsAt, h]

end

mutual

/-- One node with all that is below it. -/
theorem map_event_visitsOf (prune : Node → List Node → Bool)
    (around : List Node) : (n : Node) →
    (visitsOf (inward prune) around n).map Visit.event
      = eventsAt prune around.reverse n
  | ⟨kind, role, start, stop, children⟩ => by
    have hbelow :=
      map_event_visitsBelow prune
        (⟨kind, role, start, stop, children⟩ :: around)
      children
    rw [List.reverse_cons] at hbelow
    cases hprune : prune ⟨kind, role, start, stop, children⟩ around.reverse with
    | true =>
        have hskip : inward prune ⟨kind, role, start, stop, children⟩ around =
            true := hprune
        rw [visitsOf_of_skip hskip, eventsAt_of_prune hprune, List.map_nil]
    | false =>
        have hskip : inward prune ⟨kind, role, start, stop, children⟩ around =
            false := hprune
        rw [visitsOf_of_not_skip hskip, eventsAt_of_not_prune hprune,
          List.map_cons, List.map_append, hbelow]
        rfl

/-- Nodes that stand side by side. -/
theorem map_event_visitsBelow (prune : Node → List Node → Bool)
    (around : List Node) :
    (ns : List Node) →
    (visitsBelow (inward prune) around ns).map Visit.event
      = eventsAmong prune around.reverse ns
  | [] => rfl
  | n :: ns => by
    rw [visitsBelow, List.map_append, map_event_visitsOf prune around n,
      map_event_visitsBelow prune around ns, eventsAmong]

end

/-- **The walk is the recursion.** -/
theorem map_event_walk (prune : Node → List Node → Bool) (root : Node) :
    (walk (inward prune) root).map Visit.event = events prune root := by
  rw [walk_eq_visits, List.map_cons, List.map_append, map_event_visitsBelow]
  rfl

/-- Balanced events inside some open nodes.  Whatever is entered is left again,
with the same ancestors, which are the open nodes, and what happens in between
is balanced inside it. -/
inductive Balanced : List Node → List Event → Prop
  | nil {opened : List Node} : Balanced opened []
  | node {opened : List Node} {n : Node} {inner rest : List Event}
      (hinner : Balanced (opened ++ [n]) inner) (hrest : Balanced opened rest) :
      Balanced opened (⟨.enter, n, opened⟩ ::
        (inner ++ ⟨.leave, n, opened⟩ :: rest))

/-- Balanced events after balanced ones are balanced. -/
theorem Balanced.append {opened : List Node} {xs ys : List Event}
    (hxs : Balanced opened xs) (hys : Balanced opened ys) :
    Balanced opened (xs ++ ys) := by
  induction hxs with
  | nil => exact hys
  | node hinner hrest _ ih =>
      rw [List.cons_append, List.append_assoc]
      exact .node hinner (ih hys)

mutual

/-- The events of a node are balanced. -/
theorem balanced_eventsAt (prune : Node → List Node → Bool)
    (ancestors : List Node) :
    (n : Node) → Balanced ancestors (eventsAt prune ancestors n)
  | ⟨kind, role, start, stop, children⟩ => by
    have hbelow := balanced_eventsAmong prune
      (ancestors ++ [⟨kind, role, start, stop, children⟩]) children
    cases hprune : prune ⟨kind, role, start, stop, children⟩ ancestors with
    | true =>
        rw [eventsAt_of_prune hprune]
        exact .nil
    | false =>
        rw [eventsAt_of_not_prune hprune]
        exact .node hbelow .nil

/-- The events of some nodes are balanced. -/
theorem balanced_eventsAmong (prune : Node → List Node → Bool)
    (ancestors : List Node) :
    (ns : List Node) → Balanced ancestors (eventsAmong prune ancestors ns)
  | [] => .nil
  | n :: ns =>
    (balanced_eventsAt prune ancestors n).append
      (balanced_eventsAmong prune ancestors ns)

end

namespace Node

mutual

/-- No position of a tree is listed twice. -/
theorem nodup_positions : (n : Node) → n.positions.Nodup
  | ⟨kind, role, start, stop, children⟩ => by
    rw [positions_eq, List.nodup_cons]
    refine ⟨?_, nodup_positionsFrom 0 children⟩
    intro h
    obtain ⟨i, q, c, hp, -⟩ := mem_positionsFrom.mp h
    cases hp

/-- Different nodes below some others have different positions. -/
theorem nodup_positionsFrom (first : Nat) :
    (ns : List Node) → (positionsFrom first ns).Nodup
  | [] => .nil
  | n :: ns => by
    rw [positionsFrom, List.nodup_append]
    refine ⟨?_, nodup_positionsFrom (first + 1) ns, ?_⟩
    · exact List.pairwise_map.mpr ((nodup_positions n).imp fun hne h =>
        hne (List.cons.inj h).2)
    · rintro p hp q hq rfl
      obtain ⟨r, -, rfl⟩ := List.mem_map.mp hp
      obtain ⟨i, q, c, hq, -⟩ := mem_positionsFrom.mp hq
      have := (List.cons.inj hq).1
      omega

end

/-- No node on the way from the root to a position is pruned, and neither is
the node there.  The root itself is not asked. -/
def unpruned (prune : Node → List Node → Bool) (root : Node) (p : Position) :
    Bool :=
  (p :: p.around).all fun q =>
    q.isEmpty || (root.nodeAt? q).all fun n => !prune n (root.above q).reverse

/-- The event of entering the node at a position; there is none if it is
pruned. -/
def arrival? (prune : Node → List Node → Bool) (root : Node) (p : Position) :
    Option Event :=
  if root.unpruned prune p then
    (root.nodeAt? p).map fun n => ⟨.enter, n, (root.above p).reverse⟩
  else none

/-- The events of entering the nodes of a tree that are not pruned, position by
position. -/
def arrivals (prune : Node → List Node → Bool) (root : Node) : List Event :=
  root.positions.filterMap (root.arrival? prune)

variable {prune : Node → List Node →
  Bool} {root c n : Node} {step : Nat} {p : Position}

/-- A position is not pruned just when no node on the way to it is. -/
theorem unpruned_iff : root.unpruned prune p = true ↔
    ∀ q ∈ p :: p.around, q ≠ [] → ∀ n, root.nodeAt? q = some n →
      prune n (root.above q).reverse = false := by
  simp only [unpruned, List.all_eq_true, Bool.or_eq_true, List.isEmpty_iff,
    Option.all_eq_true, Bool.not_eq_true', or_iff_not_imp_left, ne_eq]

/-- Going down into a child, the child is asked first. -/
theorem unpruned_child (hc : root.children[step]? = some c) :
    root.unpruned prune (step :: p) = (!prune c [root] &&
      c.unpruned (fun n inner => prune n (root :: inner)) p) := by
  have hcons : (step :: p) :: Position.around (step :: p)
      = (p :: p.around).map (step :: ·) ++ [[]] := rfl
  have htop : [] ∈ p :: p.around := by
    cases p with
    | nil => exact List.mem_cons_self
    | cons step rest => simp [Position.around]
  have hbelow : ∀ q, (root.above (step :: q)).reverse =
      root :: (c.above q).reverse := by
    intro q
    rw [above_child hc, List.reverse_append]
    rfl
  rw [Bool.eq_iff_iff, Bool.and_eq_true, Bool.not_eq_true', unpruned_iff,
    unpruned_iff, hcons]
  constructor
  · intro h
    have hchild : ∀ q ∈ p :: p.around, ∀ n, c.nodeAt? q = some n →
        prune n (root :: (c.above q).reverse) = false := by
      intro q hq n hn
      rw [← hbelow]
      have hmem : step :: q ∈ (p :: p.around).map (step :: ·) ++ [[]] :=
        List.mem_append_left _ (List.mem_map_of_mem hq)
      exact h (step :: q) hmem (by simp) n (by rw [nodeAt?_child hc, hn])
    exact ⟨hchild [] htop c rfl, fun q hq _ => hchild q hq⟩
  · intro h q hq hne n hn
    obtain ⟨hself, hinner⟩ := h
    rw [List.mem_append, List.mem_map, List.mem_singleton] at hq
    obtain ⟨r, hr, rfl⟩ := hq.resolve_right hne
    rw [nodeAt?_child hc] at hn
    rw [hbelow]
    by_cases hempty : r = []
    · subst hempty
      cases hn
      exact hself
    · exact hinner r hr hempty n hn

/-- The walk arrives below a child just when the child is not pruned and a
walk of its own would arrive there. -/
theorem arrival?_child (hc : root.children[step]? = some c) :
    root.arrival? prune (step :: p)
    = if prune c [root] then none
      else (c.arrival? (fun n inner => prune n (root :: inner)) p).map
        (Event.within [root]) := by
  unfold arrival?
  rw [unpruned_child hc, nodeAt?_child hc, above_child hc, List.reverse_append]
  cases prune c [root] with
  | true => rfl
  | false =>
      cases c.unpruned (fun n inner => prune n (root :: inner)) p with
      | true => simp [Event.within, Function.comp_def]
      | false => rfl

/-- The same for a tree that stands inside other nodes, so that its root can be
pruned. -/
def arrivalsIn (prune : Node → List Node → Bool) (ancestors : List Node)
    (n : Node) : List Event :=
  if prune n ancestors then []
  else (n.arrivals fun m inner => prune m (ancestors ++ inner)).map
    (Event.within ancestors)

/-- A tree is entered at its root and then child by child. -/
theorem arrivals_eq (prune : Node → List Node → Bool) (root : Node) :
    root.arrivals prune
    = ⟨.enter, root, []⟩ :: root.children.flatMap
      (arrivalsIn prune [root]) := by
  have hfirst : root.arrival? prune [] = some ⟨.enter, root, []⟩ := rfl
  have hchildren : root.children = root.children.zipIdx.map Prod.fst := by simp
  rw [arrivals, positions_eq, List.filterMap_cons_some hfirst,
    filterMap_positionsFrom]
  conv_rhs => rw [hchildren, List.flatMap_map]
  congr 1
  refine List.flatMap_congr fun x hx => ?_
  simp only [arrival?_child (List.mk_mem_zipIdx_iff_getElem?.mp hx), arrivalsIn]
  cases prune x.1 [root] with
  | true => simp
  | false =>
      rw [arrivals, List.map_filterMap]
      rfl

/-- The walk arrives at a node that is not pruned, and then below each of its
children. -/
theorem arrivalsIn_of_not_prune {ancestors : List Node}
    (h : prune n ancestors = false) :
    n.arrivalsIn prune ancestors
      = ⟨.enter, n, ancestors⟩ :: n.children.flatMap
        (arrivalsIn prune (ancestors ++ [n])) := by
  have hbelow : ∀ c ∈ n.children,
      (arrivalsIn (fun m inner => prune m (ancestors ++ inner)) [n] c).map
        (Event.within ancestors)
        = c.arrivalsIn prune (ancestors ++ [n]) := by
    intro c _
    simp only [arrivalsIn, List.append_assoc]
    split
    · rfl
    · rw [List.map_map, Event.within_comp_within]
  rw [arrivalsIn, h, arrivals_eq, List.map_cons, List.map_flatMap,
    List.flatMap_congr hbelow]
  simp [Event.within]

end Node

mutual

/-- What is entered at a node and below it. -/
theorem enters_eventsAt (prune : Node → List Node → Bool)
    (ancestors : List Node) : (n : Node) →
    (eventsAt prune ancestors n).filter
      (·.phase = .enter) = n.arrivalsIn prune ancestors
  | ⟨kind, role, start, stop, children⟩ => by
    have hbelow :=
      enters_eventsAmong prune
        (ancestors ++ [⟨kind, role, start, stop, children⟩])
      children
    cases hprune : prune ⟨kind, role, start, stop, children⟩ ancestors with
    | true =>
        rw [eventsAt_of_prune hprune, Node.arrivalsIn, hprune]
        rfl
    | false =>
        rw [eventsAt_of_not_prune hprune, Node.arrivalsIn_of_not_prune hprune,
          List.filter_cons_of_pos rfl, List.filter_append, hbelow]
        simp

/-- What is entered among some nodes are the nodes that the walk arrives at.
-/
theorem enters_eventsAmong (prune : Node → List Node → Bool)
    (ancestors : List Node) :
    (ns : List Node) → (eventsAmong prune ancestors ns).filter
      (·.phase = .enter)
      = ns.flatMap (Node.arrivalsIn prune ancestors)
  | [] => rfl
  | n :: ns => by
    rw [eventsAmong, List.filter_append, enters_eventsAt prune ancestors n,
      enters_eventsAmong prune ancestors ns, List.flatMap_cons]

end

/-- **Walks by recursion.**  For every predicate on a node and its ancestors,
the outermost first, a walk tells the events of the recursion, which never
prunes the root.  These are balanced, and each of them has the open nodes for
its ancestors.  And the nodes that are entered are, once for each position in
the tree, those that are neither pruned nor below a node that is. -/
theorem walk_by_recursion (prune : Node → List Node → Bool) (root : Node) :
    (walk (inward prune) root).map Visit.event = events prune root ∧
    Balanced [] (events prune root) ∧
    (events prune root).filter (·.phase = .enter) = root.arrivals prune ∧
    root.positions.Nodup ∧
    ∀ p, p ∈ root.positions ↔ (root.nodeAt? p).isSome := by
  refine ⟨map_event_walk prune root, ?_, ?_, root.nodup_positions,
    fun _ => Node.mem_positions⟩
  · exact .node (balanced_eventsAmong prune [root] root.children) .nil
  · rw [events, List.filter_cons_of_pos rfl, List.filter_append,
      enters_eventsAmong, Node.arrivals_eq]
    simp

end Relay.Syntax
