import Relay.Chart.Draw
import Relay.Proofs.Neighbours

/-!
# Arrows between middlewares

A chart has one arrow for every edge between neighbours.  An edge names the two
middlewares that it joins, and the arrow goes between the first positions of
these names (`edgeLine?_eq`).  As long as no name comes twice these are the
positions of the neighbours themselves, and the arrows follow the order of the
chain.  With a name that comes again, some arrow leads back to where it came
first (`arrows_exact`, `not_inOrder_twins`).
-/

namespace Relay

namespace Chart

/-- The arrow from one middleware to another, with the label of the properties
that it carries. -/
def arrowLine (source target : Nat) (properties : List String) : Line :=
  ⟨1, if properties.isEmpty then
    .arrow (.middleware source) (.middleware target)
    else .labelled (.middleware source) (.middleware target)
      (edgeLabel properties)⟩

/-- The arrows of a result in the order of its middlewares: each edge joins the
middleware with its number and the next. -/
def inOrder (edges : List Edge) : List Line :=
  edges.zipIdx.map fun (e, k) => arrowLine k (k + 1) e.properties

/-- The text of an arrow from one middleware to another. -/
def arrowText (source target : Nat) (properties : List String) : String :=
  if properties.isEmpty then s!"    MW{source + 1} --> MW{target + 1}"
  else s!"    MW{source + 1}" ++ " -->|\"" ++ edgeLabel properties ++ "\"| "
    ++ s!"MW{target + 1}"

/-- How arrows are written. -/
theorem text_arrowLine (source target : Nat) (properties : List String) :
    (arrowLine source target properties).text =
      arrowText source target properties := by
  have htext : ∀ t : String, toString t = t := fun _ => rfl
  apply String.toList_inj.mp
  unfold arrowLine arrowText
  split
  · simp [Line.text, Mark.text, NodeId.text, htext]
  · simp [Line.text, Mark.text, NodeId.text, htext]

/-- Arrows with the same line join the same middlewares. -/
theorem eq_of_arrowLine_eq {i j i' j' : Nat} {properties : List String}
    (h : arrowLine i j properties = arrowLine i' j' properties) :
    i = i' ∧ j = j' := by
  unfold arrowLine at h
  split at h
  · simpa using h
  · simpa using h

variable {ms : List Middleware} {e : Edge} {name : String}

/-- A name stands for its first position. -/
theorem positionOf?_eq_some (h : name ∈ ms.map (·.name)) :
    positionOf? ms name = some ((ms.map (·.name)).idxOf name) := by
  induction ms with
  | nil => cases h
  | cons m ms ih =>
      rw [positionOf?, List.findIdx?_cons, List.map_cons, List.idxOf_cons]
      by_cases hname : m.name = name
      · simp [hname]
      · have hrest : name ∈ ms.map (·.name) := by
          rcases List.mem_cons.mp h with hfirst | hrest
          · exact absurd hfirst.symm hname
          · exact hrest
        have hposition := ih hrest
        rw [positionOf?] at hposition
        simp [hname, hposition, beq_eq_false_iff_ne.mpr hname]

/-- **An arrow goes between first positions.** -/
theorem edgeLine?_eq (hsource : e.source ∈ ms.map (·.name))
    (htarget : e.target ∈ ms.map (·.name)) :
    edgeLine? ms e = some (arrowLine ((ms.map (·.name)).idxOf e.source)
      ((ms.map (·.name)).idxOf e.target) e.properties) := by
  unfold edgeLine? arrowLine
  rw [positionOf?_eq_some hsource, positionOf?_eq_some htarget]
  simp only [Option.bind_eq_bind, Option.bind_some]
  split
  · rfl
  · rfl

/-- Between neighbours no arrow is left out. -/
theorem filterMap_edgeLine? (ms : List Middleware) :
    (edgesBetween ms).filterMap (edgeLine? ms)
      = (edgesBetween ms).map fun e =>
        arrowLine ((ms.map (·.name)).idxOf e.source)
          ((ms.map (·.name)).idxOf e.target) e.properties := by
  rw [← List.filterMap_eq_map]
  apply List.filterMap_congr
  intro e he
  obtain ⟨k, hk⟩ := List.mem_iff_getElem?.mp he
  obtain ⟨a, b, ha, hb, rfl⟩ := getElem?_edgesBetween.mp hk
  exact edgeLine?_eq (List.mem_map_of_mem (List.mem_of_getElem? ha))
    (List.mem_map_of_mem (List.mem_of_getElem? hb))

/-- A list without repetitions is one in which every member stands first at its
own position. -/
theorem nodup_iff_idxOf {names : List String} :
    names.Nodup ↔ ∀ k name, names[k]? = some name → names.idxOf name = k := by
  constructor
  · intro hnodup k name hname
    obtain ⟨hk, rfl⟩ := List.getElem?_eq_some_iff.mp hname
    exact hnodup.idxOf_getElem k hk
  · intro hfirst
    rw [List.nodup_iff_getElem?_ne_getElem?]
    intro i j hij hj hsame
    have hname := List.getElem?_eq_getElem hj
    have hi := hfirst i _ (hsame.trans hname)
    have hj := hfirst j _ hname
    omega

/-- **Arrows in order.**  The arrows follow the order of the middlewares just
when no name comes twice. -/
theorem map_arrowLine_eq_inOrder_iff (ms : List Middleware) :
    ((edgesBetween ms).map fun e => arrowLine ((ms.map (·.name)).idxOf e.source)
        ((ms.map (·.name)).idxOf e.target) e.properties) = inOrder
          (edgesBetween ms) ↔
      (ms.map (·.name)).Nodup := by
  have hname : ∀ {i : Nat} {m : Middleware}, ms[i]? = some m →
      (ms.map (·.name))[i]? = some m.name := by
    intro i m hm
    rw [List.getElem?_map, hm]
    rfl
  constructor
  · intro hall
    rw [nodup_iff_idxOf]
    intro k name hk
    rw [List.getElem?_map] at hk
    obtain ⟨m, hm, rfl⟩ := Option.map_eq_some_iff.mp hk
    cases k with
    | zero =>
        cases ms with
        | nil => cases hm
        | cons first ms =>
            cases hm
            simp
    | succ k =>
        have hlt : k + 1 < ms.length := (List.getElem?_eq_some_iff.mp hm).1
        obtain ⟨a, ha⟩ : ∃ a, ms[k]? = some a :=
          ⟨_, List.getElem?_eq_getElem (by omega)⟩
        have hedge := getElem?_edgesBetween.mpr ⟨a, m, ha, hm, rfl⟩
        have hline := congrArg (·[k]?) hall
        simp only [inOrder, List.getElem?_map, List.getElem?_zipIdx, hedge,
          Option.map_some, Option.some.injEq, Nat.zero_add] at hline
        exact (eq_of_arrowLine_eq hline).2
  · intro hnodup
    have hfirst := nodup_iff_idxOf.mp hnodup
    apply List.ext_getElem?
    intro k
    simp only [inOrder, List.getElem?_map, List.getElem?_zipIdx, Nat.zero_add]
    cases hedge : (edgesBetween ms)[k]? with
    | none => rfl
    | some e =>
        obtain ⟨a, b, ha, hb, rfl⟩ := getElem?_edgesBetween.mp hedge
        simp only [Option.map_some, Option.some.injEq]
        rw [hfirst k _ (hname ha), hfirst (k + 1) _ (hname hb)]

end Chart

namespace Scene

open Chart

/-- **Arrows are exact.**  Let an endpoint have a result, whether or not its
analysis was cancelled, and let its chart be folded in any way.  There is one
arrow less than there are middlewares, or none.  Each stands for the edge with
its number and carries the label of the properties of that edge, and it goes
between the first positions of the two names.  The arrows follow the order of
the middlewares just when no name comes twice. -/
theorem arrows_exact (s : Scene) (patience : Option Nat) (p : Progress)
    (endpoint : Endpoint) (r : FlowResult)
    (h : (s.analyzeFlow patience p endpoint).2 = .ok r) (folding : Folding) :
    (draw folding r).edges.length = r.middlewares.length - 1 ∧
    ((draw folding r).edges = r.edges.map fun e =>
      arrowLine ((r.middlewares.map (·.name)).idxOf e.source)
        ((r.middlewares.map (·.name)).idxOf e.target) e.properties) ∧
    ((draw folding r).edges.map (·.text) = r.edges.map fun e =>
      arrowText ((r.middlewares.map (·.name)).idxOf e.source)
        ((r.middlewares.map (·.name)).idxOf e.target) e.properties) ∧
    ((draw folding r).edges = inOrder r.edges ↔
      (r.middlewares.map (·.name)).Nodup) := by
  have hdrawn : (draw folding r).edges =
      r.edges.filterMap (edgeLine? r.middlewares) := rfl
  rw [hdrawn, edges_of_analyzeFlow h, filterMap_edgeLine?]
  refine ⟨?_, rfl, ?_, map_arrowLine_eq_inOrder_iff r.middlewares⟩
  · rw [List.length_map, length_edgesBetween]
  · rw [List.map_map]
    exact List.map_congr_left fun e _ => text_arrowLine ..

/-- A chain of two names is drawn in its order. -/
theorem arrows_exact_twins :
    ∃ r, (twins.analyzeFlow none {}
        { middleware := .array [.string "a", .string "b"] }).2 = .ok r ∧
      ∃ e, r.edges = [e] ∧
          (draw [] r).edges = [arrowLine 0 1 e.properties] := by
  have hlist :
    ({ middleware := .array [.string "a", .string "b"] } : Endpoint).specifiers?
      = some ["a", "b"] := rfl
  obtain ⟨r, hr, hnames⟩ := exists_analyzeFlow (s := twins) hlist
    (fun name hname => ⟨_, (entry_twins name hname).1⟩) {}
  obtain ⟨-, -, -, hinOrder⟩ := arrows_exact twins none {} _ r hr []
  have hlength : r.edges.length = 1 := by
    rw [edges_of_analyzeFlow hr,
      length_edgesBetween, ← List.length_map (·.name), hnames]
    rfl
  obtain ⟨e, he⟩ := List.length_eq_one_iff.mp hlength
  refine ⟨r, hr, e, he, ?_⟩
  rw [hinOrder.mpr (by rw [hnames]; decide), he]
  rfl

/-- **An arrow that leads back.**  In a chain whose third name is the first one
again, the second arrow joins the second middleware and the first, and not the
second and the third. -/
theorem not_inOrder_twins :
    ∃ r, (twins.analyzeFlow none {}
        { middleware := .array [.string "a", .string "b", .string "a"] }).2 =
          .ok r ∧
      ∃ e, r.edges[1]? = some e ∧
        (draw [] r).edges[1]? = some (arrowLine 1 0 e.properties) ∧
        (draw [] r).edges[1]? ≠ some (arrowLine 1 2 e.properties) := by
  have hlist :
    ({ middleware := .array [.string "a", .string "b", .string "a"] } :
      Endpoint).specifiers? = some ["a", "b", "a"] := rfl
  have hentry : ∀ name ∈ ["a", "b", "a"], ∃ path?,
      twins.entry name = .ok path? := by
    intro name hname
    exact ⟨_, (entry_twins name (by simpa [or_comm] using hname)).1⟩
  obtain ⟨r, hr, hnames⟩ := exists_analyzeFlow (s := twins) hlist hentry {}
  have hthree : r.middlewares.length = 3 := by
    rw [← List.length_map (·.name), hnames]
    rfl
  obtain ⟨first, second, third, hms⟩ := List.length_eq_three.mp hthree
  have hedges := edges_of_analyzeFlow hr
  have hdrawn : (draw [] r).edges =
      r.edges.filterMap (edgeLine? r.middlewares) := rfl
  rw [hedges, filterMap_edgeLine?, hnames, hms] at hdrawn
  rw [hms] at hnames hedges
  simp only [List.map_cons, List.map_nil, List.cons.injEq, and_true] at hnames
  obtain ⟨-, hsecond, hthird⟩ := hnames
  have hback : (draw [] r).edges[1]? =
      some (arrowLine 1 0 (sharedProperties second third)) := by
    rw [hdrawn]
    simp [edgesBetween, hsecond, hthird]
  refine ⟨r, hr, _, by rw [hedges]; rfl, hback, ?_⟩
  rw [hback]
  intro hsame
  have hpositions := eq_of_arrowLine_eq (Option.some.inj hsame)
  omega

end Scene

end Relay
