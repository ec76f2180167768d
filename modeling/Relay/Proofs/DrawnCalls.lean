import Mathlib.Data.List.Flatten
import Mathlib.Data.List.Nodup
import Relay.Chart.Draw
import Relay.Proofs.NodeNames
import Relay.Proofs.RollUps
import Relay.Proofs.Sites

/-!
# Folding keeps the calls of a chart

What is drawn is decided twice: where the calls are placed, and where the lines
of the boxes are written.  Both go by the same sites
(`Reads.flatMap_body_draw`), so every part that a call is placed at has a box
(`mem_shown_of_mem_placedCalls`), and no two boxes have the same name
(`nodup_names`).  A folding moves the calls of a chart from box to box; it
drops none and draws none twice (`calls_drawn_once`).
-/

namespace Relay.Chart

open Analysis

section Blocks

variable {α β κ : Type}

/-- The blocks of a list by a key that each of its members has. -/
theorem flatMap_filter_perm [DecidableEq κ] (key : α → κ) {keys : List κ}
    {items : List α} (hkeys : keys.Nodup) (hall : ∀ a ∈ items, key a ∈ keys) :
    (keys.flatMap fun k => items.filter (key · = k)).Perm items := by
  induction keys generalizing items with
  | nil =>
      have hnil : items = [] :=
        List.eq_nil_iff_forall_not_mem.mpr fun a ha => by
        simpa using hall a ha
      rw [hnil]
      exact List.Perm.refl _
  | cons k keys ih =>
      rw [List.nodup_cons] at hkeys
      have hrest : ∀ a ∈ items.filter (fun a => !decide (key a = k)),
          key a ∈ keys := by
        intro a ha
        rw [List.mem_filter, Bool.not_eq_true', decide_eq_false_iff_not] at ha
        exact (List.mem_cons.mp (hall a ha.1)).resolve_left ha.2
      have hblocks : (keys.flatMap fun k' =>
            (items.filter fun a => !decide (key a = k)).filter (key · = k'))
          = keys.flatMap fun k' => items.filter (key · = k') := by
        refine List.flatMap_congr fun k' hk' => ?_
        rw [List.filter_filter]
        refine List.filter_congr fun a _ => ?_
        have hne : k' ≠ k := fun heq => hkeys.1 (heq ▸ hk')
        by_cases ha : key a = k'
        · simp [ha, hne]
        · simp [ha]
      rw [List.flatMap_cons, ← hblocks]
      exact ((ih hkeys.2 hrest).append_left _).trans
        (List.filter_append_perm _ items)

/-- Blocks of different keys have no members in common. -/
theorem nodup_flatMap_of_key (key : β → κ) (keyOf : α → κ) {block : α → List β}
    {items : List α} (hitems : (items.map keyOf).Nodup)
    (hblock : ∀ a ∈ items, (block a).Nodup)
    (hkey : ∀ a ∈ items, ∀ b ∈ block a, key b = keyOf a) :
    (items.flatMap block).Nodup := by
  rw [List.nodup_flatMap]
  refine ⟨hblock, ?_⟩
  have hpairs : items.Pairwise fun a a' => keyOf a ≠ keyOf a' :=
    List.pairwise_map.mp hitems
  refine hpairs.imp_of_mem ?_
  intro a a' ha ha' hne b hb hb'
  exact hne ((hkey a ha b hb).symm.trans (hkey a' ha' b hb'))

end Blocks

/-- The part that a call hangs on. -/
def NodeId.owner : NodeId → NodeId
  | call owner _ => owner
  | id => id

namespace Mark

/-- The box that a line declares. -/
def node? : Mark → Option NodeId
  | box id _ _ | callBox id _ => some id
  | _ => none

/-- The call of a line, with the box that it declares. -/
def call? : Mark → Option (NodeId × ServiceCall)
  | callBox id call => some (id, call)
  | _ => none

/-- The two ends of the arrow to a call. -/
def dotted? : Mark → Option (NodeId × NodeId)
  | callArrow source target => some (source, target)
  | _ => none

end Mark

/-- All lines of a chart. -/
def lines (chart : Chart) : List Line :=
  chart.body ++ chart.edges

/-- The boxes that the lines of a chart declare. -/
def nodes (chart : Chart) : List NodeId :=
  chart.lines.filterMap (·.mark.node?)

/-- The arrows of a chart that lead to calls. -/
def dotted (chart : Chart) : List (NodeId × NodeId) :=
  chart.lines.filterMap (·.mark.dotted?)

/-- The parts of a middleware that are drawn. -/
def shownAt (f : Folding) (index : Nat) (m : Middleware) : List NodeId :=
  mainId index m :: ((sites m).filter (f.draws index ·.steps)).map
    (.component index ·.steps)

/-- The parts of a chart that are drawn. -/
def shown (f : Folding) (middlewares : List Middleware) : List NodeId :=
  middlewares.zipIdx.flatMap fun (m, index) => shownAt f index m

section Reading

variable {α : Type} {read : Mark → List α} {boxed : NodeId → List α}

variable (read boxed) in
/-- What is read off the boxes of files, by their names, and off the lines of
calls only. -/
structure Reads : Prop where
  box : ∀ id label look, read (.box id label look) = boxed id
  opening : ∀ id label, read (.opening id label) = []
  direction : read .direction = []
  closing : read .closing = []
  arrow : ∀ source target, read (.arrow source target) = []
  labelled : ∀ source target label, read (.labelled source target label) = []

variable (read) in
/-- What is read off the lines of the calls that hang on a part. -/
def Canvas.readCalls (c : Canvas) (owner : NodeId) : List α :=
  (c.callsAt owner).zipIdx.flatMap fun (call, position) =>
    read (.callBox (.call owner position) call) ++
      read (.callArrow owner (.call owner position))

variable (read boxed) in
/-- What is read off the lines of a part. -/
def Canvas.readPart (c : Canvas) (owner : NodeId) : List α :=
  boxed owner ++ c.readCalls read owner

/-- Off the lines of the calls of a part is read what the calls give. -/
theorem flatMap_callLines (c : Canvas) (indent : Nat) (owner : NodeId) :
    (c.callLines indent owner).flatMap
      (read ·.mark) = c.readCalls read owner := by
  rw [Canvas.callLines, Canvas.readCalls, List.flatMap_assoc]
  refine List.flatMap_congr fun placed _ => ?_
  simp

/-- No file below a place is drawn where none is shown. -/
theorem filter_draws_eq_nil {f : Folding} {index : Nat} {steps : List Nat}
    (h : f.shows index steps = false) (position : Nat) (rs : List Record) :
    (sitesBelow steps position rs).filter (f.draws index ·.steps) = [] := by
  rw [List.filter_eq_nil_iff]
  intro site hsite hdrawn
  obtain ⟨k, -, more, hmore⟩ := suffix_of_mem_sitesBelow hsite
  have htail : steps <:+ site.steps.tail := by
    rw [← hmore]
    cases more with
    | nil => exact List.suffix_rfl
    | cons _ more => exact ⟨more ++ [k], by simp⟩
  have hshown := Folding.shows_of_suffix htail hdrawn
  rw [h] at hshown
  cases hshown

mutual

/-- The lines of a tree are those of its sites that are drawn. -/
theorem Reads.flatMap_fileLines (h : Reads read boxed) (c : Canvas)
    (index step : Nat) (above : List Nat) (parent : NodeId)
    (hshown : c.folding.shows index above = true) :
    ∀ r : Record, (c.fileLines index (step :: above) parent r).flatMap
      (read ·.mark)
      = ((sitesOf (step :: above) r).filter
        (c.folding.draws index ·.steps)).flatMap
        fun site => c.readPart read boxed (.component index site.steps)
  | ⟨_, name, _, _, _, facts, _, children⟩ => by
      have hdrawn : c.folding.draws index (step :: above) = true := hshown
      have hopen : c.folding.shows index (step :: above)
          = c.folding.isOpen index (step :: above) := by
        rw [Folding.shows, hshown, Bool.true_and]
      rw [sitesOf, List.filter_cons, if_pos hdrawn, List.flatMap_cons,
        Canvas.fileLines]
      cases children with
      | nil =>
          simp [sitesBelow, Canvas.readPart, flatMap_callLines, h.box, h.arrow]
      | cons child rest =>
          cases hisOpen : c.folding.isOpen index (step :: above) with
          | true =>
              have hbelow := h.flatMap_filesLines c index (step :: above) 0
                (.component index (step :: above)) (hopen.trans hisOpen)
                (child :: rest)
              simp [hbelow, Canvas.readPart, flatMap_callLines, h.box, h.arrow,
                h.opening, h.direction, h.closing]
          | false =>
              simp [filter_draws_eq_nil (hopen.trans hisOpen), Canvas.readPart,
                flatMap_callLines, h.box, h.arrow]

/-- The lines of some trees are those of their sites that are drawn. -/
theorem Reads.flatMap_filesLines (h : Reads read boxed) (c : Canvas)
    (index : Nat) (steps : List Nat) (position : Nat) (parent : NodeId)
    (hshown : c.folding.shows index steps = true) :
    ∀ rs : List Record, (c.filesLines index steps position parent rs).flatMap
      (read ·.mark)
      = ((sitesBelow steps position rs).filter
        (c.folding.draws index ·.steps)).flatMap
        fun site => c.readPart read boxed (.component index site.steps)
  | [] => by simp [Canvas.filesLines, sitesBelow]
  | r :: rest => by
      rw [Canvas.filesLines, sitesBelow, List.flatMap_append,
        List.filter_append, List.flatMap_append,
        h.flatMap_fileLines c index position steps parent hshown r,
        h.flatMap_filesLines c index steps (position + 1) parent hshown rest]

end

/-- The lines of a middleware are those of its parts that are drawn. -/
theorem Reads.flatMap_middlewareLines (h : Reads read boxed) (c : Canvas)
    (index : Nat) (m : Middleware) :
    (c.middlewareLines index m).flatMap (read ·.mark)
      = (shownAt c.folding index m).flatMap (c.readPart read boxed) := by
  rw [shownAt, List.flatMap_cons, List.flatMap_map, Canvas.middlewareLines,
    mainId, sites]
  cases hcomponents : m.components with
  | nil => simp [sitesBelow, Canvas.readPart, flatMap_callLines, h.box]
  | cons child rest =>
      cases hshown : c.folding.showsMiddleware index with
      | true =>
          have hbelow :=
            h.flatMap_filesLines c index [] 0 (.main index) hshown
              (child :: rest)
          simp [hbelow, Canvas.readPart, flatMap_callLines, h.box, h.opening,
            h.closing]
      | false =>
          have hnone : (sitesBelow [] 0 (child :: rest)).filter
            (c.folding.draws index ·.steps)
              = [] := by
            have hclosed : c.folding.shows index [] = false := hshown
            exact filter_draws_eq_nil hclosed 0 (child :: rest)
          simp [hnone, Canvas.readPart, flatMap_callLines, h.box, h.opening,
            h.closing]

/-- Nothing is read off the arrows between middlewares. -/
theorem Reads.flatMap_edges (h : Reads read boxed)
    (middlewares : List Middleware) (edges : List Edge) :
    (edges.filterMap (edgeLine? middlewares)).flatMap (read ·.mark) = [] := by
  rw [List.flatMap_eq_nil_iff]
  intro line hline
  obtain ⟨e, -, he⟩ := List.mem_filterMap.mp hline
  simp only [edgeLine?, Option.bind_eq_bind, Option.bind_eq_some_iff] at he
  obtain ⟨source, -, target, -, he⟩ := he
  split at he
  · cases he
    exact h.arrow _ _
  · cases he
    exact h.labelled _ _ _

/-- **The lines of a chart.**  They are those of the parts that are drawn. -/
theorem Reads.flatMap_body_draw (h : Reads read boxed) (f : Folding)
    (r : FlowResult) :
    (draw f r).body.flatMap (read ·.mark)
      = (shown f r.middlewares).flatMap
        (Canvas.readPart read boxed ⟨f, placedCalls f r.middlewares⟩) := by
  rw [draw, shown, List.flatMap_assoc, List.flatMap_assoc]
  refine List.flatMap_congr fun entry _ => ?_
  exact h.flatMap_middlewareLines _ entry.2 entry.1

/-- What is read off a chart is read off the parts that are shown, one after
another. -/
theorem Reads.flatMap_lines_draw (h : Reads read boxed) (f : Folding)
    (r : FlowResult) :
    (draw f r).lines.flatMap (read ·.mark)
      = (shown f r.middlewares).flatMap
        (Canvas.readPart read boxed ⟨f, placedCalls f r.middlewares⟩) := by
  have hedges : (draw f r).edges.flatMap (read ·.mark) = [] :=
    h.flatMap_edges r.middlewares r.edges
  rw [lines, List.flatMap_append, h.flatMap_body_draw, hedges, List.append_nil]

end Reading

section Drawn

variable (f : Folding) (r : FlowResult)

/-- The calls that hang on a part of a chart. -/
def hanging (owner : NodeId) : List ServiceCall :=
  Canvas.callsAt ⟨f, placedCalls f r.middlewares⟩ owner

/-- The boxes of a chart are the parts that are shown, each with those of its
calls. -/
theorem nodes_draw :
    (draw f r).nodes = (shown f r.middlewares).flatMap fun owner =>
    owner :: (hanging f r owner).zipIdx.map (.call owner ·.2) := by
  have hreads : Reads (fun mark => mark.node?.toList) fun id => [id] :=
    ⟨fun _ _ _ => rfl, fun _ _ => rfl, rfl, rfl, fun _ _ => rfl,
      fun _ _ _ => rfl⟩
  rw [nodes, List.filterMap_eq_flatMap_toList, hreads.flatMap_lines_draw]
  refine List.flatMap_congr fun owner _ => ?_
  simp [Canvas.readPart, Canvas.readCalls, Mark.node?, hanging,
    List.map_eq_flatMap]

/-- The calls of a chart are those that hang on the parts that are shown. -/
theorem calls_draw :
    (draw f r).calls = (shown f r.middlewares).flatMap fun owner =>
    (hanging f r owner).zipIdx.map fun placed =>
      (.call owner placed.2, placed.1) := by
  have hreads : Reads (fun mark => mark.call?.toList) fun _ => [] :=
    ⟨fun _ _ _ => rfl, fun _ _ => rfl, rfl, rfl, fun _ _ => rfl,
      fun _ _ _ => rfl⟩
  have hcall : ∀ line : Line, line.call? = line.mark.call? := by
    intro line
    obtain ⟨indent, mark⟩ := line
    cases mark <;> rfl
  have hread : (draw f r).calls = (draw f r).body.filterMap (·.mark.call?) :=
    List.filterMap_congr fun line _ => hcall line
  rw [hread, List.filterMap_eq_flatMap_toList, hreads.flatMap_body_draw]
  refine List.flatMap_congr fun owner _ => ?_
  simp [Canvas.readPart, Canvas.readCalls, Mark.call?, hanging,
    List.map_eq_flatMap]

/-- Each call has one dotted arrow, and it comes from the part that the call
hangs on. -/
theorem dotted_draw : (draw f r).dotted = (draw f r).calls.map fun entry =>
    (entry.1.owner, entry.1) := by
  have hreads : Reads (fun mark => mark.dotted?.toList) fun _ => [] :=
    ⟨fun _ _ _ => rfl, fun _ _ => rfl, rfl, rfl, fun _ _ => rfl,
      fun _ _ _ => rfl⟩
  rw [dotted, List.filterMap_eq_flatMap_toList, hreads.flatMap_lines_draw,
    calls_draw, List.map_flatMap]
  refine List.flatMap_congr fun owner _ => ?_
  simp [Canvas.readPart, Canvas.readCalls, Mark.dotted?,
    hanging, ← List.map_eq_flatMap, NodeId.owner]

end Drawn

/-- The middleware that a part belongs to. -/
def NodeId.index : NodeId → Nat
  | middleware index | main index | component index _ | frame index _ => index
  | call owner _ => owner.index

section Names

variable {f : Folding} {index : Nat} {m : Middleware}
  {middlewares : List Middleware}
  {id : NodeId}

/-- A part of a middleware that is shown has a proper name, is no call and has
the number of the middleware. -/
theorem of_mem_shownAt (h : id ∈ shownAt f index m) :
    id.Proper ∧ id.owner = id ∧ id.index = index := by
  rcases List.mem_cons.mp h with rfl | hbelow
  · unfold mainId
    split <;> exact ⟨trivial, rfl, rfl⟩
  · obtain ⟨site, hsite, rfl⟩ := List.mem_map.mp hbelow
    exact ⟨steps_ne_nil_of_mem_sites (List.mem_of_mem_filter hsite), rfl, rfl⟩

/-- No part of a middleware is shown twice. -/
theorem nodup_shownAt : (shownAt f index m).Nodup := by
  have hsteps :
      (((sites m).filter (f.draws index ·.steps)).map Site.steps).Nodup :=
    (nodup_sitesBelow m.components).sublist (List.filter_sublist.map _)
  rw [shownAt, List.nodup_cons]
  constructor
  · intro hmem
    obtain ⟨site, -, heq⟩ := List.mem_map.mp hmem
    unfold mainId at heq
    split at heq <;> cases heq
  · have hinjective : Function.Injective (NodeId.component index) :=
      fun _ _ heq =>
      (NodeId.component.inj heq).2
    have hmap := hsteps.map hinjective
    rwa [List.map_map] at hmap

/-- A part is shown just when it is shown of some middleware. -/
theorem mem_shown : id ∈ shown f middlewares ↔
    ∃ index m, middlewares[index]? = some m ∧ id ∈ shownAt f index m := by
  rw [shown, List.mem_flatMap]
  constructor
  · rintro ⟨⟨m, index⟩, hentry, hid⟩
    exact ⟨index, m, List.mk_mem_zipIdx_iff_getElem?.mp hentry, hid⟩
  · rintro ⟨index, m, hm, hid⟩
    exact ⟨(m, index), List.mk_mem_zipIdx_iff_getElem?.mpr hm, hid⟩

/-- No part is shown twice. -/
theorem nodup_shown : (shown f middlewares).Nodup := by
  refine nodup_flatMap_of_key NodeId.index (·.2) ?_ (fun _ _ =>
    nodup_shownAt) ?_
  · rw [List.zipIdx_map_snd]
    exact List.nodup_range'
  · intro entry _ id hid
    exact (of_mem_shownAt hid).2.2

/-- A part that is shown has a proper name and is no call. -/
theorem of_mem_shown (h : id ∈ shown f middlewares) :
    id.Proper ∧ id.owner = id := by
  obtain ⟨index, m, -, hshown⟩ := mem_shown.mp h
  exact ⟨(of_mem_shownAt hshown).1, (of_mem_shownAt hshown).2.1⟩

/-- The calls of a part have different names. -/
theorem nodup_map_call (owner : NodeId) (calls : List ServiceCall) :
    (calls.zipIdx.map (NodeId.call owner ·.2)).Nodup := by
  have hpositions : (calls.zipIdx.map (·.2)).Nodup := by
    rw [List.zipIdx_map_snd]
    exact List.nodup_range'
  have hinjective : Function.Injective (NodeId.call owner) := fun _ _ heq =>
    (NodeId.call.inj heq).2
  have hmap := hpositions.map hinjective
  rwa [List.map_map] at hmap

/-- The calls of a part are owned by it. -/
theorem owner_of_mem_map_call {owner : NodeId} {calls : List ServiceCall}
    (h : id ∈ calls.zipIdx.map (NodeId.call owner ·.2)) : id.owner = owner := by
  obtain ⟨placed, -, rfl⟩ := List.mem_map.mp h
  rfl

variable (f) (r : FlowResult)

/-- Every box has a proper name. -/
theorem proper_of_mem_nodes (h : id ∈ (draw f r).nodes) : id.Proper := by
  rw [nodes_draw, List.mem_flatMap] at h
  obtain ⟨owner, howner, hid⟩ := h
  rcases List.mem_cons.mp hid with rfl | hcall
  · exact (of_mem_shown howner).1
  · obtain ⟨placed, -, rfl⟩ := List.mem_map.mp hcall
    exact (of_mem_shown howner).1

/-- No two boxes have the same name. -/
theorem nodup_nodes : (draw f r).nodes.Nodup := by
  rw [nodes_draw]
  refine nodup_flatMap_of_key NodeId.owner (·)
    (by simpa using nodup_shown) ?_ ?_
  · intro owner _
    refine List.nodup_cons.mpr ⟨?_, nodup_map_call owner _⟩
    intro hmem
    obtain ⟨placed, -, heq⟩ := List.mem_map.mp hmem
    cases heq
  · intro owner howner id hid
    rcases List.mem_cons.mp hid with rfl | hcall
    · exact (of_mem_shown howner).2
    · exact owner_of_mem_map_call hcall

/-- The boxes of calls are among the boxes of a chart. -/
theorem calls_sublist_nodes :
    ((draw f r).calls.map (·.1)).Sublist (draw f r).nodes := by
  rw [calls_draw, nodes_draw, List.map_flatMap]
  refine List.Sublist.flatMap_right _ fun owner _ => ?_
  rw [List.map_map]
  exact List.sublist_cons_self owner _

/-- **Every box has a name of its own.** -/
theorem nodup_names : ((draw f r).nodes.map NodeId.text).Nodup := by
  refine (nodup_nodes f r).map_on ?_
  intro a ha b hb heq
  exact NodeId.eq_of_text_eq (proper_of_mem_nodes f r ha)
    (proper_of_mem_nodes f r hb) heq

end Names

section Placed

variable {f : Folding} {index : Nat} {m : Middleware}
  {middlewares : List Middleware}

/-- The calls of a middleware that have a template. -/
def templated (m : Middleware) : List ServiceCall :=
  m.calls.filter fun c => c.template.getD "" ≠ ""

/-- The calls of a chart are the same for every folding. -/
theorem map_snd_placedCalls (f : Folding) (middlewares : List Middleware) :
    (placedCalls f middlewares).map (·.2)
      = uniqueBy callMark (middlewares.flatMap templated) := by
  have hcalls : ∀ entry : Middleware × Nat,
      (callsOf f entry.2 entry.1).map (·.2) = templated entry.1 := by
    intro entry
    rw [callsOf, List.map_map]
    exact List.map_id _
  have hall : (middlewares.zipIdx.flatMap fun entry => templated entry.1)
      = middlewares.flatMap templated := by
    calc (middlewares.zipIdx.flatMap fun entry => templated entry.1)
        = (middlewares.zipIdx.map Prod.fst).flatMap templated :=
          (List.flatMap_map _ _ _).symm
      _ = middlewares.flatMap templated := by rw [List.zipIdx_map_fst]
  rw [placedCalls, uniqueBy, map_uniqueFrom, List.map_flatMap, uniqueBy]
  simp only [hcalls, hall]

/-- What a file's calls hang on is drawn. -/
theorem mem_shownAt_of_placeOf? {same : Path → Bool} {node : NodeId}
    (h : placeOf? f index m same = some node) : node ∈ shownAt f index m := by
  have hcomponent : ∀ site ∈ sites m, f.draws index site.steps = true →
      NodeId.component index site.steps ∈ shownAt f index m := by
    intro site hsite hdrawn
    exact List.mem_cons_of_mem
      _ (List.mem_map_of_mem (List.mem_filter.mpr ⟨hsite, hdrawn⟩))
  unfold placeOf? at h
  split at h
  · cases h
    exact List.mem_cons_self
  · split at h
    · rename_i site hsite
      cases h
      have hboth := List.find?_some hsite
      rw [Bool.and_eq_true] at hboth
      exact hcomponent site (List.mem_of_find?_eq_some hsite) hboth.2
    · obtain ⟨site, hsite, rfl⟩ := Option.map_eq_some_iff.mp h
      rcases f.nearest_eq_or (mainId index m) site.steps
        with htop | ⟨t, ht, hne, hdrawn, heq⟩
      · rw [htop]
        exact List.mem_cons_self
      · rw [heq]
        obtain ⟨above, habove, rfl⟩ := exists_mem_sitesBelow_of_suffix
          (List.mem_of_find?_eq_some hsite) ht (List.length_pos_iff.mpr hne)
        exact hcomponent above habove hdrawn

/-- The part at which the calls of a file are placed. -/
theorem of_mem_callsOf {placed : NodeId × ServiceCall}
    (h : placed ∈ callsOf f index m) :
    placed.2 ∈ m.calls ∧
      placed.1
        = (placeOf? f index m (pathKey · = pathKey placed.2.path)).getD
          (mainId index m) := by
  obtain ⟨call, hcall, rfl⟩ := List.mem_map.mp h
  exact ⟨List.mem_of_mem_filter hcall, by rw [← lookup_spotsOf]⟩

/-- Calls are placed at parts that are drawn. -/
theorem mem_shown_of_mem_placedCalls {placed : NodeId × ServiceCall}
    (h : placed ∈ placedCalls f middlewares) :
    placed.1 ∈ shown f middlewares := by
  obtain ⟨⟨m, index⟩, hentry, hplaced⟩ :=
    List.mem_flatMap.mp (mem_of_mem_uniqueFrom h)
  refine mem_shown.mpr ⟨index, m, List.mk_mem_zipIdx_iff_getElem?.mp hentry, ?_⟩
  rw [(of_mem_callsOf hplaced).2]
  cases hplace : placeOf? f index m (pathKey · = pathKey placed.2.path) with
  | none => exact List.mem_cons_self
  | some node => exact mem_shownAt_of_placeOf? hplace

/-- **Each placed call is drawn once**, at the part where it is placed. -/
theorem map_owner_calls_perm (f : Folding) (r : FlowResult) :
    ((draw f r).calls.map fun entry => (entry.1.owner, entry.2)).Perm
      (placedCalls f r.middlewares) := by
  have hblocks : ((draw f r).calls.map fun entry => (entry.1.owner, entry.2))
      = (shown f r.middlewares).flatMap fun owner =>
        (placedCalls f r.middlewares).filter (·.1 = owner) := by
    rw [calls_draw, List.map_flatMap]
    refine List.flatMap_congr fun owner _ => ?_
    have hsame : ∀ placed ∈ (placedCalls f r.middlewares).filter (·.1 = owner),
        (owner, placed.2) = placed := by
      intro placed hplaced
      have howner := (List.mem_filter.mp hplaced).2
      rw [decide_eq_true_eq] at howner
      rw [← howner]
    calc ((hanging f r owner).zipIdx.map fun placed =>
      (NodeId.call owner placed.2, placed.1)).map
          (fun entry => (entry.1.owner, entry.2))
        = ((hanging f r owner).zipIdx.map Prod.fst).map (owner, ·) := by
          rw [List.map_map, List.map_map]
          rfl
      _ = ((placedCalls f r.middlewares).filter (·.1 = owner)).map (fun p =>
          (owner, p.2)) := by
          rw [List.zipIdx_map_fst, hanging, Canvas.callsAt, List.map_map]
          rfl
      _ = (placedCalls f r.middlewares).filter (·.1 = owner) := by
          rw [List.map_congr_left hsame, List.map_id']
  rw [hblocks]
  exact flatMap_filter_perm (·.1) nodup_shown fun placed hplaced =>
    mem_shown_of_mem_placedCalls hplaced

end Placed

/-- Whatever is folded, the same calls are drawn.  Each call that is placed at
a part is drawn once, at that part, and the part has one box.  The calls have
different names, and each is the name of one box and the target of one dotted
arrow, which comes from the part that the call hangs on. -/
theorem calls_drawn_once (r : FlowResult) :
    (∀ f f' : Folding,
      ((draw f r).calls.map (·.2)).Perm ((draw f' r).calls.map (·.2))) ∧
    ∀ f : Folding,
      ((draw f r).calls.map fun entry => (entry.1.owner, entry.2)).Perm
          (placedCalls f r.middlewares) ∧
        (∀ placed ∈ placedCalls f r.middlewares,
          ((draw f r).nodes.map NodeId.text).count placed.1.text = 1) ∧
        ((draw f r).calls.map (·.1.text)).Nodup ∧
        ∀ entry ∈ (draw f r).calls,
          ((draw f r).nodes.map NodeId.text).count entry.1.text = 1 ∧
            ((draw f r).dotted.map (·.2.text)).count entry.1.text = 1 ∧
            (entry.1.owner, entry.1) ∈ (draw f r).dotted := by
  have hplaced : ∀ f : Folding, ((draw f r).calls.map (·.2)).Perm
      ((placedCalls f r.middlewares).map (·.2)) := by
    intro f
    have hperm := (map_owner_calls_perm f r).map (·.2)
    rwa [List.map_map] at hperm
  have hnames : ∀ f : Folding, ((draw f r).calls.map (·.1.text)).Nodup := by
    intro f
    have hsublist := (calls_sublist_nodes f r).map NodeId.text
    rw [List.map_map] at hsublist
    exact (nodup_names f r).sublist hsublist
  refine ⟨fun f f' => ?_, fun f => ⟨map_owner_calls_perm f r, ?_, ?_, ?_⟩⟩
  · have hf := hplaced f
    have hf' := hplaced f'
    rw [map_snd_placedCalls] at hf hf'
    exact hf.trans hf'.symm
  · intro placed hmem
    have hshown := mem_shown_of_mem_placedCalls hmem
    have hnode : placed.1 ∈ (draw f r).nodes := by
      rw [nodes_draw, List.mem_flatMap]
      exact ⟨placed.1, hshown, List.mem_cons_self⟩
    exact List.count_eq_one_of_mem (nodup_names f r) (List.mem_map_of_mem hnode)
  · exact hnames f
  · intro entry hentry
    have hnode := (calls_sublist_nodes f r).subset (List.mem_map_of_mem hentry)
    have htarget : (entry.1.owner, entry.1) ∈ (draw f r).dotted := by
      rw [dotted_draw]
      exact List.mem_map_of_mem hentry
    refine ⟨List.count_eq_one_of_mem (nodup_names f r)
      (List.mem_map_of_mem hnode), ?_, htarget⟩
    refine List.count_eq_one_of_mem ?_ (List.mem_map_of_mem htarget)
    rw [dotted_draw, List.map_map]
    exact hnames f

end Relay.Chart
