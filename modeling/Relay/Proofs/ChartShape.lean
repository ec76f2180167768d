import Relay.Proofs.DrawnCalls

/-!
# The shape of a chart

The lines of a chart declare boxes and frames, begin and end frames, and join
what is declared.  How the lines of files are laid out is said once, by
`Canvas.Laid`: a file is a box, or a frame around its box and what is laid out
below it.  From this follow that the frames are properly nested
(`Canvas.Laid.nested`), that every frame goes with a box of its own
(`Canvas.Laid.frames_sublist`), and that arrows join only what is declared
(`Canvas.Laid.joins`).

A file is declared if its middleware is not folded and every file above it is
open (`Folding.draws_iff`); with everything open, all files are
(`draw_wellFormed`).
-/

namespace Relay.Chart

open Analysis

namespace Mark

/-- The box or frame that a line declares. -/
def declared? : Mark → Option NodeId
  | opening id _ | box id _ _ | callBox id _ => some id
  | _ => none

/-- The frame that a line begins. -/
def frame? : Mark → Option NodeId
  | opening id _ => some id
  | _ => none

/-- The box of a file that a line declares. -/
def box? : Mark → Option NodeId
  | box id _ _ => some id
  | _ => none

/-- The ends of the arrow of a line. -/
def ends : Mark → List NodeId
  | arrow source target | callArrow source target | labelled source target _ =>
    [source, target]
  | _ => []

end Mark

/-- The parts that are read off the marks of some lines. -/
def readOff (read : Mark → Option NodeId) (lines : List Line) : List NodeId :=
  lines.filterMap (read ·.mark)

section ReadOff

variable (read : Mark → Option NodeId)

@[simp] theorem readOff_nil : readOff read [] = [] := rfl

@[simp] theorem readOff_cons (line : Line) (lines : List Line) :
    readOff read (line :: lines) = (read line.mark).toList ++
      readOff read lines := by
  cases h : read line.mark <;> simp [readOff, h]

@[simp] theorem readOff_append (xs ys : List Line) :
    readOff read (xs ++ ys) = readOff read xs ++ readOff read ys :=
  List.filterMap_append

end ReadOff

/-- The boxes and frames that a chart declares. -/
def declared (chart : Chart) : List NodeId :=
  readOff Mark.declared? chart.lines

/-- The texts of the lines of a chart. -/
def texts (chart : Chart) : List String :=
  ["flowchart TD"] ++ looks.map ("    " ++ ·) ++ [""] ++
    chart.body.map (·.text) ++ [""]
    ++ chart.edges.map (·.text)

/-- The text of a chart has its lines, each with a line feed. -/
theorem text_eq (chart : Chart) :
    chart.text = Text.join "\n" chart.texts ++ "\n" := rfl

/-- What is declared is a box or a frame. -/
theorem readOff_declared_perm (lines : List Line) :
    (readOff Mark.declared? lines).Perm
      (readOff Mark.node? lines ++ readOff Mark.frame? lines) := by
  induction lines with
  | nil => exact .refl _
  | cons line lines ih =>
      obtain ⟨indent, mark⟩ := line
      cases mark with
      | opening id label =>
          simpa [Mark.declared?, Mark.node?, Mark.frame?] using
            (ih.cons id).trans List.perm_middle.symm
      | _ => simpa [Mark.declared?, Mark.node?, Mark.frame?] using ih

/-- The arrows of some lines join parts of a list only. -/
def Joins (known : List NodeId) (lines : List Line) : Prop :=
  ∀ line ∈ lines, ∀ id ∈ line.mark.ends, id ∈ known

/-- Arrows that join known names join names among more known ones. -/
theorem Joins.mono {known known' : List NodeId} {lines : List Line}
    (h : Joins known lines) (hsubset : known ⊆ known') : Joins known' lines :=
  fun line hline id hid => hsubset (h line hline id hid)

/-- A text without the blanks at its beginning. -/
def unindented (t : String) : List Char :=
  t.toList.dropWhile (· = ' ')

/-- A text begins a frame. -/
def opens (t : String) : Bool :=
  "subgraph ".toList.isPrefixOf (unindented t)

/-- A text ends a frame. -/
def closes (t : String) : Bool :=
  unindented t == "end".toList

/-- In some texts, every frame that begins ends, and those that begin inside it
end before it does. -/
inductive Nested : List String → Prop
  | nil : Nested []
  | plain {t : String} {rest : List String} (hopens : opens t = false)
      (hcloses : closes t = false) (hrest : Nested rest) : Nested (t :: rest)
  | frame {t u : String} {inside rest : List String} (hopens : opens t = true)
      (hcloses : closes u = true) (hinside : Nested inside)
      (hrest : Nested rest) :
      Nested (t :: (inside ++ u :: rest))

namespace Nested

/-- Nested texts after nested ones are nested. -/
theorem append {ts us : List String} (h : Nested ts) (h' : Nested us) :
    Nested (ts ++ us) := by
  induction h with
  | nil => exact h'
  | plain hopens hcloses _ ih => exact .plain hopens hcloses ih
  | frame hopens hcloses hinside _ _ ih =>
      rw [List.cons_append, List.append_assoc]
      exact .frame hopens hcloses hinside ih

/-- Texts that neither open nor close a frame are nested. -/
theorem of_forall {ts : List String}
    (h : ∀ t ∈ ts, opens t = false ∧ closes t = false) :
    Nested ts := by
  induction ts with
  | nil => exact .nil
  | cons t ts ih =>
      rw [List.forall_mem_cons] at h
      exact .plain h.1.1 h.1.2 (ih h.2)

/-- Blocks that are nested are nested one after another. -/
theorem flatMap {α : Type} {items : List α} {block : α → List String}
    (h : ∀ a ∈ items, Nested (block a)) : Nested (items.flatMap block) := by
  induction items with
  | nil => exact .nil
  | cons a items ih =>
      rw [List.forall_mem_cons] at h
      rw [List.flatMap_cons]
      exact h.1.append (ih h.2)

end Nested

/-- The name of a part begins with the letter of middlewares. -/
theorem NodeId.exists_toList_text (id : NodeId) :
    ∃ cs, id.text.toList = 'M' :: cs := by
  have htext : ∀ t : String, toString t = t := fun _ => rfl
  have hfile : ∀ index steps, ∃ cs,
      (componentText index steps).toList = 'M' :: cs := by
    intro index steps
    induction steps with
    | nil => simp [componentText, htext]
    | cons step steps ih =>
        obtain ⟨cs, hcs⟩ := ih
        simp [componentText, htext, hcs]
  induction id with
  | middleware index => simp [text, htext]
  | main index => simp [text, htext]
  | component index steps => exact hfile index steps
  | frame index steps =>
      obtain ⟨cs, hcs⟩ := hfile index steps
      simp [text, htext, hcs]
  | call owner position ih =>
      obtain ⟨cs, hcs⟩ := ih
      simp [text, htext, hcs]

/-- A line without its indentation is its mark without blanks at the
beginning. -/
theorem unindented_text (line : Line) :
    unindented line.text = line.mark.text.toList.dropWhile (· = ' ') := by
  rw [unindented, Line.text, String.toList_append, String.toList_ofList]
  exact List.dropWhile_append_of_pos (by simp)

/-- What begins with a name neither begins nor ends a frame. -/
theorem opens_closes_of_name {line : Line} (id : NodeId)
    (h : id.text.toList <+: line.mark.text.toList) :
    opens line.text = false ∧ closes line.text = false := by
  obtain ⟨more, hmore⟩ := h
  obtain ⟨cs, hcs⟩ := id.exists_toList_text
  rw [opens, closes, unindented_text, ← hmore, hcs]
  exact ⟨rfl, rfl⟩

/-- Only the beginning of a frame reads as one, and only the end of a frame. -/
theorem opens_closes_text (line : Line) :
    opens line.text = line.mark.frame?.isSome ∧
      closes line.text = decide (line.mark = .closing) := by
  have htext : ∀ t : String, toString t = t := fun _ => rfl
  obtain ⟨indent, mark⟩ := line
  cases mark with
  | opening id label =>
      simp [opens, closes, unindented_text, Mark.text, Mark.frame?, htext]
  | direction =>
      simp [opens, closes, unindented_text, Mark.text, Mark.frame?,
        List.isPrefixOf]
  | closing =>
      simp [opens, closes, unindented_text, Mark.text, Mark.frame?,
        List.isPrefixOf]
  | box id label look => exact opens_closes_of_name id (by simp [Mark.text])
  | callBox id call => exact opens_closes_of_name id (by simp [Mark.text])
  | arrow source target =>
      exact opens_closes_of_name source (by simp [Mark.text, htext])
  | callArrow source target =>
      exact opens_closes_of_name source (by simp [Mark.text, htext])
  | labelled source target label =>
      exact opens_closes_of_name source (by simp [Mark.text])

/-- A line neither begins nor ends a frame. -/
def Line.Flat (line : Line) : Prop :=
  line.mark.frame? = none ∧ line.mark ≠ .closing

/-- Lines that are flat are nested. -/
theorem nested_of_flat {lines : List Line} (h : ∀ line ∈ lines, line.Flat) :
    Nested (lines.map Line.text) := by
  refine .of_forall fun t ht => ?_
  obtain ⟨line, hline, rfl⟩ := List.mem_map.mp ht
  obtain ⟨hopens, hcloses⟩ := opens_closes_text line
  rw [hopens, hcloses, (h line hline).1, decide_eq_false (h line hline).2]
  exact ⟨rfl, rfl⟩

/-- Nested lines inside a frame are nested. -/
theorem nested_framed (indent indent' : Nat) (id : NodeId) (label : String)
    {inside : List Line} (h : Nested (inside.map Line.text)) :
    Nested
      ((⟨indent, .opening id label⟩ :: (inside ++ [⟨indent', .closing⟩])).map
        Line.text) := by
  rw [List.map_cons, List.map_append, List.map_singleton]
  exact .frame (opens_closes_text _).1 (opens_closes_text _).2 h .nil

/-- The other part of a box or frame: the two of a middleware and the two of a
file. -/
def NodeId.partner : NodeId → NodeId
  | middleware index => main index
  | main index => middleware index
  | component index steps => frame index steps
  | frame index steps => component index steps
  | call owner position => call owner position

/-- No two boxes have the same frame. -/
theorem NodeId.partner_injective : Function.Injective NodeId.partner := by
  have hback : Function.LeftInverse NodeId.partner NodeId.partner := by
    intro id
    cases id <;> rfl
  exact hback.injective

namespace Canvas

variable (c : Canvas) (index : Nat)

/-- Lines of files that stand below a part: the box of a file with its calls,
or a frame around such a box and the lines of files that stand below it. -/
inductive Laid : NodeId → List Line → Prop
  | nil {parent : NodeId} : Laid parent []
  | append {parent : NodeId} {xs ys : List Line} (hx : Laid parent xs)
      (hy : Laid parent ys) :
      Laid parent (xs ++ ys)
  | single {parent : NodeId} (indent : Nat) (steps : List Nat) (label : String)
      (look : Look) :
      Laid parent
        (⟨indent, .box (.component index steps) label look⟩
          :: ⟨indent, .arrow parent (.component index steps)⟩
          :: c.callLines indent (.component index steps))
  | framed {parent : NodeId} {inside : List Line} (indent : Nat)
      (steps : List Nat)
      (label label' : String) (look : Look)
      (hinside : Laid (.component index steps) inside) :
      Laid parent
        (⟨indent, .opening (.frame index steps) label⟩
          :: (⟨indent + 1, .direction⟩ ::
            ⟨indent + 1, .box (.component index steps) label' look⟩
            :: (c.callLines (indent + 1) (.component index steps) ++ inside)
            ++ [⟨indent, .closing⟩])
          ++ [⟨indent, .arrow parent (.component index steps)⟩])

variable {c index}

mutual

/-- The lines of a file are laid out. -/
theorem laid_fileLines (steps : List Nat) (parent : NodeId) :
    ∀ r : Record, Laid c index parent (c.fileLines index steps parent r)
  | ⟨_, name, _, _, _, facts, _, children⟩ => by
      rw [fileLines]
      split
      · exact .single _ _ _ _
      · split
        · have hbelow :=
            laid_filesLines steps 0 (.component index steps) children
          simpa using Laid.framed (steps.length + 1)
            steps " " _ .expandable hbelow
        · exact .single _ _ _ _

/-- The lines of files that stand below one another are laid out. -/
theorem laid_filesLines (steps : List Nat) (position : Nat) (parent : NodeId) :
    ∀ rs : List Record, Laid c index parent
      (c.filesLines index steps position parent rs)
  | [] => by
      rw [filesLines]
      exact .nil
  | r :: rest => by
      rw [filesLines]
      exact .append (laid_fileLines _ parent r)
        (laid_filesLines steps _ parent rest)

end

/-- The lines of calls neither open nor close a frame. -/
theorem flat_callLines (indent : Nat) (owner : NodeId) :
    ∀ line ∈ c.callLines indent owner, line.Flat := by
  intro line hline
  obtain ⟨placed, -, hline⟩ := List.mem_flatMap.mp hline
  simp only [List.mem_cons, List.not_mem_nil, or_false] at hline
  rcases hline with rfl | rfl <;> exact ⟨rfl, nofun⟩

/-- The lines of calls have no frame. -/
theorem readOff_frame_callLines (indent : Nat) (owner : NodeId) :
    readOff Mark.frame? (c.callLines indent owner) = [] := by
  rw [readOff, List.filterMap_eq_nil_iff]
  exact fun line hline => (flat_callLines indent owner line hline).1

/-- The box of a call is declared right above the arrow to it. -/
theorem joins_callLines (indent : Nat) (owner : NodeId) :
    Joins (owner :: readOff Mark.declared? (c.callLines indent owner))
      (c.callLines indent owner) := by
  intro line hline id hid
  obtain ⟨placed, hplaced, hblock⟩ := List.mem_flatMap.mp hline
  have hbox : NodeId.call owner placed.2 ∈ readOff Mark.declared?
      (c.callLines indent owner) :=
    List.mem_filterMap.mpr ⟨⟨indent, .callBox (.call owner placed.2) placed.1⟩,
      List.mem_flatMap.mpr ⟨placed, hplaced, List.mem_cons_self⟩, rfl⟩
  simp only [List.mem_cons, List.not_mem_nil, or_false] at hblock
  rcases hblock with rfl | rfl
  · cases hid
  · simp only [Mark.ends, List.mem_cons, List.not_mem_nil, or_false] at hid
    rcases hid with rfl | rfl
    · exact List.mem_cons_self
    · exact List.mem_cons_of_mem _ hbox

/-- Lines that are laid out are nested. -/
theorem Laid.nested {parent : NodeId} {lines : List Line}
    (h : Laid c index parent lines) :
    Nested (lines.map Line.text) := by
  induction h with
  | nil => exact .nil
  | append _ _ hx hy =>
      rw [List.map_append]
      exact hx.append hy
  | single indent steps label look =>
      refine nested_of_flat ?_
      rw [List.forall_mem_cons, List.forall_mem_cons]
      exact ⟨⟨rfl, nofun⟩, ⟨rfl, nofun⟩, flat_callLines _ _⟩
  | framed indent steps label label' look _ ih =>
      rw [List.map_append]
      refine .append (nested_framed _ _ _ _ ?_) (nested_of_flat ?_)
      · rw [← List.cons_append, ← List.cons_append, List.map_append]
        refine .append (nested_of_flat ?_) ih
        rw [List.forall_mem_cons, List.forall_mem_cons]
        exact ⟨⟨rfl, nofun⟩, ⟨rfl, nofun⟩, flat_callLines _ _⟩
      · exact List.forall_mem_singleton.mpr ⟨rfl, nofun⟩

/-- Every frame of files goes with a box of its own. -/
theorem Laid.frames_sublist {parent : NodeId} {lines : List Line}
    (h : Laid c index parent lines) :
    (readOff Mark.frame? lines).Sublist
      ((readOff Mark.box? lines).map NodeId.partner) := by
  induction h with
  | nil => exact .slnil
  | append _ _ hx hy => simpa using hx.append hy
  | single indent steps label look =>
      simp [Mark.frame?, readOff_frame_callLines]
  | framed indent steps label label' look _ ih =>
      simpa [Mark.frame?, Mark.box?, readOff_frame_callLines, NodeId.partner]
        using ih.trans (List.sublist_append_right _ _)

/-- The arrows of files join what is declared, or begin at the part above. -/
theorem Laid.joins {parent : NodeId} {lines : List Line}
    (h : Laid c index parent lines) :
    Joins (parent :: readOff Mark.declared? lines) lines := by
  induction h with
  | nil => exact nofun
  | append _ _ hx hy =>
      rw [Joins, List.forall_mem_append, readOff_append]
      exact ⟨hx.mono (by simp), hy.mono (by simp)⟩
  | single indent steps label look =>
      have hcalls := joins_callLines (c := c) indent (.component index steps)
      rw [Joins, List.forall_mem_cons, List.forall_mem_cons]
      exact ⟨nofun, by simp [Mark.ends, Mark.declared?],
        hcalls.mono (by simp [Mark.declared?])⟩
  | framed indent steps label label' look _ ih =>
      have hcalls :=
        joins_callLines (c := c) (indent + 1) (.component index steps)
      simp only [Joins, List.cons_append, List.forall_mem_cons,
        List.forall_mem_append]
      refine ⟨nofun, nofun, nofun, ⟨⟨hcalls.mono ?_, ih.mono ?_⟩, nofun, nofun⟩,
        ?_, nofun⟩
      · simp +contextual [Mark.declared?, List.subset_def]
      · simp +contextual [Mark.declared?, List.subset_def]
      · simp [Mark.ends, Mark.declared?]

variable (c index)

/-- A middleware is a box, or a frame around its box and what is laid out below
it. -/
theorem middlewareLines_cases (m : Middleware) :
    (∃ label look, c.middlewareLines index m
      = ⟨1, .box (.middleware index) label look⟩ :: c.callLines 1
        (.middleware index)) ∨
    ∃ label label' inside, Laid c index (.main index) inside ∧
      c.middlewareLines index m
        = ⟨1, .opening (.middleware index) label⟩
          :: (⟨2, .box (.main index) label' .expandable⟩
            :: (c.callLines 2 (.main index) ++ inside) ++ [⟨1, .closing⟩]) := by
  rw [middlewareLines]
  split
  · exact .inl ⟨_, _, rfl⟩
  · refine .inr ⟨inQuotes s!"{index + 1}. {m.shortName}",
      foldLabel (c.folding.showsMiddleware index) m.shortName m.components,
      if c.folding.showsMiddleware index then
        c.filesLines index [] 0 (.main index) m.components
      else [], ?_, by simp⟩
    split
    · exact laid_filesLines [] 0 (.main index) m.components
    · exact .nil

/-- The lines of a middleware are nested. -/
theorem nested_middlewareLines (m : Middleware) :
    Nested ((c.middlewareLines index m).map Line.text) := by
  rcases c.middlewareLines_cases index m
    with ⟨label, look, h⟩ | ⟨label, label', inside, hinside, h⟩
  · rw [h]
    refine nested_of_flat ?_
    rw [List.forall_mem_cons]
    exact ⟨⟨rfl, nofun⟩, flat_callLines _ _⟩
  · rw [h]
    refine nested_framed _ _ _ _ ?_
    rw [← List.cons_append, List.map_append]
    refine .append (nested_of_flat ?_) hinside.nested
    rw [List.forall_mem_cons]
    exact ⟨⟨rfl, nofun⟩, flat_callLines _ _⟩

/-- The frames of a middleware are partners of its boxes, in the same order.
-/
theorem frames_sublist_middlewareLines (m : Middleware) :
    (readOff Mark.frame? (c.middlewareLines index m)).Sublist
      ((readOff Mark.box? (c.middlewareLines index m)).map NodeId.partner) := by
  rcases c.middlewareLines_cases index m
    with ⟨label, look, h⟩ | ⟨label, label', inside, hinside, h⟩
  · rw [h]
    simp [Mark.frame?, readOff_frame_callLines]
  · rw [h]
    simpa [Mark.frame?, Mark.box?, readOff_frame_callLines, NodeId.partner]
      using hinside.frames_sublist.trans (List.sublist_append_right _ _)

/-- The arrows of a middleware join boxes and frames of that middleware. -/
theorem joins_middlewareLines (m : Middleware) :
    Joins (readOff Mark.declared? (c.middlewareLines index m))
    (c.middlewareLines index m) := by
  rcases c.middlewareLines_cases index m
    with ⟨label, look, h⟩ | ⟨label, label', inside, hinside, h⟩
  · rw [h, Joins, List.forall_mem_cons]
    exact ⟨nofun, joins_callLines 1 (.middleware index)⟩
  · have hcalls := joins_callLines (c := c) 2 (.main index)
    rw [h]
    simp only [Joins, List.cons_append, List.forall_mem_cons,
      List.forall_mem_append]
    refine ⟨nofun, nofun, ⟨hcalls.mono ?_, hinside.joins.mono ?_⟩, nofun, nofun⟩
    · simp +contextual [Mark.declared?, List.subset_def]
    · simp +contextual [Mark.declared?, List.subset_def]

/-- Every middleware is declared, as a box or as a frame. -/
theorem middleware_mem_readOff (m : Middleware) :
    .middleware index ∈ readOff Mark.declared? (c.middlewareLines index m) := by
  rcases c.middlewareLines_cases index m
    with ⟨label, look, h⟩ | ⟨label, label', inside, -, h⟩
  · simp [h, Mark.declared?]
  · simp [h, Mark.declared?]

end Canvas

/-- An arrow between middlewares joins two that are there. -/
theorem ends_of_edgeLine? {middlewares : List Middleware} {e : Edge}
    {line : Line} (h : edgeLine? middlewares e = some line) :
    line.Flat ∧ ∃ i < middlewares.length, ∃ j < middlewares.length,
      line.mark.ends = [.middleware i, .middleware j] := by
  have hbound : ∀ {name i}, positionOf? middlewares name = some i →
      i < middlewares.length :=
    fun hi => (List.findIdx?_eq_some_iff_getElem.mp hi).1
  simp only [edgeLine?, Option.bind_eq_bind, Option.bind_eq_some_iff] at h
  obtain ⟨i, hi, j, hj, h⟩ := h
  split at h
  · cases h
    exact ⟨⟨rfl, by simp⟩, i, hbound hi, j, hbound hj, rfl⟩
  · cases h
    exact ⟨⟨rfl, by simp⟩, i, hbound hi, j, hbound hj, rfl⟩

/-- The lines that say how boxes look are not about frames. -/
theorem nested_looks : Nested (looks.map ("    " ++ ·)) := by
  have hfirst : ∀ t ∈ looks, t.toList.head? = some 'c' := by simp [looks]
  refine .of_forall fun t ht => ?_
  obtain ⟨look, hlook, rfl⟩ := List.mem_map.mp ht
  obtain ⟨cs, hcs⟩ := List.head?_eq_some_iff.mp (hfirst look hlook)
  rw [opens, closes, unindented, String.toList_append, hcs]
  exact ⟨rfl, rfl⟩

section Shown

variable {f : Folding} {r : FlowResult} {index : Nat} {m : Middleware}
  {id : NodeId}

/-- A middleware's box stands by itself or is the main one of a frame. -/
theorem mainId_eq_or (index : Nat) (m : Middleware) :
    mainId index m = .middleware index ∨ mainId index m = .main index := by
  unfold mainId
  split
  · exact .inl rfl
  · exact .inr rfl

/-- What is shown of a middleware is its own box and those of its files that
are drawn. -/
theorem mem_shownAt : id ∈ shownAt f index m ↔ id = mainId index m ∨
    ∃ site ∈ sites m, f.draws index site.steps = true ∧
      id = .component index site.steps := by
  rw [shownAt, List.mem_cons, List.mem_map]
  simp only [List.mem_filter, and_assoc, eq_comm]

/-- A file is drawn as a box, never as the frame around it. -/
theorem frame_notMem_shown {middlewares : List Middleware} {i : Nat}
    {steps : List Nat} :
    .frame i steps ∉ shown f middlewares := by
  intro h
  obtain ⟨index, m, -, hid⟩ := mem_shown.mp h
  rcases mem_shownAt.mp hid with hmain | ⟨site, -, -, heq⟩
  · rcases mainId_eq_or index m with h | h <;> rw [h] at hmain <;> cases hmain
  · cases heq

/-- The box of a file is shown just when there is a file at its position that
is drawn. -/
theorem component_mem_shown {steps : List Nat} :
    .component index steps ∈ shown f r.middlewares ↔
      ∃ m, r.middlewares[index]? = some m ∧ steps ∈ (sites m).map Site.steps ∧
        f.draws index steps = true := by
  rw [mem_shown]
  constructor
  · rintro ⟨i, m, hm, hid⟩
    rcases mem_shownAt.mp hid with hmain | ⟨site, hsite, hdrawn, heq⟩
    · rcases mainId_eq_or i m with h | h <;> rw [h] at hmain <;> cases hmain
    · cases heq
      exact ⟨m, hm, List.mem_map_of_mem hsite, hdrawn⟩
  · rintro ⟨m, hm, hsteps, hdrawn⟩
    obtain ⟨site, hsite, rfl⟩ := List.mem_map.mp hsteps
    exact ⟨index, m, hm, mem_shownAt.mpr (.inr ⟨site, hsite, hdrawn, rfl⟩)⟩

/-- Of a middleware or file that is drawn, only one part is a box. -/
theorem partner_notMem_shown {middlewares : List Middleware}
    (h : id ∈ shown f middlewares) :
    id.partner ∉ shown f middlewares := by
  intro hpartner
  obtain ⟨i, m, hm, hid⟩ := mem_shown.mp h
  rcases mem_shownAt.mp hid with rfl | ⟨site, -, -, rfl⟩
  · obtain ⟨j, m', hm', hid'⟩ := mem_shown.mp hpartner
    have hindex : (mainId i m).partner.index = (mainId i m).index := by
      cases mainId i m <;> rfl
    rw [(of_mem_shownAt hid).2.2, (of_mem_shownAt hid').2.2] at hindex
    subst hindex
    rw [hm, Option.some.injEq] at hm'
    subst hm'
    unfold mainId at hid'
    split at hid' <;> simp_all [shownAt, mainId, NodeId.partner]
  · exact frame_notMem_shown hpartner

/-- A box is that of a part that is drawn, or of a call. -/
theorem of_mem_nodes (h : id ∈ (draw f r).nodes) :
    id ∈ shown f r.middlewares ∨ ∃ owner position,
      id = .call owner position := by
  rw [nodes_draw, List.mem_flatMap] at h
  obtain ⟨owner, howner, h⟩ := h
  rcases List.mem_cons.mp h with rfl | hcall
  · exact .inl howner
  · obtain ⟨placed, -, rfl⟩ := List.mem_map.mp hcall
    exact .inr ⟨owner, placed.2, rfl⟩

end Shown

section Whole

variable (f : Folding) (r : FlowResult)

/-- The lines of a chart are nested. -/
theorem nested_texts : Nested (draw f r).texts := by
  have hedges : Nested ((draw f r).edges.map Line.text) := by
    refine nested_of_flat fun line hline => ?_
    obtain ⟨e, -, he⟩ := List.mem_filterMap.mp hline
    exact (ends_of_edgeLine? he).1
  have hbody : Nested ((draw f r).body.map Line.text) := by
    rw [draw, List.map_flatMap]
    exact .flatMap fun entry _ =>
      Canvas.nested_middlewareLines _ entry.2 entry.1
  have htop : Nested ["flowchart TD"] := .of_forall (by decide)
  have hblank : Nested [""] := .of_forall (by decide)
  rw [texts]
  exact ((((htop.append nested_looks).append hblank).append hbody).append
    hblank).append hedges

/-- The boxes of a chart are those that are shown. -/
theorem readOff_box_draw :
    readOff Mark.box? (draw f r).lines = shown f r.middlewares := by
  have hreads : Reads (fun mark => mark.box?.toList) fun id => [id] :=
    ⟨fun _ _ _ => rfl, fun _ _ => rfl, rfl, rfl, fun _ _ => rfl,
      fun _ _ _ => rfl⟩
  have hpart : ∀ (c : Canvas) (owner : NodeId),
      c.readPart (fun mark => mark.box?.toList) (fun id => [id]) owner =
          [owner] := by
    intro c owner
    simp [Canvas.readPart, Canvas.readCalls, Mark.box?]
  rw [readOff, List.filterMap_eq_flatMap_toList, hreads.flatMap_lines_draw,
    List.flatMap_congr fun owner _ => hpart _ owner, List.flatMap_singleton']

/-- Every frame goes with a box of its own. -/
theorem frames_sublist_shown : (readOff Mark.frame? (draw f r).lines).Sublist
    ((shown f r.middlewares).map NodeId.partner) := by
  have hedges : readOff Mark.frame? (draw f r).edges = [] := by
    rw [readOff, List.filterMap_eq_nil_iff]
    intro line hline
    obtain ⟨e, -, he⟩ := List.mem_filterMap.mp hline
    exact (ends_of_edgeLine? he).1.1
  have hbody : (readOff Mark.frame? (draw f r).body).Sublist
      ((readOff Mark.box? (draw f r).body).map NodeId.partner) := by
    rw [draw, readOff, readOff, List.filterMap_flatMap, List.filterMap_flatMap,
      List.map_flatMap]
    exact List.Sublist.flatMap_right _ fun entry _ =>
      Canvas.frames_sublist_middlewareLines _ entry.2 entry.1
  rw [← readOff_box_draw, lines, readOff_append, readOff_append, hedges,
    List.append_nil, List.map_append]
  exact hbody.trans (List.sublist_append_left _ _)

/-- What a chart declares is a box, or the frame of one that is drawn. -/
theorem mem_declared {id : NodeId} (h : id ∈ (draw f r).declared) :
    id ∈ (draw f r).nodes ∨ ∃ b ∈ shown f r.middlewares, b.partner = id := by
  rw [declared, (readOff_declared_perm _).mem_iff, List.mem_append] at h
  exact h.imp_right fun hframe =>
    List.mem_map.mp ((frames_sublist_shown f r).subset hframe)

/-- No name is declared twice in a chart. -/
theorem nodup_declared : (draw f r).declared.Nodup := by
  rw [declared, (readOff_declared_perm _).nodup_iff, List.nodup_append']
  refine ⟨nodup_nodes f r,
    (nodup_shown.map NodeId.partner_injective).sublist
      (frames_sublist_shown f r), ?_⟩
  intro id hnode hframe
  obtain ⟨b, hb, rfl⟩ :=
    List.mem_map.mp ((frames_sublist_shown f r).subset hframe)
  rcases of_mem_nodes hnode with hshown | ⟨owner, position, heq⟩
  · exact partner_notMem_shown hb hshown
  · have hown := (of_mem_shown hb).2
    cases b <;> cases heq
    cases hown

/-- **Every box and frame has a name of its own.** -/
theorem nodup_declared_names : ((draw f r).declared.map NodeId.text).Nodup := by
  have hproper : ∀ id ∈ (draw f r).declared, id.Proper := by
    intro id hid
    rcases mem_declared f r hid with hnode | ⟨b, hb, rfl⟩
    · exact proper_of_mem_nodes f r hnode
    · have hb := (of_mem_shown hb).1
      cases b <;> exact hb
  refine (nodup_declared f r).map_on ?_
  intro a ha b hb heq
  exact NodeId.eq_of_text_eq (hproper a ha) (hproper b hb) heq

/-- **The arrows of a chart join what it declares.** -/
theorem joins_declared : Joins (draw f r).declared (draw f r).lines := by
  let canvas : Canvas := ⟨f, placedCalls f r.middlewares⟩
  have hblock : ∀ {i m}, r.middlewares[i]? = some m →
      readOff Mark.declared? (canvas.middlewareLines i m) ⊆
          (draw f r).declared := by
    intro i m hm id hid
    rw [declared, lines, readOff_append, draw]
    refine List.mem_append_left _ ?_
    rw [readOff, List.filterMap_flatMap, List.mem_flatMap]
    exact ⟨(m, i), List.mk_mem_zipIdx_iff_getElem?.mpr hm, hid⟩
  have hmiddleware : ∀ i < r.middlewares.length,
      .middleware i ∈ (draw f r).declared :=
    fun i hi => hblock (List.getElem?_eq_getElem hi)
      (canvas.middleware_mem_readOff i _)
  intro line hline
  rcases List.mem_append.mp hline with hbody | hedge
  · obtain ⟨⟨m, i⟩, hentry, hline⟩ := List.mem_flatMap.mp hbody
    have hm := List.mk_mem_zipIdx_iff_getElem?.mp hentry
    exact (canvas.joins_middlewareLines i m).mono (hblock hm) line hline
  · obtain ⟨e, -, he⟩ := List.mem_filterMap.mp hedge
    obtain ⟨-, i, hi, j, hj, hends⟩ := ends_of_edgeLine? he
    rw [hends, List.forall_mem_cons, List.forall_mem_singleton]
    exact ⟨hmiddleware i hi, hmiddleware j hj⟩

end Whole

namespace Folding

variable {f : Folding} {index : Nat}

/-- Files are shown below a place if the middleware is not folded and the files
on the way are open. -/
theorem shows_iff (steps : List Nat) :
    f.shows index steps = true ↔ s!"MW{index + 1}_collapsed" ∉ f ∧
      ∀ above, above <:+ steps → above ≠ [] →
        (NodeId.component index above).text ∈ f := by
  induction steps with
  | nil => simp +contextual [shows, showsMiddleware]
  | cons step steps ih =>
      rw [shows, Bool.and_eq_true, ih, isOpen, List.contains_iff_mem]
      constructor
      · rintro ⟨⟨hshown, habove⟩, hopen⟩
        refine ⟨hshown, fun above hsuffix hne => ?_⟩
        rcases List.suffix_cons_iff.mp hsuffix with rfl | hsuffix
        · exact hopen
        · exact habove above hsuffix hne
      · rintro ⟨hshown, habove⟩
        exact ⟨⟨hshown, fun above hsuffix =>
          habove above (hsuffix.trans (List.suffix_cons _ _))⟩,
          habove _ List.suffix_rfl (List.cons_ne_nil _ _)⟩

/-- A file is drawn if the middleware is not folded and the files above it are
open. -/
theorem draws_iff (steps : List Nat) :
    f.draws index steps = true ↔ s!"MW{index + 1}_collapsed" ∉ f ∧
      ∀ above, above <:+ steps → above ≠ [] → above ≠ steps →
        (NodeId.component index above).text ∈ f := by
  rw [draws, shows_iff]
  refine and_congr_right fun _ => forall_congr' fun above => ?_
  cases steps with
  | nil => simp +contextual
  | cons step steps =>
      rw [List.tail_cons, List.suffix_cons_iff]
      constructor
      · rintro h (rfl | hsuffix) hne hproper
        · exact absurd rfl hproper
        · exact h hsuffix hne
      · intro h hsuffix hne
        refine h (.inr hsuffix) hne ?_
        rintro rfl
        exact absurd hsuffix.length_le (by simp)

end Folding

mutual

/-- A record has as many sites as there are records in its tree. -/
theorem length_sitesOf (steps : List Nat) :
    ∀ r : Record, (sitesOf steps r).length = r.size
  | ⟨_, _, _, _, _, _, _, children⟩ => by
      rw [sitesOf, List.length_cons, length_sitesBelow, Record.size,
        Nat.add_comm]

/-- There are as many sites as records. -/
theorem length_sitesBelow (steps : List Nat) (position : Nat) :
    ∀ rs : List Record, (sitesBelow steps position rs).length =
      Record.sizeAll rs
  | [] => rfl
  | r :: rest => by
      rw [sitesBelow, List.length_append, length_sitesOf, length_sitesBelow,
        Record.sizeAll]

end

/-- A part is a file below the middleware with some index. -/
def NodeId.isFileOf (index : Nat) : NodeId → Bool
  | component i _ => i = index
  | _ => false

section Files

variable {f : Folding} {r : FlowResult} {index : Nat} {m : Middleware}

/-- The files that a chart declares are those that are drawn. -/
theorem component_mem_declared {steps : List Nat} :
    .component index steps ∈ (draw f r).declared ↔
      .component index steps ∈ shown f r.middlewares := by
  constructor
  · intro h
    rcases mem_declared f r h with hnode | ⟨b, hb, heq⟩
    · rcases of_mem_nodes hnode with hshown | ⟨owner, position, heq⟩
      · exact hshown
      · cases heq
    · cases b <;> cases heq
      exact absurd hb frame_notMem_shown
  · intro h
    rw [declared, (readOff_declared_perm _).mem_iff, List.mem_append]
    left
    have hnode : .component index steps ∈ (draw f r).nodes := by
      rw [nodes_draw, List.mem_flatMap]
      exact ⟨_, h, List.mem_cons_self⟩
    exact hnode

/-- The files of a middleware that are declared are those that are drawn, each
once. -/
theorem filter_declared_perm (hm : r.middlewares[index]? = some m) :
    ((draw f r).declared.filter (·.isFileOf index)).Perm
      (((sites m).filter (f.draws index ·.steps)).map
        (.component index ·.steps)) := by
  have hsites : (((sites m).filter (f.draws index ·.steps)).map
      (NodeId.component index ·.steps)).Nodup :=
    (List.nodup_cons.mp nodup_shownAt).2
  rw [List.perm_ext_iff_of_nodup ((nodup_declared f r).filter _) hsites]
  intro id
  rw [List.mem_filter]
  constructor
  · rintro ⟨hid, hfile⟩
    cases id with
    | component i steps =>
        obtain rfl : i = index := of_decide_eq_true hfile
        obtain ⟨m', hm', hsteps, hdrawn⟩ :=
          component_mem_shown.mp (component_mem_declared.mp hid)
        rw [hm, Option.some.injEq] at hm'
        subst hm'
        obtain ⟨site, hsite, rfl⟩ := List.mem_map.mp hsteps
        exact List.mem_map.mpr ⟨site, List.mem_filter.mpr ⟨hsite, hdrawn⟩, rfl⟩
    | _ => cases hfile
  · intro hid
    obtain ⟨site, hsite, rfl⟩ := List.mem_map.mp hid
    obtain ⟨hsite, hdrawn⟩ := List.mem_filter.mp hsite
    exact ⟨component_mem_declared.mpr
      (component_mem_shown.mpr ⟨m, hm, List.mem_map_of_mem hsite, hdrawn⟩),
      decide_eq_true rfl⟩

end Files

/-- **The shape of a chart.**  Its text is made of lines in which frames are
properly nested.  The boxes and frames that the lines declare have different
names, and both ends of every arrow are declared.  A file below a middleware is
declared just when the middleware is not folded and every file above it, up to
the middleware, is open; so if all files of a middleware that is not folded are
open, as many are declared as there are. -/
theorem draw_wellFormed (f : Folding) (r : FlowResult) :
    (draw f r).text = Text.join "\n" (draw f r).texts ++ "\n" ∧
    Nested (draw f r).texts ∧
    ((draw f r).declared.map NodeId.text).Nodup ∧
    (∀ line ∈ (draw f r).lines, ∀ id ∈ line.mark.ends,
      id ∈ (draw f r).declared) ∧
    (∀ index steps, .component index steps ∈ (draw f r).declared ↔
      ∃ m, r.middlewares[index]? = some m ∧ steps ∈ (sites m).map Site.steps ∧
        s!"MW{index + 1}_collapsed" ∉ f ∧
        ∀ above, above <:+ steps → above ≠ [] → above ≠ steps →
          (NodeId.component index above).text ∈ f) ∧
    ∀ index m, r.middlewares[index]? = some m →
      s!"MW{index + 1}_collapsed" ∉ f →
      (∀ steps ∈ (sites m).map Site.steps,
        (NodeId.component index steps).text ∈ f) →
      ((draw f r).declared.filter (·.isFileOf index)).length =
        Record.sizeAll m.components := by
  refine ⟨text_eq _, nested_texts f r, nodup_declared_names f r,
    joins_declared f r, ?_, ?_⟩
  · intro index steps
    rw [component_mem_declared, component_mem_shown]
    simp only [Folding.draws_iff]
  · intro index m hm hunfolded hopen
    have hdrawn : ∀ site ∈ sites m, f.draws index site.steps = true := by
      intro site hsite
      rw [Folding.draws_iff]
      refine ⟨hunfolded, fun above hsuffix hne _ => ?_⟩
      obtain ⟨other, hother, rfl⟩ :=
        exists_mem_sitesBelow_of_suffix hsite hsuffix
          (List.length_pos_iff.mpr hne)
      exact hopen _ (List.mem_map_of_mem hother)
    rw [(filter_declared_perm hm).length_eq, List.length_map,
      List.filter_eq_self.mpr hdrawn]
    exact length_sitesBelow [] 0 m.components

/-- A file `b` above a file `c`, and a file `d`, below a middleware. -/
def grove : FlowResult :=
  let file (name : String) (children : List Record) : Record :=
    ⟨name, name, ⟨.here, [name]⟩, 0, none, {}, false, children⟩
  let top := file "a" [file "b" [file "c" []], file "d" []]
  { endpoint := {}
    middlewares :=
      [{ name := "a", path := some top.path, isThere := true,
         record := some top }] }

/-- With everything open, all three files are declared. -/
theorem draw_wellFormed_grove : ∃ m, grove.middlewares[0]? = some m ∧
    (∀ steps ∈ (sites m).map Site.steps,
      (NodeId.component 0 steps).text ∈ ["MW1_c0", "MW1_c0_c0", "MW1_c1"]) ∧
    ((draw ["MW1_c0", "MW1_c0_c0", "MW1_c1"] grove).declared.filter
      (·.isFileOf 0)).length = 3 := by
  refine ⟨_, rfl, by decide, ?_⟩
  have hshape := draw_wellFormed ["MW1_c0", "MW1_c0_c0", "MW1_c1"] grove
  exact hshape.2.2.2.2.2 0 _ rfl (by decide) (by decide)

end Relay.Chart
