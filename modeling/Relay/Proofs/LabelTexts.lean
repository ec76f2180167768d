import Relay.Proofs.Arrows
import Relay.Proofs.ChartShape
import Relay.Proofs.EdgeEnds

/-!
# What stands between the quotes of a chart

A label stands between the double quotes of a line.  A double quote in a label
would end it early, and a line feed would end its line.  The labels of boxes,
frames and calls have no double quotes, because those are replaced; the label
of an arrow is a list of properties as they are.  Line feeds are replaced
nowhere.

So the labels of a chart are intact exactly if the texts that they are made of
are (`notMem_labels_draw`), and exactly then the text of the chart can be taken
apart again, at line feeds into its lines and at double quotes into the labels
(`labels_intact_iff`).
-/

namespace Relay

namespace Text

/-- A character of joined parts is one of a part, or one of the separator. -/
theorem mem_join {c : Char} {sep : String} (hsep : c ∉ sep.toList)
    {parts : List String} :
    c ∈ (join sep parts).toList ↔ ∃ part ∈ parts, c ∈ part.toList := by
  induction parts with
  | nil => simp [join]
  | cons part parts ih =>
      cases parts with
      | nil => simp [join]
      | cons next rest =>
          have hjoin : join sep (part :: next :: rest) = part ++ sep ++
              join sep (next :: rest) :=
            String.intercalate_cons_cons
          simp only [hjoin, String.toList_append, List.mem_append, ih, hsep,
            or_false, List.exists_mem_cons_iff]

/-- An empty part at the end leaves a separator there. -/
theorem join_append_empty {sep : String} {parts : List String}
    (h : parts ≠ []) :
    join sep (parts ++ [""]) = join sep parts ++ sep := by
  simp only [join,
    String.intercalate_append_of_ne_nil h (List.cons_ne_nil "" []),
    String.intercalate_singleton, String.append_empty]

/-- A number above that of the line feed is not its own. -/
theorem ofNat_ne_lineFeed {v : Nat} (h : 10 < v) : Char.ofNat v ≠ '\n' := by
  intro heq
  have hcode : (Char.ofNat v).toNat = 10 := congrArg Char.toNat heq
  by_cases hv : v.isValidChar
  · have hvalid : Char.ofNat v = Char.ofNatAux v hv := dif_pos hv
    rw [hvalid] at hcode
    change v = 10 at hcode
    omega
  · have hinvalid : Char.ofNat v = '\x00' := dif_neg hv
    rw [hinvalid] at hcode
    exact absurd hcode (by decide)

set_option maxRecDepth 2000 in
/-- No character becomes several of which one is a line feed. -/
theorem lineFeed_lt_of_mem_upperSequences :
    ∀ entry ∈ upperSequences, ∀ v ∈ entry.2, 10 < v := by
  decide

set_option maxRecDepth 2000 in
/-- No run of characters becomes line feeds. -/
theorem lineFeed_lt_of_mem_upperRuns : ∀ run ∈ upperRuns, 10 < run.image := by
  decide

/-- No character becomes a line feed in upper case. -/
theorem lineFeed_lt_of_imageIn? {v w : Nat}
    (h : imageIn? upperRuns v = some w) : 10 < w := by
  obtain ⟨run, hrun, rfl⟩ := Option.map_eq_some_iff.mp h
  have himage :=
    lineFeed_lt_of_mem_upperRuns run (List.mem_of_find?_eq_some hrun)
  omega

/-- Only a line feed becomes one in upper case. -/
theorem lineFeed_mem_upperChar {d : Char} : '\n' ∈ upperChar d ↔ d = '\n' := by
  by_cases hd : d = '\n'
  · subst hd
    decide
  · refine iff_of_false ?_ hd
    intro hmem
    unfold upperChar at hmem
    split at hmem
    · rename_i vs hvs
      obtain ⟨v, hv, heq⟩ := List.mem_map.mp hmem
      obtain ⟨_, _, hentry, -⟩ := List.lookup_eq_some_iff.mp hvs
      have hlt :=
        lineFeed_lt_of_mem_upperSequences (d.toNat, vs) (by simp [hentry]) v hv
      exact ofNat_ne_lineFeed hlt heq
    · have heq := (List.mem_singleton.mp hmem).symm
      cases himage : imageIn? upperRuns d.toNat with
      | none =>
          rw [himage, Option.getD_none, Char.ofNat_toNat] at heq
          exact hd heq
      | some w =>
          rw [himage, Option.getD_some] at heq
          exact ofNat_ne_lineFeed (lineFeed_lt_of_imageIn? himage) heq

/-- A text in upper case has a line feed just when the text has one. -/
theorem lineFeed_mem_upper {s : String} :
    '\n' ∈ (upper s).toList ↔ '\n' ∈ s.toList := by
  simp [upper, lineFeed_mem_upperChar]

end Text

namespace Chart

open Analysis

/-- A character that ends a label or the line that it stands on. -/
def EndsLabel (c : Char) : Prop :=
  c = '"' ∨ c = '\n'

/-- A double quote ends a label. -/
theorem endsLabel_quote : EndsLabel '"' :=
  .inl rfl

/-- A line feed ends the line of a label. -/
theorem endsLabel_lineFeed : EndsLabel '\n' :=
  .inr rfl

/-- The properties that are written on an arrow. -/
def entriesShown (properties : List String) : List String :=
  if properties.length ≤ greatestEntries then properties
  else properties.take (greatestEntries - 1)

/-- Groups one after another are the list itself. -/
theorem flatten_inGroups {α : Type} (n : Nat) (items : List α) :
    (inGroups n items).flatten = items := by
  fun_induction inGroups n items with
  | case1 => rfl
  | case2 a rest ih =>
      rw [List.flatten_cons, ih, List.cons_append, List.take_append_drop]

/-- Adding a text without a character to the last line does not bring the
character in. -/
theorem mem_addToLast {c : Char} {text : String} (htext : c ∉ text.toList)
    (lines : List String) :
    (∃ line ∈ addToLast text lines, c ∈ line.toList) ↔
      ∃ line ∈ lines, c ∈ line.toList := by
  fun_induction addToLast text lines with
  | case1 => rfl
  | case2 line => simp [htext]
  | case3 line rest hrest ih =>
      rw [List.exists_mem_cons_iff, ih, List.exists_mem_cons_iff]

section Labels

variable {c : Char} (hc : EndsLabel c)

include hc

/-- A number is written without characters that end a label. -/
theorem notMem_toDigits (n : Nat) : c ∉ Nat.toDigits 10 n := by
  intro hmem
  have hdigit := Nat.isDigit_of_mem_toDigits (by decide) (by decide) hmem
  rcases hc with rfl | rfl <;> exact absurd hdigit (by decide)

/-- In quotes a double quote is replaced, and a line feed stays. -/
theorem notMem_inQuotes (s : String) :
    c ∉ (inQuotes s).toList ↔ c = '"' ∨ c ∉ s.toList := by
  rw [inQuotes, Text.replaceChar, String.toList_ofList, List.mem_map]
  rcases hc with rfl | rfl
  · refine iff_of_true ?_ (.inl rfl)
    intro ⟨d, _, hd⟩
    split at hd
    · exact absurd hd (by decide)
    · rename_i hne
      exact hne hd
  · have hsame : (∃ d ∈ s.toList, (if d = '"' then '\'' else d) = '\n') ↔
        '\n' ∈ s.toList := by
      constructor
      · intro ⟨d, hd, heq⟩
        split at heq
        · exact absurd heq (by decide)
        · exact heq ▸ hd
      · intro hmem
        exact ⟨'\n', hmem, rfl⟩
    rw [hsame, or_iff_right (by decide)]

/-- The label of a box is without the character if the name in it is; double
quotes are replaced. -/
theorem notMem_foldLabel (isOpen : Bool) (name : String) (below : List Record) :
    c ∉ (Canvas.foldLabel isOpen name below).toList ↔
      c = '"' ∨ c ∉ name.toList := by
  have htext : ∀ t : String, toString t = t := fun _ => rfl
  have hdigits := notMem_toDigits hc (Record.sizeAll below)
  rw [Canvas.foldLabel, notMem_inQuotes hc]
  rcases hc with rfl | rfl
  · simp
  · cases isOpen <;> simp [htext, hdigits]

/-- The label of a middleware. -/
theorem notMem_numbered (index : Nat) (name : String) :
    c ∉ (inQuotes s!"{index + 1}. {name}").toList ↔
      c = '"' ∨ c ∉ name.toList := by
  have htext : ∀ t : String, toString t = t := fun _ => rfl
  have hdigits := notMem_toDigits hc (index + 1)
  rw [notMem_inQuotes hc]
  rcases hc with rfl | rfl
  · simp
  · simp [htext, hdigits]

/-- The label of a call is without the character if its family and its
template, as far as it is shown, are; double quotes are replaced. -/
theorem notMem_callLabel (call : ServiceCall) : c ∉ (callLabel call).toList ↔
    c = '"' ∨ c ∉ call.family.toList ∧
      c ∉ (shortened (call.template.getD "")).toList := by
  rw [callLabel, notMem_inQuotes hc]
  rcases hc with rfl | rfl
  · simp
  · by_cases hfamily : call.family = ""
    · simp [hfamily]
    · simp [hfamily, Text.lineFeed_mem_upper]

/-- On an arrow everything stays. -/
theorem mem_edgeLabel (properties : List String) :
    c ∈ (edgeLabel properties).toList ↔
      ∃ p ∈ entriesShown properties, c ∈ p.toList := by
  have hbreak : c ∉ "\\n".toList := by rcases hc with rfl | rfl <;> decide
  have hcomma : c ∉ ", ".toList := by rcases hc with rfl | rfl <;> decide
  have hlines : ∀ shown : List String,
      (∃ line ∈ (inGroups (entriesPerLine - 1) shown).map (Text.join ", "),
        c ∈ line.toList) ↔
        ∃ p ∈ shown, c ∈ p.toList := by
    intro shown
    have hgroups : (∃ p ∈ shown, c ∈ p.toList) ↔
        ∃ p ∈ (inGroups (entriesPerLine - 1) shown).flatten, c ∈ p.toList := by
      rw [flatten_inGroups]
    rw [hgroups]
    simp only [List.mem_map, exists_exists_and_eq_and, Text.mem_join hcomma,
      List.mem_flatten]
    grind
  rw [edgeLabel, Text.mem_join hbreak, edgeLines, entriesShown]
  split
  · exact hlines properties
  · have hmore : c ∉ String.toList
        s!", +{properties.length - (greatestEntries - 1)} more" := by
      have htext : ∀ t : String, toString t = t := fun _ => rfl
      have hdigits :=
        notMem_toDigits hc (properties.length - (greatestEntries - 1))
      rcases hc with rfl | rfl <;> simp [htext, hdigits]
    rw [mem_addToLast hmore, hlines]

end Labels

namespace Mark

/-- The label of a line. -/
def label? : Mark → Option String
  | opening _ label | box _ label _ | labelled _ _ label => some label
  | callBox _ call => some (callLabel call)
  | direction | closing | arrow _ _ | callArrow _ _ => none

/-- The label of a line, unless it is that of a call. -/
def caption? : Mark → Option String
  | opening _ label | box _ label _ | labelled _ _ label => some label
  | _ => none

end Mark

/-- The labels of a chart. -/
def labels (chart : Chart) : List String :=
  chart.lines.filterMap (·.mark.label?)

/-- No line has a character in its label, unless it is the line of a call. -/
def Intact (c : Char) (lines : List Line) : Prop :=
  ∀ line ∈ lines, ∀ caption ∈ line.mark.caption?, c ∉ caption.toList

section Intact

variable {c : Char}

@[simp] theorem intact_nil : Intact c [] := by
  simp [Intact]

@[simp] theorem intact_cons (line : Line) (lines : List Line) :
    Intact c (line :: lines) ↔
    (∀ caption ∈ line.mark.caption?, c ∉ caption.toList) ∧ Intact c lines :=
  List.forall_mem_cons

@[simp] theorem intact_append (xs ys : List Line) :
    Intact c (xs ++ ys) ↔ Intact c xs ∧ Intact c ys :=
  List.forall_mem_append

/-- The lines of calls have no captions. -/
@[simp] theorem intact_callLines (canvas : Canvas) (indent : Nat)
    (owner : NodeId) :
    Intact c (canvas.callLines indent owner) := by
  intro line hline caption hcaption
  obtain ⟨placed, -, hline⟩ := List.mem_flatMap.mp hline
  simp only [List.mem_cons, List.not_mem_nil, or_false] at hline
  rcases hline with rfl | rfl <;> cases hcaption

/-- The names of the files of a middleware that are drawn, the own one first. -/
def namesAt (f : Folding) (index : Nat) (m : Middleware) : List String :=
  m.shortName :: ((sites m).filter (f.draws index ·.steps)).map
    (·.record.displayName)

mutual

/-- The captions of a tree are made of the names of its files that are drawn. -/
theorem intact_fileLines (hc : EndsLabel c) (canvas : Canvas) (index step : Nat)
    (above : List Nat) (parent : NodeId)
    (hshown : canvas.folding.shows index above = true) :
    ∀ r : Record, Intact c (canvas.fileLines index (step :: above) parent r) ↔
      ∀ site ∈ (sitesOf (step :: above) r).filter (canvas.folding.draws index
        ·.steps),
        c = '"' ∨ c ∉ site.record.displayName.toList
  | ⟨_, name, _, _, _, facts, _, children⟩ => by
      have hdrawn : canvas.folding.draws index (step :: above) = true := hshown
      have hopen : canvas.folding.shows index (step :: above)
          = canvas.folding.isOpen index (step :: above) := by
        rw [Folding.shows, hshown, Bool.true_and]
      rw [sitesOf, List.filter_cons, if_pos hdrawn, List.forall_mem_cons,
        Canvas.fileLines]
      cases children with
      | nil => simp [sitesBelow, Mark.caption?, notMem_inQuotes hc]
      | cons child rest =>
          cases hisOpen : canvas.folding.isOpen index (step :: above) with
          | true =>
              have hbelow := intact_filesLines hc canvas index (step :: above) 0
                (.component index (step :: above)) (hopen.trans hisOpen)
                (child :: rest)
              have hblank : c ≠ ' ' := by rcases hc with rfl | rfl <;> decide
              simp [hbelow, Mark.caption?, notMem_foldLabel hc, hblank]
          | false =>
              simp [filter_draws_eq_nil (hopen.trans hisOpen), Mark.caption?,
                notMem_foldLabel hc]

/-- The lines of files are intact just when the names of the files that are
drawn are. -/
theorem intact_filesLines (hc : EndsLabel c) (canvas : Canvas) (index : Nat)
    (steps : List Nat) (position : Nat) (parent : NodeId)
    (hshown : canvas.folding.shows index steps = true) :
    ∀ rs : List Record, Intact c
      (canvas.filesLines index steps position parent rs) ↔
      ∀ site ∈ (sitesBelow steps position rs).filter (canvas.folding.draws index
        ·.steps),
        c = '"' ∨ c ∉ site.record.displayName.toList
  | [] => by simp [Canvas.filesLines, sitesBelow]
  | r :: rest => by
      rw [Canvas.filesLines, sitesBelow, intact_append, List.filter_append,
        List.forall_mem_append,
        intact_fileLines hc canvas index position steps parent hshown r,
        intact_filesLines hc canvas index steps (position + 1)
          parent hshown rest]

end

/-- The lines of a middleware are intact just when the names that are drawn in
it are. -/
theorem intact_middlewareLines (hc : EndsLabel c) (canvas : Canvas)
    (index : Nat) (m : Middleware) :
    Intact c (canvas.middlewareLines index m) ↔
      ∀ name ∈ namesAt canvas.folding index m, c = '"' ∨ c ∉ name.toList := by
  have hlabel := notMem_numbered hc index m.shortName
  rw [namesAt, List.forall_mem_cons, List.forall_mem_map,
    Canvas.middlewareLines, sites]
  generalize inQuotes s!"{index + 1}. {m.shortName}" = label at hlabel ⊢
  cases hcomponents : m.components with
  | nil => simp [sitesBelow, Mark.caption?, hlabel]
  | cons child rest =>
      cases hshown : canvas.folding.showsMiddleware index with
      | true =>
          have hbelow :=
            intact_filesLines hc canvas index [] 0 (.main index) hshown
            (child :: rest)
          simp [hbelow, Mark.caption?, hlabel, notMem_foldLabel hc]
      | false =>
          have hnone : (sitesBelow [] 0 (child :: rest)).filter
              (canvas.folding.draws index ·.steps) = [] := by
            have hclosed : canvas.folding.shows index [] = false := hshown
            exact filter_draws_eq_nil hclosed 0 (child :: rest)
          simp [hnone, Mark.caption?, hlabel, notMem_foldLabel hc]

end Intact

/-- The names that are drawn. -/
def namesDrawn (f : Folding) (middlewares : List Middleware) : List String :=
  middlewares.zipIdx.flatMap fun (m, index) => namesAt f index m

/-- The texts that the labels of calls are made of. -/
def callTexts (middlewares : List Middleware) : List String :=
  (middlewares.flatMap templated).flatMap fun call =>
    [call.family, shortened (call.template.getD "")]

/-- The properties that are written on the arrows between middlewares. -/
def propertiesShown (r : FlowResult) : List String :=
  let names := r.middlewares.map (·.name)
  (r.edges.filter fun e => e.source ∈ names ∧
    e.target ∈ names).flatMap (entriesShown ·.properties)

/-- Between neighbours every arrow is drawn. -/
theorem propertiesShown_eq {r : FlowResult}
    (h : r.edges = edgesBetween r.middlewares) :
    propertiesShown r = r.edges.flatMap (entriesShown ·.properties) := by
  simp only [propertiesShown]
  rw [List.filter_eq_self.mpr]
  intro e he
  rw [h] at he
  obtain ⟨k, hk⟩ := List.mem_iff_getElem?.mp he
  obtain ⟨a, b, ha, hb, rfl⟩ := getElem?_edgesBetween.mp hk
  rw [decide_eq_true_eq]
  exact ⟨List.mem_map_of_mem (List.mem_of_getElem? ha),
    List.mem_map_of_mem (List.mem_of_getElem? hb)⟩

/-- Calls that look alike have the same label. -/
theorem callLabel_eq_of_callMark_eq {call call' : ServiceCall}
    (h : callMark call = callMark call') :
    callLabel call = callLabel call' := by
  simp only [callMark, Prod.mk.injEq] at h
  rw [callLabel, callLabel, h.1, h.2.1]

/-- A label of a line is its caption or the label of its call. -/
theorem Mark.forall_label? {P : String → Prop} (mark : Mark) :
    (∀ label ∈ mark.label?, P label) ↔
    (∀ caption ∈ mark.caption?, P caption) ∧ ∀ entry ∈ mark.call?,
      P (callLabel entry.2) := by
  cases mark <;> simp [label?, caption?, call?]

/-- An arrow is drawn for an edge between two middlewares. -/
theorem mem_names_of_edgeLine? {ms : List Middleware} {e : Edge} {line : Line}
    (h : edgeLine? ms e = some line) :
    e.source ∈ ms.map (·.name) ∧ e.target ∈ ms.map (·.name) := by
  have hname : ∀ {name i}, positionOf? ms name = some i →
      name ∈ ms.map (·.name) := by
    intro name i hi
    obtain ⟨hlt, heq, -⟩ := List.findIdx?_eq_some_iff_getElem.mp hi
    exact List.mem_map.mpr ⟨ms[i], List.getElem_mem hlt, by simpa using heq⟩
  simp only [edgeLine?, Option.bind_eq_bind, Option.bind_eq_some_iff] at h
  obtain ⟨i, hi, j, hj, -⟩ := h
  exact ⟨hname hi, hname hj⟩

/-- The calls of a chart are on its lines, and none is on an arrow. -/
theorem calls_eq_filterMap_lines (f : Folding) (r : FlowResult) :
    (draw f r).calls = (draw f r).lines.filterMap (·.mark.call?) := by
  have hedges : (draw f r).edges.filterMap (·.mark.call?) = [] := by
    rw [List.filterMap_eq_nil_iff]
    intro line hline
    obtain ⟨e, -, he⟩ := List.mem_filterMap.mp hline
    obtain ⟨-, i, -, j, -, hends⟩ := ends_of_edgeLine? he
    cases hmark : line.mark with
    | callBox id call =>
        rw [hmark] at hends
        cases hends
    | _ => rfl
  rw [lines, List.filterMap_append, hedges, List.append_nil]
  refine List.filterMap_congr fun line _ => ?_
  obtain ⟨indent, mark⟩ := line
  cases mark <;> rfl

section Drawn

variable {c : Char} (hc : EndsLabel c) (f : Folding) (r : FlowResult)

include hc

/-- The boxes and frames of a chart are intact just when the names that are
drawn are. -/
theorem intact_body_draw : Intact c (draw f r).body ↔
    ∀ name ∈ namesDrawn f r.middlewares, c = '"' ∨ c ∉ name.toList := by
  have hlines : Intact c (draw f r).body ↔ ∀ entry ∈ r.middlewares.zipIdx,
      Intact c (Canvas.middlewareLines ⟨f,
          placedCalls f r.middlewares⟩ entry.2 entry.1) := by
    simp only [Intact, draw, List.forall_mem_flatMap]
  simp only [hlines, namesDrawn, List.forall_mem_flatMap,
    intact_middlewareLines hc]

/-- An arrow has a label if there are properties to show on it. -/
theorem notMem_caption_arrowLine (source target : Nat)
    (properties : List String) :
    (∀ caption ∈ (arrowLine source target properties).mark.caption?,
      c ∉ caption.toList) ↔
      ∀ p ∈ entriesShown properties, c ∉ p.toList := by
  cases properties with
  | nil => simp [arrowLine, Mark.caption?, entriesShown]
  | cons p rest =>
      have hlabel := mem_edgeLabel hc (p :: rest)
      simpa [arrowLine, Mark.caption?] using not_congr hlabel

/-- The arrows of a chart are intact just when the properties that are shown
are. -/
theorem intact_edges_draw : Intact c (draw f r).edges ↔
    ∀ p ∈ propertiesShown r, c ∉ p.toList := by
  have hedge : ∀ e : Edge,
      (∀ line ∈ edgeLine? r.middlewares e, ∀ caption ∈ line.mark.caption?,
        c ∉ caption.toList) ↔
        (e.source ∈ r.middlewares.map (·.name) ∧
          e.target ∈ r.middlewares.map (·.name) →
          ∀ p ∈ entriesShown e.properties, c ∉ p.toList) := by
    intro e
    by_cases hends : e.source ∈ r.middlewares.map (·.name) ∧
      e.target ∈ r.middlewares.map (·.name)
    · rw [edgeLine?_eq hends.1 hends.2, imp_iff_right hends]
      simpa using notMem_caption_arrowLine hc _ _ _
    · refine iff_of_true ?_ fun h => absurd h hends
      intro line hline
      exact absurd (mem_names_of_edgeLine? hline) hends
  have hedges : Intact c (draw f r).edges ↔
    ∀ e ∈ r.edges, ∀ line ∈ edgeLine? r.middlewares e,
      ∀ caption ∈ line.mark.caption?, c ∉ caption.toList :=
    List.forall_mem_filterMap
  simp only [hedges, hedge, propertiesShown, List.forall_mem_flatMap,
    List.mem_filter, decide_eq_true_eq, and_imp]

/-- The labels of the calls are intact just when the texts of the calls are.
-/
theorem notMem_callLabels_draw :
    (∀ entry ∈ (draw f r).calls, c ∉ (callLabel entry.2).toList) ↔
    ∀ text ∈ callTexts r.middlewares, c = '"' ∨ c ∉ text.toList := by
  have hperm : ((draw f r).calls.map (·.2)).Perm
      (uniqueBy callMark (r.middlewares.flatMap templated)) := by
    have hplaced := (map_owner_calls_perm f r).map (·.2)
    rwa [List.map_map, map_snd_placedCalls] at hplaced
  calc (∀ entry ∈ (draw f r).calls, c ∉ (callLabel entry.2).toList)
      ↔ ∀ call ∈ (draw f r).calls.map (·.2), c ∉ (callLabel call).toList := by
        rw [List.forall_mem_map]
    _ ↔ ∀ call ∈ uniqueBy callMark (r.middlewares.flatMap templated),
          c ∉ (callLabel call).toList := by
        simp only [hperm.mem_iff]
    _ ↔ ∀ call ∈ r.middlewares.flatMap templated,
        c ∉ (callLabel call).toList := by
        constructor
        · intro hall call hcall
          obtain ⟨first, hfirst, hmark⟩ :=
            (exists_mem_uniqueFrom callMark [] _ _).mpr
            ⟨List.not_mem_nil, call, hcall, rfl⟩
          rw [← callLabel_eq_of_callMark_eq hmark]
          exact hall first hfirst
        · intro hall call hcall
          exact hall call (mem_of_mem_uniqueFrom hcall)
    _ ↔ ∀ text ∈ callTexts r.middlewares, c = '"' ∨ c ∉ text.toList := by
        have hpair : ∀ call : ServiceCall,
            (∀ text ∈ [call.family, shortened (call.template.getD "")],
              c = '"' ∨ c ∉ text.toList) ↔
              c ∉ (callLabel call).toList := by
          intro call
          simp [notMem_callLabel hc, or_and_left]
        simp only [callTexts, List.forall_mem_flatMap, hpair]

/-- **The labels of a chart** are intact if the texts that they are made of
are.  A double quote only matters on an arrow. -/
theorem notMem_labels_draw : (∀ label ∈ (draw f r).labels, c ∉ label.toList) ↔
    (∀ text ∈ namesDrawn f r.middlewares ++ callTexts r.middlewares, c = '"' ∨
      c ∉ text.toList) ∧
      ∀ p ∈ propertiesShown r, c ∉ p.toList := by
  calc (∀ label ∈ (draw f r).labels, c ∉ label.toList)
      ↔ ∀ line ∈ (draw f r).lines, ∀ label ∈ line.mark.label?,
          c ∉ label.toList :=
        List.forall_mem_filterMap
    _ ↔ Intact c (draw f r).lines ∧
          ∀ line ∈ (draw f r).lines, ∀ entry ∈ line.mark.call?,
              c ∉ (callLabel entry.2).toList := by
        simp only [Mark.forall_label?, forall_and, Intact]
    _ ↔ Intact c (draw f r).lines ∧ ∀ entry ∈ (draw f r).calls,
        c ∉ (callLabel entry.2).toList := by
        rw [calls_eq_filterMap_lines, List.forall_mem_filterMap]
        rfl
    _ ↔ _ := by
        rw [lines, intact_append, intact_body_draw hc, intact_edges_draw hc,
          notMem_callLabels_draw hc, List.forall_mem_append, and_right_comm]

end Drawn

/-- A text that ends neither a label nor a line. -/
def Plain (s : String) : Prop :=
  '"' ∉ s.toList ∧ '\n' ∉ s.toList

/-- A text is checked by its characters. -/
theorem plain_ofList {cs : List Char} (h : '"' ∉ cs ∧ '\n' ∉ cs) :
    Plain (String.ofList cs) := by
  rwa [Plain, String.toList_ofList]

/-- A text without the characters that end a label is plain. -/
theorem plain_of_forall {s : String} (h : ∀ c, EndsLabel c → c ∉ s.toList) :
    Plain s :=
  ⟨h '"' endsLabel_quote, h '\n' endsLabel_lineFeed⟩

/-- Two plain texts make a plain one. -/
theorem Plain.append {s t : String} (hs : Plain s) (ht : Plain t) :
    Plain (s ++ t) := by
  simp only [Plain, String.toList_append, List.mem_append, not_or]
  exact ⟨⟨hs.1, ht.1⟩, hs.2, ht.2⟩

/-- The name of a part is plain. -/
theorem plain_nodeText (id : NodeId) : Plain id.text := by
  apply plain_of_forall
  intro c hc hmem
  have hpieces : c ∈ id.pieces.reverse.flatMap Piece.marked := by
    rw [← NodeId.toList_text]
    exact List.mem_cons_of_mem _ hmem
  obtain ⟨piece, -, hpiece⟩ := List.mem_flatMap.mp hpieces
  have hdigits : ∀ n, c ∉ Nat.toDigits 10 n := notMem_toDigits hc
  rcases hc with rfl | rfl <;>
    cases piece <;> simp [Piece.marked, Piece.chars, hdigits] at hpiece

/-- The mark of a look is plain. -/
theorem plain_look (look : Look) : Plain look.mark := by
  cases look <;> exact plain_ofList (by decide)

/-- A label stands between double quotes, and all around it is plain. -/
theorem Mark.exists_text_eq {mark : Mark} {label : String}
    (h : mark.label? = some label) :
    ∃ before after, mark.text = before ++ "\"" ++ label ++ "\"" ++ after ∧
      Plain before ∧ Plain after := by
  have htext : ∀ t : String, toString t = t := fun _ => rfl
  cases mark with
  | opening id label =>
      cases h
      refine ⟨"subgraph " ++ id.text ++ "[", "]", ?_, ?_,
        plain_ofList (by decide)⟩
      · exact String.toList_inj.mp (by simp [Mark.text, htext])
      · have hstart : Plain "subgraph " := plain_ofList (by decide)
        exact (hstart.append (plain_nodeText id)).append
          (plain_ofList (by decide))
  | box id label look =>
      cases h
      refine ⟨id.text ++ "[", "]" ++ look.mark, ?_,
        (plain_nodeText id).append (plain_ofList (by decide)),
        (plain_ofList (by decide)).append (plain_look look)⟩
      exact String.toList_inj.mp (by simp [Mark.text])
  | callBox id call =>
      cases h
      refine ⟨id.text ++ "([", "]):::external", ?_,
        (plain_nodeText id).append (plain_ofList (by decide)),
        plain_ofList (by decide)⟩
      exact String.toList_inj.mp (by simp [Mark.text])
  | labelled source target label =>
      cases h
      refine ⟨source.text ++ " -->|", "| " ++ target.text, ?_,
        (plain_nodeText source).append (plain_ofList (by decide)),
        (plain_ofList (by decide)).append (plain_nodeText target)⟩
      exact String.toList_inj.mp (by simp [Mark.text])
  | direction => cases h
  | closing => cases h
  | arrow source target => cases h
  | callArrow source target => cases h

/-- A line without a label is plain. -/
theorem Mark.plain_text {mark : Mark} (h : mark.label? = none) :
    Plain mark.text := by
  have harrow : ∀ (source target : NodeId) (sign : String), Plain sign →
      Plain (source.text ++ sign ++ target.text) := by
    intro source target sign hsign
    exact ((plain_nodeText source).append hsign).append (plain_nodeText target)
  cases mark with
  | direction => exact plain_ofList (by decide)
  | closing => exact plain_ofList (by decide)
  | arrow source target =>
      exact harrow source target " --> " (plain_ofList (by decide))
  | callArrow source target =>
      exact harrow source target " -.-> " (plain_ofList (by decide))
  | opening id label => cases h
  | box id label look => cases h
  | callBox id call => cases h
  | labelled source target label => cases h

namespace Line

/-- Blanks are plain. -/
theorem plain_indent (n : Nat) :
    Plain (String.ofList (List.replicate n ' ')) := by
  simp [Plain, List.mem_replicate]

/-- A line with a label has it between double quotes, and all around them is
plain. -/
theorem exists_text_eq {line : Line} {label : String}
    (h : line.mark.label? = some label) :
    ∃ before after, line.text = before ++ "\"" ++ label ++ "\"" ++ after ∧
      Plain before ∧ Plain after := by
  obtain ⟨before, after, htext, hbefore, hafter⟩ := Mark.exists_text_eq h
  refine ⟨String.ofList (List.replicate (4 * line.indent) ' ') ++ before,
    after, ?_, (plain_indent _).append hbefore, hafter⟩
  simp only [Line.text, htext, String.append_assoc]

/-- A line feed of a line is one of its label. -/
theorem lineFeed_notMem_text (line : Line) :
    '\n' ∉ line.text.toList ↔
      ∀ label ∈ line.mark.label?, '\n' ∉ label.toList := by
  cases hlabel : line.mark.label? with
  | none =>
      have hplain : Plain line.text :=
        (plain_indent _).append (Mark.plain_text hlabel)
      simp [hplain.2]
  | some label =>
      obtain ⟨before, after, htext, hbefore, hafter⟩ := exists_text_eq hlabel
      simp [htext, hbefore.2, hafter.2]

/-- A label is read off its line at the double quotes, unless it has one
itself. -/
theorem split_text_iff {line : Line} {label : String}
    (h : line.mark.label? = some label) :
    (∃ before after, Text.split '"' line.text = [before, label, after]) ↔
      '"' ∉ label.toList := by
  constructor
  · intro ⟨before, after, hsplit⟩
    apply Text.not_mem_of_mem_split
    rw [hsplit]
    simp
  · intro hlabel
    obtain ⟨before, after, htext, hbefore, hafter⟩ := exists_text_eq h
    have hjoin : line.text = Text.join "\"" [before, label, after] := by
      simp [htext, Text.join, String.intercalate_cons_cons, String.append_assoc]
    refine ⟨before, after, ?_⟩
    rw [hjoin]
    apply Text.split_join rfl (by simp)
    simpa using ⟨hbefore.1, hlabel, hafter.1⟩

end Line

/-- The lines that say how boxes look are plain. -/
theorem plain_of_mem_looks : ∀ t ∈ looks, Plain t := by
  simp only [looks, List.forall_mem_cons]
  refine ⟨?_, ?_, ?_, ?_, ?_, ?_, ?_, by simp⟩ <;>
    exact plain_ofList (by decide)

/-- A line feed of a chart's lines is one of a label. -/
theorem lineFeed_notMem_texts (chart : Chart) :
    (∀ t ∈ chart.texts, '\n' ∉ t.toList) ↔
    ∀ label ∈ chart.labels, '\n' ∉ label.toList := by
  have hhead : ∀ t ∈ ["flowchart TD"] ++ looks.map ("    " ++ ·),
      '\n' ∉ t.toList := by
    rw [List.forall_mem_append, List.forall_mem_singleton, List.forall_mem_map]
    refine ⟨(plain_ofList (by decide)).2, fun t ht => ?_⟩
    exact ((plain_ofList (by decide)).append (plain_of_mem_looks t ht)).2
  have hempty : ∀ t ∈ [""], '\n' ∉ t.toList := by decide
  have hlabels : (∀ label ∈ chart.labels, '\n' ∉ label.toList) ↔
      ∀ line ∈ chart.lines, '\n' ∉ line.text.toList := by
    simp only [Line.lineFeed_notMem_text]
    exact List.forall_mem_filterMap
  rw [hlabels, texts, lines, List.forall_mem_append, List.forall_mem_append,
    List.forall_mem_append, List.forall_mem_append, List.forall_mem_map,
    List.forall_mem_map, and_iff_left hempty, and_iff_left hempty,
    and_iff_right hhead, List.forall_mem_append]

/-- The text of a chart falls into its lines at the line feeds, unless a label
has one. -/
theorem split_text_iff (chart : Chart) :
    Text.split '\n' chart.text = chart.texts ++ [""] ↔
      ∀ label ∈ chart.labels, '\n' ∉ label.toList := by
  rw [← lineFeed_notMem_texts]
  constructor
  · intro hsplit t ht
    apply Text.not_mem_of_mem_split
    rw [hsplit]
    exact List.mem_append_left _ ht
  · intro hall
    have hne : chart.texts ≠ [] := by simp [texts]
    rw [text_eq, ← Text.join_append_empty hne]
    apply Text.split_join rfl (by simp)
    exact List.forall_mem_append.mpr ⟨hall, by decide⟩

/-- Boxes, frames and calls never have a double quote in their labels.  No
label has one exactly if no property on an arrow does, and no label has a line
feed exactly if no name that is drawn, no family or shortened template of a
call and no property on an arrow does.  Labels without double quotes, and only
those, are read off their lines at the double quotes; the text of a chart falls
into its lines at the line feeds exactly if no label has one. -/
theorem labels_intact_iff (f : Folding) (r : FlowResult) :
    (∀ line ∈ (draw f r).body, ∀ label ∈ line.mark.label?, '"' ∉ label.toList) ∧
    ((∀ label ∈ (draw f r).labels, '"' ∉ label.toList) ↔
      ∀ p ∈ propertiesShown r, '"' ∉ p.toList) ∧
    ((∀ label ∈ (draw f r).labels, '\n' ∉ label.toList) ↔
      ∀ text ∈ namesDrawn f r.middlewares ++ callTexts r.middlewares
        ++ propertiesShown r, '\n' ∉ text.toList) ∧
    (∀ line ∈ (draw f r).lines, ∀ label ∈ line.mark.label?,
      ('"' ∉ label.toList ↔
      ∃ before after, Text.split '"' line.text = [before, label, after])) ∧
    ((∀ label ∈ (draw f r).labels, '\n' ∉ label.toList) ↔
      Text.split '\n' (draw f r).text = (draw f r).texts ++ [""]) := by
  refine ⟨?_, ?_, ?_, ?_, (split_text_iff _).symm⟩
  · have hnames : Intact '"' (draw f r).body :=
      (intact_body_draw endsLabel_quote f r).mpr fun _ _ => .inl rfl
    intro line hline
    rw [Mark.forall_label?]
    refine ⟨hnames line hline, ?_⟩
    intro entry _
    exact (notMem_callLabel endsLabel_quote entry.2).mpr (.inl rfl)
  · rw [notMem_labels_draw endsLabel_quote]
    exact and_iff_right fun _ _ => .inl rfl
  · rw [notMem_labels_draw endsLabel_lineFeed]
    simp only [or_iff_right (show '\n' ≠ '"' by decide), List.forall_mem_append]
  · intro line _ label hlabel
    exact (Line.split_text_iff hlabel).symm

end Chart

namespace Scene

open Chart

/-- **Labels that are not intact.**  However the chart is folded, a double
quote stands in the label of its arrow, and a line feed in that of its call. -/
theorem exists_broken_labels_lookalikes :
    ∃ r, (lookalikes.analyzeFlow none {} lookalikeChain).2 = .ok r ∧
      ∀ f : Folding,
      (∃ label ∈ (draw f r).labels, '"' ∈ label.toList) ∧
        ∃ label ∈ (draw f r).labels, '\n' ∈ label.toList := by
  obtain ⟨r, hr, -, -, hedges, hcalls⟩ := analyzeFlow_lookalikes
  have hproperty : "\"" ∈ propertiesShown r := by
    rw [propertiesShown_eq (edges_of_analyzeFlow hr), ← List.flatMap_map,
      hedges]
    decide
  have htemplate : "\n" ∈ callTexts r.middlewares := by
    obtain ⟨call, hcall, heq⟩ : ∃ call ∈ r.middlewares.flatMap (·.calls),
        (call.family, call.template) = ("http", some "\n") := by
      apply List.mem_map.mp
      rw [List.map_flatMap, List.flatMap_def, hcalls]
      simp
    obtain ⟨m, hm, hcall⟩ := List.mem_flatMap.mp hcall
    have hfeed : call.template = some "\n" := (Prod.mk.inj heq).2
    have hcut : shortened (call.template.getD "") = "\n" := by
      rw [hfeed]
      rfl
    refine List.mem_flatMap.mpr ⟨call,
      List.mem_flatMap.mpr ⟨m, hm, ?_⟩, by simp [hcut]⟩
    exact List.mem_filter.mpr ⟨hcall, by simp [hfeed]⟩
  refine ⟨r, hr, fun f => ⟨?_, ?_⟩⟩
  · by_contra hnone
    simp only [not_exists, not_and] at hnone
    obtain ⟨-, hproperties⟩ := (notMem_labels_draw endsLabel_quote f r).mp hnone
    exact absurd (hproperties "\"" hproperty) (by decide)
  · by_contra hnone
    simp only [not_exists, not_and] at hnone
    obtain ⟨htexts, -⟩ := (notMem_labels_draw endsLabel_lineFeed f r).mp hnone
    exact absurd (htexts "\n" (List.mem_append_right _ htemplate)) (by decide)

end Scene

end Relay
