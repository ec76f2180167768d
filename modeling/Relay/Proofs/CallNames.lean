import Relay.Proofs.Addresses
import Relay.Proofs.DrawnCalls
import Relay.Proofs.Packages

/-!
# The names of calls

A call of a service is recorded with a template.  Where the arguments of the
call give none, the method that it names stands in, without the word `call` at
its start.  One method has nothing left then: `call` itself.

The walk of a file keeps a table of names, and a call is recorded by the table
as it is at the call (`ServiceCalls.has_of`).  A call without a name is one of
a method that is just called `call`, with arguments that give no template
(`BareCall`), and a chart draws all calls of a file just when the file has no
such call (`calls_named_iff`).

The two files of the scene `gaps` are evaluated at the end.  One has a bare
call, and the other has accesses with a computed step.
-/

namespace Relay

namespace Text

/-- Joined texts are empty only if there are none or there is one that is
empty. -/
theorem join_eq_empty_iff {sep : String} (hsep : sep ≠ "")
    {parts : List String} :
    join sep parts = "" ↔ parts = [] ∨ parts = [""] := by
  cases parts with
  | nil => simp [join]
  | cons part parts =>
      cases parts with
      | nil => simp [join]
      | cons next rest =>
          have hjoin : join sep (part :: next :: rest) = part ++ sep ++
              join sep (next :: rest) :=
            String.intercalate_cons_cons
          rw [hjoin]
          simp [hsep]

end Text

namespace Analysis

open Syntax

variable {bytes : ByteArray} {call : Node} {around : List Node}

/-- A text that counts is not empty. -/
theorem ne_empty_of_filled? {s : Option String} {t : String}
    (h : filled? s = some t) : t ≠ "" := by
  simpa using (Option.filter_eq_some_iff.mp h).2

/-- The strings that an argument of a call can have; there are none without the
argument. -/
def valuesAt (bytes : ByteArray) (call : Node) (place : Nat) : List String :=
  (((callArguments call)[place]?).map (stringValues bytes)).getD []

/-- The arguments of a call give no template to a method whose template has no
known place.  In the usual place there is an empty string and nothing else, or
there is no string at all and no argument can be the name of a template. -/
def GivesNoTemplate (bytes : ByteArray) (call : Node) : Prop :=
  valuesAt bytes call usualTemplatePlace = [""] ∨
    (valuesAt bytes call usualTemplatePlace = [] ∧
      ∀ a ∈ callArguments call, ∀ x ∈ stringValues bytes a,
      isTemplateName x = false)

/-- Joined values give nothing only if there are none or there is one that is
empty. -/
theorem filled?_joinValues?_eq_none_iff {values : List String} :
    filled? (joinValues? values) = none ↔ values = [] ∨ values = [""] := by
  have hsep : valueSeparator ≠ "" := by decide
  cases values with
  | nil => simp [joinValues?, filled?]
  | cons value values =>
      have hjoin : Text.join valueSeparator (value :: values) = "" ↔
          value :: values = [] ∨ value :: values = [""] :=
            Text.join_eq_empty_iff hsep
      simp only [joinValues?, List.isEmpty_cons, Bool.false_eq_true, if_false]
      rw [← hjoin]
      simp [filled?]

/-- Only without any value is there nothing to join. -/
theorem joinValues?_eq_none_iff {values : List String} :
    joinValues? values = none ↔ values = [] := by
  simp [joinValues?]

/-- A template that is found among the arguments is not empty. -/
theorem filled?_lastTemplate? (arguments : List Node) :
    filled? (lastTemplate? bytes arguments) =
      lastTemplate? bytes arguments := by
  cases hlast : lastTemplate? bytes arguments with
  | none => rfl
  | some template =>
      apply filled?_of_ne
      obtain ⟨a, -, ha⟩ := List.exists_of_findSome?_eq_some hlast
      intro hempty
      have hfilled :
          filled? (joinValues? ((stringValues bytes a).filter isTemplateName)) =
              none := by
        rw [ha, hempty]
        rfl
      rcases filled?_joinValues?_eq_none_iff.mp hfilled with hnil | hone
      · rw [hnil] at ha
        cases ha
      · have hname : "" ∈ (stringValues bytes a).filter isTemplateName := by
          rw [hone]
          exact List.mem_singleton_self _
        have hshort : isTemplateName "" = false := by decide
        rw [(List.mem_filter.mp hname).2] at hshort
        cases hshort

/-- No template is found just when no argument can have a value that looks
like one. -/
theorem lastTemplate?_eq_none_iff {arguments : List Node} :
    lastTemplate? bytes arguments = none ↔
      ∀ a ∈ arguments, ∀ x ∈ stringValues bytes a,
        isTemplateName x = false := by
  simp [lastTemplate?, joinValues?_eq_none_iff, List.filter_eq_nil_iff]

/-- What the arguments of a call give to the method `call`. -/
theorem filled?_templateOf?_eq_none_iff :
    filled? (templateOf? bytes call "call" around) = none ↔
      GivesNoTemplate bytes call := by
  have hplace : templatePlace? "call" = none := by decide
  have hservice : isServiceMethod "call" = true := by decide
  simp only [templateOf?, hplace, hservice, if_true]
  unfold GivesNoTemplate valuesAt
  cases hargument : (callArguments call)[usualTemplatePlace]? with
  | none =>
      simp [filled?_lastTemplate?, lastTemplate?_eq_none_iff]
  | some a =>
      simp only [Option.bind_some, Option.map_some, Option.getD_some]
      cases hjoin : joinValues? (stringValues bytes a) with
      | none =>
          rw [joinValues?_eq_none_iff.mp hjoin, Option.none_or,
            filled?_lastTemplate?, lastTemplate?_eq_none_iff]
          simp
      | some template =>
          have hsome : stringValues bytes a ≠ [] := by
            intro hnil
            rw [joinValues?_eq_none_iff.mpr hnil] at hjoin
            cases hjoin
          rw [Option.some_or, ← hjoin, filled?_joinValues?_eq_none_iff]
          simp [hsome]

/-- Of all methods only `call` has nothing left without this word. -/
theorem shortMethodName_eq_empty_iff {method : String} (h : method ≠ "") :
    shortMethodName method = "" ↔ method = "call" := by
  unfold shortMethodName
  split
  · rename_i hcall
    obtain ⟨rest, hrest⟩ := Text.startsWith_iff.mp hcall
    have hmethod : method = "call" ↔ rest = [] := by
      rw [← String.toList_inj, ← hrest]
      simp
    have hdrop : method.toList.drop 4 = rest := by
      rw [← hrest]
      rfl
    rw [Text.dropChars, hdrop, hmethod]
    exact String.ofList_eq_empty_iff
  · rename_i hcall
    constructor
    · intro hempty
      exact absurd hempty h
    · intro hmethod
      rw [hmethod] at hcall
      exact absurd (by decide) hcall

/-- A method that is called has a name. -/
theorem ne_empty_of_calledMethod? {method : String} {owner : Option String}
    (h : calledMethod? bytes call = some (method, owner)) : method ≠ "" := by
  obtain ⟨callee, -, hcallee⟩ := Option.bind_eq_some_iff.mp h
  split at hcallee
  · obtain ⟨name, hname, heq⟩ := Option.map_eq_some_iff.mp hcallee
    cases heq
    exact ne_empty_of_filled? hname
  · obtain ⟨name, hname, heq⟩ := Option.map_eq_some_iff.mp hcallee
    cases heq
    exact ne_empty_of_filled? hname
  · cases hcallee

/-- **Which calls have no name.**  An http request always has one, its address
or its method. -/
theorem serviceAt?_eq_some_empty_iff {b : Bindings} {family : String} :
    serviceAt? bytes b call around = some (family, "") ↔
      ∃ owner, calledMethod? bytes call = some ("call", owner) ∧
        familyOfMethod? b "call" owner = some family ∧
          GivesNoTemplate bytes call := by
  constructor
  · intro h
    obtain ⟨⟨method, owner⟩, hmethod, hservice⟩ := Option.bind_eq_some_iff.mp h
    have hne := ne_empty_of_calledMethod? hmethod
    simp only at hservice
    split at hservice
    · have haddress : (requestAddress? bytes call around).getD method = "" :=
        (Prod.mk.inj (Option.some.inj hservice)).2
      cases hrequest : requestAddress? bytes call around with
      | none =>
          rw [hrequest] at haddress
          exact absurd haddress hne
      | some address =>
          rw [hrequest] at haddress
          obtain ⟨a, -, ha⟩ := List.exists_of_findSome?_eq_some hrequest
          exact absurd haddress (ne_empty_of_filled? ha)
    · obtain ⟨found, hfamily, heq⟩ := Option.map_eq_some_iff.mp hservice
      obtain ⟨rfl, htemplate⟩ := Prod.mk.inj heq
      cases hgiven : filled? (templateOf? bytes call method around) with
      | some template =>
          rw [hgiven] at htemplate
          exact absurd htemplate (ne_empty_of_filled? hgiven)
      | none =>
          rw [hgiven, Option.getD_none] at htemplate
          obtain rfl := (shortMethodName_eq_empty_iff hne).mp htemplate
          exact ⟨owner, hmethod, hfamily,
            filled?_templateOf?_eq_none_iff.mp hgiven⟩
  · intro h
    obtain ⟨owner, hmethod, hfamily, hgives⟩ := h
    have hhttp : "call" ∉ httpMethods := by decide
    have hshort : shortMethodName "call" = "" := by decide
    simp [serviceAt?, hmethod, hhttp, hfamily,
      filled?_templateOf?_eq_none_iff.mpr hgives, hshort]

/-- The table of names after some moments of a walk. -/
def tableAfter (bytes : ByteArray) (b : Bindings) (visits : List Visit) :
    Bindings :=
  visits.foldl (fun b v => bindingsAfter bytes b v.node v.enclosing) b

namespace ServiceCalls

variable {s : Source} {isLibrary : Bool} {known : ServiceCalls}
  {family : String}
  {template : Option String} {line : Nat}

/-- A call of a family, with a template and on a line, is among some calls. -/
def Has (calls : List ServiceCall) (family : String) (template : Option String)
    (line : Nat) :
    Prop :=
  ∃ c ∈ calls, c.family = family ∧ c.template = template ∧ c.line = line

/-- Among the calls of one file a call is told by its stamp. -/
theorem has_iff {calls : List ServiceCall} (h : ∀ c ∈ calls, c.path = s.path) :
    Has calls family template line ↔
      (family, template, line, s.path.text) ∈ calls.map ServiceCall.stamp := by
  rw [List.mem_map]
  refine exists_congr fun c => and_congr_right fun hc => ?_
  simp [ServiceCall.stamp, h c hc]

/-- A node adds the call that it makes by the table as it is then. -/
theorem has_visit (h : known.Tied s) (v : Visit) :
    Has (visit s isLibrary known v).found.items family template line ↔
      Has known.found.items family template line ∨
        (v.node.kind = .callExpression ∧ s.lineOf v.node = line ∧
          ∃ t, template = some t ∧
            serviceAt? s.bytes
              (bindingsAfter s.bytes known.bindings v.node v.enclosing) v.node
              v.enclosing = some (family, t)) := by
  have hvisit : (visit s isLibrary known v).Tied s := h.visit v
  rw [has_iff hvisit.home, has_iff h.home]
  unfold visit
  by_cases hkind : v.node.kind = .callExpression
  · simp only [hkind, if_true, true_and]
    split
    · rename_i family' template' hservice
      rw [h.calls.mem_map_add, or_comm, hservice]
      refine or_congr_right ?_
      constructor
      · intro heq
        cases heq
        exact ⟨rfl, template', rfl, rfl⟩
      · intro hmade
        obtain ⟨rfl, t, rfl, heq⟩ := hmade
        cases heq
        rfl
    · rename_i hservice
      simp [hservice]
  · simp [hkind]

/-- A moment of the walk changes the table of names by what is bound there,
and by nothing else. -/
theorem bindings_visit (v : Visit) :
    (visit s isLibrary known v).bindings
      = bindingsAfter s.bytes known.bindings v.node v.enclosing := by
  unfold visit
  simp only
  split
  · rfl
  · rfl

/-- The moments of a walk and what is before them: the first one, or a later
one. -/
theorem exists_split_cons {α : Type} {a : α} {items : List α}
    {P : List α → α → Prop} :
    (∃ before b after, a :: items = before ++ b :: after ∧ P before b) ↔
      P [] a ∨ ∃ before b after, items = before ++ b :: after ∧
        P (a :: before) b := by
  constructor
  · intro h
    obtain ⟨before, b, after, hitems, hb⟩ := h
    cases before with
    | nil =>
        cases hitems
        exact .inl hb
    | cons first before =>
        cases hitems
        exact .inr ⟨before, b, after, rfl, hb⟩
  · intro h
    rcases h with ha | ⟨before, b, after, rfl, hb⟩
    · exact ⟨[], a, items, rfl, ha⟩
    · exact ⟨a :: before, b, after, rfl, hb⟩

/-- The calls after some moments are those from before, and those that one of
the moments makes under the table of names at that moment. -/
theorem has_foldl_visit (h : known.Tied s) (visits : List Visit) :
    Has (visits.foldl (visit s isLibrary) known).found.items family
      template line ↔ Has known.found.items family template line ∨
        ∃ before v after, visits = before ++ v :: after ∧
          (v.node.kind = .callExpression ∧ s.lineOf v.node = line ∧
            ∃ t, template = some t ∧
            serviceAt? s.bytes
              (tableAfter s.bytes known.bindings (before ++ [v])) v.node
              v.enclosing = some (family, t)) := by
  induction visits generalizing known with
  | nil => simp
  | cons v visits ih =>
      rw [List.foldl_cons, ih (h.visit v), has_visit h, exists_split_cons,
        or_assoc, bindings_visit]
      rfl

/-- **What is recorded.**  The calls of a file are those that its nodes make,
each by the table as it is at the call. -/
theorem has_of :
    Has (of s isLibrary) family template line ↔
      ∃ before v after, entered (walkAll s.tree) = before ++ v :: after ∧
        (v.node.kind = .callExpression ∧ s.lineOf v.node = line ∧
          ∃ t, template = some t ∧
          serviceAt? s.bytes
            (tableAfter s.bytes [] (before ++ [v])) v.node v.enclosing
            = some (family, t)) := by
  rw [of, has_foldl_visit (tied_empty s)]
  simp [Has]

end ServiceCalls

/-- At a moment of its walk a file calls a service by a method that is just
called `call`, and the arguments give no template. -/
inductive BareCall (s : Source) : Visit → String → Prop
  | mk {before after : List Visit} {v : Visit} {owner : Option String}
  {family : String}
      (hwalk : entered (walkAll s.tree) = before ++ v :: after)
      (hkind : v.node.kind = .callExpression)
      (hmethod : calledMethod? s.bytes v.node = some ("call", owner))
      (hfamily : familyOfMethod? (tableAfter s.bytes [] (before ++ [v]))
        "call" owner = some family)
      (htemplate : GivesNoTemplate s.bytes v.node) : BareCall s v family

/-- A nameless call is found on a line just when a bare call stands there. -/
theorem exists_nameless_iff {s : Source} {isLibrary : Bool} {family : String}
    {line : Nat} :
    (∃ c ∈ ServiceCalls.of s isLibrary,
        c.family = family ∧ c.line = line ∧ c.template.getD "" = "") ↔
      ∃ v, BareCall s v family ∧ s.lineOf v.node = line := by
  constructor
  · intro h
    obtain ⟨c, hc, rfl, rfl, hempty⟩ := h
    have hhas : ServiceCalls.Has (ServiceCalls.of s isLibrary)
        c.family c.template c.line :=
      ⟨c, hc, rfl, rfl, rfl⟩
    obtain ⟨before, v, after, hwalk, hkind, hline, t, htemplate, hservice⟩ :=
      ServiceCalls.has_of.mp hhas
    rw [htemplate, Option.getD_some] at hempty
    rw [hempty] at hservice
    obtain ⟨owner, hmethod, hfamily, hgives⟩ :=
      serviceAt?_eq_some_empty_iff.mp hservice
    exact ⟨v, .mk hwalk hkind hmethod hfamily hgives, hline⟩
  · intro h
    obtain ⟨v, hbare, rfl⟩ := h
    cases hbare with
    | @mk before after _ owner _ hwalk hkind hmethod hfamily hgives =>
        have hservice :
          serviceAt? s.bytes (tableAfter s.bytes [] (before ++ [v])) v.node
            v.enclosing = some (family, "") :=
          serviceAt?_eq_some_empty_iff.mpr ⟨owner, hmethod, hfamily, hgives⟩
        obtain ⟨c, hc, hsame, htemplate, hline⟩ := ServiceCalls.has_of.mpr
          ⟨before, v, after, hwalk, hkind, rfl, "", rfl, hservice⟩
        refine ⟨c, hc, hsame, hline, ?_⟩
        rw [htemplate]
        rfl

/-- **Calls without a name.**  A call of a family is recorded on a line with no
name just when a bare call of the family stands on that line, so all calls of a
file are named if and only if it has no bare call.  And a chart of a middleware
with the calls of the file shows all of them just then. -/
theorem calls_named_iff (s : Source) (isLibrary : Bool) :
    (∀ family line,
      (∃ c ∈ ServiceCalls.of s isLibrary,
          c.family = family ∧ c.line = line ∧ c.template.getD "" = "") ↔
        ∃ v, BareCall s v family ∧ s.lineOf v.node = line) ∧
    ((∀ c ∈ ServiceCalls.of s isLibrary, ∃ t, c.template = some t ∧ t ≠ "") ↔
      ∀ v family, ¬ BareCall s v family) ∧
    ∀ folding index (m : Middleware), m.calls = ServiceCalls.of s isLibrary →
      ((Chart.callsOf folding index m).map (·.2) = m.calls ↔
        ∀ v family, ¬ BareCall s v family) := by
  have hnamed : (∀ c ∈ ServiceCalls.of s isLibrary, c.template.getD "" ≠ "") ↔
      ∀ v family, ¬ BareCall s v family := by
    constructor
    · intro hall v family hbare
      obtain ⟨c, hc, -, -, hempty⟩ := exists_nameless_iff.mpr ⟨v, hbare, rfl⟩
      exact hall c hc hempty
    · intro hnone c hc hempty
      obtain ⟨v, hbare, -⟩ := exists_nameless_iff.mp ⟨c, hc, rfl, rfl, hempty⟩
      exact hnone v c.family hbare
  refine ⟨?_, ?_, ?_⟩
  · intro family line
    exact exists_nameless_iff
  · rw [← hnamed]
    refine forall₂_congr ?_
    intro c _
    cases c.template with
    | none => simp
    | some t => simp
  · intro folding index m hm
    have hcalls : (Chart.callsOf folding index m).map (·.2) =
        Chart.templated m := by
      rw [Chart.callsOf, List.map_map]
      exact List.map_id _
    rw [hcalls, ← hnamed, ← hm, Chart.templated, List.filter_eq_self]
    simp

end Analysis

/-- The calls among the facts of a source. -/
theorem calls_of_factsOf {r : Resolver} {fs : Files} {source : Source}
    {log : List LogEntry} {facts : Facts}
    (h : factsOf r fs source = (log, .ok facts)) :
    facts.calls = Analysis.ServiceCalls.of source
      (r.isLibrary source.path.text) := by
  obtain ⟨dependencies, -, rfl⟩ := eq_of_factsOf h
  rfl

namespace Scene

open Analysis Syntax

/-- A file with a bare call. -/
def bareFile : Path :=
  ⟨.here, ["ws", "a.js"]⟩

/-- A file with two accesses that take a computed step. -/
def detourFile : Path :=
  ⟨.here, ["ws", "b.js"]⟩

/-- The text of the second file. -/
def detourText : String :=
  "res[k].locals.a=res.locals[k].b=1"

/-- A workspace with the two files. -/
def gaps : Scene where
  files :=
    { entries := [
        (["R", "ws"], .directory),
        (["R", "ws", "a.js"],
          .file "const w=require('/wrapper/request/dcq');w.call()".toUTF8 1000),
        (["R", "ws", "b.js"], .file detourText.toUTF8 1000)]
      current := ["R"] }
  resolver :=
    ⟨{ Config.usual (.ofString "ws") "m" with libraryPatterns := [] }, []⟩

/-- What the first file calls and the second one writes, and the first access
there. -/
theorem layout_gaps :
    (gaps.own? bareFile).map
      (fun f => f.calls.map fun c => (c.family, c.template, c.line))
      = some [("dcq", some "", 1)] ∧
    (gaps.own? detourFile).map (fun f => f.usages.localsWrites.map (·.property))
      = some ["a", "b"] ∧
    ∃ source ∈ (Source.read detourFile detourText.toUTF8).toOption,
      ∃ v ∈ entered (walkAll source.tree), v.node.kind.isAccess = true ∧
        isCalled v.node v.enclosing = false ∧
        mentionsAt source true v.node v.enclosing =
          [⟨.state .locals "a", .write, 1⟩] ∧
        ∃ a ∈ v.node.child? .object, a.kind.isAccess = true ∧
          ∃ b ∈ a.child? .object, b.kind.isAccess = true ∧
            propertyName? source.bytes b = none := by
  decide +kernel

/-- The first of the two files has one call, and its template is the empty
text. -/
theorem calls_gaps :
    ∃ facts, gaps.own? bareFile = some facts ∧
      ∃ c, facts.calls = [c] ∧ c.family = "dcq" ∧ c.template = some "" ∧
        c.line = 1 := by
  obtain ⟨hcalls, -⟩ := layout_gaps
  obtain ⟨facts, hown, hmarks⟩ := Option.map_eq_some_iff.mp hcalls
  obtain ⟨c, hc, hmark⟩ := List.map_eq_singleton_iff.mp hmarks
  simp only [Prod.mk.injEq] at hmark
  exact ⟨facts, hown, c, hc, hmark⟩

/-- The call of the first file is a bare one, and a chart does not show it. -/
theorem bareCall_gaps :
    ∃ source isLibrary, ∃ m : Middleware,
      m.calls = ServiceCalls.of source isLibrary ∧
      (∃ v, BareCall source v "dcq" ∧ source.lineOf v.node = 1) ∧
      ∀ folding index, (Chart.callsOf folding index m).map (·.2) ≠ m.calls := by
  obtain ⟨facts, hown, c, hc, hfamily, htemplate, hline⟩ := calls_gaps
  obtain ⟨bytes, modified, source, log, -, -, hfacts⟩ :=
    own?_eq_some_iff.mp hown
  have hcalls := calls_of_factsOf hfacts
  obtain ⟨hrecorded, -, hdrawn⟩ :=
    calls_named_iff source (gaps.resolver.isLibrary source.path.text)
  have hmem :
      c ∈ ServiceCalls.of source
          (gaps.resolver.isLibrary source.path.text) := by
    rw [← hcalls, hc]
    exact List.mem_singleton_self _
  obtain ⟨v, hbare, hv⟩ :=
    (hrecorded "dcq" 1).mp ⟨c, hmem, hfamily, hline, by rw [htemplate]; rfl⟩
  refine ⟨source, _, ⟨"m", some bareFile, true, none, [], [], [], [], [],
    facts.calls, []⟩, hcalls,
    ⟨v, hbare, hv⟩, ?_⟩
  intro folding index hall
  exact (hdrawn folding index _ hcalls).mp hall v "dcq" hbare

/-- **A call without a name.**  The first file calls a service, the call is
recorded with an empty template, and no chart of a middleware with the calls of
the file shows it. -/
theorem exists_nameless_gaps :
    ∃ facts, gaps.own? bareFile = some facts ∧
      (∃ c ∈ facts.calls, c.family = "dcq" ∧ c.template = some "") ∧
      ∀ folding index (m : Middleware), m.calls = facts.calls →
        Chart.callsOf folding index m = [] := by
  obtain ⟨facts, hown, c, hc, hfamily, htemplate, -⟩ := calls_gaps
  refine ⟨facts, hown, ⟨c, by simp [hc], hfamily, htemplate⟩, ?_⟩
  intro folding index m hm
  simp [Chart.callsOf, hm, hc, htemplate]

end Scene

end Relay
