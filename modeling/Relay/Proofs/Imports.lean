import Relay.Proofs.CallNames
import Relay.Proofs.ModuleNames

/-!
# Imports and requires

An import statement gives names at its own node, and a declaration of a
required module at the call inside it.  The walk of the whole statement comes
down to these nodes (`through_import`, `through_require`), and what the
statement binds settles what is known afterwards, whichever form it has: the
names that stand for a family of services, and the modules that the file
requires (`import_as_require`).
-/

namespace Relay

namespace Analysis

open Syntax

variable {bytes : ByteArray} {n : Node} {specifier : String} {bound : Bound}

/-- A kind of node that binds names is none that does not. -/
theorem ne_of_binds {k l : Kind} (hk : k.binds = false) (hl : l.binds = true) :
    k ≠ l := by
  intro h
  rw [h, hl] at hk
  cases hk

/-- The requirements change only where something can get a name. -/
theorem idle_visitRequirement (s : Source) : Idle (visitRequirement s) := by
  intro found v hquiet
  have hnone : requirementAt? s.bytes v.node v.enclosing = none := by
    unfold requirementAt?
    split
    · rename_i hkind
      exact absurd hkind (ne_of_binds hquiet rfl)
    · rename_i hkind
      exact absurd hkind (ne_of_binds hquiet rfl)
    · rfl
  rw [visitRequirement, hnone]

/-- The calls change only where something can get a name. -/
theorem idle_visit (s : Source) (isLibrary : Bool) :
    Idle (ServiceCalls.visit s isLibrary) := by
  intro known v hquiet
  have hbindings : bindingsAfter s.bytes known.bindings v.node v.enclosing =
      known.bindings := by
    unfold bindingsAfter
    split
    · rename_i hkind
      exact absurd hkind (ne_of_binds hquiet rfl)
    · rename_i hkind
      exact absurd hkind (ne_of_binds hquiet rfl)
    · rename_i hkind
      exact absurd hkind (ne_of_binds hquiet rfl)
    · rfl
  have hcall : v.node.kind ≠ .callExpression := ne_of_binds hquiet rfl
  simp [ServiceCalls.visit, hbindings, hcall]

section

variable {σ : Type} {visit : σ → Visit → σ}

/-- An import statement counts only by itself. -/
theorem through_import (hidle : Idle visit)
    (h : Imports bytes specifier bound n) (around : List Node) (known : σ) :
    through visit around n known = visit known ⟨.enter, n, around⟩ :=
  through_of_areQuiet hidle h.quiet around known

/-- A declaration of a required module counts by its declarator and by the
call. -/
theorem through_require (hidle : Idle visit)
    (h : Requires bytes specifier bound n) :
    ∃ declarator call, RequireDeclarator bytes specifier declarator bound ∧
      declarator.child? .value = some call ∧ RequireCall bytes specifier call ∧
      ∀ around known, through visit around n known
        = visit (visit known ⟨.enter, declarator, n :: around⟩)
            ⟨.enter, call, declarator :: n :: around⟩ := by
  obtain ⟨declarator, hloud, hdeclarator⟩ :=
    exists_of_forall₂_singleton h.declarator
  obtain ⟨call, hvalue, hcall, hdeclaratorLoud⟩ :=
    exists_call_of_declarator hdeclarator
  refine ⟨declarator, call, hdeclarator, hvalue, hcall, ?_⟩
  intro around known
  have hquiet : n.kind.binds = false := by
    rw [h.kind]
    rfl
  rw [through_of_loud hidle hloud, hidle _ _ hquiet,
    through_of_loud hidle hdeclaratorLoud,
    through_of_areQuiet hidle hcall.quiet]

end

/-- Names that are bound stand for the family, and all others for what they
stood for before. -/
theorem family?_bind (b : Bindings) (names : List String)
    (family name : String) :
    (b.bind names family).family? name = if name ∈ names then some family
      else b.family? name := by
  induction names generalizing b with
  | nil => rfl
  | cons first names ih =>
      have hbind : b.bind (first :: names) family
          = Bindings.bind ((first, family) :: b) names family := rfl
      rw [hbind, ih]
      by_cases hrest : name ∈ names
      · simp [hrest]
      · by_cases hfirst : name = first
        · simp [Bindings.family?, hfirst]
        · have hne : (name == first) = false := by simpa using hfirst
          simp [Bindings.family?, List.lookup_cons, hrest, hfirst, hne]

/-- The family that a name stands for once a module is bound to names. -/
def familyAfter? (b : Bindings) (specifier : String) (bound : Bound)
    (name : String) :
    Option String :=
  (if name ∈ bound.mentions then familyOf? specifier else none).or
    (b.family? name)

/-- A module with a family binds its names to the family, and any other module
changes nothing. -/
theorem family?_eq_familyAfter? {b after : Bindings} {names : List String}
    (hnames : ∀ x, x ∈ names ↔ x ∈ bound.mentions)
    (hnone : familyOf? specifier = none → after = b)
    (hsome : ∀ family, familyOf? specifier = some family →
      after = b.bind names family) (name : String) :
      after.family? name = familyAfter? b specifier bound name := by
  unfold familyAfter?
  cases hfamily : familyOf? specifier with
  | none => simp [hnone hfamily]
  | some family =>
      rw [hsome family hfamily, family?_bind]
      by_cases hname : name ∈ bound.mentions
      · simp [hname, hnames]
      · simp [hname, hnames]

/-- After an import statement, the names that it binds stand for the family of
its module. -/
theorem family?_through_import {s : Source} {isLibrary : Bool}
    (h : Imports s.bytes specifier bound n) (around : List Node)
    (known : ServiceCalls) (name : String) :
    (through (ServiceCalls.visit s isLibrary) around n known).bindings.family?
      name
      = familyAfter? known.bindings specifier bound name := by
  have hspecifier := importSpecifier?_of_imports h
  rw [through_import (idle_visit s isLibrary) h, ServiceCalls.bindings_visit,
    bindingsAfter, h.kind]
  apply family?_eq_familyAfter? (mem_importedWrapperNames_of_imports h)
  · intro hfamily
    simp [hspecifier, hfamily]
  · intro family hfamily
    simp [hspecifier, hfamily]

/-- A call stands for no family, so the declaration of a name as a call adds no
name. -/
theorem bindingsAfter_of_call {call : Node}
    (hkind : n.kind = .variableDeclarator)
    (hvalue : n.child? .value = some call) (hcall : call.kind = .callExpression)
    (b : Bindings) (around : List Node) :
    bindingsAfter bytes b n around = b := by
  have hunwrap : call.unwrap = some call := by
    apply Node.unwrap_of_ne
    rw [hcall]
    decide
  have hbranches : branches call = [] := by
    rw [branches, hcall]
  have hfamily : familyOfExpression? bytes b call = none := by
    rw [familyOfExpression?, familyAmong?]
    split
    · rw [familyAmong?]
    · rename_i m hm
      cases hunwrap.symm.trans hm
      simp [hcall, hbranches, familyAmong?]
  rw [bindingsAfter, hkind]
  cases hbinder : n.child? .name with
  | none => rfl
  | some binder => simp [hvalue, hfamily, filled?]

/-- After a declaration of a required module, the names that it binds stand
for the family of that module. -/
theorem family?_through_require {s : Source} {isLibrary : Bool}
    (h : Requires s.bytes specifier bound n) (around : List Node)
    (known : ServiceCalls) (name : String) :
    (through (ServiceCalls.visit s isLibrary) around n known).bindings.family?
      name
      = familyAfter? known.bindings specifier bound name := by
  obtain ⟨declarator, call, hdeclarator, hvalue, hcall, hthrough⟩ :=
    through_require (idle_visit s isLibrary) h
  obtain ⟨binder, hbinder, hbound⟩ := hdeclarator.binder
  have hspecifier := requireSpecifier?_of_call hcall
  have hnearest :=
    nearestBinder?_declarator hdeclarator.kind hbinder (n :: around)
  have hnames : ∀ x, x ∈ wrapperNames s.bytes binder ↔ x ∈ bound.mentions := by
    intro x
    rw [wrapperNames_of_binder hbound]
  -- The declarator adds nothing; the names come with the call below it.
  rw [hthrough, ServiceCalls.bindings_visit, ServiceCalls.bindings_visit,
    bindingsAfter_of_call hdeclarator.kind hvalue hcall.kind, bindingsAfter,
    hcall.kind]
  apply family?_eq_familyAfter? hnames
  · intro hfamily
    simp [hspecifier, hfamily]
  · intro family hfamily
    simp [hspecifier, hfamily, hnearest]

/-- A requirement at a node is added unless its specifier has been seen. -/
theorem visitRequirement_eq {s : Source} {v : Visit} {names : List String}
    (h : requirementAt? s.bytes v.node v.enclosing = some (specifier, names))
    (found : Collection Requirement String) :
    visitRequirement s found v = found.add Requirement.specifier
      ⟨specifier, Text.join ", " names, s.lineOf v.node⟩ := by
  rw [visitRequirement, h]

/-- An import statement adds one requirement, with the names that it binds. -/
theorem requirements_through_import {s : Source}
    (h : Imports s.bytes specifier bound n) (around : List Node)
    (found : Collection Requirement String) :
    through (visitRequirement s) around n found
      = found.add Requirement.specifier
        ⟨specifier, Text.join ", " bound.names, s.lineOf n⟩ := by
  have hat : requirementAt? s.bytes n around =
      some (specifier, bound.names) := by
    rw [requirementAt?, h.kind]
    simp only [importSpecifier?_of_imports h, importNames_of_imports h,
      Option.map_some]
  rw [through_import (idle_visitRequirement s) h, visitRequirement_eq hat]

/-- A declaration of a required module adds one requirement, with the names
that it binds. -/
theorem requirements_through_require {s : Source}
    (h : Requires s.bytes specifier bound n) :
    ∃ line, ∀ around found, through (visitRequirement s) around n found
      = found.add Requirement.specifier
        ⟨specifier, Text.join ", " bound.names, line⟩ := by
  obtain ⟨declarator, call, hdeclarator, hvalue, hcall, hthrough⟩ :=
    through_require (idle_visitRequirement s) h
  obtain ⟨binder, hbinder, hbound⟩ := hdeclarator.binder
  refine ⟨s.lineOf call, ?_⟩
  intro around found
  have hdeclaratorAt : requirementAt? s.bytes declarator (n :: around) =
      none := by
    rw [requirementAt?, hdeclarator.kind]
  have hat : requirementAt? s.bytes call (declarator :: n :: around)
      = some (specifier, bound.names) := by
    rw [requirementAt?, hcall.kind]
    simp only [requireSpecifier?_of_call hcall, Option.map_some, nearestNames,
      nearestBinder?_declarator hdeclarator.kind hbinder, Option.getD_some,
      binderNames_of_binder hbound]
  rw [hthrough, visitRequirement_eq hat, visitRequirement, hdeclaratorAt]

end Analysis

/-- A requirement without the line that it is on. -/
def Analysis.Requirement.placeless (q : Analysis.Requirement) :
    Analysis.Requirement :=
  { q with line := 0 }

/-- A dependency without the line that it is on. -/
def Dependency.placeless (d : Dependency) : Dependency :=
  { d with line := 0 }

/-- What is found of the modules that a file requires, without the lines. -/
def placeless (outcome : List LogEntry × Except NameTooLong (List Dependency)) :
    List LogEntry × Except NameTooLong (List Dependency) :=
  (outcome.1, outcome.2.map (List.map Dependency.placeless))

namespace Analysis

open Syntax

/-- What a requirement leads to does not depend on the line that it is on. -/
theorem dependencyOf_placeless (r : Resolver) (fs : Files) (file : Path)
    (q : Requirement) :
    dependencyOf r fs file q.placeless
      = (dependencyOf r fs file q).map fun found =>
        (found.1.placeless, found.2) := by
  have hspecifier : q.placeless.specifier = q.specifier := rfl
  unfold dependencyOf
  rw [hspecifier]
  cases r.resolve fs q.specifier file with
  | error e => rfl
  | ok outcome => rfl

/-- The lines of the requirements are only carried along. -/
theorem placeless_dependenciesOf (r : Resolver) (fs : Files) (file : Path)
    (qs : List Requirement) :
    placeless (dependenciesOf r fs file qs)
      = dependenciesOf r fs file (qs.map Requirement.placeless) := by
  induction qs with
  | nil => rfl
  | cons q qs ih =>
      rw [List.map_cons, dependenciesOf, dependenciesOf,
        dependencyOf_placeless, ← ih]
      cases dependencyOf r fs file q with
      | error e => rfl
      | ok found =>
          obtain ⟨log, outcome⟩ := dependenciesOf r fs file qs
          cases outcome with
          | error e => rfl
          | ok ds => rfl

/-- Whether a requirement is taken in does not depend on its line. -/
theorem map_placeless_add (found : Collection Requirement String)
    (specifier binder : String) (line line' : Nat) :
    (found.add Requirement.specifier
        ⟨specifier, binder, line⟩).items.map Requirement.placeless
      = (found.add Requirement.specifier
          ⟨specifier, binder, line'⟩).items.map Requirement.placeless := by
  unfold Collection.add
  simp only
  split
  · rfl
  · simp [Requirement.placeless]

/-- **Imports behave as requires.**  Walking through an import statement and
walking through a declaration of the same module, from the same knowledge,
leave the same names for services: the names of the statement stand for the
family of the module, if it has one, and all others for what they stood for.
Both forms require the module under the same names, and the required modules
are resolved alike but for their lines. -/
theorem import_as_require {s t : Source} (hpath : s.path = t.path)
    {specifier : String} {bound : Bound} {statement declaration : Node}
    (himport : Imports s.bytes specifier bound statement)
    (hrequire : Requires t.bytes specifier bound declaration) (isLibrary : Bool)
    (around places : List Node) (known : ServiceCalls)
    (found : Collection Requirement String) :
    (∀ name,
      (through (ServiceCalls.visit s isLibrary)
          around statement known).bindings.family? name
        = (through (ServiceCalls.visit t isLibrary)
            places declaration known).bindings.family? name ∧
      (through (ServiceCalls.visit t isLibrary)
          places declaration known).bindings.family? name
        = familyAfter? known.bindings specifier bound name) ∧
    (∃ line, through (visitRequirement s) around statement found
      = found.add Requirement.specifier
        ⟨specifier, Text.join ", " bound.names, line⟩) ∧
    (∃ line, through (visitRequirement t) places declaration found
      = found.add Requirement.specifier
        ⟨specifier, Text.join ", " bound.names, line⟩) ∧
    ∀ r fs,
      placeless (dependenciesOf r fs s.path
          (through (visitRequirement s) around statement found).items)
        = placeless (dependenciesOf r fs t.path
            (through (visitRequirement t) places declaration found).items) := by
  have himported := requirements_through_import himport around found
  obtain ⟨line, hrequired⟩ := requirements_through_require hrequire
  refine ⟨?_, ⟨_, himported⟩, ⟨line, hrequired places found⟩, ?_⟩
  · intro name
    rw [family?_through_import himport, family?_through_require hrequire]
    exact ⟨rfl, rfl⟩
  · intro r fs
    rw [placeless_dependenciesOf, placeless_dependenciesOf, himported,
      hrequired, hpath, map_placeless_add]

/-- The texts of an import statement and of a declaration of one module, with
what both bind. -/
def wrapperForms : List (String × String × Bound) :=
  [("import \x7ba as b, c\x7d from '/wrapper/request/dcq'",
      "const \x7ba: b, c\x7d = require('/wrapper/request/dcq')",
      .members [("a", "b"), ("c", "c")]),
    ("import w from '/wrapper/request/dcq'",
      "const w = require('/wrapper/request/dcq')", .whole "w"),
    ("import * as w from '/wrapper/request/dcq'",
      "const w = require('/wrapper/request/dcq')", .whole "w")]

/-- The texts are read as statements of the two forms. -/
theorem read_wrapperForms : ∀ form ∈ wrapperForms,
    ∃ s ∈ (Source.read Scene.bareFile form.1.toUTF8).toOption,
      ∃ t ∈ (Source.read Scene.bareFile form.2.1.toUTF8).toOption,
        s.path = t.path ∧ (∃ statement ∈ s.tree.children,
          Imports s.bytes "/wrapper/request/dcq" form.2.2 statement) ∧
        ∃ declaration ∈ t.tree.children,
          Requires t.bytes "/wrapper/request/dcq" form.2.2 declaration := by
  decide +kernel

/-- Members of a wrapper, by an import and by a declaration. -/
theorem import_as_require_members :
    ∃ s t : Source, ∃ statement ∈ s.tree.children,
    ∃ declaration ∈ t.tree.children,
      Imports s.bytes "/wrapper/request/dcq"
        (.members [("a", "b"), ("c", "c")]) statement ∧
      Requires t.bytes "/wrapper/request/dcq"
        (.members [("a", "b"), ("c", "c")]) declaration ∧
      (through (ServiceCalls.visit s false)
        [s.tree] statement {}).bindings.family? "b" = some "dcq" ∧
      (through (ServiceCalls.visit t false)
        [t.tree] declaration {}).bindings.family? "b" = some "dcq" ∧
      ∀ r fs,
        placeless (dependenciesOf r fs s.path
            (through (visitRequirement s) [s.tree] statement {}).items)
          = placeless (dependenciesOf r fs t.path
              (through (visitRequirement t)
                [t.tree] declaration {}).items) := by
  obtain ⟨s, -, t, -, hpath, ⟨statement, hstatement, himport⟩, declaration,
    hdeclaration, hrequire⟩ := read_wrapperForms _ (List.mem_cons_self ..)
  obtain ⟨hbindings, -, -, hdependencies⟩ :=
    import_as_require hpath himport hrequire false [s.tree] [t.tree] {} {}
  have hfamily : familyAfter? [] "/wrapper/request/dcq"
    (.members [("a", "b"), ("c", "c")]) "b"
      = some "dcq" := by
    decide
  obtain ⟨hsame, hafter⟩ := hbindings "b"
  exact ⟨s, t, statement, hstatement, declaration, hdeclaration, himport,
    hrequire, (hsame.trans hafter).trans hfamily, hafter.trans hfamily,
    hdependencies⟩

end Analysis

end Relay
