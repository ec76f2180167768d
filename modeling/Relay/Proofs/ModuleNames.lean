import Mathlib.Data.List.Forall2
import Mathlib.Tactic.MkIffOfInductiveProp
import Relay.Analysis.ServiceCall
import Relay.Proofs.Addresses
import Relay.Proofs.Walks

/-!
# Statements that name a module

A module gets names in a file by an import statement or by a declaration whose
value is a call of `require`.  `Imports` and `Requires` say which trees are
statements of the two forms, and what they bind (`Bound`): the module as a
whole, or members of it.  Tokens and comments may stand anywhere.  Both forms
can be read off a tree, and the readers of the analyses find in them just what
they bind.

Nothing else in such a statement can give a name to anything.  A walk that only
learns where something can get a name passes over such quiet nodes
(`through_of_isQuiet`), so the walk of a statement comes down to a few of its
nodes.
-/

namespace Relay

namespace Syntax

section

variable {σ : Type} (visit : σ → Visit → σ)

/-- What is known after the walk of a node that stands inside some nodes, and
of all below it. -/
def through (around : List Node) (n : Node) (known : σ) : σ :=
  (entered (walkTasks (fun _ _ => false) around [.visit n])).foldl visit known

/-- What is known after the walk of some nodes, one after the other. -/
def throughAll (around : List Node) (ns : List Node) (known : σ) : σ :=
  ns.foldl (fun known n => through visit around n known) known

variable {visit} {around : List Node} {n : Node}

/-- Going through the visits below some nodes is going through the nodes one
after another. -/
theorem foldl_visitsBelow (ns : List Node) (known : σ) :
    (entered (visitsBelow (fun _ _ => false) around ns)).foldl visit known
      = throughAll visit around ns known := by
  induction ns generalizing known with
  | nil => rfl
  | cons n ns ih =>
      have hn : walkTasks (fun _ _ => false) around [.visit n]
          = visitsOf (fun _ _ => false) around n := by
        rw [walkTasks_visit, walkTasks, List.append_nil]
      rw [visitsBelow, entered, List.filter_append, List.foldl_append,
        throughAll, List.foldl_cons, through, hn]
      exact ih _

/-- A node is entered, and then its children are walked one after the other. -/
theorem through_eq (known : σ) :
    through visit around n known
      = throughAll visit (n :: around) n.children
        (visit known ⟨.enter, n, around⟩) := by
  rw [← foldl_visitsBelow, through, walkTasks_visit, walkTasks, List.append_nil,
    visitsOf_of_not_skip rfl]
  simp [entered]

end

/-- A module or a value can get a name at a node of this kind. -/
def Kind.binds : Kind → Bool
  | .callExpression | .importStatement | .variableDeclarator => true
  | _ => false

namespace Node

mutual

/-- Nothing gets a name at a node or below it. -/
def isQuiet : Node → Bool
  | ⟨kind, _, _, _, children⟩ => !kind.binds && areQuiet children

/-- Nothing gets a name at some nodes or below them. -/
def areQuiet : List Node → Bool
  | [] => true
  | n :: rest => n.isQuiet && areQuiet rest

end

/-- The children at or below which something can get a name. -/
def loud (n : Node) : List Node :=
  n.children.filter fun c => !c.isQuiet

/-- A child that binds names is loud. -/
theorem mem_loud {n c : Node} (hc : c ∈ n.children)
    (hbinds : c.kind.binds = true) :
    c ∈ n.loud := by
  refine List.mem_filter.mpr ⟨hc, ?_⟩
  obtain ⟨kind, role, start, stop, children⟩ := c
  rw [isQuiet, hbinds]
  rfl

end Node

/-- A visitor learns something only where something can get a name. -/
def Idle {σ : Type} (visit : σ → Visit → σ) : Prop :=
  ∀ (known : σ) (v : Visit), v.node.kind.binds = false → visit known v = known

section

variable {σ : Type} {visit : σ → Visit → σ}

mutual

/-- Nothing is learnt on the way through a quiet node. -/
theorem through_of_isQuiet (hidle : Idle visit) (around : List Node)
    (known : σ) :
    (n : Node) → n.isQuiet = true → through visit around n known = known
  | ⟨kind, role, start, stop, children⟩, h => by
    rw [Node.isQuiet, Bool.and_eq_true, Bool.not_eq_true'] at h
    rw [through_eq, hidle _ _ h.1]
    exact throughAll_of_areQuiet hidle _ known children h.2

/-- The same for quiet nodes side by side. -/
theorem throughAll_of_areQuiet (hidle : Idle visit) (around : List Node)
    (known : σ) :
    (ns : List Node) → Node.areQuiet ns = true →
      throughAll visit around ns known = known
  | [], _ => rfl
  | n :: ns, h => by
    rw [Node.areQuiet, Bool.and_eq_true] at h
    rw [throughAll, List.foldl_cons,
      through_of_isQuiet hidle around known n h.1]
    exact throughAll_of_areQuiet hidle around known ns h.2

end

/-- Quiet nodes can be left out. -/
theorem throughAll_filter (hidle : Idle visit) (around : List Node)
    (ns : List Node) (known : σ) :
    throughAll visit around (ns.filter fun n => !n.isQuiet) known
      = throughAll visit around ns known := by
  induction ns generalizing known with
  | nil => rfl
  | cons n ns ih =>
      by_cases hquiet : n.isQuiet = true
      · rw [List.filter_cons_of_neg (by simp [hquiet]), ih, throughAll,
          throughAll, List.foldl_cons,
          through_of_isQuiet hidle around known n hquiet]
      · rw [List.filter_cons_of_pos (by simp [hquiet]), throughAll,
          List.foldl_cons]
        exact ih _

/-- Only the node itself counts above quiet children. -/
theorem through_of_areQuiet (hidle : Idle visit) {n : Node}
    (h : Node.areQuiet n.children = true) (around : List Node) (known : σ) :
    through visit around n known = visit known ⟨.enter, n, around⟩ := by
  rw [through_eq, throughAll_of_areQuiet hidle _ _ _ h]

/-- Only one child counts besides the node itself if the others are quiet. -/
theorem through_of_loud (hidle : Idle visit) {n child : Node}
    (h : n.loud = [child]) (around : List Node) (known : σ) :
    through visit around n known
      = through visit (n :: around) child
        (visit known ⟨.enter, n, around⟩) := by
  rw [through_eq, ← throughAll_filter hidle, ← Node.loud, h]
  rfl

end

/-- What a statement gives names to: a module as a whole, or members of it,
each with the name that it gets. -/
inductive Bound where
  | whole (name : String)
  | members (pairs : List (String × String))

namespace Bound

/-- The names that are given. -/
def names : Bound → List String
  | whole name => [name]
  | members pairs => pairs.map (·.2)

/-- The names that are given, and the names that the members have in their own
module. -/
def mentions : Bound → List String
  | whole name => [name]
  | members pairs => pairs.flatMap fun (key, name) => [key, name]

end Bound

/-- A node is an identifier with a name. -/
def Identifies (bytes : ByteArray) (n : Node) (name : String) : Prop :=
  n.kind = .identifier ∧ n.text bytes = name ∧ name ≠ ""

/-- A member in the list of an import statement: `key`, or `key as name`. -/
def ImportsMember (bytes : ByteArray) (n : Node) (pair : String × String) :
    Prop :=
  n.kind = .importSpecifier ∧
    (∃ c ∈ n.child? .name, Identifies bytes c pair.1) ∧
    ((n.child? .aliasName).isNone ∧ pair.2 = pair.1 ∨
      ∃ c ∈ n.child? .aliasName, Identifies bytes c pair.2)

/-- The binding part of an import clause: `name` or `* as name`, or a list of
members. -/
def ImportPart (bytes : ByteArray) (n : Node) : Bound → Prop
  | .whole name => Identifies bytes n name ∨
      n.kind = .namespaceImport ∧
        List.Forall₂ (Identifies bytes) n.content [name]
  | .members pairs => n.kind = .namedImports ∧
      List.Forall₂ (ImportsMember bytes) n.content pairs

/-- An import clause with a single part. -/
def ImportClause (bytes : ByteArray) (n : Node) (bound : Bound) : Prop :=
  List.Forall₂ (ImportPart bytes) n.content [bound]

/-- An import statement of a module: `import … from 'specifier'`. -/
@[mk_iff]
structure Imports (bytes : ByteArray) (specifier : String) (bound : Bound)
    (n : Node) : Prop where
  kind : n.kind = .importStatement
  source : ∃ c ∈ n.child? .source, stringValue? bytes c = some specifier
  clause : List.Forall₂ (ImportClause bytes)
    (n.named.filter (·.kind = .importClause)) [bound]
  quiet : Node.areQuiet n.children = true

/-- An entry of an object pattern: `name`, or `key: name`. -/
def PatternMember (bytes : ByteArray) (n : Node) (pair : String × String) :
    Prop :=
  n.kind = .shorthandPropertyIdentifierPattern ∧ n.text bytes = pair.1 ∧
    pair.2 = pair.1 ∨ n.kind = .pairPattern ∧
      (∃ c ∈ n.child? .key, c.kind = .propertyIdentifier ∧
        c.text bytes = pair.1 ∧ pair.1 ≠ "") ∧
      ∃ c ∈ n.child? .value, Identifies bytes c pair.2

/-- The binder of a declaration: a name, or an object pattern. -/
def Binder (bytes : ByteArray) (n : Node) : Bound → Prop
  | .whole name => Identifies bytes n name
  | .members pairs => n.kind = .objectPattern ∧
      List.Forall₂ (PatternMember bytes) n.content pairs

/-- A call of `require`: `require('specifier')`. -/
@[mk_iff]
structure RequireCall (bytes : ByteArray) (specifier : String) (n : Node) :
    Prop where
  kind : n.kind = .callExpression
  callee : ∃ c ∈ n.child? .function, Identifies bytes c "require"
  argument : List.Forall₂ (fun c text => stringValue? bytes c = some text)
    (callArguments n)
    [specifier]
  quiet : Node.areQuiet n.children = true

/-- A declarator of a required module: `… = require('specifier')`. -/
@[mk_iff]
structure RequireDeclarator (bytes : ByteArray) (specifier : String) (n : Node)
    (bound : Bound) :
    Prop where
  kind : n.kind = .variableDeclarator
  binder : ∃ c ∈ n.child? .name, Binder bytes c bound
  value : ∃ c ∈ n.child? .value, RequireCall bytes specifier c
  quiet : n.loud.length = 1

/-- A declaration of a required module: `const … = require('specifier')`. -/
@[mk_iff]
structure Requires (bytes : ByteArray) (specifier : String) (bound : Bound)
    (n : Node) : Prop where
  kind : n.kind = .lexicalDeclaration
  declarator : List.Forall₂ (RequireDeclarator bytes specifier) n.loud [bound]

section

variable {bytes : ByteArray} {specifier : String} {bound : Bound} {n : Node}

instance decidableForall₂ {α β : Type} {R : α → β → Prop}
    [∀ a b, Decidable (R a b)] :
    (as : List α) → (bs : List β) → Decidable (List.Forall₂ R as bs)
  | [], [] => .isTrue .nil
  | [], _ :: _ => .isFalse (by simp)
  | _ :: _, [] => .isFalse (by simp)
  | _ :: as, _ :: bs =>
    have := decidableForall₂ (R := R) as bs
    decidable_of_iff' _ List.forall₂_cons

instance (name : String) : Decidable (Identifies bytes n name) :=
  inferInstanceAs (Decidable (_ ∧ _))

instance (pair : String × String) : Decidable (ImportsMember bytes n pair) :=
  inferInstanceAs (Decidable (_ ∧ _ ∧ _))

instance : (bound : Bound) → Decidable (ImportPart bytes n bound)
  | .whole _ => inferInstanceAs (Decidable (_ ∨ _))
  | .members _ => inferInstanceAs (Decidable (_ ∧ _))

instance : Decidable (ImportClause bytes n bound) :=
  inferInstanceAs (Decidable (List.Forall₂ _ _ _))

instance : Decidable (Imports bytes specifier bound n) :=
  decidable_of_iff' _ (imports_iff bytes specifier bound n)

instance (pair : String × String) : Decidable (PatternMember bytes n pair) :=
  inferInstanceAs (Decidable (_ ∨ _))

instance : (bound : Bound) → Decidable (Binder bytes n bound)
  | .whole name => inferInstanceAs (Decidable (Identifies bytes n name))
  | .members _ => inferInstanceAs (Decidable (_ ∧ _))

instance : Decidable (RequireCall bytes specifier n) :=
  decidable_of_iff' _ (requireCall_iff bytes specifier n)

instance : Decidable (RequireDeclarator bytes specifier n bound) :=
  decidable_of_iff' _ (requireDeclarator_iff bytes specifier n bound)

instance : Decidable (Requires bytes specifier bound n) :=
  decidable_of_iff' _ (requires_iff bytes specifier bound n)

end

/-- Comments give nothing to a reader that has no use for them. -/
theorem flatMap_uncommented {α : Type} {f : Node → List α}
    (hf : ∀ c, c.kind = .comment → f c = []) (ns : List Node) :
    (ns.filter (·.kind != .comment)).flatMap f = ns.flatMap f := by
  induction ns with
  | nil => rfl
  | cons c cs ih =>
      by_cases hc : c.kind = .comment
      · simp [hc, hf c hc, ih]
      · simp [hc, ih]

/-- What a reader gives that has no use for comments does not depend on them.
-/
theorem filterMap_uncommented {α : Type} {f : Node → Option α}
    (hf : ∀ c, c.kind = .comment → f c = none) (ns : List Node) :
    (ns.filter (·.kind != .comment)).filterMap f = ns.filterMap f := by
  rw [List.filterMap_eq_flatMap_toList, List.filterMap_eq_flatMap_toList,
    flatMap_uncommented]
  intro c hc
  rw [hf c hc, Option.toList_none]

end Syntax

namespace Analysis

open Syntax

variable {bytes : ByteArray} {n : Node} {name specifier : String}
  {bound : Bound}

/-- A node that identifies a name has that name. -/
theorem nameOf?_of_identifies (h : Identifies bytes n name) :
    nameOf? bytes n = some name := by
  rw [nameOf?, h.1, h.2.1]

/-- The name that a node identifies is not empty. -/
theorem filled?_nameOf?_of_identifies (h : Identifies bytes n name) :
    filled? (nameOf? bytes n) = some name := by
  rw [nameOf?_of_identifies h, filled?_of_ne h.2.2]

/-- Readers that give each node what it is related to give the whole list. -/
theorem forall₂_filterMap {α β γ : Type} {R : α → β → Prop} {f : α → Option γ}
    {g : β → γ} (h : ∀ a b, R a b → f a = some (g b)) {as : List α}
    {bs : List β} (hs : List.Forall₂ R as bs) :
    as.filterMap f = bs.map g := by
  induction hs with
  | nil => rfl
  | cons hab _ ih => rw [List.filterMap_cons, h _ _ hab, List.map_cons, ih]

/-- Nothing is left out of a list all of which passes. -/
theorem filter_of_forall₂ {α β : Type} {R : α → β → Prop} {p : α → Bool}
    (h : ∀ a b, R a b → p a = true) {as : List α} {bs : List β}
    (hs : List.Forall₂ R as bs) :
    as.filter p = as := by
  induction hs with
  | nil => rfl
  | cons hab _ ih => rw [List.filter_cons_of_pos (h _ _ hab), ih]

/-- What is related to one thing is one thing. -/
theorem exists_of_forall₂_singleton {α β : Type} {R : α → β → Prop}
    {as : List α} {b : β} (h : List.Forall₂ R as [b]) :
    ∃ a, as = [a] ∧ R a b := by
  obtain ⟨a, rest, hab, hrest, rfl⟩ := List.forall₂_cons_right_iff.mp h
  cases hrest
  exact ⟨a, rfl, hab⟩

/-- An import statement is of the module that it names. -/
theorem importSpecifier?_of_imports (h : Imports bytes specifier bound n) :
    importSpecifier? bytes n = some specifier := by
  obtain ⟨c, hc, hvalue⟩ := h.source
  rw [importSpecifier?, Option.mem_def.mp hc, Option.bind_some, hvalue]

/-- A member that is imported has its local name. -/
theorem importedName?_of_member {pair : String × String}
    (h : ImportsMember bytes n pair) :
    importedName? bytes n = some pair.2 := by
  obtain ⟨hkind, ⟨c, hc, hkey⟩, hname⟩ := h
  rw [Option.mem_def] at hc
  rw [importedName?, hkind]
  rcases hname with ⟨hnone, heq⟩ | ⟨d, hd, hname⟩
  · simp only [Option.isNone_iff_eq_none.mp hnone, hc, Option.none_or,
      Option.bind_some]
    rw [filled?_nameOf?_of_identifies hkey, heq]
  · simp only [Option.mem_def.mp hd, Option.some_or, Option.bind_some]
    rw [filled?_nameOf?_of_identifies hname]

/-- A member that is imported gives its name and its local name. -/
theorem mem_importedWrapperNames_of_member {pair : String × String}
    (h : ImportsMember bytes n pair) (x : String) :
    x ∈ importedWrapperNames bytes n ↔ x = pair.1 ∨ x = pair.2 := by
  obtain ⟨hkind, ⟨c, hc, hkey⟩, hname⟩ := h
  rw [Option.mem_def] at hc
  rw [importedWrapperNames, hkind]
  rcases hname with ⟨hnone, heq⟩ | ⟨d, hd, hname⟩
  · simp only [Option.isNone_iff_eq_none.mp hnone, hc, Option.bind_some,
      Option.bind_none]
    rw [filled?_nameOf?_of_identifies hkey, heq]
    simp [filled?]
  · simp only [Option.mem_def.mp hd, hc, Option.bind_some]
    rw [filled?_nameOf?_of_identifies hkey, filled?_nameOf?_of_identifies hname]
    simp

/-- Members that are imported give their names and local names. -/
theorem mem_importedWrapperNames_of_members {parts : List Node}
    {pairs : List (String × String)}
    (h : List.Forall₂ (ImportsMember bytes) parts pairs) (x : String) :
    x ∈ parts.flatMap (importedWrapperNames bytes) ↔
      x ∈ (Bound.members pairs).mentions := by
  induction h with
  | nil => simp [Bound.mentions]
  | cons hmember _ ih =>
      simp only [Bound.mentions, List.flatMap_cons, List.mem_append] at ih ⊢
      rw [mem_importedWrapperNames_of_member hmember, ih]
      simp

/-- The members of a list, comments apart. -/
theorem filter_importSpecifier {pairs : List (String × String)}
    (h : List.Forall₂ (ImportsMember bytes) n.content pairs) :
    n.named.filter (·.kind = .importSpecifier) = n.content := by
  rw [← filter_of_forall₂ (fun _ _ hmember => decide_eq_true hmember.1) h,
    Node.content, List.filter_filter]
  refine List.filter_congr ?_
  intro c _
  by_cases hc : c.kind = .importSpecifier
  · simp [hc]
  · simp [hc]

/-- What stands in the binding places of an import statement, comments apart. -/
theorem importBinders_of_imports (h : Imports bytes specifier bound n) :
    match bound with
    | .whole name =>
      List.Forall₂ (Identifies bytes)
        ((importBinders n).filter (·.kind != .comment)) [name]
    | .members pairs =>
        List.Forall₂ (ImportsMember bytes) (importBinders n) pairs := by
  obtain ⟨clause, hclause, hpart⟩ := exists_of_forall₂_singleton h.clause
  obtain ⟨part, hcontent, hbound⟩ := exists_of_forall₂_singleton hpart
  rw [importBinders, hclause,
    List.flatMap_singleton, ← flatMap_uncommented, ← Node.content, hcontent,
    List.flatMap_singleton]
  · cases bound with
    | whole name =>
        rcases hbound with hname | ⟨hkind, hname⟩
        · simpa [hname.1] using hname
        · rw [hkind]
          exact hname
    | members pairs =>
        obtain ⟨hkind, hmembers⟩ := hbound
        rw [hkind]
        simpa only [filter_importSpecifier hmembers] using hmembers
  · intro c hc
    rw [hc]

/-- An import statement has the names that it binds. -/
theorem importNames_of_imports (h : Imports bytes specifier bound n) :
    importNames bytes n = bound.names := by
  have hbinders := importBinders_of_imports h
  cases bound with
  | whole name =>
      have hcomment : ∀ c : Node, c.kind = .comment →
          importedName? bytes c = none := by
        intro c hc
        rw [importedName?, hc]
      obtain ⟨c, hc, hname⟩ := exists_of_forall₂_singleton hbinders
      rw [importNames, ← filterMap_uncommented hcomment, hc]
      simp [importedName?, hname.1, nameOf?_of_identifies hname, Bound.names]
  | members pairs =>
      exact forall₂_filterMap (fun _ _ hmember =>
        importedName?_of_member hmember) hbinders

/-- An import statement gives the names that it mentions. -/
theorem mem_importedWrapperNames_of_imports
    (h : Imports bytes specifier bound n) (x : String) :
    x ∈ (importBinders n).flatMap (importedWrapperNames bytes) ↔
      x ∈ bound.mentions := by
  have hbinders := importBinders_of_imports h
  cases bound with
  | whole name =>
      have hcomment : ∀ c : Node, c.kind = .comment →
          importedWrapperNames bytes c = [] := by
        intro c hc
        rw [importedWrapperNames, hc, wrapperNames, hc]
      obtain ⟨c, hc, hname⟩ := exists_of_forall₂_singleton hbinders
      rw [← flatMap_uncommented hcomment, hc]
      simp [importedWrapperNames, wrapperNames, hname.1,
        nameOf?_of_identifies hname, Bound.mentions]
  | members pairs => exact mem_importedWrapperNames_of_members hbinders x

/-- A call that requires a module is of that module. -/
theorem requireSpecifier?_of_call (h : RequireCall bytes specifier n) :
    requireSpecifier? bytes n = some specifier := by
  obtain ⟨callee, hcallee, hname⟩ := h.callee
  obtain ⟨c, hc, hvalue⟩ := exists_of_forall₂_singleton h.argument
  have hcalleeParens : callee.kind ≠ .parenthesizedExpression := by
    rw [hname.1]
    decide
  have hparens : c.kind ≠ .parenthesizedExpression := by
    intro hkind
    rw [stringValue?, hkind] at hvalue
    cases hvalue
  rw [requireSpecifier?, Node.inner?, Option.mem_def.mp hcallee,
    Option.bind_some, Node.unwrap_of_ne hcalleeParens, Option.bind_some,
    if_pos ⟨hname.1, nameOf?_of_identifies hname⟩, hc, List.head?_cons,
    Option.bind_some, Node.unwrap_of_ne hparens, Option.bind_some, hvalue]

/-- A member of a pattern binds its local name. -/
theorem entryBinding?_of_member {pair : String × String}
    (h : PatternMember bytes n pair) :
    entryBinding? bytes n = some pair := by
  obtain ⟨key, name⟩ := pair
  rcases h with ⟨hkind, htext, hsame⟩ | ⟨hkind, ⟨k, hk, hkeyKind, hkey, hne⟩, v,
    hv, hname⟩
  · simp only at htext hsame
    simp [entryBinding?, hkind, htext, hsame]
  · rw [Option.mem_def] at hk hv
    simp only at hkey hne
    have hfilledKey : filled? (keyOf? bytes k) = some key := by
      simp [keyOf?, nameOf?, hkeyKind, hkey, filled?_of_ne hne]
    simp [entryBinding?, hkind, hk, hv, hname.1, hfilledKey,
      filled?_nameOf?_of_identifies hname]

/-- A pattern has the bindings of its members. -/
theorem patternBindings_of_members {pairs : List (String × String)}
    (hkind : n.kind = .objectPattern)
    (h : List.Forall₂ (PatternMember bytes) n.content pairs) :
    patternBindings bytes n = pairs := by
  have hcomment : ∀ c : Node, c.kind = .comment →
      entryBinding? bytes c = none := by
    intro c hc
    rw [entryBinding?, hc]
  rw [patternBindings, hkind,
    if_pos (by rfl), ← filterMap_uncommented hcomment, ← Node.content,
    forall₂_filterMap (fun _ _ hmember => entryBinding?_of_member hmember) h,
    List.map_id']

/-- What is declared has the names that it binds. -/
theorem binderNames_of_binder (h : Binder bytes n bound) :
    binderNames bytes n = bound.names := by
  cases bound with
  | whole name => rw [binderNames, h.1, h.2.1, Bound.names]
  | members pairs =>
      rw [binderNames, h.1, patternBindings_of_members h.1 h.2, Bound.names]

/-- What is declared gives the names that it mentions. -/
theorem wrapperNames_of_binder (h : Binder bytes n bound) :
    wrapperNames bytes n = bound.mentions := by
  cases bound with
  | whole name =>
      rw [wrapperNames, h.1, nameOf?_of_identifies h, Bound.mentions,
        Option.toList_some]
  | members pairs =>
      rw [wrapperNames, h.1, patternBindings_of_members h.1 h.2, Bound.mentions]

/-- The call in a declarator of a required module is all that counts below the
declarator. -/
theorem exists_call_of_declarator
    (h : RequireDeclarator bytes specifier n bound) :
    ∃ call, n.child? .value = some call ∧ RequireCall bytes specifier call ∧
      n.loud = [call] := by
  obtain ⟨call, hvalue, hcall⟩ := h.value
  have hmem : call ∈ n.children := List.mem_of_find?_eq_some hvalue
  have hbinds : call.kind.binds = true := by
    rw [hcall.kind]
    rfl
  obtain ⟨c, hloud⟩ := List.length_eq_one_iff.mp h.quiet
  have hc := Node.mem_loud hmem hbinds
  rw [hloud, List.mem_singleton] at hc
  exact ⟨call, hvalue, hcall, hc ▸ hloud⟩

/-- What is declared right around a value is nearest to it. -/
theorem nearestBinder?_declarator {binder : Node}
    (h : n.kind = .variableDeclarator) (hbinder : n.child? .name = some binder)
    (around : List Node) :
    nearestBinder? (n :: around) = some binder := by
  simp [nearestBinder?, h, hbinder]

end Analysis

end Relay
