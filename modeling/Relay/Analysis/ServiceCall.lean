import Relay.Analysis.Requirement
import Relay.Analysis.Service
import Relay.Analysis.Url
import Relay.Text.Case

/-!
# Calls of outside services

The walk of a file keeps a table of the names that stand for a wrapper or for
one of its methods, and records the calls that are made through them.  A name
enters the table when a wrapper is required or imported, or when a variable is
declared as a member of a name in the table.
-/

namespace Relay.Analysis

open Syntax

/-- A call of an outside service. -/
structure ServiceCall where
  family : String
  template : Option String
  line : Nat
  snippet : String
  path : Path
  isLibrary : Bool
deriving DecidableEq

/-- The names in scope that stand for a family of services, the newest first. -/
abbrev Bindings := List (String × String)

/-- The families that names stand for once more names stand for a family. -/
def Bindings.bind (b : Bindings) (names : List String) (family : String) :
    Bindings :=
  names.foldl (fun b name => (name, family) :: b) b

/-- The family that a name stands for. -/
def Bindings.family? (b : Bindings) (name : String) : Option String :=
  List.lookup name b

/-- The names that a binder of a wrapper gives to it: also the keys of a
pattern count. -/
def wrapperNames (bytes : ByteArray) (binder : Node) : List String :=
  match binder.kind with
  | .identifier => (nameOf? bytes binder).toList
  | .objectPattern =>
      (patternBindings bytes binder).flatMap fun (key, name) => [key, name]
  | _ => []

/-- The names that a part of an import statement gives to a wrapper: also the
name that it has in its own module counts. -/
def importedWrapperNames (bytes : ByteArray) (part : Node) : List String :=
  match part.kind with
  | .importSpecifier =>
    (filled? ((part.child? .name).bind (nameOf? bytes))).toList
      ++ (filled? ((part.child? .aliasName).bind (nameOf? bytes))).toList
  | _ => wrapperNames bytes part

/-- The family of the first member of a name in the table among the expressions
on a stack and their branches. -/
def familyAmong? (bytes : ByteArray) (b : Bindings) : List Node → Option String
  | [] => none
  | n :: rest =>
    match _h : n.unwrap with
    | none => familyAmong? bytes b rest
    | some m =>
      match (if m.kind = .memberExpression then
          (filled? ((m.child? .object).bind (nameOf? bytes))).bind b.family?
        else none) with
      | some family => some family
      | none => familyAmong? bytes b (branches m ++ rest)
termination_by ns => Node.sizeAll ns
decreasing_by
  · have := n.size_pos
    simp [Node.sizeAll]
    omega
  · have h₁ := Node.size_unwrap_le n _h
    have h₂ := sizeAll_branches_lt m
    simp only [Node.sizeAll_append, Node.sizeAll]
    omega

/-- The family of services that an expression stands for. -/
def familyOfExpression? (bytes : ByteArray) (b : Bindings) (n : Node) :
    Option String :=
  familyAmong? bytes b [n]

/-- What stands for several values, as one text. -/
def joinValues? (values : List String) : Option String :=
  if values.isEmpty then none else some (Text.join valueSeparator values)

/-- A text that can be the name of a template. -/
def isTemplateName (s : String) : Bool :=
  2 < s.length && !s.toList.contains '/' && !httpVerbs.contains (Text.upper s)

/-- The template that the last argument with a possible name of one gives. -/
def lastTemplate? (bytes : ByteArray) (arguments : List Node) : Option String :=
  arguments.reverse.findSome? fun a =>
    joinValues? ((stringValues bytes a).filter isTemplateName)

/-- The template that an argument in the place of the template gives. -/
def placedTemplate? (bytes : ByteArray) (argument : Node)
    (enclosing : List Node) : Option String :=
  argument.unwrap.bind fun a =>
    match joinValues? (stringValues bytes a) with
    | some s => some s
    | none =>
      if a.kind = .identifier then
        (nameOf? bytes a).map fun name =>
          (joinValues? (resolveVariable bytes name enclosing)).getD name
      else none

/-- The template of a wrapper call. -/
def templateOf? (bytes : ByteArray) (call : Node) (method : String)
    (enclosing : List Node) :
    Option String :=
  let arguments := callArguments call
  match templatePlace? method with
  | some .nowhere => none
  | some (.argument index) =>
    ((arguments[index]?).bind fun a => placedTemplate? bytes a enclosing).or
      (lastTemplate? bytes arguments)
  | none =>
    ((if isServiceMethod method then arguments[usualTemplatePlace]? else none).bind
      fun a => joinValues? (stringValues bytes a)).or
        (lastTemplate? bytes arguments)

/-- The method that a call names, with the name of the object that it is called
on. -/
def calledMethod? (bytes : ByteArray) (call : Node) :
    Option (String × Option String) :=
  (call.inner? .function).bind fun callee =>
    match callee.kind with
    | .identifier =>
        (filled? (nameOf? bytes callee)).map fun method => (method, none)
    | .memberExpression =>
      (filled? (propertyName? bytes callee)).map fun method =>
        (method, (callee.inner? .object).bind (nameOf? bytes))
    | _ => none

/-- The family of services that a method of an object stands for. -/
def familyOfMethod? (b : Bindings) (method : String) (owner : Option String) :
    Option String :=
  ((filled? owner).bind b.family?).or (b.family? method)

/-- The family and the template of the service that a call calls. -/
def serviceAt? (bytes : ByteArray) (b : Bindings) (call : Node)
    (enclosing : List Node) :
    Option (String × String) :=
  (calledMethod? bytes call).bind fun (method, owner) =>
    if httpMethods.contains method then
      some ("http", (requestAddress? bytes call enclosing).getD method)
    else
      (familyOfMethod? b method owner).map fun family =>
        (family, (filled? (templateOf? bytes call method enclosing)).getD
          (shortMethodName method))

/-- The table of names after a node. -/
def bindingsAfter (bytes : ByteArray) (b : Bindings) (n : Node)
    (enclosing : List Node) :
    Bindings :=
  match n.kind with
  | .callExpression =>
    match (requireSpecifier? bytes n).bind familyOf? with
    | some family =>
      b.bind (((nearestBinder? enclosing).map (wrapperNames bytes)).getD [])
        family
    | none => b
  | .importStatement =>
    match (importSpecifier? bytes n).bind familyOf? with
    | some family =>
        b.bind ((importBinders n).flatMap (importedWrapperNames bytes)) family
    | none => b
  | .variableDeclarator =>
    match n.child? .name, n.child? .value with
    | some binder, some value =>
      match binder.kind, filled? (familyOfExpression? bytes b value) with
      | .identifier, some family => b.bind (nameOf? bytes binder).toList family
      | _, _ => b
    | _, _ => b
  | _ => b

/-- What tells the calls of a file apart. -/
def ServiceCall.stamp (c : ServiceCall) :
    String × Option String × Nat × String :=
  (c.family, c.template, c.line, c.path.text)

/-- What the walk of a file knows about service calls. -/
structure ServiceCalls where
  bindings : Bindings := []
  found : Collection ServiceCall (String × Option String × Nat × String) := {}

namespace ServiceCalls

/-- What is known after one more node of the walk. -/
def visit (s : Source) (isLibrary : Bool) (known : ServiceCalls) (v : Visit) :
    ServiceCalls :=
  let bindings := bindingsAfter s.bytes known.bindings v.node v.enclosing
  let service :=
    if v.node.kind = .callExpression then
      serviceAt? s.bytes bindings v.node v.enclosing
    else none
  match service with
  | some (family, template) =>
    let line := s.lineOf v.node
    ⟨bindings, known.found.add ServiceCall.stamp
      ⟨family, some template, line, s.snippet line, s.path, isLibrary⟩⟩
  | none => ⟨bindings, known.found⟩

/-- The service calls of a file. -/
def of (s : Source) (isLibrary : Bool) : List ServiceCall :=
  ((entered (walkAll s.tree)).foldl (visit s isLibrary) {}).found.items

end ServiceCalls

end Relay.Analysis
