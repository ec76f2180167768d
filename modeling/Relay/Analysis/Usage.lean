import Relay.Analysis.State
import Relay.Analysis.WriteContext
import Relay.Source
import Relay.Syntax.Walk
import Relay.Unique

/-!
# Usages

A usage is a read or a write of a place in a bag or a facet on some line.  Each
node mentions its own usages, whatever else the file holds, and a file's usages
are what its nodes mention, in the order of the walk, each once.

An access is not looked at when it is the object of another access, which then
speaks for the whole chain.  The call of a native or changing method is a usage
of the method's object.
-/

namespace Relay.Analysis

open Syntax

/-- What is done with a place. -/
inductive UsageKind where
  | read | write
deriving DecidableEq

/-- The name of a kind of usage in reports. -/
def UsageKind.name : UsageKind → String
  | read => "read"
  | write => "write"

/-- What is used: a place in a bag or in a facet. -/
inductive Place where
  | state (bag : Bag) (property : String)
  | data (facet : Facet) (property : String)
deriving DecidableEq

/-- A place that a node uses, and how, and on which line. -/
structure Mention where
  place : Place
  kind : UsageKind
  line : Nat
deriving DecidableEq

/-- A read or write of a property of a bag. -/
structure PropertyUsage where
  property : String
  kind : UsageKind
  line : Nat
  snippet : String
  path : Path
  isLibrary : Bool
deriving DecidableEq

/-- A read or write of a property of a facet. -/
structure DataUsage where
  facet : Facet
  property : String
  kind : UsageKind
  line : Nat
  snippet : String
  path : Path
  isLibrary : Bool
deriving DecidableEq

/-- The mentions of the places in bags that a chain leads to. -/
def stateMentions (c : Chain) (kind : UsageKind) (line : Nat) : List Mention :=
  Bag.all.filterMap fun b => (filled? (b.placeOf? c)).map fun p =>
    ⟨.state b p, kind, line⟩

/-- The mention of the first facet that a chain leads to. -/
def dataMentions (c : Chain) (kind : UsageKind) (line : Nat) : List Mention :=
  (Facet.all.findSome? fun f =>
    (filled? (f.placeOf? c)).map fun p =>
      (⟨.data f p, kind, line⟩ : Mention)).toList

/-- An access is the object of the access around it. -/
def isObjectOfAccess (n : Node) (enclosing : List Node) : Bool :=
  match enclosing with
  | parent :: _ =>
      parent.kind.isAccess && (parent.child? .object).any (·.same n)
  | [] => false

/-- An access is what the call around it calls. -/
def isCalled (n : Node) (enclosing : List Node) : Bool :=
  match enclosing with
  | parent :: _ =>
      parent.kind == .callExpression && (parent.inner? .function).any (·.same n)
  | [] => false

/-- A name of a method that says nothing about the place it is called on. -/
def isMethodName (name : String) : Bool :=
  mutationMethods.contains name || nativeNames.contains name

/-- The access that a usage is about, with the nodes around it: the object of a
called method, else the access itself. -/
def usageTarget (bytes : ByteArray) (n : Node) (enclosing : List Node) :
    Node × List Node :=
  if isCalled n enclosing && (propertyName? bytes n).any isMethodName then
    match n.inner? .object with
    | some receiver =>
        if receiver.kind.isAccess then (receiver, n :: enclosing)
        else (n, enclosing)
    | none => (n, enclosing)
  else (n, enclosing)

section

variable (s : Source)

/-- The mentions of an access. -/
def accessMentions (n : Node) (enclosing : List Node) : List Mention :=
  if isObjectOfAccess n enclosing then []
  else
    let (target, around) := usageTarget s.bytes n enclosing
    let kind :=
      if (writeContext? s.bytes target around).isSome then .write else .read
    let chain := chainOf s.bytes target
    stateMentions chain kind (s.lineOf n) ++
      dataMentions chain kind (s.lineOf n)

/-- The mentions of a deletion. -/
def deletionMentions (n : Node) : List Mention :=
  match n.inner? .argument with
  | some argument =>
    if argument.kind.isAccess then
      stateMentions (chainOf s.bytes argument) .write (s.lineOf n)
    else []
  | none => []

/-- The mentions of the keys of an object literal that is written to a place in
a bag. -/
def keyMentions (b : Bag) (place : String) (object : Node) (line : Nat) :
    List Mention :=
  (objectKeys s.bytes object).map fun key =>
    ⟨.state b (if place = "" then key else s!"{place}.{key}"), .write, line⟩

/-- The place in a bag that has places of its own below it: the bag as a whole
has none. -/
def innerPlace? (b : Bag) (c : Chain) : Option String :=
  (filled? (b.placeOf? c)).filter (· ≠ wholeBag)

/-- The place in a bag that object literals are merged into, with the mention
of the place itself. -/
def mergeTarget? (b : Bag) (c : Chain) (line : Nat) :
    Option (String × List Mention) :=
  if b.isItself c then some ("", [])
  else (innerPlace? b c).map fun place =>
    (place, [⟨.state b place, .write, line⟩])

/-- The mentions of object literals that are merged into a place. -/
def mergeMentions (call : Node) : List Mention :=
  match callArguments call with
  | target :: extra :: extras =>
    let chain := chainOf s.bytes target
    let objects :=
      (extra :: extras).filterMap fun e => e.unwrap.filter (·.kind == .object)
    Bag.all.flatMap fun b =>
      match mergeTarget? b chain (s.lineOf call) with
      | some (place, own) =>
        own ++ objects.flatMap fun object =>
          keyMentions s b place object (s.lineOf call)
      | none => []
  | _ => []

/-- The mention of a header or cookie that a method of the request or response
names. -/
def methodMentions (call callee : Node) : List Mention :=
  match (callee.child? .object).bind (nameOf? s.bytes),
    propertyName? s.bytes callee,
    ((callArguments call).head?.bind Node.unwrap).bind (stringValue? s.bytes) with
  | some receiver, some method, some first =>
    if receiver ∈ responseNames ∧ (Facet.writtenBy? method).isSome then
      (Facet.writtenBy? method).toList.map fun f =>
        ⟨.data f first, .write, s.lineOf call⟩
    else if receiver ∈ requestNames ∧ method = "header" then
      [⟨.data .requestHeaders first, .read, s.lineOf call⟩]
    else []
  | _, _, _ => []

/-- The mentions of a call.  `expand` says that the keys of object literals
count. -/
def callMentions (expand : Bool) (call : Node) : List Mention :=
  match call.inner? .function with
  | some callee =>
    if callee.kind == .memberExpression then
      if expand && isObjectAssign s.bytes call then mergeMentions s call
      else methodMentions s call callee
    else []
  | none => []

/-- The mentions of the keys of an object literal that is assigned to a
place. -/
def assignmentMentions (expand : Bool) (n : Node) : List Mention :=
  match n.inner? .left, n.inner? .right with
  | some left, some right =>
    if expand && right.kind == .object && left.kind.isAccess then
      Bag.all.flatMap fun b =>
        match innerPlace? b (chainOf s.bytes left) with
        | some place =>
          ⟨.state b place, .write, s.lineOf n⟩ ::
            keyMentions s b place right (s.lineOf n)
        | none => []
    else []
  | _, _ => []

/-- The usages that a node mentions. -/
def mentionsAt (expand : Bool) (n : Node) (enclosing : List Node) :
    List Mention :=
  match n.kind with
  | .memberExpression | .subscriptExpression => accessMentions s n enclosing
  | .callExpression => callMentions s expand n
  | .assignmentExpression => assignmentMentions s expand n
  | .unaryExpression =>
      if hasOperator n ["delete"] then deletionMentions s n else []
  | _ => []

end

/-- The usages of a file. -/
structure Usages where
  localsReads : List PropertyUsage := []
  localsWrites : List PropertyUsage := []
  transactionReads : List PropertyUsage := []
  transactionWrites : List PropertyUsage := []
  data : List DataUsage := []
deriving DecidableEq

/-- What tells the usages of a bag apart while a file is walked. -/
def PropertyUsage.stamp (u : PropertyUsage) :
    String × Nat × String × UsageKind :=
  (u.property, u.line, u.path.text, u.kind)

/-- What tells the usages of the facets apart while a file is walked. -/
def DataUsage.stamp (u : DataUsage) : Facet × String × Nat × UsageKind :=
  (u.facet, u.property, u.line, u.kind)

/-- The usages of a bag that have been collected, and the stamps that have been
seen, of reads and writes alike. -/
structure BagUsages where
  reads : List PropertyUsage := []
  writes : List PropertyUsage := []
  seen : List (String × Nat × String × UsageKind) := []

/-- Takes a usage of a bag in, unless its stamp has been seen. -/
def BagUsages.add (c : BagUsages) (u : PropertyUsage) : BagUsages :=
  if u.stamp ∈ c.seen then c
  else
    match u.kind with
    | .read => { c with reads := c.reads ++ [u], seen := u.stamp :: c.seen }
    | .write => { c with writes := c.writes ++ [u], seen := u.stamp :: c.seen }

/-- What has been collected of the usages of a file. -/
structure Collector where
  locals : BagUsages := {}
  transaction : BagUsages := {}
  data : Collection DataUsage (Facet × String × Nat × UsageKind) := {}

namespace Collector

/-- What has been collected with one more mention taken into account. -/
def add (s : Source) (isLibrary : Bool) (c : Collector) (m : Mention) :
    Collector :=
  let snippet := s.snippet m.line
  match m.place with
  | .state b property =>
    let u : PropertyUsage :=
      ⟨property, m.kind, m.line, snippet, s.path, isLibrary⟩
    match b with
    | .locals => { c with locals := c.locals.add u }
    | .transaction => { c with transaction := c.transaction.add u }
  | .data f property =>
    { c with
      data := c.data.add DataUsage.stamp
        ⟨f, property, m.kind, m.line, snippet, s.path, isLibrary⟩ }

/-- What has been collected after one more node of the walk. -/
def visit (s : Source) (isLibrary expand : Bool) (c : Collector) (v : Visit) :
    Collector :=
  (mentionsAt s expand v.node v.enclosing).foldl (add s isLibrary) c

/-- What has been collected at the end of a file's walk. -/
def of (s : Source) (isLibrary expand : Bool) : Collector :=
  (entered (walkAll s.tree)).foldl (visit s isLibrary expand) {}

/-- The usages that have been collected. -/
def usages (c : Collector) : Usages :=
  ⟨c.locals.reads, c.locals.writes, c.transaction.reads, c.transaction.writes,
    c.data.items⟩

end Collector

/-- The usages of a file. -/
def Usages.of (s : Source) (isLibrary expand : Bool) : Usages :=
  (Collector.of s isLibrary expand).usages

end Relay.Analysis
