import Relay.Syntax.Kind
import Relay.Text.Utf8

/-!
# Syntax trees

A node knows its kind, the range of bytes it spans, its children in source
order and the role that it plays in its parent (`left`, `operator`,
`arguments`, …).  It holds no text of its own: the text of a node is the text
of its range of the source, so that comments and spacing inside it are kept.
-/

namespace Relay.Syntax

/-- The part that a node plays in its parent. -/
inductive Role where
  | object | property | index | function | arguments | optionalChain
  | typeArguments | left | right | operator | argument | condition | consequence
  | alternative | name | value | key | source | aliasName | declaration | body
  | parameters | parameter | kind | initializer | increment | label | handler
  | finalizer | constructor | pattern | flags | openTag | closeTag | attr
  | decorator | member | type | returnType | typeParameters
deriving DecidableEq, Inhabited

/-- A node of a syntax tree: its children carry the role that they play
in it. -/
structure Node where
  kind : Kind
  role : Option Role
  start : Nat
  stop : Nat
  children : List Node
deriving Inhabited

namespace Node

/-- The first child that plays a role. -/
def child? (n : Node) (r : Role) : Option Node :=
  n.children.find? fun c => c.role == some r

/-- The children that are not tokens. -/
def named (n : Node) : List Node :=
  n.children.filter (·.kind.isNamed)

/-- The children that stand for something: neither tokens nor comments. -/
def content (n : Node) : List Node :=
  n.named.filter (·.kind != .comment)

mutual

/-- The number of nodes of a tree. -/
def size : Node → Nat
  | ⟨_, _, _, _, children⟩ => 1 + sizeAll children

/-- The number of nodes of some trees. -/
def sizeAll : List Node → Nat
  | [] => 0
  | n :: rest => n.size + sizeAll rest

end

/-- The node with another role. -/
def withRole (n : Node) (r : Role) : Node :=
  { n with role := some r }

/-- The text of a node in its source. -/
def text (bytes : ByteArray) (n : Node) : String :=
  Text.textBetween bytes n.start n.stop

/-- Two nodes of one tree with the same range and kind. -/
def same (a b : Node) : Bool :=
  a.start == b.start && a.stop == b.stop && a.kind == b.kind

/-- The range of one node lies in the range of another. -/
def covers (outer inner : Node) : Bool :=
  outer.start ≤ inner.start && inner.stop ≤ outer.stop

end Node

end Relay.Syntax
