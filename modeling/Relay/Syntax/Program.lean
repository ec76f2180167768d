import Relay.Syntax.Markup
import Relay.Syntax.Statement

/-!
# Programs

The rules of the grammar, tied together, and the reading of a whole source.
Every rule that is entered inside another one lies further on in the source or
is one of a fixed number of steps at the same place, so a bound that grows with
the length of the source is never reached.
-/

namespace Relay.Syntax

open Reading

/-- One step of the grammar: each rule over the readings for the rules inside
it. -/
def grammar (rules : Rules) : Rules
  | .expression => Expression.expression rules
  | .unary => Expression.unary rules
  | .power => Expression.power rules
  | .binding => Pattern.binding rules
  | .statement => item (Statement.statement rules)
  | .type => TypeTerm.type rules
  | .element => Markup.element rules

/-- The rules, nested at most so many times. -/
def rulesUpTo : Nat → Rules
  | 0 => fun _ => stuck
  | depth + 1 => grammar (rulesUpTo depth)

/-- Reads the statements of a whole source. -/
def statements (rules : Rules) : Reading Unit := do
  repeatWhile do
    if ← atEnd then return false
    else
      rules .statement
      return true

/-- Passes over a first line that names an interpreter. -/
def interpreterLine : Reading Unit := do
  let b ← source
  let i ← next
  if Scan.spells b i "#!" then
    leaf .hashBangLine i (Scan.runEnd (fun c => c != '\n') b i)
  else pure ()

mutual

/-- A part of a pattern that never became a pattern, if there is one below a
node: its position. -/
def strayDefault? : Node → Option Nat
  | ⟨kind, _, _, _, children⟩ => strayDefaultIn? (kind == .object) children

/-- The same for the children of a node; `literal` says that they are entries
of an object. -/
def strayDefaultIn? (literal : Bool) : List Node → Option Nat
  | [] => none
  | n :: rest =>
    if literal && n.kind == .objectAssignmentPattern then some n.start
    else (strayDefault? n).orElse fun _ => strayDefaultIn? literal rest

end

mutual

/-- A tree with comments put into the deepest nodes that span them. -/
def withComments (comments : List Node) : Node → Node
  | ⟨kind, role, a, b, children⟩ =>
    if comments.isEmpty then ⟨kind, role, a, b, children⟩
    else ⟨kind, role, a, b, mergeComments comments children⟩

/-- Children with comments put before, into and after them. -/
def mergeComments (comments : List Node) : List Node → List Node
  | [] => comments
  | n :: rest =>
    let before := comments.takeWhile (·.stop ≤ n.start)
    let others := comments.dropWhile (·.stop ≤ n.start)
    let inside := others.takeWhile (·.start < n.stop)
    before ++ withComments inside n ::
      mergeComments (others.dropWhile (·.start < n.stop)) rest

end

/-- The position of the first token or comment. -/
def firstContent (b : ByteArray) : Nat :=
  Scan.runEnd Scan.isSpace b 0

/-- Reads a source into its tree, or gives the byte at which the reading is
stuck. -/
def parse (dialect : Dialect) (bytes : ByteArray) : Except Nat Node :=
  let rules := rulesUpTo (2 * bytes.size + 16)
  let whole : Reading Unit := do
    interpreterLine
    statements rules
  match whole { bytes, dialect } {} with
  | .stuck i => .error i
  | .done () c =>
    let tree : Node :=
      ⟨.program, none, firstContent bytes, bytes.size, c.made.reverse⟩
    match strayDefault? tree with
    | some i => .error i
    | none => .ok (withComments (c.comments.reverse ++ passed bytes c.pos) tree)

end Relay.Syntax
