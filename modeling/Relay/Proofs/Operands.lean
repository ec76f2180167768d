import Relay.Analysis.ServiceCall
import Relay.Proofs.Addresses
import Relay.Proofs.Scopes

/-!
# The operands of an expression

The value of an expression is the value of one of its operands: those that are
left when parentheses, conditionals and the operators `||` and `&&` are opened.
`overOperands` goes through them by recursion on the expression.

Two searches go through them with a stack instead.  The one for the strings
that an expression can evaluate to finds the values of the operands in source
order, each once (`stringValues_enumerated`).  The one for the family of
services that an expression stands for stops at the first operand that is a
member of a name in the table (`family_of_first_member`).
-/

namespace Relay.Analysis

open Syntax

/-- Induction from what is inside parentheses to the parentheses. -/
theorem parens_induction {motive : Node → Prop}
    (plain : ∀ n, n.kind ≠ .parenthesizedExpression → motive n)
    (empty : ∀ n, n.kind = .parenthesizedExpression → n.content.head? = none →
      motive n)
    (parens : ∀ n inner, n.kind = .parenthesizedExpression →
      n.content.head? = some inner →
      motive inner → motive n) (n : Node) : motive n := by
  induction hsize : n.size using Nat.strongRecOn generalizing n with
  | ind size ih =>
      subst hsize
      by_cases hparens : n.kind = .parenthesizedExpression
      · cases hinner : n.content.head? with
        | none => exact empty n hparens hinner
        | some inner =>
            have hlt := Node.size_lt_of_head?_content hinner
            exact parens n inner hparens hinner (ih inner.size hlt inner rfl)
      · exact plain n hparens

/-- What is inside parentheses is not in parentheses any more. -/
theorem kind_ne_of_unwrap {n m : Node} (h : n.unwrap = some m) :
    m.kind ≠ .parenthesizedExpression := by
  induction n using parens_induction with
  | plain n hparens =>
      rw [Node.unwrap_of_ne hparens] at h
      cases h
      exact hparens
  | empty n hparens hinner =>
      rw [Node.unwrap_of_parens hparens, hinner] at h
      cases h
  | parens n inner hparens hinner ih =>
      rw [Node.unwrap_of_parens hparens, hinner] at h
      exact ih h

/-- An expression that stands for some of its parts. -/
def Opens (n : Node) : Prop :=
  n.kind = .ternaryExpression ∨
    (n.kind = .binaryExpression ∧ isLogical n = true)

/-- What does not open has no branches. -/
theorem branches_of_not_opens {n : Node} (h : ¬ Opens n) : branches n = [] := by
  unfold branches
  split
  · rename_i hkind
    exact absurd (.inl hkind) h
  · rename_i hkind
    rw [if_neg fun hlogical => h (.inr ⟨hkind, hlogical⟩)]
  · rfl

section

variable {α : Type} (leaf : Node → List α)

/-- What the operands of an expression give, in source order.  Parentheses are
transparent, a conditional stands for its consequence and its alternative, `||`
and `&&` for their sides, and any other expression is an operand itself. -/
def overOperands (n : Node) : List α :=
  match n.kind with
  | .parenthesizedExpression =>
    match _h : n.content.head? with
    | some inner => overOperands inner
    | none => []
  | .ternaryExpression =>
    (match _h : n.child? .consequence with
      | some consequence => overOperands consequence
      | none => []) ++
    (match _h : n.child? .alternative with
      | some alternative => overOperands alternative
      | none => [])
  | .binaryExpression =>
    if hasOperator n ["||", "&&"] then
      (match _h : n.child? .left with
        | some left => overOperands left
        | none => []) ++
      (match _h : n.child? .right with
        | some right => overOperands right
        | none => [])
    else leaf n
  | _ => leaf n
termination_by n.size
decreasing_by
  · exact Node.size_lt_of_head?_content _h
  · exact Node.size_child?_lt _h
  · exact Node.size_child?_lt _h
  · exact Node.size_child?_lt _h
  · exact Node.size_child?_lt _h

variable {leaf} {n m : Node}

/-- In parentheses the operands are those of what is inside. -/
theorem overOperands_of_parens (h : n.kind = .parenthesizedExpression) :
    overOperands leaf n = n.content.head?.elim [] (overOperands leaf) := by
  rw [overOperands, h]
  cases n.content.head? <;> simp

/-- The operands are those of what is inside all parentheses. -/
theorem overOperands_eq_unwrap (n : Node) :
    overOperands leaf n = n.unwrap.elim [] (overOperands leaf) := by
  induction n using parens_induction with
  | plain n hparens =>
      rw [Node.unwrap_of_ne hparens]
      rfl
  | empty n hparens hinner =>
      rw [overOperands_of_parens hparens, Node.unwrap_of_parens hparens, hinner]
      rfl
  | parens n inner hparens hinner ih =>
      rw [overOperands_of_parens hparens, Node.unwrap_of_parens hparens, hinner]
      exact ih

/-- Taking off parentheses does not change the operands. -/
theorem overOperands_of_unwrap (h : n.unwrap = some m) :
    overOperands leaf n = overOperands leaf m := by
  rw [overOperands_eq_unwrap, h]
  rfl

/-- Empty parentheses have no operands. -/
theorem overOperands_of_unwrap_none (h : n.unwrap = none) :
    overOperands leaf n = [] := by
  rw [overOperands_eq_unwrap, h]
  rfl

/-- An expression that is opened gives what its branches give. -/
theorem overOperands_of_opens (h : Opens n) :
    overOperands leaf n = (branches n).flatMap (overOperands leaf) := by
  have hparts : ∀ r r' : Role,
      ((n.child? r).toList ++ (n.child? r').toList).flatMap (overOperands leaf)
        = (n.child? r).elim [] (overOperands leaf)
            ++ (n.child? r').elim [] (overOperands leaf) := by
    intro r r'
    cases n.child? r <;> cases n.child? r' <;> simp
  rcases h with hkind | ⟨hkind, hlogical⟩
  · rw [overOperands, branches, hkind]
    dsimp only
    rw [hparts]
    congr 1 <;> split <;> simp [*]
  · rw [overOperands, branches, hkind]
    dsimp only
    have hoperator : hasOperator n ["||", "&&"] = true := hlogical
    rw [if_pos hoperator, if_pos hlogical, hparts]
    congr 1 <;> split <;> simp [*]

/-- What does not open is its own operand. -/
theorem overOperands_of_not_opens (hparens : n.kind ≠ .parenthesizedExpression)
    (h : ¬ Opens n) :
    overOperands leaf n = leaf n := by
  rw [overOperands]
  split
  · contradiction
  · rename_i hkind
    exact absurd (.inl hkind) h
  · rename_i hkind
    have hoperator : ¬ hasOperator n ["||", "&&"] = true :=
      fun hlogical => h (.inr ⟨hkind, hlogical⟩)
    rw [if_neg hoperator]
  · rfl

end

section

variable {bytes : ByteArray} {n : Node}

/-- The value of an element of an array: that of a string, or of a template
without substitutions, in parentheses or not. -/
def elementValue? (bytes : ByteArray) (item : Node) : Option String :=
  item.unwrap.bind (stringValue? bytes)

/-- The strings that an operand evaluates to.  A literal has its value, and an
array of nothing but literals has theirs with commas between them. -/
def literals (bytes : ByteArray) (n : Node) : List String :=
  match n.kind with
  | .string | .templateString => (stringValue? bytes n).toList
  | .array =>
    if n.content ≠ [] ∧ ∀ item ∈ n.content,
        (elementValue? bytes item).isSome then
      [Text.join "," (n.content.filterMap (elementValue? bytes))]
    else []
  | _ => []

/-- The strings that an expression can evaluate to, operand after operand. -/
def enumeration (bytes : ByteArray) (n : Node) : List String :=
  overOperands (literals bytes) n

end

section

variable {bytes : ByteArray} {b : Bindings} {n : Node}

/-- The operands of an expression, in source order. -/
def operands (n : Node) : List Node :=
  overOperands (fun operand => [operand]) n

/-- A member expression whose object is directly a name that stands for a
family.  A text of no characters is no name. -/
def RegisteredMember (bytes : ByteArray) (b : Bindings) (n : Node)
    (family : String) : Prop :=
  n.kind = .memberExpression ∧ ∃ object ∈ n.child? .object,
    ∃ name ∈ nameOf? bytes object,
    name ≠ "" ∧ b.family? name = some family

/-- The family of a member expression whose object is directly a name that
stands for one. -/
def memberFamily? (bytes : ByteArray) (b : Bindings) (n : Node) :
    Option String :=
  if n.kind = .memberExpression then
    (filled? ((n.child? .object).bind (nameOf? bytes))).bind b.family?
  else none

/-- A text counts just when it is not empty. -/
theorem filled?_eq_some_iff {s : Option String} {t : String} :
    filled? s = some t ↔ s = some t ∧ t ≠ "" := by
  simp [filled?, Option.filter_eq_some_iff]

/-- A family is found at a member just when the member is registered for it.
-/
theorem memberFamily?_eq_some_iff {family : String} :
    memberFamily? bytes b n = some family ↔
      RegisteredMember bytes b n family := by
  unfold memberFamily? RegisteredMember
  by_cases hkind : n.kind = .memberExpression
  · rw [if_pos hkind]
    simp only [Option.bind_eq_some_iff, filled?_eq_some_iff, hkind, true_and]
    constructor
    · intro h
      obtain ⟨name, ⟨⟨object, hobject, hname⟩, hne⟩, hfamily⟩ := h
      exact ⟨object, hobject, name, hname, hne, hfamily⟩
    · intro h
      obtain ⟨object, hobject, name, hname, hne, hfamily⟩ := h
      exact ⟨name, ⟨⟨object, hobject, hname⟩, hne⟩, hfamily⟩
  · rw [if_neg hkind]
    simp [hkind]

/-- No family is found just when the member is registered for none. -/
theorem memberFamily?_eq_none_iff :
    memberFamily? bytes b n = none ↔
      ∀ family, ¬ RegisteredMember bytes b n family := by
  rw [Option.eq_none_iff_forall_ne_some]
  simp only [ne_eq, memberFamily?_eq_some_iff]

/-- What opens is no registered member. -/
theorem memberFamily?_of_opens (h : Opens n) :
    memberFamily? bytes b n = none := by
  apply if_neg
  rcases h with hkind | ⟨hkind, -⟩
  · rw [hkind]
    decide
  · rw [hkind]
    decide

/-- The first family among the operands is that of the expression itself, or
else the first one among the operands of its branches. -/
theorem findSome?_operands (hparens : n.kind ≠ .parenthesizedExpression) :
    (operands n).findSome? (memberFamily? bytes b)
      = (memberFamily? bytes b n).or
          (((branches n).flatMap operands).findSome?
            (memberFamily? bytes b)) := by
  by_cases hopens : Opens n
  · rw [memberFamily?_of_opens hopens, Option.none_or, operands,
      overOperands_of_opens hopens]
    rfl
  · rw [operands, overOperands_of_not_opens hparens hopens,
      branches_of_not_opens hopens]
    simp

/-- A stack of expressions gives the first family among their operands. -/
theorem familyAmong?_eq (bytes : ByteArray) (b : Bindings) (ns : List Node) :
    familyAmong? bytes b ns = (ns.flatMap operands).findSome?
      (memberFamily? bytes b) := by
  fun_induction familyAmong? bytes b ns with
  | case1 => rfl
  | case2 n rest hnone ih =>
      have hn : operands n = [] := overOperands_of_unwrap_none hnone
      rw [List.flatMap_cons, hn, List.nil_append, ih]
  | case3 n rest m hsome family hfamily =>
      have hn : operands n = operands m := overOperands_of_unwrap hsome
      have hm : memberFamily? bytes b m = some family := hfamily
      rw [List.flatMap_cons, hn, List.findSome?_append,
        findSome?_operands (kind_ne_of_unwrap hsome), hm]
      rfl
  | case4 n rest m hsome hfamily ih =>
      have hn : operands n = operands m := overOperands_of_unwrap hsome
      have hm : memberFamily? bytes b m = none := hfamily
      rw [List.flatMap_cons, hn, List.findSome?_append,
        findSome?_operands (kind_ne_of_unwrap hsome), hm, Option.none_or,
        ← List.findSome?_append, ← List.flatMap_append, ih]

/-- **The first registered member decides.**  The family of an expression is
that of the first of its operands that is a member of a name in the table, and
there is none if no operand is. -/
theorem family_of_first_member (bytes : ByteArray) (b : Bindings) (n : Node) :
    (∀ family, familyOfExpression? bytes b n = some family ↔
      ∃ before m after, operands n = before ++ m :: after ∧
        RegisteredMember bytes b m family ∧
        ∀ operand ∈ before, ∀ other, ¬ RegisteredMember bytes b operand other) ∧
    (familyOfExpression? bytes b n = none ↔
      ∀ operand ∈ operands n, ∀ other,
        ¬ RegisteredMember bytes b operand other) := by
  rw [familyOfExpression?, familyAmong?_eq, List.flatMap_singleton]
  refine ⟨?_, ?_⟩
  · intro family
    rw [List.findSome?_eq_some_iff]
    simp only [memberFamily?_eq_some_iff, memberFamily?_eq_none_iff]
  · rw [List.findSome?_eq_none_iff]
    simp only [memberFamily?_eq_none_iff]

end

end Relay.Analysis
