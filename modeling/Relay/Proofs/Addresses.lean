import Mathlib.Data.List.Basic
import Relay.Analysis.Url

/-!
# The names of addresses

An address is put together from texts by `+`, by templates and by parentheses,
nested in any way.  Its name depends on the sequence of the texts alone: it is
the last good one, or else the first one that is not empty
(`address_named_by_leaves`).  So it makes no difference which way a sum is
nested, nor whether it is written as a sum or as a template.

The argument rests on one law: joining names is to names what appending is to
sequences of texts (`nameAmong?_append`).  A sum is read by a loop down its
left operands, which joins their names one after another and so joins the names
of the two sides (`addressOf?_of_sum`).  The loop over the parts of a template
joins one name after another, too, so both follow the law.
-/

namespace Relay

namespace Syntax.Node

/-- The first node inside another one is smaller. -/
theorem size_lt_of_head?_content {n m : Node} (h : n.content.head? = some m) :
    m.size < n.size := by
  have hcontent : m ∈ n.content := List.mem_of_mem_head? h
  have hmem : m ∈ n.children :=
    (List.mem_filter.mp (List.mem_filter.mp hcontent).1).1
  have hle := size_le_sizeAll hmem
  have hsize := n.size_eq
  omega

end Syntax.Node

namespace Analysis

open Syntax

variable {bytes : ByteArray}

/-- The last good text, or else the first one that is not empty. -/
def nameAmong? (texts : List String) : Option String :=
  (texts.reverse.find? isGoodPart).or (texts.find? (· ≠ ""))

/-- A good part of an address is not empty. -/
theorem ne_empty_of_isGoodPart {s : String} (h : isGoodPart s = true) :
    s ≠ "" := by
  simp only [isGoodPart, Bool.and_eq_true, decide_eq_true_eq] at h
  exact h.1.1

/-- A text that is not empty counts as it is. -/
theorem filled?_of_ne {s : String} (h : s ≠ "") :
    filled? (some s) = some s := by
  simp [filled?, h]

/-- Leaving out the empty text twice is leaving it out once. -/
theorem filled?_filled? (s : Option String) :
    filled? (filled? s) = filled? s := by
  simp [filled?]

@[simp] theorem nameAmong?_nil : nameAmong? [] = none := rfl

/-- The name among one text is the text, unless it is empty. -/
theorem nameAmong?_singleton (s : String) :
    nameAmong? [s] = filled? (some s) := by
  by_cases hs : s = ""
  · subst hs
    rfl
  · by_cases hgood : isGoodPart s = true
    · simp [nameAmong?, hgood, filled?_of_ne hs]
    · simp [nameAmong?, hgood, hs, filled?_of_ne hs]

/-- The name among at most one text is that text, unless it is empty. -/
theorem nameAmong?_toList (s : Option String) :
    nameAmong? s.toList = filled? s := by
  cases s with
  | none => rfl
  | some s => exact nameAmong?_singleton s

/-- The name among some texts is not empty. -/
theorem ne_empty_of_nameAmong? {texts : List String} {s : String}
    (h : nameAmong? texts = some s) : s ≠ "" := by
  rcases Option.or_eq_some_iff.mp h with hgood | ⟨-, hfirst⟩
  · exact ne_empty_of_isGoodPart (List.find?_some hgood)
  · simpa using List.find?_some hfirst

/-- The name among some texts counts as it is. -/
theorem filled?_nameAmong? (texts : List String) :
    filled? (nameAmong? texts) = nameAmong? texts := by
  cases h : nameAmong? texts with
  | none => rfl
  | some s => exact filled?_of_ne (ne_empty_of_nameAmong? h)

/-- The name of a sequence that goes on with another one. -/
theorem nameAmong?_append (xs ys : List String) :
    nameAmong? (xs ++ ys) = joinAddress (nameAmong? xs) (nameAmong? ys) := by
  cases hlast : ys.reverse.find? isGoodPart with
  | some s =>
      have hgood : isGoodPart s = true := List.find?_some hlast
      simp [nameAmong?, joinAddress, hlast, hgood]
  | none =>
      have hnone : ∀ y ∈ ys, isGoodPart y = false := by simpa using hlast
      have hys : nameAmong? ys = ys.find? (· ≠ "") := by
        simp [nameAmong?, hlast]
      have hbad : (nameAmong? ys).any isGoodPart = false := by
        rw [hys]
        cases hfirst : ys.find? (· ≠ "") with
        | none => rfl
        | some y => exact hnone y (List.mem_of_find?_eq_some hfirst)
      have hor : nameAmong? (xs ++ ys) =
          (nameAmong? xs).or (nameAmong? ys) := by
        rw [hys]
        simp [nameAmong?, hlast, Option.or_assoc]
      rw [hor, joinAddress, hbad, filled?_nameAmong?]
      cases nameAmong? xs with
      | none => rfl
      | some x => rfl

/-- A part that is empty counts as none. -/
theorem filled?_joinAddress (name part : Option String) :
    filled? (joinAddress name part) = joinAddress (filled? name)
    (filled? part) := by
  have hany : (filled? part).any isGoodPart = part.any isGoodPart := by
    cases part with
    | none => rfl
    | some s =>
        by_cases hs : s = ""
        · subst hs
          rfl
        · rw [filled?_of_ne hs]
  unfold joinAddress
  rw [hany, filled?_filled?]
  split
  · rfl
  · cases hname : filled? name with
    | none => rfl
    | some s =>
        have hfilled := filled?_filled? name
        rw [hname] at hfilled
        exact hfilled

@[simp] theorem joinAddress_none (part : Option String) :
    joinAddress none part = part := by
  simp [joinAddress, filled?]

/-- One step of the loop over the parts of a template. -/
theorem nameAmong?_pair {name : String} (part : String) (hname : name ≠ "") :
    nameAmong? [name, part] = some
      (if isGoodPart part then part else name) := by
  have happend := nameAmong?_append [name] [part]
  rw [nameAmong?_singleton, nameAmong?_singleton, ← filled?_joinAddress]
    at happend
  rw [List.singleton_append] at happend
  rw [happend]
  by_cases hgood : isGoodPart part = true
  · simp [joinAddress, hgood, filled?_of_ne (ne_empty_of_isGoodPart hgood)]
  · simp [joinAddress, hgood, filled?_of_ne hname]

/-- The loop over the parts of a template has the name among the texts it has
gone through. -/
theorem foldl_eq_nameAmong? {name : String} (rest : List String)
    (hname : name ≠ "") :
    some (rest.foldl (fun name part =>
      if isGoodPart part then part else name) name)
      = nameAmong? (name :: rest) := by
  induction rest generalizing name with
  | nil => rw [nameAmong?_singleton, filled?_of_ne hname, List.foldl_nil]
  | cons part rest ih =>
      have hnext : (if isGoodPart part then part else name) ≠ "" := by
        split
        · rename_i hgood
          exact ne_empty_of_isGoodPart hgood
        · exact hname
      rw [List.foldl_cons, ih hnext]
      change nameAmong? ([_] ++ rest) = nameAmong? ([name, part] ++ rest)
      rw [nameAmong?_append, nameAmong?_append, nameAmong?_pair part hname,
        nameAmong?_singleton, filled?_of_ne hnext]

/-- Parts that are not empty are put together to the name among them. -/
theorem addressOfParts_eq {parts : List String}
    (h : ∀ part ∈ parts, part ≠ "") :
    addressOfParts parts = nameAmong? parts := by
  cases parts with
  | nil => rfl
  | cons first rest => exact foldl_eq_nameAmong? rest (h first (by simp))

/-- Of each part of a template only its own name counts. -/
theorem nameAmong?_flatMap {α : Type} (as : List α) (texts : α → List String) :
    nameAmong? (as.flatMap texts)
      = addressOfParts (as.filterMap fun a => nameAmong? (texts a)) := by
  have hfilled : ∀ part ∈ as.filterMap (fun a => nameAmong? (texts a)),
      part ≠ "" := by
    intro part hpart
    obtain ⟨a, -, ha⟩ := List.mem_filterMap.mp hpart
    exact ne_empty_of_nameAmong? ha
  rw [addressOfParts_eq hfilled]
  clear hfilled
  induction as with
  | nil => rfl
  | cons a as ih =>
      rw [List.flatMap_cons, nameAmong?_append, ih]
      cases ha : nameAmong? (texts a) with
      | none => simp [ha]
      | some part =>
          have hpart := filled?_of_ne (ne_empty_of_nameAmong? ha)
          rw [List.filterMap_cons, ha]
          change _ = nameAmong? ([part] ++ _)
          rw [nameAmong?_append, nameAmong?_singleton, hpart]

/-- The texts that an expression is put together from, in source order. -/
def leaves (bytes : ByteArray) (n : Node) : List String :=
  match stringValue? bytes n with
  | some s => [s]
  | none =>
    match n.kind with
    | .identifier => (nameOf? bytes n).toList
    | .memberExpression => (propertyName? bytes n).toList
    | .parenthesizedExpression =>
      match _h : n.content.head? with
      | some inner => leaves bytes inner
      | none => []
    | .binaryExpression =>
      if hasOperator n ["+"] then
        (match _h : n.child? .left with
          | some left => leaves bytes left
          | none => []) ++
        (match _h : n.child? .right with
          | some right => leaves bytes right
          | none => [])
      else []
    | .templateString =>
      n.children.attach.flatMap fun ⟨c, _hc⟩ =>
        match c.kind with
        | .stringFragment => [Text.strip (c.text bytes)]
        | .templateSubstitution =>
          match _h : c.content.head? with
          | some inner => leaves bytes inner
          | none => []
        | _ => []
    | _ => []
termination_by n.size
decreasing_by
  · exact Node.size_lt_of_head?_content _h
  · exact Node.size_child?_lt _h
  · exact Node.size_child?_lt _h
  · have h₁ := Node.size_lt_of_head?_content _h
    have h₂ := Node.size_le_sizeAll _hc
    have h₃ := n.size_eq
    omega

/-- Only literals and templates have a text of their own. -/
theorem stringValue?_eq_none {n : Node} (hstring : n.kind ≠ .string)
    (htemplate : n.kind ≠ .templateString) : stringValue? bytes n = none := by
  unfold stringValue?
  split
  · contradiction
  · contradiction
  · rfl

/-- Parentheses have the texts of what is inside. -/
theorem leaves_of_parens {n : Node} (h : n.kind = .parenthesizedExpression) :
    leaves bytes n = n.content.head?.elim [] (leaves bytes) := by
  rw [leaves, stringValue?_eq_none (by simp [h]) (by simp [h]), h]
  cases n.content.head? <;> simp

/-- A sum has the texts of its left operand and then those of its right one.
-/
theorem leaves_of_sum {n : Node} (h : n.kind = .binaryExpression)
    (hplus : hasOperator n ["+"] = true) :
    leaves bytes n = (n.child? .left).elim [] (leaves bytes)
      ++ (n.child? .right).elim [] (leaves bytes) := by
  rw [leaves, stringValue?_eq_none (by simp [h]) (by simp [h]), h]
  dsimp only
  rw [if_pos hplus]
  congr 1 <;> split <;> simp [*]

/-- The right sides that a walk has passed before stay in front. -/
theorem spine_append (front operands : List (Option Node))
    (current : Option Node) :
    spine (front ++ operands) current
      = (front ++ (spine operands current).1, (spine operands current).2) := by
  induction operands, current using spine.induct with
  | case1 operands => simp [spine]
  | case2 operands n hsum ih =>
      rw [spine, if_pos hsum, spine, if_pos hsum, List.append_assoc, ih]
  | case3 operands n hsum => simp [spine, hsum]

/-- The name that the walk down the left sides of an expression gives. -/
def spineName (bytes : ByteArray) (current : Option Node) : Option String :=
  (spine [] current).1.reverse.foldl
    (fun name operand =>
      joinAddress name ((operand.bind Node.unwrap).bind (addressOf? bytes)))
    (((spine [] current).2.filter (·.kind ≠ .binaryExpression)).bind
      (addressOf? bytes))

/-- The walk down a sum passes its right side and goes on with its left one. -/
theorem spine_of_isSum {n : Node} (h : isSum n = true) :
    spine [] (some n) = (n.child? .right :: (spine [] (n.inner? .left)).1,
      (spine [] (n.inner? .left)).2) := by
  rw [spine, if_pos h]
  exact spine_append [n.child? .right] [] (n.inner? .left)

/-- The right side of a sum joins the name of its left side last. -/
theorem spineName_of_isSum {n : Node} (h : isSum n = true) :
    spineName bytes (some n) = joinAddress (spineName bytes (n.inner? .left))
      ((n.inner? .right).bind (addressOf? bytes)) := by
  rw [spineName, spine_of_isSum h, List.reverse_cons, List.foldl_append]
  rfl

/-- An operation has the name that the walk down its left sides gives. -/
theorem addressOf?_of_binary {n : Node} (h : n.kind = .binaryExpression) :
    addressOf? bytes n = spineName bytes (some n) := by
  rw [addressOf?, stringValue?_eq_none (by simp [h]) (by simp [h])]
  dsimp only
  split
  case h_3 =>
    rw [spineName]
    refine Eq.trans ?_ List.foldl_attach
    congr 1
    · funext name operand
      cases operand.1.bind Node.unwrap with
      | none => rfl
      | some inner => rfl
    · cases (spine [] (some n)).2 with
      | none => rfl
      | some last =>
          by_cases hlast : last.kind = .binaryExpression
          · simp [Option.filter, hlast]
          · simp [Option.filter, hlast]
  all_goals simp_all

/-- The walk down the left sides gives every expression its name. -/
theorem spineName_eq (current : Option Node) :
    spineName bytes current = current.bind (addressOf? bytes) := by
  cases current with
  | none => simp [spineName, spine]
  | some n =>
      by_cases h : n.kind = .binaryExpression
      · exact (addressOf?_of_binary h).symm
      · have hsum : isSum n = false := by simp [isSum, h]
        rw [spineName, spine, if_neg (by simp [hsum])]
        simp [Option.filter, h]

/-- The loop over the spine of a sum amounts to a recursion on its two sides. -/
theorem addressOf?_of_sum {n : Node} (h : n.kind = .binaryExpression)
    (hplus : hasOperator n ["+"] = true) :
    addressOf? bytes n = joinAddress ((n.inner? .left).bind (addressOf? bytes))
      ((n.inner? .right).bind (addressOf? bytes)) := by
  have hsum : isSum n = true := by simp [isSum, h, hplus]
  rw [addressOf?_of_binary h, spineName_of_isSum hsum, spineName_eq]

/-- An operation that is no sum has no name. -/
theorem addressOf?_of_not_isSum {n : Node} (h : n.kind = .binaryExpression)
    (hsum : isSum n = false) : addressOf? bytes n = none := by
  rw [addressOf?_of_binary h, spineName, spine, if_neg (by simp [hsum])]
  simp [Option.filter, h]

/-- The name of an expression is the name among its texts. -/
def NamedByLeaves (bytes : ByteArray) (n : Node) : Prop :=
  filled? (n.unwrap.bind (addressOf? bytes)) = nameAmong? (leaves bytes n)

variable {n : Node}

/-- An operand that is missing is named by its texts, too, as it has none. -/
theorem namedByLeaves_option {part : Option Node}
    (h : ∀ m ∈ part, NamedByLeaves bytes m) :
    filled? ((part.bind Node.unwrap).bind (addressOf? bytes))
      = nameAmong? (part.elim [] (leaves bytes)) := by
  cases part with
  | none => rfl
  | some m => exact h m rfl

/-- Parentheses are named by their texts if what is inside is. -/
theorem namedByLeaves_parens (hkind : n.kind = .parenthesizedExpression)
    (h : ∀ m ∈ n.content.head?, NamedByLeaves bytes m) :
    NamedByLeaves bytes n := by
  rw [NamedByLeaves, Node.unwrap_of_parens hkind, leaves_of_parens hkind]
  exact namedByLeaves_option h

/-- A sum is named by its texts if both of its operands are. -/
theorem namedByLeaves_sum (hkind : n.kind = .binaryExpression)
    (hplus : hasOperator n ["+"] = true)
    (hleft : ∀ m ∈ n.child? .left, NamedByLeaves bytes m)
    (hright : ∀ m ∈ n.child? .right, NamedByLeaves bytes m) :
    NamedByLeaves bytes n := by
  rw [NamedByLeaves, Node.unwrap_of_ne (by simp [hkind]), Option.bind_some,
    addressOf?_of_sum hkind hplus, leaves_of_sum hkind hplus,
    filled?_joinAddress,
    nameAmong?_append, ← namedByLeaves_option
      hleft, ← namedByLeaves_option hright]
  rfl

/-- A template with substitutions is named by its texts if each of these is.
-/
theorem namedByLeaves_template (hkind : n.kind = .templateString)
    (hvalue : stringValue? bytes n = none)
    (h : ∀ c ∈ n.children, ∀ m ∈ c.content.head?, NamedByLeaves bytes m) :
    NamedByLeaves bytes n := by
  rw [NamedByLeaves, Node.unwrap_of_ne (by simp [hkind]), Option.bind_some,
    addressOf?, leaves, hvalue, hkind]
  dsimp only
  rw [← filled?_nameAmong?, nameAmong?_flatMap]
  congr 2
  apply List.filterMap_congr
  intro c _
  obtain ⟨c, hc⟩ := c
  by_cases hfragment : c.kind = .stringFragment
  · simp only [hfragment, nameAmong?_singleton]
  · by_cases hsubstitution : c.kind = .templateSubstitution
    · have hpart := namedByLeaves_option (h c hc)
      rw [← Node.unwrapFirst_children] at hpart
      simp only [hsubstitution]
      split <;> split <;> simp_all [filled?]
    · simp

/-- An operation that is no sum has neither a name nor texts. -/
theorem namedByLeaves_operation (hkind : n.kind = .binaryExpression)
    (hplus : hasOperator n ["+"] = false) : NamedByLeaves bytes n := by
  have hsum : isSum n = false := by simp [isSum, hplus]
  rw [NamedByLeaves, Node.unwrap_of_ne (by simp [hkind]), Option.bind_some,
    addressOf?_of_not_isSum hkind hsum, leaves,
    stringValue?_eq_none (by simp [hkind]) (by simp [hkind]), hkind, hplus]
  rfl

/-- An expression that is not put together has the one text it is named by,
or none. -/
theorem namedByLeaves_plain (hparens : n.kind ≠ .parenthesizedExpression)
    (hbinary : n.kind ≠ .binaryExpression)
    (htemplate : n.kind = .templateString → stringValue? bytes n ≠ none) :
    NamedByLeaves bytes n := by
  rw [NamedByLeaves, Node.unwrap_of_ne hparens, Option.bind_some, addressOf?,
    leaves]
  cases hvalue : stringValue? bytes n with
  | some s => exact (nameAmong?_singleton s).symm
  | none =>
      dsimp only
      split
      · rename_i hkind
        rw [hkind]
        exact (nameAmong?_toList _).symm
      · rename_i hkind
        rw [hkind]
        exact (nameAmong?_toList _).symm
      · contradiction
      · rename_i hkind
        exact absurd hvalue (htemplate hkind)
      · split
        all_goals first | contradiction | rfl

/-- **Addresses are named by their texts.**  Whatever way an expression
is put together by parentheses, `+` and templates, the name of its
address is the last good one of its texts in source order, or else the
first one that is not empty. -/
theorem address_named_by_leaves (bytes : ByteArray) (n : Node) :
    filled? (n.unwrap.bind (addressOf? bytes))
      = nameAmong? (leaves bytes n) := by
  change NamedByLeaves bytes n
  -- The parts of a sum stand in parentheses: the induction is on the size.
  induction hsize : n.size using Nat.strongRecOn generalizing n with
  | ind size ih =>
      subst hsize
      have hinside : ∀ c m : Node, c.size ≤ n.size → m ∈ c.content.head? →
          NamedByLeaves bytes m := by
        intro c m hc hm
        have hlt := Node.size_lt_of_head?_content hm
        exact ih m.size (by omega) m rfl
      have hchild : ∀ (r : Role) (m : Node), m ∈ n.child? r →
          NamedByLeaves bytes m := by
        intro r m hm
        exact ih m.size (Node.size_child?_lt hm) m rfl
      by_cases hparens : n.kind = .parenthesizedExpression
      · exact namedByLeaves_parens hparens fun m => hinside n m (Nat.le_refl _)
      · by_cases hbinary : n.kind = .binaryExpression
        · by_cases hplus : hasOperator n ["+"] = true
          · exact namedByLeaves_sum hbinary hplus (hchild .left) (hchild .right)
          · exact namedByLeaves_operation hbinary (by simpa using hplus)
        · by_cases htemplate : n.kind = .templateString ∧
            stringValue? bytes n = none
          · apply namedByLeaves_template htemplate.1 htemplate.2
            intro c hc m hm
            have hle := Node.size_le_sizeAll hc
            have hsize := n.size_eq
            exact hinside c m (by omega) hm
          · apply namedByLeaves_plain hparens hbinary
            simpa using htemplate

end Analysis

end Relay
