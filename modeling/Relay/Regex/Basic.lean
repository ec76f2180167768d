/-!
# Regular expressions

The expressions that library paths are recognised by: characters and classes of
characters, anchors, alternatives, groups and repetitions.
-/

namespace Relay

namespace Regex

/-- Classes of characters that have a name. -/
inductive Category where
  | word | digit | space
deriving DecidableEq

/-- A member of a class of characters. -/
inductive Item where
  | range (first last : Nat)
  | category (c : Category) (negated : Bool)
deriving DecidableEq

end Regex

/-- A regular expression. -/
inductive Regex where
  | empty
  | any
  | oneOf (negated : Bool) (items : List Regex.Item)
  | textStart
  | lineEnd
  | textEnd
  | boundary (negated : Bool)
  | seq (a b : Regex)
  | alt (a b : Regex)
  | group (r : Regex)
  | repeated (least : Nat) (most : Option Nat) (r : Regex)
deriving DecidableEq

namespace Regex

/-- The expression for one character. -/
def literal (c : Char) : Regex :=
  .oneOf false [.range c.toNat c.toNat]

/-- An expression that holds at a place and takes no character. -/
def isAnchor : Regex → Bool
  | textStart | lineEnd | textEnd | boundary _ => true
  | _ => false

/-- An expression that repeats another one. -/
def isRepeated : Regex → Bool
  | repeated .. => true
  | _ => false

end Regex

end Relay
