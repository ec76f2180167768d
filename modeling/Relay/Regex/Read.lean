import Relay.Regex.Basic

/-!
# Reading regular expressions

Reads the text of an expression, or refuses it.  Refused are: an open group or
class, a closing parenthesis without a group, a repetition of nothing or of a
repetition, a range that goes backwards, and unknown escapes.
-/

namespace Relay.Regex

/-- The value of a hexadecimal digit. -/
def hexValue? (c : Char) : Option Nat :=
  if '0' ≤ c ∧ c ≤ '9' then some (c.toNat - '0'.toNat)
  else if 'a' ≤ c ∧ c ≤ 'f' then some (c.toNat - 'a'.toNat + 10)
  else if 'A' ≤ c ∧ c ≤ 'F' then some (c.toNat - 'A'.toNat + 10)
  else none

/-- The value of exactly so many hexadecimal digits, and what follows them. -/
def hexNumber? (count : Nat) (cs : List Char) : Option (Nat × List Char) := do
  let digits ← (cs.take count).mapM hexValue?
  if digits.length = count then
    some (digits.foldl (fun n d => n * 16 + d) 0, cs.drop count)
  else none

/-- The value of up to `count` octal digits, and what follows them. -/
def octalNumber (count : Nat) (cs : List Char) : Nat × List Char :=
  let digits := (cs.take count).takeWhile fun c => '0' ≤ c && c ≤ '7'
  (digits.foldl (fun n c => n * 8 + (c.toNat - '0'.toNat)) 0,
    cs.drop digits.length)

/-- Escapes of one letter for a character. -/
def letterEscape? (c : Char) : Option Nat :=
  match c with
  | 'a' => some 7
  | 'f' => some 12
  | 'n' => some 10
  | 'r' => some 13
  | 't' => some 9
  | 'v' => some 11
  | _ => none

/-- Escapes of one letter for a class. -/
def categoryEscape? (c : Char) : Option Item :=
  match c with
  | 'w' => some (.category .word false)
  | 'W' => some (.category .word true)
  | 'd' => some (.category .digit false)
  | 'D' => some (.category .digit true)
  | 's' => some (.category .space false)
  | 'S' => some (.category .space true)
  | _ => none

/-- Reads an escape for a character after its backslash. -/
def charEscape? : List Char → Option (Nat × List Char)
  | [] => none
  | c :: rest =>
    match letterEscape? c with
    | some v => some (v, rest)
    | none =>
      match c with
      | 'x' => hexNumber? 2 rest
      | 'u' => hexNumber? 4 rest
      | 'U' => hexNumber? 8 rest
      | '0' => some (octalNumber 3 (c :: rest))
      | _ => if c.isAlphanum then none else some (c.toNat, rest)

/-- Reads an escape inside a class after its backslash. -/
def itemEscape? (cs : List Char) : Option (Item × List Char) :=
  match cs with
  | 'b' :: rest => some (.range 8 8, rest)
  | c :: rest =>
    match categoryEscape? c with
    | some item => some (item, rest)
    | none =>
      if '0' ≤ c ∧ c ≤ '7' then
        let (v, rest) := octalNumber 3 cs
        if v ≤ 0o377 then some (.range v v, rest) else none
      else (charEscape? cs).map fun (v, rest) => (.range v v, rest)
  | [] => none

/-- Reads one end of a range, or a whole member of a class. -/
def classItem? : List Char → Option (Item × List Char)
  | [] => none
  | '\\' :: rest => itemEscape? rest
  | c :: rest => some (.range c.toNat c.toNat, rest)

/-- The range between two characters. -/
def rangeOf? : Item → Item → Option Item
  | .range a _, .range b _ => if a ≤ b then some (.range a b) else none
  | _, _ => none

/-- Reads the members of a class up to its bracket; a bracket in front stands
for itself. -/
def classItems (fuel : Nat) (items : List Item) (cs : List Char) :
    Option (List Item × List Char) :=
  match fuel with
  | 0 => none
  | fuel + 1 =>
    match cs, items with
    | ']' :: rest, _ :: _ => some (items.reverse, rest)
    | _, _ =>
      match classItem? cs with
      | none => none
      | some (item, '-' :: ']' :: rest) =>
          some ((.range 45 45 :: item :: items).reverse, rest)
      | some (item, '-' :: rest) =>
        match classItem? rest with
        | some (last, rest) =>
          match rangeOf? item last with
          | some range => classItems fuel (range :: items) rest
          | none => none
        | none => none
      | some (item, rest) => classItems fuel (item :: items) rest

/-- Reads an escape outside classes after its backslash. -/
def escape? (cs : List Char) : Option (Regex × List Char) :=
  match cs with
  | 'A' :: rest => some (.textStart, rest)
  | 'Z' :: rest => some (.textEnd, rest)
  | 'b' :: rest => some (.boundary false, rest)
  | 'B' :: rest => some (.boundary true, rest)
  | c :: rest =>
    match categoryEscape? c with
    | some item => some (.oneOf false [item], rest)
    | none =>
        (charEscape? cs).map fun (v, rest) => (.oneOf false [.range v v], rest)
  | [] => none

/-- The number that some digits spell; none if there are no digits. -/
def countOf? (digits : List Char) : Option Nat :=
  if digits.isEmpty then none
  else some (digits.foldl (fun n c => n * 10 + (c.toNat - '0'.toNat)) 0)

/-- The least and the greatest number of repetitions that a mark asks for, and
what follows it.  Braces that hold no numbers stand for themselves, which
`none` tells. -/
def repetition? : List Char → Option ((Nat × Option Nat) × List Char)
  | '?' :: rest => some ((0, some 1), rest)
  | '*' :: rest => some ((0, none), rest)
  | '+' :: rest => some ((1, none), rest)
  | '\x7b' :: '\x7d' :: _ => none
  | '\x7b' :: rest =>
    let low := rest.takeWhile Char.isDigit
    match rest.drop low.length with
    | '\x7d' :: rest => some (((countOf? low).getD 0, countOf? low), rest)
    | ',' :: rest =>
      let high := rest.takeWhile Char.isDigit
      match rest.drop high.length with
      | '\x7d' :: rest => some (((countOf? low).getD 0, countOf? high), rest)
      | _ => none
    | _ => none
  | _ => none

/-- The same texts match whether a repetition takes as many or as few rounds as
it can. -/
def skipHaste : List Char → List Char
  | '?' :: rest => rest
  | cs => cs

/-- Parts of an expression one after the other; the last part comes first. -/
def sequence (parts : List Regex) : Regex :=
  match parts.reverse with
  | [] => .empty
  | r :: rest => rest.foldl .seq r

mutual

/-- Reads alternatives up to a closing parenthesis or the end. -/
def alternatives (fuel : Nat) (cs : List Char) : Option (Regex × List Char) :=
  match fuel with
  | 0 => none
  | fuel + 1 =>
    match parts fuel [] cs with
    | some (r, '|' :: rest) =>
        (alternatives fuel rest).map fun (s, rest) => (.alt r s, rest)
    | found => found

/-- Reads the parts of one alternative; `done` are the parts before, the last
first. -/
def parts (fuel : Nat) (done : List Regex) (cs : List Char) :
    Option (Regex × List Char) :=
  match fuel with
  | 0 => none
  | fuel + 1 =>
    match cs with
    | [] => some (sequence done, [])
    | '|' :: _ | ')' :: _ => some (sequence done, cs)
    | '\\' :: rest =>
        (escape? rest).bind fun (r, rest) => parts fuel (r :: done) rest
    | '.' :: rest => parts fuel (.any :: done) rest
    | '^' :: rest => parts fuel (.textStart :: done) rest
    | '$' :: rest => parts fuel (.lineEnd :: done) rest
    | '[' :: '^' :: rest =>
      (classItems fuel [] rest).bind fun (items, rest) =>
        parts fuel (.oneOf true items :: done) rest
    | '[' :: rest =>
      (classItems fuel [] rest).bind fun (items, rest) =>
        parts fuel (.oneOf false items :: done) rest
    | '(' :: '?' :: ':' :: rest => groupEnd fuel done (alternatives fuel rest)
    | '(' :: '?' :: _ => none
    | '(' :: rest => groupEnd fuel done (alternatives fuel rest)
    | c :: rest =>
      match repetition? cs with
      | some ((least, most), after) =>
        match done with
        | r :: before =>
          if r.isAnchor || r.isRepeated || most.any (· < least) then none
          else parts fuel (.repeated least most r :: before) (skipHaste after)
        | [] => none
      | none => parts fuel (literal c :: done) rest

/-- Goes on after the inside of a group has been read. -/
def groupEnd (fuel : Nat) (done : List Regex)
    (inside : Option (Regex × List Char)) :
    Option (Regex × List Char) :=
  match fuel, inside with
  | fuel + 1, some (r, ')' :: rest) => parts fuel (.group r :: done) rest
  | _, _ => none

end

/-- Reads the text of an expression. -/
def ofString? (s : String) : Option Regex :=
  match alternatives (3 * s.length + 3) s.toList with
  | some (r, []) => some r
  | _ => none

end Relay.Regex
