import Relay.Command.Flag
import Relay.Text.Digit

/-!
# The words of the command line

Every argument is a flag or a value.  A value can be attached to a flag: after
an equals sign, or directly after a short name.  A long name may be shortened
as long as it is the name of one flag only.
-/

namespace Relay.Command

/-- What is attached to the name of a flag. -/
inductive Attached where
  | nothing
  | directly (text : String)
  | afterEquals (text : String)
deriving DecidableEq

/-- What an argument is. -/
inductive Word where
  /-- A value, or an argument without a meaning. -/
  | value
  /-- Two dashes, after which all arguments are values. -/
  | dashes
  /-- A flag that is not known. -/
  | unknown
  /-- A flag; `isShort` says that it has a short name. -/
  | flag (flag : Flag) (isShort : Bool) (attached : Attached)
deriving DecidableEq

/-- The parts of a text before and after the first equals sign. -/
def cutAtEquals (cs : List Char) : String × Option String :=
  match cs.span (· ≠ '=') with
  | (before, '=' :: after) => (String.ofList before, some (String.ofList after))
  | _ => (String.ofList cs, none)

/-- What is attached after an equals sign, if there is one. -/
def Attached.ofEquals : Option String → Attached
  | some text => .afterEquals text
  | none => .nothing

/-- A name with one dash. -/
def isShortName (name : String) : Bool :=
  !Text.startsWith name "--"

/-- The names that an argument may stand for, with what is attached to them. -/
def matching (flags : List Flag) (cs : List Char) : List (String × Word) :=
  match cs with
  | '-' :: '-' :: _ =>
    let (start, attached) := cutAtEquals cs
    (Flag.spellings flags).filterMap fun (name, f) =>
      if Text.startsWith name start then
        some (name, .flag f (isShortName name) (.ofEquals attached))
      else none
  | _ =>
    (Flag.spellings flags).filterMap fun (name, f) =>
      if name.toList = cs.take 2 then
        some (name, .flag f true (.directly (String.ofList (cs.drop 2))))
      else if cs.isPrefixOf name.toList then
        some (name, .flag f (isShortName name) .nothing)
      else none

/-- A text is one decimal digit or more. -/
def isDigits (cs : List Char) : Bool :=
  !cs.isEmpty && cs.all fun c => (Text.digitValue? c).isSome

/-- The digits of a number below zero: whole ones, or with a point and digits
after it. -/
def isUnsigned (cs : List Char) : Bool :=
  isDigits cs || (match cs.span (· ≠ '.') with
    | (whole, '.' :: fraction) =>
        (whole.isEmpty || isDigits whole) && isDigits fraction
    | _ => false)

/-- An argument looks like a number below zero; a line feed may end it. -/
def isNegativeNumber : List Char → Bool
  | '-' :: cs =>
    isUnsigned cs || (cs.getLast? = some '\n' && isUnsigned cs.dropLast)
  | _ => false

/-- What an argument with a dash is that is not the exact name of a flag. -/
def readDashed (flags : List Flag) (argument : String) : Except Refusal Word :=
  match matching flags argument.toList with
  | [(_, word)] => .ok word
  | [] =>
    if isNegativeNumber argument.toList || argument.toList.contains ' ' then
      .ok .value
    else .ok .unknown
  | several => .error (.ambiguous argument (several.map (·.1)))

/-- What an argument is. -/
def readWord (flags : List Flag) (argument : String) : Except Refusal Word :=
  let spellings := Flag.spellings flags
  match argument.toList with
  | '-' :: rest =>
    match spellings.lookup argument with
    | some f => .ok (.flag f (isShortName argument) .nothing)
    | none =>
      if rest.isEmpty then .ok .value
      else
        match cutAtEquals argument.toList with
        | (name, some text) =>
          match spellings.lookup name with
          | some f => .ok (.flag f (isShortName name) (.afterEquals text))
          | none => readDashed flags argument
        | (_, none) => readDashed flags argument
  | _ => .ok .value

/-- What some arguments are. -/
def readWords (flags : List Flag) :
    List String → Except Refusal (List (String × Word))
  | [] => .ok []
  | argument :: rest =>
    if argument = "--" then .ok ((argument, .dashes) :: rest.map fun a => (a, .value))
    else do
      let word ← readWord flags argument
      return (argument, word) :: (← readWords flags rest)

/-- The flags of one argument: those that are complete, with their values; one
that takes its values from the arguments after it; and what is left over. -/
structure Cluster where
  complete : List (Flag × List String) := []
  pending : Option Flag := none
  leftOver : Option String := none
deriving DecidableEq

/-- What becomes of a text that is attached to a flag with values: it is the
only one, or too few. -/
def onlyValue? (f : Flag) (text : List Char) :
    Option (Except Refusal Cluster) :=
  match f.valueCount with
  | 0 => none
  | 1 => some (.ok { complete := [(f, [String.ofList text])] })
  | _ => some (.error (.tooFewValues f))

/-- A cluster with a flag without values before it. -/
def Cluster.after (f : Flag) (c : Cluster) : Cluster :=
  { c with complete := (f, []) :: c.complete }

/-- The flags of an argument with an attached text.  Short names without values
can be written behind one dash. -/
def clusterOf (flags : List Flag) (f : Flag) (isShort equals : Bool) :
    List Char → Except Refusal Cluster
  | [] => (onlyValue? f []).getD (.error (.needlessValue f ""))
  | c :: rest =>
    match onlyValue? f (c :: rest) with
    | some result => result
    | none =>
      if !isShort || equals || c = '-' then
        .error (.needlessValue f (String.ofList (c :: rest)))
      else
        match (Flag.spellings flags).lookup (String.ofList ['-', c]) with
        | none =>
            .ok
              { complete := [(f, [])]
                leftOver := some (String.ofList ('-' :: c :: rest)) }
        | some g =>
          match rest with
          | [] => .ok { complete := [(f, [])], pending := some g }
          | '=' :: value => (clusterOf flags g true true value).map (·.after f)
          | rest => (clusterOf flags g true false rest).map (·.after f)

/-- The flags of an argument. -/
def clusterOfWord (flags : List Flag) (f : Flag) (isShort : Bool) :
    Attached → Except Refusal Cluster
  | .nothing => .ok { pending := some f }
  | .directly text => clusterOf flags f isShort false text.toList
  | .afterEquals text => clusterOf flags f isShort true text.toList

end Relay.Command
