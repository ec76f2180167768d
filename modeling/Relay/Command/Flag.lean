import Relay.Report.View
import Relay.Text.Quoted

/-!
# The flags of the command line

A flag has names and takes a fixed number of values.  A short name is one dash
and a letter, a long name is two dashes and a word.
-/

namespace Relay.Command

open Report (Format)

/-- A flag of the command line. -/
inductive Flag where
  | help | workspace | name | middleware | endpoint | config | maxDepth | format
  | expand | output | verbose
deriving DecidableEq

namespace Flag

/-- The names of a flag. -/
def names : Flag → List String
  | help => ["-h", "--help"]
  | workspace => ["--workspace"]
  | name => ["--name"]
  | middleware => ["--middleware"]
  | endpoint => ["--endpoint"]
  | config => ["--config"]
  | maxDepth => ["--max-depth"]
  | format => ["--format"]
  | expand => ["--expand"]
  | output => ["--output"]
  | verbose => ["-v", "--verbose"]

/-- The number of values that a flag takes. -/
def valueCount : Flag → Nat
  | help => 0
  | verbose => 0
  | output => 2
  | _ => 1

/-- A flag in a message. -/
def title (f : Flag) : String :=
  Text.join "/" f.names

/-- The flags that may stand before the command. -/
def outer : List Flag := [help]

/-- The flags of the analysis. -/
def inner : List Flag :=
  [help, workspace, name, middleware, endpoint, config, maxDepth, format,
    expand, output, verbose]

/-- The names of some flags, in order. -/
def spellings (flags : List Flag) : List (String × Flag) :=
  flags.flatMap fun f => f.names.map fun n => (n, f)

end Flag

/-- Why a command line is refused. -/
inductive Refusal where
  | ambiguous (argument : String) (names : List String)
  | tooFewValues (flag : Flag)
  | needlessValue (flag : Flag) (value : String)
  | notWhole (value : String)
  | unknownFormat (value : String)
  | conflict (flag other : Flag)
  | noName
  | noSource
  | unknownCommand (value : String)
  | unknownArguments (arguments : List String)
deriving DecidableEq

/-- What is said about a flag. -/
def about (flag : Flag) (text : String) : String :=
  s!"argument {flag.title}: {text}"

/-- The text of a refusal. -/
def Refusal.message : Refusal → String
  | ambiguous argument names =>
    s!"ambiguous option: {argument} could match " ++ Text.join ", " names
  | tooFewValues flag =>
    about flag
      (if flag.valueCount = 1 then "expected one argument"
        else s!"expected {flag.valueCount} arguments")
  | needlessValue flag value =>
      about flag s!"ignored explicit argument {Text.quoted value}"
  | notWhole value => about .maxDepth s!"invalid int value: {Text.quoted value}"
  | unknownFormat value =>
    let choices := Text.join ", " (Format.all.map fun f => Text.quoted f.name)
    about .format
      s!"invalid choice: {Text.quoted value} (choose from {choices})"
  | conflict flag other =>
      about flag s!"not allowed with argument {other.title}"
  | noName => s!"the following arguments are required: {Flag.name.title}"
  | noSource =>
      s!"one of the arguments {Flag.middleware.title} {Flag.endpoint.title} is required"
  | unknownCommand value =>
    s!"argument command: invalid choice: {Text.quoted value} (choose from " ++
      Text.quoted "analyze"
      ++ ")"
  | unknownArguments arguments =>
      "unrecognized arguments: " ++ Text.join " " arguments

end Relay.Command
