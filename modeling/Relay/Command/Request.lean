import Relay.Command.Word
import Relay.Text.Whole

/-!
# What the command line asks for

The arguments are taken one after the other into a request.  Which middlewares
are analysed is said by naming them or by a file with an endpoint, and not by
both.
-/

namespace Relay.Command

open Report (Format)

/-- What the command line asks for. -/
structure Request where
  workspace : String := "."
  name : Option String := none
  middlewares : Option (List String) := none
  endpoint : Option String := none
  config : Option String := none
  maxDepth : Option Int := none
  formats : List Format := []
  expand : List String := []
  outputs : List (String × String) := []
  verbose : Bool := false
deriving DecidableEq

/-- Why the arguments are not taken any further. -/
inductive Stop where
  | help
  | refusal (r : Refusal)
deriving DecidableEq

/-- The request with a flag and its values taken in. -/
def Request.take (r : Request) : Flag → List String → Except Stop Request
  | .help, _ => .error .help
  | .verbose, _ => .ok { r with verbose := true }
  | .workspace, [v] => .ok { r with workspace := v }
  | .name, [v] => .ok { r with name := some v }
  | .middleware, [v] =>
    if r.endpoint.isSome then
      .error (.refusal (.conflict .middleware .endpoint))
    else .ok { r with middlewares := some (r.middlewares.getD [] ++ [v]) }
  | .endpoint, [v] =>
    if r.middlewares.isSome then
      .error (.refusal (.conflict .endpoint .middleware))
    else .ok { r with endpoint := some v }
  | .config, [v] => .ok { r with config := some v }
  | .maxDepth, [v] =>
    match Text.whole? v with
    | some depth => .ok { r with maxDepth := some depth }
    | none => .error (.refusal (.notWhole v))
  | .format, [v] =>
    match Format.ofName? v with
    | some format => .ok { r with formats := r.formats ++ [format] }
    | none => .error (.refusal (.unknownFormat v))
  | .expand, [v] => .ok { r with expand := r.expand ++ [v] }
  | .output, [format, path] =>
      .ok { r with outputs := r.outputs ++ [(format, path)] }
  | f, _ => .error (.refusal (.tooFewValues f))

/-- The request with several flags taken in. -/
def Request.takeAll (r : Request) :
    List (Flag × List String) → Except Stop Request
  | [] => .ok r
  | (f, values) :: rest => do takeAll (← r.take f values) rest

/-- The values at the beginning of some arguments. -/
def leadingValues : List (String × Word) → List String
  | (argument, .value) :: rest => argument :: leadingValues rest
  | _ => []

/-- A refusal ends the taking of arguments. -/
def refusing {α : Type} : Except Refusal α → Except Stop α
  | .ok a => .ok a
  | .error r => .error (.refusal r)

/-- Takes arguments into a request and gathers those without a meaning. -/
def takeWords (r : Request) (strange : List String) :
    List (String × Word) → Except Stop (Request × List String)
  | [] => .ok (r, strange)
  | (_, .flag f isShort attached) :: rest => do
    let cluster ← refusing (clusterOfWord Flag.inner f isShort attached)
    let strange := strange ++ cluster.leftOver.toList
    match cluster.pending with
    | none => takeWords (← r.takeAll cluster.complete) strange rest
    | some g =>
      let values := (leadingValues rest).take g.valueCount
      if values.length < g.valueCount then .error (.refusal (.tooFewValues g))
      else
        takeWords (← r.takeAll (cluster.complete ++ [(g, values)])) strange
          (rest.drop g.valueCount)
  | (argument, _) :: rest => takeWords r (strange ++ [argument]) rest
termination_by words => words.length
decreasing_by
  all_goals simp only [List.length_cons, List.length_drop]
  all_goals omega

/-- A request has what every request needs. -/
def Request.check (r : Request) : Except Stop Unit :=
  if r.name.isNone then .error (.refusal .noName)
  else if r.middlewares.isNone && r.endpoint.isNone then
    .error (.refusal .noSource)
  else .ok ()

/-- The request of the arguments after the command, and the arguments without a
meaning. -/
def readRequest (arguments : List String) :
    Except Stop (Request × List String) := do
  let words ← refusing (readWords Flag.inner arguments)
  let (r, strange) ← takeWords {} [] words
  r.check
  return (r, strange)

/-- What a command line stands for. -/
inductive Invocation where
  /-- Help about the program. -/
  | help
  /-- Help about the analysis. -/
  | analysisHelp
  /-- There is no command. -/
  | nothing
  /-- The command line is refused. -/
  | refused (r : Refusal)
  /-- The arguments of the analysis are refused. -/
  | analysisRefused (r : Refusal)
  /-- An analysis. -/
  | analyze (r : Request)
deriving DecidableEq

/-- An invocation with arguments that have no meaning. -/
def unlessStrange (strange : List String) (i : Invocation) : Invocation :=
  if strange.isEmpty then i else .refused (.unknownArguments strange)

/-- What a command and its arguments stand for. -/
def readCommand (strange : List String) (command : String)
    (arguments : List String) : Invocation :=
  if command = "analyze" then
    match readRequest arguments with
    | .ok (r, more) => unlessStrange (strange ++ more) (.analyze r)
    | .error .help => .analysisHelp
    | .error (.refusal r) => .analysisRefused r
  else .refused (.unknownCommand command)

/-- What the arguments of a command line stand for, before the command. -/
def readOuter (strange : List String) : List (String × Word) → Invocation
  | [] => unlessStrange strange .nothing
  | (argument, .value) :: rest => readCommand strange argument (rest.map (·.1))
  | (argument, .dashes) :: rest =>
    if rest.isEmpty then unlessStrange (strange ++ [argument]) .nothing
    else readCommand strange argument (rest.map (·.1))
  | (argument, .unknown) :: rest => readOuter (strange ++ [argument]) rest
  | (_, .flag f isShort attached) :: _ =>
    match clusterOfWord Flag.outer f isShort attached with
    | .ok _ => .help
    | .error r => .refused r

/-- What a command line stands for. -/
def readInvocation (arguments : List String) : Invocation :=
  match readWords Flag.outer arguments with
  | .ok words => readOuter [] words
  | .error r => .refused r

end Relay.Command
