/-!
# The log

What an analysis tells about its work, in order.  An entry has a level, the
part of the analysis that speaks, and a text.
-/

namespace Relay

/-- How much an entry matters. -/
inductive Level where
  | debug | info | warning
deriving DecidableEq

/-- The name of a level. -/
def Level.name : Level → String
  | debug => "DEBUG"
  | info => "INFO"
  | warning => "WARNING"

/-- The rank of a level: what matters more has a greater one. -/
def Level.rank : Level → Nat
  | debug => 10
  | info => 20
  | warning => 30

/-- The part of the analysis that speaks. -/
inductive Speaker where
  | resolver | modules | flow | command
deriving DecidableEq

/-- The name of a speaker. -/
def Speaker.name : Speaker → String
  | resolver => "mwflow.path_resolver"
  | modules => "mwflow.module_analyzer"
  | flow => "mwflow.flow_analyzer"
  | command => "mwflow.cli"

/-- An entry of the log. -/
structure LogEntry where
  level : Level
  speaker : Speaker
  text : String
deriving DecidableEq

/-- The line of an entry. -/
def LogEntry.line (e : LogEntry) : String :=
  s!"{e.level.name} {e.speaker.name}: {e.text}"

/-- The entries of a level or above. -/
def entriesFrom (level : Level) (log : List LogEntry) : List LogEntry :=
  log.filter fun e => level.rank ≤ e.level.rank

end Relay
