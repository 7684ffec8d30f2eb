/-!
**Log records.**

A run reports what it does as records with a level, the name of the part that speaks and a
message, shown as `LEVEL name: message`. Records below the chosen level are dropped: warnings
and errors by default, also information with one `-v`, everything with two.
-/

namespace Flowgraph.Cli

/-- The level of a log record. -/
inductive Level where
  | debug
  | info
  | warning
  | error
  deriving Repr, DecidableEq

/-- The rank of a level; higher is more severe. -/
def Level.rank : Level → Nat
  | .debug => 0
  | .info => 1
  | .warning => 2
  | .error => 3

/-- The name of a level. -/
def Level.name : Level → String
  | .debug => "DEBUG"
  | .info => "INFO"
  | .warning => "WARNING"
  | .error => "ERROR"

/-- The least level shown for a number of `-v` flags. -/
def Level.ofVerbosity : Nat → Level
  | 0 => .warning
  | 1 => .info
  | _ => .debug

/-- One log record. -/
structure Record where
  level : Level
  /-- The name of the part that speaks, as the log line shows it. -/
  source : String
  message : String
  deriving Repr, DecidableEq

/-- The text of a record. -/
def Record.text (r : Record) : String := r.level.name ++ " " ++ r.source ++ ": " ++ r.message

/-- Whether a record is shown at a least level. -/
def Record.shownAt (r : Record) (least : Level) : Bool := least.rank ≤ r.level.rank

end Flowgraph.Cli
