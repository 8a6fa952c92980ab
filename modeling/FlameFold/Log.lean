/-!
# Log records

A record has a level, the area of the program that wrote it, and a text.
-/

namespace FlameFold

namespace Log

/-- How much a record matters, most first. -/
inductive Level where
  | error
  | warn
  | info
  | debug
  | trace
  deriving DecidableEq, Repr

/-- The name of a level. -/
def Level.name : Level → String
  | .error => "ERROR"
  | .warn => "WARN"
  | .info => "INFO"
  | .debug => "DEBUG"
  | .trace => "TRACE"

/-- The place of a level in the order, the most important level first. -/
def Level.rank : Level → Nat
  | .error => 1
  | .warn => 2
  | .info => 3
  | .debug => 4
  | .trace => 5

/-- The areas of the program that write records. -/
inductive Area where
  | settings
  | folding
  | processes
  | dumping
  | rendering
  | placing
  | collapsedFiles
  | graphics
  | reports
  | conversion
  deriving DecidableEq, Repr

/-- The name under which an area is shown and can be chosen. -/
def Area.target : Area → String
  | .settings => "jfr_flamegraph::utils::settings"
  | .folding => "jfr_flamegraph::aggregator::stack_folder"
  | .processes => "jfr_flamegraph::runner::process"
  | .dumping => "jfr_flamegraph::dump::invoker"
  | .rendering => "jfr_flamegraph::flamegraph::renderer"
  | .placing => "jfr_flamegraph::output"
  | .collapsedFiles => "jfr_flamegraph::output::collapsed"
  | .graphics => "jfr_flamegraph::output::svg"
  | .reports => "jfr_flamegraph::output::report"
  | .conversion => "jfr_flamegraph::commands::convert"

/-- One record of the log. -/
structure Record where
  /-- How much it matters. -/
  level : Level
  /-- Who wrote it. -/
  area : Area
  /-- What it says. -/
  text : String
  deriving DecidableEq, Repr

end Log

end FlameFold
