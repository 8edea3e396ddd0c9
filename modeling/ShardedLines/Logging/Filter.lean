import ShardedLines.Logging.Options
import ShardedLines.Text.Alphanumeric

/-!
Putting logging options to use: the filter of a subscriber, and its installation.
-/

namespace ShardedLines

/-- Why logging cannot be set up. -/
inductive LoggingFault where
  /-- The directives are not a filter. -/
  | invalidFilter (directives : String)
  /-- Another subscriber is installed for the whole process. -/
  | alreadyInstalled
  deriving DecidableEq, Repr

def LoggingFault.message : LoggingFault → String
  | invalidFilter directives => s!"invalid log filter '{directives}'"
  | alreadyInstalled =>
    "install log subscriber: a global default trace dispatcher has already been set"

/-- The characters with which the name of a filter's target may start. -/
def mayStartTarget (c : Char) : Bool :=
  isAlphanumeric c || c == '-' || c == '_' || c == ':'

namespace LoggingOptions

/-- Whether the directives of the options are a filter. -/
def hasFilter (options : LoggingOptions) : Bool :=
  options.effectiveOverrides.all fun override =>
    (override.name.toList.head?.map mayStartTarget).getD false

/-- Builds the filter of a subscriber. -/
def filter (options : LoggingOptions) : Except LoggingFault Unit :=
  if options.hasFilter then .ok () else .error (.invalidFilter options.directives)

/-- Installs a subscriber in a process that has one already or not. -/
def install (options : LoggingOptions) (installed : Bool) : Except LoggingFault Unit :=
  match options.filter with
  | .error fault => .error fault
  | .ok () => if installed then .error .alreadyInstalled else .ok ()

end LoggingOptions

end ShardedLines
