/-!
The levels at which a worker logs.
-/

namespace ShardedLines

inductive Level where
  | trace
  | debug
  | info
  | warn
  | error
  deriving DecidableEq, Repr

namespace Level

/-- All levels, in the order in which they are listed to users. -/
def all : List Level := [debug, error, info, trace, warn]

/-- The name in options. -/
def name : Level → String
  | trace => "TRACE"
  | debug => "DEBUG"
  | info => "INFO"
  | warn => "WARN"
  | error => "ERROR"

/-- The name in filter directives. -/
def directive : Level → String
  | trace => "trace"
  | debug => "debug"
  | info => "info"
  | warn => "warn"
  | error => "error"

/-- The level with a name, which must be written exactly so. -/
def ofName? (name : String) : Option Level :=
  all.find? fun level => level.name == name

end Level

/-- A text that names no level. -/
structure LevelFault where
  text : String
  deriving DecidableEq, Repr

def LevelFault.message (fault : LevelFault) : String :=
  s!"Unsupported log level '{fault.text}' requested. Must be one of [" ++
    String.intercalate ", " (Level.all.map Level.name) ++ "]."

/-- The level that a text names. -/
def Level.parse (text : String) : Except LevelFault Level :=
  match ofName? text with
  | some level => .ok level
  | none => .error ⟨text⟩

end ShardedLines
