import ShardedLines.Json.Reader.Typed
import ShardedLines.Logging.Override

/-!
The logging of a worker: a level for every target, and overrides for some.

Where several overrides have one name, the last one counts, at the place of the first.
-/

namespace ShardedLines

structure LoggingOptions where
  defaultLevel : Level := .info
  /-- The overrides as they were given. -/
  overrides : List LevelOverride := []
  deriving DecidableEq

namespace LoggingOptions

/-- Options without overrides. -/
def new (level : Level) : LoggingOptions where
  defaultLevel := level

/-- Adds an override that a text writes. -/
def withOverride (options : LoggingOptions) (text : String) :
    Except OverrideFault LoggingOptions :=
  match LevelOverride.parse text with
  | .error fault => .error fault
  | .ok override => .ok { options with overrides := options.overrides ++ [override] }

/-- Puts an override in the place of the one with its name, or at the end. -/
def settle (override : LevelOverride) : List LevelOverride → List LevelOverride
  | [] => [override]
  | earlier :: rest =>
    if earlier.name == override.name then override :: rest
    else earlier :: settle override rest

/-- One override for each name, in order of first appearance, with the last level given. -/
def effectiveOverrides (options : LoggingOptions) : List LevelOverride :=
  options.overrides.foldl (fun settled override => settle override settled) []

/-- The override as a part of a filter. -/
def overrideDirective (override : LevelOverride) : String :=
  override.name ++ "=" ++ override.level.directive

/-- The filter that the options stand for: the default level, then `name=level` for each effective
override, with commas between them. -/
def directives (options : LoggingOptions) : String :=
  String.intercalate ","
    (options.defaultLevel.directive :: options.effectiveOverrides.map overrideDirective)

def jsonText (options : LoggingOptions) : List Char :=
  Json.objectText [
    ("default_level", Json.quoted options.defaultLevel.name),
    ("overrides", Json.arrayText
      (options.overrides.map fun override => Json.quoted override.text))]

end LoggingOptions

/-! ## Reading -/

namespace Reader

def level : Reader Level :=
  variant
    (fun name => match Level.ofName? name with
      | some level => pure level
      | none => throw (.rejected none))
    (fun name => match Level.ofName? name with
      | some level => do colon; null; pure level
      | none => throw (.rejected none))

def override : Reader LevelOverride := do
  match LevelOverride.parse (← string) with
  | .ok override => pure override
  | .error fault => throw (.rejected (some fault.message))

/-- The logging options, as far as they have been read. -/
structure LoggingDraft where
  defaultLevel? : Option Level := none
  overrides? : Option (List LevelOverride) := none

def LoggingDraft.options (draft : LoggingDraft) : LoggingOptions where
  defaultLevel := draft.defaultLevel?.getD .info
  overrides := draft.overrides?.getD []

def loggingMember (draft : LoggingDraft) : String → Reader LoggingDraft
  | "default_level" => do
    let defaultLevel? ← field draft.defaultLevel? level
    pure { draft with defaultLevel? }
  | "overrides" => do
    let overrides? ← field draft.overrides? (list override)
    pure { draft with overrides? }
  | _ => do skipMember; pure draft

def loggingOptions : Reader LoggingOptions :=
  record
    (do
      let defaultLevel? ← item? true level
      let overrides? ← if defaultLevel?.isSome then item? false (list override) else pure none
      pure (LoggingDraft.options { defaultLevel?, overrides? }))
    (do
      let draft ← members quotedString loggingMember {}
      pure draft.options)

end Reader

/-- The logging options that a JSON text writes. -/
def LoggingOptions.ofJson (text : String) : Except ReadFault LoggingOptions :=
  Reader.loggingOptions.run text

end ShardedLines
