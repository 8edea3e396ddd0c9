import ShardedLines.Logging.Level
import ShardedLines.Text.Blank
import ShardedLines.Text.Quoted

/-!
A log level for one target and all beneath it, written `name#LEVEL`.

A name stands unquoted in filter directives, so it must not be empty or hold a character that
separates directives.
-/

namespace ShardedLines

/-- Characters that cannot stand in the name of a target. -/
def isForbiddenInName (c : Char) : Bool :=
  c == ',' || c == '=' || c == '[' || c == ']' || isBlank c

/-- A name fit for a filter directive. -/
def isTargetName (name : String) : Bool :=
  !name.isEmpty && !name.toList.any isForbiddenInName

structure LevelOverride where
  name : String
  level : Level
  name_fits : isTargetName name = true
  deriving DecidableEq

/-- Why a text is not an override. -/
inductive OverrideFault where
  | noSeparator (text : String)
  | badLevel (fault : LevelFault)
  | emptyName
  | forbidden (c : Char) (name : String)
  deriving DecidableEq, Repr

def OverrideFault.message : OverrideFault → String
  | noSeparator text => s!"Expected '#' separator but none found within '{text}'."
  | badLevel fault => fault.message
  | emptyName => "Expected log override name to be non-empty."
  | forbidden c name =>
    s!"Unsupported character {Quoted.char c} in log override name '{name}'."

namespace LevelOverride

/-- The character between name and level. -/
def separator : Char := '#'

/-- The override for a name. -/
def forName (name : String) (level : Level) : Except OverrideFault LevelOverride :=
  if h : isTargetName name = true then .ok ⟨name, level, h⟩
  else match name.toList.find? isForbiddenInName with
    | none => .error .emptyName
    | some c => .error (.forbidden c name)

/-- What stands before the first separator, and after it. -/
def splitAtSeparator? : List Char → Option (List Char × List Char)
  | [] => none
  | c :: rest =>
    if c == separator then some ([], rest)
    else (splitAtSeparator? rest).map fun (name, level) => (c :: name, level)

/-- The override that a text writes. The level is looked at before the name. -/
def parse (text : String) : Except OverrideFault LevelOverride :=
  match splitAtSeparator? text.toList with
  | none => .error (.noSeparator text)
  | some (name, level) =>
    match Level.parse (String.ofList level) with
    | .error fault => .error (.badLevel fault)
    | .ok level => forName (String.ofList name) level

def text (override : LevelOverride) : String :=
  override.name ++ separator.toString ++ override.level.name

end LevelOverride

end ShardedLines
