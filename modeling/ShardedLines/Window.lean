import ShardedLines.Json.Reader.Typed

/-!
Values with their event time and the windows that they belong to.

Writers look at the value alone; the rest rides along. Both kinds of window have a JSON form: the
global window is its name, and an interval an object with its name as the only key.
-/

namespace ShardedLines

/-- The times, in milliseconds since 1970 and as integers of 64 bits. -/
abbrev Timestamp := Int

/-- A stretch of time: all of it, or from a start up to but not including an end. -/
inductive Window where
  | global
  | interval (start stop : Timestamp)
  deriving DecidableEq, Repr

namespace Window

/-- The global window comes first; intervals are ordered by start and then by end. -/
def compare : Window → Window → Ordering
  | global, global => .eq
  | global, interval .. => .lt
  | interval .., global => .gt
  | interval start stop, interval start' stop' =>
    (Ord.compare start start').then (Ord.compare stop stop')

def jsonText : Window → List Char
  | global => Json.quoted "Global"
  | interval start stop =>
    Json.objectText [("Interval",
      Json.objectText [("start", Json.intText start), ("end", Json.intText stop)])]

end Window

/-- The earliest time, for values without an event time. -/
def Timestamp.least : Timestamp := -Int.pow 2 63

def Timestamp.most : Timestamp := Int.pow 2 63 - 1

structure WindowedValue (α : Type) where
  value : α
  time : Timestamp
  windows : List Window
  deriving DecidableEq, Repr

namespace WindowedValue

variable {α : Type}

/-- A value without an event time, in the global window. -/
def inGlobalWindow (value : α) : WindowedValue α where
  value := value
  time := Timestamp.least
  windows := [.global]

/-- The compact JSON text, for values that are already written. -/
def jsonText (valueText : α → List Char) (windowed : WindowedValue α) : List Char :=
  Json.objectText [
    ("value", valueText windowed.value),
    ("ts", Json.intText windowed.time),
    ("windows", Json.arrayText (windowed.windows.map Window.jsonText))]

end WindowedValue

/-! ## Reading -/

namespace Reader

variable {α : Type}

def timestamp : Reader Timestamp := int Timestamp.least Timestamp.most

/-- The ends of an interval, as far as they have been read. -/
structure IntervalDraft where
  start? : Option Timestamp := none
  stop? : Option Timestamp := none

def intervalMember (draft : IntervalDraft) : String → Reader IntervalDraft
  | "start" => do
    let start? ← field draft.start? timestamp
    pure { draft with start? }
  | "end" => do
    let stop? ← field draft.stop? timestamp
    pure { draft with stop? }
  | _ => do skipMember; pure draft

def interval : Reader Window :=
  record
    (do
      let start ← item true timestamp
      let stop ← item false timestamp
      pure (.interval start stop))
    (do
      let draft ← members quotedString intervalMember {}
      pure (.interval (← required draft.start?) (← required draft.stop?)))

def window : Reader Window :=
  variant
    (fun
      | "Global" => pure .global
      | _ => throw (.rejected none))
    (fun
      | "Global" => do colon; null; pure .global
      | "Interval" => do colon; interval
      | _ => throw (.rejected none))

/-- The parts of a windowed value, as far as they have been read. -/
structure WindowedDraft (α : Type) where
  value? : Option α := none
  time? : Option Timestamp := none
  windows? : Option (List Window) := none

def windowedMember (inner : Reader α) (draft : WindowedDraft α) :
    String → Reader (WindowedDraft α)
  | "value" => do
    let value? ← field draft.value? inner
    pure { draft with value? }
  | "ts" => do
    let time? ← field draft.time? timestamp
    pure { draft with time? }
  | "windows" => do
    let windows? ← field draft.windows? (list window)
    pure { draft with windows? }
  | _ => do skipMember; pure draft

def windowed (inner : Reader α) : Reader (WindowedValue α) :=
  record
    (do
      let value ← item true inner
      let time ← item false timestamp
      let windows ← item false (list window)
      pure { value, time, windows })
    (do
      let draft ← members quotedString (windowedMember inner) {}
      pure {
        value := ← required draft.value?
        time := ← required draft.time?
        windows := ← required draft.windows? })

end Reader

end ShardedLines
