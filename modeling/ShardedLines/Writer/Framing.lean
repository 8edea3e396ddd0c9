import ShardedLines.Channel.Basic
import ShardedLines.Coder.Basic
import ShardedLines.Text.Lines

/-!
The lines around and between records.

A header line comes before the first record, or at the end where there is no record; a footer line
comes at the end. Both go to the single stream of the channel, and count once for each copy that
the channel makes of them. Records go where the writer sends them.
-/

namespace ShardedLines

/-- The bytes after each line, unless lines are written without end. -/
def newline : Bytes := [lineFeed]

/-- What is to be written around the records, and what has been written so far. -/
structure Framing where
  header? : Option String
  footer? : Option String
  /-- The bytes after each line. -/
  terminator : Bytes
  /-- Whether the header has been tried. -/
  headerTried : Bool := false
  /-- The records written so far. -/
  records : Nat := 0
  /-- The bytes of the lines written so far. -/
  bytes : Nat := 0
  deriving DecidableEq, Repr

namespace Framing

/-- The framing of a new writer. -/
def new (header? footer? : Option String) (trailingNewlines : Bool) : Framing where
  header? := header?
  footer? := footer?
  terminator := if trailingNewlines then newline else []

/-- A header or a footer as a line. -/
def frameLine (framing : Framing) (text : String) : Bytes :=
  utf8 text ++ framing.terminator

/-- The line of a record. -/
def recordLine {α : Type} (framing : Framing) (coder : Coder α) (record : α) :
    Except Fault Bytes :=
  (coder.bytes? record).map (· ++ framing.terminator)

/-- Counts a record whose line has been written. -/
def recordWritten (framing : Framing) (length : Nat) : Framing :=
  { framing with records := framing.records + 1, bytes := framing.bytes + length }

variable {κ : Type} [ByteChannel κ]

/-- Writes a header or a footer, and counts all copies of it. -/
def writeFrameLine (text : String) (framing : Framing) (state : κ × World) :
    Except Fault Unit × Framing × κ × World :=
  let line := framing.frameLine text
  match ByteChannel.writeAll line state with
  | (.error fault, state) => (.error fault, framing, state)
  | (.ok (), state) =>
    (.ok (), { framing with bytes := framing.bytes + line.length * ByteChannel.width state.1 },
      state)

/-- Writes the header on the first call. A header that fails is not tried again. -/
def ensureHeader (framing : Framing) (state : κ × World) :
    Except Fault Unit × Framing × κ × World :=
  if framing.headerTried then (.ok (), framing, state)
  else
    let framing := { framing with headerTried := true }
    match framing.header? with
    | none => (.ok (), framing, state)
    | some header => framing.writeFrameLine header state

/-- Writes what is still missing at the end: the header, if there was no record, and the footer. -/
def finish (framing : Framing) (state : κ × World) : Except Fault Unit × Framing × κ × World :=
  match framing.ensureHeader state with
  | (.error fault, framing, state) => (.error fault, framing, state)
  | (.ok (), framing, state) =>
    match framing.footer? with
    | none => (.ok (), framing, state)
    | some footer => framing.writeFrameLine footer state

end Framing

/-- The answer of a writer that is closed: a failed line comes before a failed close of the channel,
which is then only logged. -/
def settleClose (framed closed : Except Fault Unit) (world : World) : Outcome World Unit :=
  match framed, closed with
  | .error framing, .error closing => (.error framing, world.record (.closeFailedToo closing))
  | .error framing, .ok () => (.error framing, world)
  | .ok (), closed => (closed, world)

end ShardedLines
