import ShardedLines.Writer.Framing

/-!
A writer of records to a single stream.

The channel is not a part of the writer: every operation takes it, together with the world, and
gives both back.
-/

namespace ShardedLines

structure TextWriter (α : Type) where
  coder : Coder α
  framing : Framing

namespace TextWriter

variable {α κ : Type} [ByteChannel κ]

/-- The records written so far. -/
def records (writer : TextWriter α) : Nat := writer.framing.records

/-- The bytes written so far, header and footer included. -/
def bytes (writer : TextWriter α) : Nat := writer.framing.bytes

/-- Writes a record as one line, after the header if that is due, and answers with the length of
the record's line. -/
def add (writer : TextWriter α) (record : α) (state : κ × World) :
    Except Fault Nat × TextWriter α × κ × World :=
  match writer.framing.ensureHeader state with
  | (.error fault, framing, state) => (.error fault, { writer with framing }, state)
  | (.ok (), framing, state) =>
    match framing.recordLine writer.coder record with
    | .error fault => (.error fault, { writer with framing }, state)
    | .ok line =>
      match ByteChannel.writeAll line state with
      | (.error fault, state) => (.error fault, { writer with framing }, state)
      | (.ok (), state) =>
        (.ok line.length, { writer with framing := framing.recordWritten line.length }, state)

/-- Writes what is missing at the end and closes the channel, which is closed in any case. -/
def close (writer : TextWriter α) (state : κ × World) :
    Except Fault Unit × TextWriter α × κ × World :=
  match writer.framing.finish state with
  | (framed, framing, state) =>
    match ByteChannel.close state with
    | (closed, channel, world) =>
      let succeeded := framed.isOk && closed.isOk
      let world := world.record (.textWriterClosed framing.records framing.bytes succeeded)
      let (answer, world) := settleClose framed closed world
      (answer, { writer with framing }, channel, world)

end TextWriter

end ShardedLines
