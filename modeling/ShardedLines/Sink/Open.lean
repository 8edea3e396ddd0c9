import ShardedLines.Sink.Basic
import ShardedLines.Window
import ShardedLines.Writer.Sharding
import ShardedLines.Writer.Text

/-!
Opening writers from a sink.

A writer is opened with its channel, which it owns. A `SinkWriter` is of the kind that the sink
asks for, and takes windowed values, of which it writes the value alone.
-/

namespace ShardedLines

/-- A writer with its channel. -/
inductive SinkWriter (α κ τ : Type) where
  | text (writer : TextWriter α) (channel : κ)
  | sharding (writer : ShardingWriter α) (channel : τ)

namespace SinkWriter

variable {α κ τ : Type}

def records : SinkWriter α κ τ → Nat
  | text writer _ => writer.records
  | sharding writer _ => writer.records

def bytes : SinkWriter α κ τ → Nat
  | text writer _ => writer.bytes
  | sharding writer _ => writer.bytes

variable [ByteChannel κ] [ShardingChannel τ]

def add (windowed : WindowedValue α) (world : World) :
    SinkWriter α κ τ → Except Fault Nat × SinkWriter α κ τ × World
  | text writer channel =>
    let (answer, writer, channel, world) := writer.add windowed.value (channel, world)
    (answer, text writer channel, world)
  | sharding writer channel =>
    let (answer, writer, channel, world) := writer.add windowed.value (channel, world)
    (answer, sharding writer channel, world)

def close (world : World) :
    SinkWriter α κ τ → Except Fault Unit × SinkWriter α κ τ × World
  | text writer channel =>
    let (answer, writer, channel, world) := writer.close (channel, world)
    (answer, text writer channel, world)
  | sharding writer channel =>
    let (answer, writer, channel, world) := writer.close (channel, world)
    (answer, sharding writer channel, world)

end SinkWriter

/-- Why a sink cannot be opened: what was tried, and the factory's fault. -/
structure OpenFault where
  destination : String
  /-- The number of shards that were asked for, if any were. -/
  shards? : Option Nat
  cause : Fault
  deriving DecidableEq, Repr

/-- What was tried. -/
def OpenFault.message (fault : OpenFault) : String :=
  match fault.shards? with
  | none => s!"open {fault.destination}"
  | some shards => s!"open {fault.destination} ({shards} shards)"

namespace TextSink

variable {α κ τ : Type}

/-- The framing of a new writer of the sink. -/
def framing (sink : TextSink α κ τ) : Framing :=
  .new sink.header? sink.footer? sink.trailingNewlines

/-- A writer to a single stream. -/
def textWriter (sink : TextSink α κ τ) : TextWriter α where
  coder := sink.coder
  framing := sink.framing

/-- A writer to shards. -/
def shardingWriter (router : Router) (sink : TextSink α κ τ) : ShardingWriter α where
  coder := sink.coder
  framing := sink.framing
  router := router

/-- Opens a single stream. -/
def openStream (sink : TextSink α κ τ) (world : World) : Outcome World (FileChannel ⊕ κ) :=
  match sink.factory? with
  | some factory =>
    let (answer, world) := factory.openStream sink.destination world
    (answer.map .inr, world)
  | none =>
    let (answer, world) := (LocalFiles.factory sink.shardTemplate).openStream sink.destination world
    (answer.map .inl, world)

/-- Opens so many shards. -/
def openShards (shards : Nat) (sink : TextSink α κ τ) (world : World) :
    Option (Except Fault (ShardSet FileChannel ⊕ τ)) × World :=
  match sink.factory? with
  | some factory =>
    let (answer?, world) := factory.openShards sink.destination shards world
    (answer?.map (·.map .inr), world)
  | none =>
    let (answer?, world) :=
      (LocalFiles.factory sink.shardTemplate).openShards sink.destination shards world
    (answer?.map (·.map .inl), world)

/-- Opens a writer to a single stream, also where the sink is sharded. -/
def openTextWriter (sink : TextSink α κ τ) (world : World) :
    Except OpenFault (TextWriter α × (FileChannel ⊕ κ)) × World :=
  match sink.openStream world with
  | (.error cause, world) => (.error ⟨sink.destination, none, cause⟩, world)
  | (.ok channel, world) =>
    (.ok (sink.textWriter, channel), world.record (.textWriterOpened sink.destination))

/-- Opens a writer to shards, also where the sink is not sharded. A panic of the factory goes
through. -/
def openShardingWriter (router : Router) (processors : Nat) (sink : TextSink α κ τ)
    (world : World) :
    Option (Except OpenFault (ShardingWriter α × (ShardSet FileChannel ⊕ τ))) × World :=
  let shards := sink.resolvedShards processors
  match sink.openShards shards world with
  | (none, world) => (none, world)
  | (some (.error cause), world) =>
    (some (.error ⟨sink.destination, some shards, cause⟩), world)
  | (some (.ok channel), world) =>
    (some (.ok (sink.shardingWriter router, channel)),
      world.record (.shardingWriterOpened sink.destination shards))

/-- Opens the kind of writer that the sink asks for. -/
def openWriter (processors : Nat) (sink : TextSink α κ τ) (world : World) :
    Option (Except OpenFault (SinkWriter α (FileChannel ⊕ κ) (ShardSet FileChannel ⊕ τ))) × World :=
  if sink.sharded then
    let (answer?, world) := sink.openShardingWriter .fromFirst processors world
    (answer?.map (·.map fun (writer, channel) => .sharding writer channel), world)
  else
    let (answer, world) := sink.openTextWriter world
    (some (answer.map fun (writer, channel) => .text writer channel), world)

end TextSink

end ShardedLines
