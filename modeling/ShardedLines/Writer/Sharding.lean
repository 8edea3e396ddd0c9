import ShardedLines.Writer.Framing
import ShardedLines.Writer.Router

/-!
A writer of records to numbered shards.

Header and footer go to the single stream of the channel, which for a set of files means every
file; a record goes to the shard that is asked for, or that the router chooses.
-/

namespace ShardedLines

structure ShardingWriter (α : Type) where
  coder : Coder α
  framing : Framing
  router : Router

namespace ShardingWriter

variable {α κ : Type} [ShardingChannel κ]

/-- The records written so far. -/
def records (writer : ShardingWriter α) : Nat := writer.framing.records

/-- The bytes written so far, header and footer included once for each copy. -/
def bytes (writer : ShardingWriter α) : Nat := writer.framing.bytes

/-- Writes a record as one line of a shard, after the header if that is due. A shard out of range
is refused before anything else happens. -/
def addToShard (writer : ShardingWriter α) (shard : Nat) (record : α) (state : κ × World) :
    Except Fault Nat × ShardingWriter α × κ × World :=
  let shards := ShardingChannel.shards state.1
  if shards ≤ shard then (.error (.shardOutOfRange shard shards), writer, state)
  else match writer.framing.ensureHeader state with
    | (.error fault, framing, state) => (.error fault, { writer with framing }, state)
    | (.ok (), framing, state) =>
      match framing.recordLine writer.coder record with
      | .error fault => (.error fault, { writer with framing }, state)
      | .ok line =>
        match ShardingChannel.writeAllToShard shard line state with
        | (.error fault, state) => (.error fault, { writer with framing }, state)
        | (.ok (), state) =>
          (.ok line.length, { writer with framing := framing.recordWritten line.length }, state)

/-- Writes a record to the shard that the router chooses; the router is not asked where there is no
shard. -/
def add (writer : ShardingWriter α) (record : α) (state : κ × World) :
    Except Fault Nat × ShardingWriter α × κ × World :=
  let shards := ShardingChannel.shards state.1
  if shards == 0 then (.error (.shardOutOfRange 0 0), writer, state)
  else
    let (shard, router) := writer.router.pick shards
    { writer with router }.addToShard shard record state

/-- Writes what is missing at the end and closes the channel, which is closed in any case. -/
def close (writer : ShardingWriter α) (state : κ × World) :
    Except Fault Unit × ShardingWriter α × κ × World :=
  match writer.framing.finish state with
  | (framed, framing, state) =>
    match ByteChannel.close state with
    | (closed, channel, world) =>
      let succeeded := framed.isOk && closed.isOk
      let world := world.record (.shardingWriterClosed (ShardingChannel.shards channel)
        framing.records framing.bytes succeeded)
      let (answer, world) := settleClose framed closed world
      (answer, { writer with framing }, channel, world)

end ShardingWriter

end ShardedLines
