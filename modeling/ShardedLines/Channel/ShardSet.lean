import ShardedLines.Channel.Basic

/-!
Sets of channels that act as the shards of one.

What is written to the single stream of the set goes to every shard in turn, each getting all of
it before the next; the first shard that fails ends the write. Closing closes every shard, and
answers with the first failure.
-/

namespace ShardedLines

/-- A channel that has a path to be reported by. -/
class Located (κ : Type) where
  path : κ → String

structure ShardSet (κ : Type) where
  shards : List κ
  isOpen : Bool := true
  deriving Repr

namespace ShardSet

variable {κ : Type} [ByteChannel κ]

/-- Writes all of a buffer to each of some channels in turn. -/
def broadcast (buffer : Bytes) : List κ → World → Except Fault Unit × List κ × World
  | [], world => (.ok (), [], world)
  | shard :: rest, world =>
    match ByteChannel.writeAll buffer (shard, world) with
    | (.error fault, shard, world) => (.error fault, shard :: rest, world)
    | (.ok (), shard, world) =>
      let (answer, rest, world) := broadcast buffer rest world
      (answer, shard :: rest, world)

/-- Closes each of some channels, reports those that fail, and answers with the first failure. -/
def closeEach [Located κ] : List κ → World → Except Fault Unit × List κ × World
  | [], world => (.ok (), [], world)
  | shard :: rest, world =>
    match ByteChannel.close (shard, world) with
    | (.ok (), shard, world) =>
      let (answer, rest, world) := closeEach rest world
      (answer, shard :: rest, world)
    | (.error fault, shard, world) =>
      let world := world.record (.shardCloseFailed (Located.path shard) fault)
      let (_, rest, world) := closeEach rest world
      (.error fault, shard :: rest, world)

def write (buffer : Bytes) (set : ShardSet κ) (world : World) :
    Outcome (ShardSet κ × World) Nat :=
  if !set.isOpen then (.error .channelClosed, set, world)
  else match broadcast buffer set.shards world with
    | (.ok (), shards, world) => (.ok buffer.length, { set with shards := shards }, world)
    | (.error fault, shards, world) => (.error fault, { set with shards := shards }, world)

def writeToShard (shard : Nat) (buffer : Bytes) (set : ShardSet κ) (world : World) :
    Outcome (ShardSet κ × World) Nat :=
  if !set.isOpen then (.error .channelClosed, set, world)
  else match set.shards[shard]? with
    | none => (.error (.shardOutOfRange shard set.shards.length), set, world)
    | some channel =>
      let (answer, channel, world) := ByteChannel.write buffer (channel, world)
      (answer, { set with shards := set.shards.set shard channel }, world)

/-- What one shard may still answer with; a shard that is not there never interrupts. -/
def shardPatience (shard : Nat) (buffer : Bytes) (set : ShardSet κ) (world : World) : Nat :=
  match set.shards[shard]? with
  | none => 0
  | some channel => ByteChannel.patience buffer (channel, world)

def close [Located κ] (set : ShardSet κ) (world : World) : Outcome (ShardSet κ × World) Unit :=
  if !set.isOpen then (.error .channelClosed, set, world)
  else
    let (answer, shards, world) := closeEach set.shards world
    (answer, { shards := shards, isOpen := false }, world)

instance [Located κ] : ShardingChannel (ShardSet κ) where
  isOpen := isOpen
  width set := set.shards.length
  write buffer := fun (set, world) => set.write buffer world
  close := fun (set, world) => set.close world
  shards set := set.shards.length
  writeToShard shard buffer := fun (set, world) => set.writeToShard shard buffer world
  shardPatience shard buffer := fun (set, world) => set.shardPatience shard buffer world

end ShardSet

end ShardedLines
