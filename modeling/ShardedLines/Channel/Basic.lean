import ShardedLines.World

/-!
Channels: the destinations that writers push bytes into.

A `ByteChannel` is one stream of bytes, a `ShardingChannel` has numbered shards beside it. Both are
open until `close` is called, which leaves them closed whether or not it succeeds. A write may take
fewer bytes than it is offered; `writeFully` goes on until all are taken.
-/

namespace ShardedLines

/-- A destination for bytes. Operations act on the channel and the world. -/
class ByteChannel (κ : Type) where
  /-- Whether the channel still accepts writes. -/
  isOpen : κ → Bool
  /-- Writes to the single stream, and answers how many bytes were taken. -/
  write : Bytes → κ × World → Outcome (κ × World) Nat
  /-- Ends the channel's use. It is not open afterwards, even on failure. -/
  close : κ × World → Outcome (κ × World) Unit
  /-- How many copies of its bytes one write produces. -/
  width : κ → Nat := fun _ => 1
  /-- How many more interruptions in a row the channel may answer to an offer. -/
  patience : Bytes → κ × World → Nat := fun _ _ => 0

/-- A channel with numbered shards. -/
class ShardingChannel (κ : Type) extends ByteChannel κ where
  /-- The shards are numbered from zero up to this number. -/
  shards : κ → Nat
  /-- Writes to one shard, and answers how many bytes were taken. -/
  writeToShard : Nat → Bytes → κ × World → Outcome (κ × World) Nat
  /-- How many more interruptions in a row the channel may answer to an offer to a shard. -/
  shardPatience : Nat → Bytes → κ × World → Nat := fun _ _ _ => 0

/-- Writes until all bytes are taken. A short write goes on with the rest, and an interruption is
tried again for as long as `patience` falls, which bounds the interruptions in a row; a write that
takes nothing is a fault, and every other fault ends the work. -/
def writeFully {σ : Type} (write : Bytes → σ → Outcome σ Nat) (patience : Bytes → σ → Nat)
    (buffer : Bytes) (state : σ) : Outcome σ Unit :=
  match buffer with
  | [] => (.ok (), state)
  | first :: rest =>
    match write (first :: rest) state with
    | (.ok 0, next) => (.error .nothingAccepted, next)
    | (.ok (taken + 1), next) => writeFully write patience (rest.drop taken) next
    | (.error fault, next) =>
      if fault.isInterruption ∧ patience (first :: rest) next < patience (first :: rest) state then
        writeFully write patience (first :: rest) next
      else (.error fault, next)
termination_by (buffer.length, patience buffer state)
decreasing_by
  · apply Prod.Lex.left
    simp only [List.length_drop, List.length_cons]
    omega
  · rename_i h
    exact Prod.Lex.right _ h.2

@[simp] theorem writeFully_nil {σ : Type} (write : Bytes → σ → Outcome σ Nat)
    (patience : Bytes → σ → Nat) (state : σ) : writeFully write patience [] state = (.ok (), state) := by
  simp [writeFully]

namespace ByteChannel

variable {κ : Type} [ByteChannel κ]

/-- Writes all bytes to the single stream. -/
def writeAll (buffer : Bytes) (state : κ × World) : Outcome (κ × World) Unit :=
  writeFully write patience buffer state

end ByteChannel

/-- Writes all bytes to one shard. -/
def ShardingChannel.writeAllToShard {κ : Type} [ShardingChannel κ] (shard : Nat) (buffer : Bytes)
    (state : κ × World) : Outcome (κ × World) Unit :=
  writeFully (writeToShard shard) (shardPatience shard) buffer state

/-- A way to open channels for destinations. What a destination means is up to the factory. -/
structure ChannelFactory (κ τ : Type) where
  /-- Opens a single stream. -/
  openStream : String → World → Outcome World κ
  /-- Opens a channel of so many shards. Where it panics, it has no answer. -/
  openShards : String → Nat → World → Option (Except Fault τ) × World

/-- A factory that cannot open anything. -/
def ChannelFactory.failing {κ τ : Type} (fault : Fault) : ChannelFactory κ τ where
  openStream _ world := (.error fault, world)
  openShards _ _ world := (some (.error fault), world)

section Either

variable {κ τ : Type}

/-- Acts on the first of two kinds of channel. -/
def onLeft {α : Type} : Outcome (κ × World) α → Outcome ((κ ⊕ τ) × World) α
  | (answer, channel, world) => (answer, .inl channel, world)

/-- Acts on the second of two kinds of channel. -/
def onRight {α : Type} : Outcome (τ × World) α → Outcome ((κ ⊕ τ) × World) α
  | (answer, channel, world) => (answer, .inr channel, world)

instance [ByteChannel κ] [ByteChannel τ] : ByteChannel (κ ⊕ τ) where
  isOpen := Sum.elim ByteChannel.isOpen ByteChannel.isOpen
  width := Sum.elim ByteChannel.width ByteChannel.width
  patience buffer
    | (.inl channel, world) => ByteChannel.patience buffer (channel, world)
    | (.inr channel, world) => ByteChannel.patience buffer (channel, world)
  write buffer
    | (.inl channel, world) => onLeft (ByteChannel.write buffer (channel, world))
    | (.inr channel, world) => onRight (ByteChannel.write buffer (channel, world))
  close
    | (.inl channel, world) => onLeft (ByteChannel.close (channel, world))
    | (.inr channel, world) => onRight (ByteChannel.close (channel, world))

instance [ShardingChannel κ] [ShardingChannel τ] : ShardingChannel (κ ⊕ τ) where
  shards := Sum.elim ShardingChannel.shards ShardingChannel.shards
  writeToShard shard buffer
    | (.inl channel, world) => onLeft (ShardingChannel.writeToShard shard buffer (channel, world))
    | (.inr channel, world) => onRight (ShardingChannel.writeToShard shard buffer (channel, world))
  shardPatience shard buffer
    | (.inl channel, world) => ShardingChannel.shardPatience shard buffer (channel, world)
    | (.inr channel, world) => ShardingChannel.shardPatience shard buffer (channel, world)

end Either

end ShardedLines
