import ShardedLines.Channel.Basic
import ShardedLines.Text.Lines

/-!
Channels that keep what they are given in memory.

A memory channel has a single stream and some shards, and can be told to fail: every write, the
close, or each write beyond a number of bytes. It serves several writers as one value that they
take turns with.
-/

namespace ShardedLines

/-- A failure that a channel was told to answer with. -/
structure InjectedFailure where
  kind : FaultKind
  message : String
  deriving DecidableEq, Repr

def InjectedFailure.fault (failure : InjectedFailure) : Fault :=
  .injected failure.kind failure.message

structure MemoryChannel where
  isOpen : Bool := true
  stream : Bytes := []
  shards : List Bytes
  writeFailure : Option InjectedFailure := none
  closeFailure : Option InjectedFailure := none
  /-- The most bytes that one write takes. -/
  writeLimit : Option Nat := none
  /-- How often the channel was asked to close. -/
  closeCalls : Nat := 0
  deriving DecidableEq, Repr

namespace MemoryChannel

/-- An open channel of so many shards. -/
def sharded (shards : Nat) : MemoryChannel where
  shards := List.replicate shards []

/-- An open channel of one shard. -/
def new : MemoryChannel := sharded 1

/-! ## Telling it to fail -/

/-- Every later write fails. -/
def failWrites (kind : FaultKind) (message : String) (channel : MemoryChannel) : MemoryChannel :=
  { channel with writeFailure := some ⟨kind, message⟩ }

/-- Writes succeed again. -/
def clearWriteFailure (channel : MemoryChannel) : MemoryChannel :=
  { channel with writeFailure := none }

/-- Closing fails, though the channel is closed by it. -/
def failClose (kind : FaultKind) (message : String) (channel : MemoryChannel) : MemoryChannel :=
  { channel with closeFailure := some ⟨kind, message⟩ }

/-- A write takes no more than so many bytes. -/
def limitWrites (most : Nat) (channel : MemoryChannel) : MemoryChannel :=
  { channel with writeLimit := some most }

/-! ## Looking at it -/

def lines (channel : MemoryChannel) : List String :=
  shownLines channel.stream

def shardLines (channel : MemoryChannel) : List (List String) :=
  channel.shards.map shownLines

/-! ## Writing and closing -/

/-- How many bytes of an offer are taken. -/
def allowance (channel : MemoryChannel) (offered : Nat) : Nat :=
  match channel.writeLimit with
  | none => offered
  | some most => min most offered

/-- What refuses every write, if anything does. -/
def refusal? (channel : MemoryChannel) : Option Fault :=
  if !channel.isOpen then some .channelClosed
  else channel.writeFailure.map InjectedFailure.fault

def write (buffer : Bytes) (channel : MemoryChannel) : Outcome MemoryChannel Nat :=
  match channel.refusal? with
  | some fault => (.error fault, channel)
  | none =>
    let taken := buffer.take (channel.allowance buffer.length)
    (.ok taken.length, { channel with stream := channel.stream ++ taken })

def writeToShard (shard : Nat) (buffer : Bytes) (channel : MemoryChannel) :
    Outcome MemoryChannel Nat :=
  match channel.refusal? with
  | some fault => (.error fault, channel)
  | none =>
    match channel.shards[shard]? with
    | none => (.error (.shardOutOfRange shard channel.shards.length), channel)
    | some contents =>
      let taken := buffer.take (channel.allowance buffer.length)
      (.ok taken.length, { channel with shards := channel.shards.set shard (contents ++ taken) })

def close (channel : MemoryChannel) : Outcome MemoryChannel Unit :=
  let answer : Except Fault Unit :=
    if !channel.isOpen then .error .channelClosed
    else match channel.closeFailure with
      | some failure => .error failure.fault
      | none => .ok ()
  (answer, { channel with isOpen := false, closeCalls := channel.closeCalls + 1 })

instance : ShardingChannel MemoryChannel where
  isOpen := isOpen
  write buffer := fun (channel, world) =>
    let (answer, channel) := channel.write buffer
    (answer, channel, world)
  close := fun (channel, world) =>
    let (answer, channel) := channel.close
    (answer, channel, world)
  shards channel := channel.shards.length
  writeToShard shard buffer := fun (channel, world) =>
    let (answer, channel) := channel.writeToShard shard buffer
    (answer, channel, world)

theorem allowance_le (channel : MemoryChannel) (offered : Nat) :
    channel.allowance offered ≤ offered := by
  unfold allowance
  split
  · exact Nat.le_refl _
  · exact Nat.min_le_right _ _

/-- A write adds to the single stream what it says it has taken, and changes nothing else. -/
theorem write_of_refusal?_eq_none {channel : MemoryChannel} (h : channel.refusal? = none)
    (buffer : Bytes) :
    channel.write buffer =
      (.ok (channel.allowance buffer.length),
        { channel with
          stream := channel.stream ++ buffer.take (channel.allowance buffer.length) }) := by
  simp [write, h, Nat.min_eq_left (channel.allowance_le buffer.length)]

/-- Opens a fresh memory channel for every destination. -/
def factory : ChannelFactory MemoryChannel MemoryChannel where
  openStream _ world := (.ok new, world)
  openShards _ shards world := (some (.ok (sharded shards)), world)

end MemoryChannel

end ShardedLines
