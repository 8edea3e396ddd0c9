import ShardedLines.Channel.Basic

/-!
Channels whose writes answer what a script lays down.

Each write takes the next line of the script; once the script is used up, a write takes everything.
A line may claim to take more than was offered, and then all of the offer is kept. The channel
notes every offer it got, and never checks whether it is open.
-/

namespace ShardedLines

/-- How one write ends. -/
inductive ScriptLine where
  /-- The write answers with this number of bytes. -/
  | take (count : Nat)
  | fail (fault : Fault)
  deriving DecidableEq, Repr

/-- An offer of bytes, to a shard or to the single stream. -/
structure Offer where
  shard? : Option Nat
  bytes : Bytes
  deriving DecidableEq, Repr

structure ScriptedChannel where
  isOpen : Bool := true
  stream : Bytes := []
  shards : List Bytes
  width : Nat := 1
  script : List ScriptLine := []
  closeFault : Option Fault := none
  /-- The offers so far, the oldest first. -/
  offers : List Offer := []
  deriving DecidableEq, Repr

namespace ScriptedChannel

/-- Takes the next line of the script for an offer of so many bytes. -/
def nextLine (offered : Nat) : List ScriptLine → ScriptLine × List ScriptLine
  | [] => (.take offered, [])
  | line :: rest => (line, rest)

/-- Adds bytes to a shard or to the single stream. -/
def keep (shard? : Option Nat) (bytes : Bytes) (channel : ScriptedChannel) : ScriptedChannel :=
  match shard? with
  | none => { channel with stream := channel.stream ++ bytes }
  | some shard => { channel with shards := channel.shards.modify shard (· ++ bytes) }

/-- Answers an offer as the script has it. -/
def offer (shard? : Option Nat) (buffer : Bytes) (channel : ScriptedChannel) :
    Outcome ScriptedChannel Nat :=
  let (line, rest) := nextLine buffer.length channel.script
  let noted := { channel with
    script := rest, offers := channel.offers ++ [⟨shard?, buffer⟩] }
  match line with
  | .take count => (.ok count, noted.keep shard? (buffer.take count))
  | .fail fault => (.error fault, noted)

def close (channel : ScriptedChannel) : Outcome ScriptedChannel Unit :=
  let answer : Except Fault Unit := match channel.closeFault with
    | some fault => .error fault
    | none => .ok ()
  (answer, { channel with isOpen := false })

instance : ShardingChannel ScriptedChannel where
  isOpen := isOpen
  width := width
  patience _ := fun (channel, _) => channel.script.length
  write buffer := fun (channel, world) =>
    let (answer, channel) := channel.offer none buffer
    (answer, channel, world)
  close := fun (channel, world) =>
    let (answer, channel) := channel.close
    (answer, channel, world)
  shards channel := channel.shards.length
  writeToShard shard buffer := fun (channel, world) =>
    let (answer, channel) := channel.offer (some shard) buffer
    (answer, channel, world)
  shardPatience _ _ := fun (channel, _) => channel.script.length

/-- Writes a buffer fully against a script, and answers with the offers made on the way. -/
def writeFully (script : List ScriptLine) (buffer : Bytes) :
    Except Fault Unit × List Offer :=
  let (answer, channel) := ShardedLines.writeFully (offer none)
    (fun _ channel => channel.script.length) buffer
    ({ shards := [], script := script } : ScriptedChannel)
  (answer, channel.offers)

end ScriptedChannel

end ShardedLines
