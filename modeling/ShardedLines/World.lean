import ShardedLines.Disk.Basic

/-!
What channels and writers act on beside their own state: the disk, and the log of events.
-/

namespace ShardedLines

inductive EventLevel where
  | trace
  | debug
  | warn
  deriving DecidableEq, Repr

/-- Something that a writer or a channel reports about its own work. -/
inductive Event where
  | textWriterOpened (destination : String)
  | shardingWriterOpened (destination : String) (shards : Nat)
  | openingShard (path : String) (shard : Nat)
  | textWriterClosed (records bytes : Nat) (succeeded : Bool)
  | shardingWriterClosed (shards records bytes : Nat) (succeeded : Bool)
  | shardCloseFailed (path : String) (fault : Fault)
  /-- The channel failed to close after the last lines had failed already. -/
  | closeFailedToo (fault : Fault)
  deriving DecidableEq, Repr

namespace Event

def level : Event → EventLevel
  | openingShard .. => .trace
  | closeFailedToo _ => .warn
  | _ => .debug

def message : Event → String
  | textWriterOpened _ => "text writer opened"
  | shardingWriterOpened .. => "sharding text writer opened"
  | openingShard .. => "opening shard"
  | textWriterClosed .. => "text writer closed"
  | shardingWriterClosed .. => "sharding text writer closed"
  | shardCloseFailed .. => "shard close failed"
  | closeFailedToo _ => "channel close failed after footer write failure"

/-- The named details of an event. -/
def fields : Event → List (String × String)
  | textWriterOpened destination => [("destination", destination)]
  | shardingWriterOpened destination shards =>
    [("destination", destination), ("num_shards", toString shards)]
  | openingShard path shard => [("path", path), ("shard", toString shard)]
  | textWriterClosed records bytes succeeded =>
    [("records", toString records), ("bytes", toString bytes), ("ok", toString succeeded)]
  | shardingWriterClosed shards records bytes succeeded =>
    [("shards", toString shards), ("records", toString records), ("bytes", toString bytes),
      ("ok", toString succeeded)]
  | shardCloseFailed path fault => [("path", path), ("error", fault.display)]
  | closeFailedToo fault => [("error", fault.display)]

end Event

structure World where
  disk : Disk
  /-- The events so far, the oldest first. -/
  log : List Event := []
  deriving Repr

namespace World

def record (world : World) (event : Event) : World :=
  { world with log := world.log ++ [event] }

/-- Runs an operation on the disk. -/
def onDisk {α : Type} (world : World) (operation : Disk → Outcome Disk α) : Outcome World α :=
  let (answer, disk) := operation world.disk
  (answer, { world with disk := disk })

end World

end ShardedLines
