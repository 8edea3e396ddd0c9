/-!
Why an operation on a channel, a file or a record fails.

A `Fault` is a cause. `Fault.kind` sorts causes into the classes that callers branch on, and
`Fault.text?` is the wording of those causes that have words of their own; the system's faults
have only a kind.
-/

namespace ShardedLines

/-- The class of a fault. -/
inductive FaultKind where
  | notFound
  | permissionDenied
  | connectionReset
  | notConnected
  | brokenPipe
  | alreadyExists
  | notADirectory
  | isADirectory
  | invalidInput
  | invalidData
  | invalidFilename
  | timedOut
  | writeZero
  | storageFull
  | interrupted
  | unexpectedEof
  | other
  deriving DecidableEq, Repr

inductive Fault where
  /-- The channel was used after it was closed. -/
  | channelClosed
  /-- A write took no byte of a buffer that was not empty. -/
  | nothingAccepted
  | shardOutOfRange (shard shards : Nat)
  /-- A sharded destination was asked for with no shard. -/
  | noShards
  /-- A failure that a test put into a memory channel. -/
  | injected (kind : FaultKind) (message : String)
  /-- A failure that a channel or a factory reports in its own words. -/
  | reported (kind : FaultKind) (message : String)
  /-- A map key of a record is neither text nor a number nor a truth value. -/
  | keyNotText
  /-- A map key of a record is an infinity or not a number. -/
  | keyNotFinite
  /-- A record refused to be written, in its own words. -/
  | refused (message : String)
  /-- A failure of the file system, of which only the class is known. -/
  | system (kind : FaultKind)
  deriving DecidableEq, Repr

namespace Fault

def kind : Fault → FaultKind
  | channelClosed => .brokenPipe
  | nothingAccepted => .writeZero
  | shardOutOfRange .. => .invalidInput
  | noShards => .invalidInput
  | injected kind _ => kind
  | reported kind _ => kind
  | keyNotText => .invalidData
  | keyNotFinite => .invalidData
  | refused _ => .invalidData
  | system kind => kind

/-- The fault's own words, where it has any. -/
def text? : Fault → Option String
  | channelClosed => some "channel is closed"
  | nothingAccepted => some "channel accepted zero bytes"
  | shardOutOfRange shard shards => some s!"shard {shard} out of range for {shards} shards"
  | noShards => some "sharded destination needs at least one shard"
  | injected _ message => some message
  | reported _ message => some message
  | keyNotText => some "key must be a string"
  | keyNotFinite => some "float key must be finite (got NaN or +/-inf)"
  | refused message => some message
  | system _ => none

/-- The message that a test injected, if that is where the fault comes from. -/
def injected? : Fault → Option String
  | injected _ message => some message
  | _ => none

/-- What the system says about a failure of a class. -/
def systemText : FaultKind → String
  | .notFound => "No such file or directory (os error 2)"
  | .alreadyExists => "File exists (os error 17)"
  | .notADirectory => "Not a directory (os error 20)"
  | .isADirectory => "Is a directory (os error 21)"
  | .invalidInput => "Invalid argument (os error 22)"
  | .storageFull => "No space left on device (os error 28)"
  | .invalidFilename => "File name too long (os error 36)"
  | .invalidData => "stream did not contain valid UTF-8"
  | _ => "system failure"

/-- The words under which a fault is logged. -/
def display : Fault → String
  | system kind => systemText kind
  | fault => fault.text?.getD ""

/-- An interrupted write took nothing and may be tried again. -/
def isInterruption (fault : Fault) : Bool :=
  fault.kind == .interrupted

end Fault

end ShardedLines
