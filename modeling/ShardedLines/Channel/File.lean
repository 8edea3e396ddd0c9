import ShardedLines.Channel.ShardSet
import ShardedLines.Disk.Contents
import ShardedLines.Disk.Create
import ShardedLines.Naming.Template

/-!
Files as channels, and the factory that opens them.

A file channel gathers bytes in a buffer and writes the buffer out when it would overflow, and when
the channel is closed or dropped. Every channel has its own place in the file it writes to, also
where several channels have opened one file.
-/

namespace ShardedLines

/-- A file that is being written. -/
structure FileHandle where
  location : Location
  /-- Where the next bytes go. -/
  offset : Nat := 0
  /-- Bytes that are not written out yet. -/
  pending : Bytes := []
  deriving DecidableEq, Repr

structure FileChannel where
  path : String
  /-- The open file; none once the channel is closed. -/
  handle? : Option FileHandle
  deriving DecidableEq, Repr

namespace FileHandle

/-- How many bytes a buffer holds. -/
def capacity : Nat := 8192

/-- Writes bytes at the handle's place in the file. -/
def writeOut (bytes : Bytes) (handle : FileHandle) (disk : Disk) :
    Outcome (FileHandle × Disk) Unit :=
  match disk.writeAt handle.location handle.offset bytes with
  | (.ok (), disk) => (.ok (), { handle with offset := handle.offset + bytes.length }, disk)
  | (.error fault, disk) => (.error fault, handle, disk)

/-- Writes out the buffer. What could not be written stays in it. -/
def flush (handle : FileHandle) (disk : Disk) : Outcome (FileHandle × Disk) Unit :=
  if handle.pending.isEmpty then (.ok (), handle, disk)
  else match handle.writeOut handle.pending disk with
    | (.ok (), handle, disk) => (.ok (), { handle with pending := [] }, disk)
    | failed => failed

/-- Adds bytes to the buffer, or writes them past it if they would fill it. -/
def add (bytes : Bytes) (handle : FileHandle) (disk : Disk) : Outcome (FileHandle × Disk) Nat :=
  if bytes.length < capacity then
    (.ok bytes.length, { handle with pending := handle.pending ++ bytes }, disk)
  else match handle.writeOut bytes disk with
    | (.ok (), handle, disk) => (.ok bytes.length, handle, disk)
    | (.error fault, handle, disk) => (.error fault, handle, disk)

/-- Takes bytes, after making room for them. -/
def write (bytes : Bytes) (handle : FileHandle) (disk : Disk) :
    Outcome (FileHandle × Disk) Nat :=
  if handle.pending.length + bytes.length ≤ capacity then handle.add bytes disk
  else match handle.flush disk with
    | (.ok (), handle, disk) => handle.add bytes disk
    | (.error fault, handle, disk) => (.error fault, handle, disk)

/-- Writes out the buffer and waits until the file is stored. -/
def finish (handle : FileHandle) (disk : Disk) : Outcome Disk Unit :=
  match handle.flush disk with
  | (.ok (), handle, disk) => (disk.sync handle.location, disk)
  | (.error fault, _, disk) => (.error fault, disk)

end FileHandle

namespace FileChannel

/-- Creates a file, or empties it, after creating the directories above it. -/
def create (path : String) (world : World) : Outcome World FileChannel :=
  match world.onDisk fun disk => disk.createFileIn path with
  | (.ok location, world) => (.ok ⟨path, some { location := location }⟩, world)
  | (.error fault, world) => (.error fault, world)

def isOpen (channel : FileChannel) : Bool :=
  channel.handle?.isSome

def write (bytes : Bytes) (channel : FileChannel) (world : World) :
    Outcome (FileChannel × World) Nat :=
  match channel.handle? with
  | none => (.error .channelClosed, channel, world)
  | some handle =>
    let (answer, handle, disk) := handle.write bytes world.disk
    (answer, { channel with handle? := some handle }, { world with disk := disk })

def close (channel : FileChannel) (world : World) : Outcome (FileChannel × World) Unit :=
  match channel.handle? with
  | none => (.error .channelClosed, channel, world)
  | some handle =>
    let (answer, world) := world.onDisk handle.finish
    (answer, { channel with handle? := none }, world)

/-- Gives a channel up without closing it: its buffer is written out if that is possible. -/
def drop (channel : FileChannel) (world : World) : World :=
  match channel.handle? with
  | none => world
  | some handle => { world with disk := (handle.flush world.disk).2.2 }

instance : ByteChannel FileChannel where
  isOpen := isOpen
  write bytes := fun (channel, world) => channel.write bytes world
  close := fun (channel, world) => channel.close world

instance : Located FileChannel where
  path := FileChannel.path

/-- Creates files one by one, up to the first that fails. -/
def createEach : List String → World → Outcome World (List FileChannel)
  | [], world => (.ok [], world)
  | path :: rest, world =>
    match create path world with
    | (.error fault, world) => (.error fault, world)
    | (.ok channel, world) =>
      match createEach rest world with
      | (.ok channels, world) => (.ok (channel :: channels), world)
      | (.error fault, world) => (.error fault, world)

end FileChannel

/-- Gives up every file of a set. -/
def ShardSet.drop (set : ShardSet FileChannel) (world : World) : World :=
  set.shards.foldl (fun world channel => channel.drop world) world

/-! ## The factory of local files -/

namespace LocalFiles

/-- Opens the files of some shards in order, up to the first that fails or whose name cannot be
formatted, which is a panic. -/
def openEach (path? : Nat → Option String) :
    List Nat → World → Option (Except Fault (List FileChannel)) × World
  | [], world => (some (.ok []), world)
  | shard :: rest, world =>
    match path? shard with
    | none => (none, world)
    | some path =>
      match FileChannel.create path (world.record (.openingShard path shard)) with
      | (.error fault, world) => (some (.error fault), world)
      | (.ok channel, world) =>
        match openEach path? rest world with
        | (some (.ok channels), world) => (some (.ok (channel :: channels)), world)
        | (some (.error fault), world) => (some (.error fault), world)
        | (none, world) => (none, world)

/-- Opens one file for each shard; at least one shard is needed. -/
def openShards (template destination : String) (shards : Nat) (world : World) :
    Option (Except Fault (ShardSet FileChannel)) × World :=
  if shards == 0 then (some (.error .noShards), world)
  else
    let path? (shard : Nat) := Naming.shardFile? destination template shard shards
    let (answer?, world) := openEach path? (List.range shards) world
    (answer?.map (·.map fun channels => { shards := channels }), world)

/-- Local files: a destination is a path, or the stem of the paths that a template names. -/
def factory (template : String) : ChannelFactory FileChannel (ShardSet FileChannel) where
  openStream := FileChannel.create
  openShards := openShards template

end LocalFiles

end ShardedLines
