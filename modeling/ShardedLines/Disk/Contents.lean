import ShardedLines.Disk.Resolve

/-!
The bytes of files.
-/

namespace ShardedLines.Disk

/-- Lays bytes over contents from an offset on; a gap before the offset is filled with zeros. -/
def overlay (contents : Bytes) (offset : Nat) (bytes : Bytes) : Bytes :=
  contents.rightpad offset 0 |>.take offset |> (· ++ bytes ++ contents.drop (offset + bytes.length))

/-- Writes bytes into a file at an offset. -/
def writeAt (disk : Disk) (location : Location) (offset : Nat) (bytes : Bytes) :
    Outcome Disk Unit :=
  match disk.find? location with
  | some (.file contents) =>
    (.ok (), disk.put location (.file (overlay contents offset bytes)))
  | some .fullDevice => (.error (.system .storageFull), disk)
  | _ => (.error (.system .notFound), disk)

/-- Waits until a file is safely stored, which has no meaning for a device. -/
def sync (disk : Disk) (location : Location) : Except Fault Unit :=
  match disk.find? location with
  | some (.file _) => .ok ()
  | some .fullDevice => .error (.system .invalidInput)
  | _ => .error (.system .notFound)

/-- All bytes of a file. A device has no end to read to. -/
def contentsOf (disk : Disk) (path : String) : Except Fault Bytes :=
  match disk.locate path with
  | .error fault => .error fault
  | .ok location =>
    match disk.find? location with
    | some (.file contents) => .ok contents
    | some .directory => .error (.system .isADirectory)
    | _ => .error (.system .other)

end ShardedLines.Disk
