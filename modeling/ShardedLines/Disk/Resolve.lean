import ShardedLines.Disk.Basic
import ShardedLines.Disk.Path

/-!
Where paths lead on a disk.

A path is resolved step by step, from the top or from the working directory. Every step needs a
directory to start from, and a name must be there.
-/

namespace ShardedLines.Disk

/-- The longest name of a file, in bytes. -/
def longestName : Nat := 255

/-- The longest path, in bytes. -/
def longestPath : Nat := 4095

/-- What is wrong with a path before anything is looked up. -/
def refusal? (path : String) : Option Fault :=
  if path.toList.contains '\x00' then some (.system .invalidInput)
  else if path.isEmpty then some (.system .notFound)
  else if path.utf8ByteSize > longestPath then some (.system .invalidFilename)
  else none

/-- A name in a directory, which need not exist. -/
def entryFor (disk : Disk) (directory : Location) (name : String) : Except Fault Location :=
  if !disk.isDirectoryAt directory then .error (.system .notADirectory)
  else if name.utf8ByteSize > longestName then .error (.system .invalidFilename)
  else .ok (directory ++ [name])

/-- Goes one step. -/
def enter (disk : Disk) (location : Location) : Component → Except Fault Location
  | .root => .ok []
  | .here => .ok location
  | .up =>
    if disk.isDirectoryAt location then .ok location.dropLast
    else .error (.system .notADirectory)
  | .name name =>
    match disk.entryFor location name with
    | .error fault => .error fault
    | .ok entry => if (disk.find? entry).isSome then .ok entry else .error (.system .notFound)

/-- Goes step by step. -/
def walk (disk : Disk) : Location → List Component → Except Fault Location
  | location, [] => .ok location
  | location, step :: rest =>
    match disk.enter location step with
    | .error fault => .error fault
    | .ok next => disk.walk next rest

/-- The location that a path leads to. -/
def locate (disk : Disk) (path : String) : Except Fault Location :=
  match refusal? path with
  | some fault => .error fault
  | none =>
    match disk.walk disk.here (Path.components path) with
    | .error fault => .error fault
    | .ok location =>
      if Path.ending path == .plain || disk.isDirectoryAt location then .ok location
      else .error (.system .notADirectory)

def nodeAt? (disk : Disk) (path : String) : Option Node :=
  match disk.locate path with
  | .ok location => disk.find? location
  | .error _ => none

def hasPath (disk : Disk) (path : String) : Bool :=
  (disk.nodeAt? path).isSome

def isDirectory (disk : Disk) (path : String) : Bool :=
  disk.nodeAt? path == some .directory

def isFile (disk : Disk) (path : String) : Bool :=
  match disk.nodeAt? path with
  | some (.file _) => true
  | _ => false

end ShardedLines.Disk
