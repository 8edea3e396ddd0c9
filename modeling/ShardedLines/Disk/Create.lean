import ShardedLines.Disk.Resolve

/-!
Creating directories and files.

Only the last step of a path may be missing, unless the directories above it are to be created too.
-/

namespace ShardedLines.Disk

/-- Creates one directory, whose parent must exist. -/
def makeDirectory (disk : Disk) (path : String) : Outcome Disk Unit :=
  match refusal? path with
  | some fault => (.error fault, disk)
  | none =>
    match disk.walk disk.here (Path.components path).dropLast with
    | .error fault => (.error fault, disk)
    | .ok parent =>
      match (Path.components path).getLast? with
      | some (.name name) =>
        match disk.entryFor parent name with
        | .error fault => (.error fault, disk)
        | .ok entry =>
          if (disk.find? entry).isSome then (.error (.system .alreadyExists), disk)
          else (.ok (), disk.put entry .directory)
      | _ =>
        if disk.isDirectoryAt parent then (.error (.system .alreadyExists), disk)
        else (.error (.system .notADirectory), disk)

/-- Turns the failure to create a directory into success where the directory is there. -/
def settleDirectory (path : String) : Outcome Disk Unit → Outcome Disk Unit
  | (.ok (), disk) => (.ok (), disk)
  | (.error fault, disk) =>
    if disk.isDirectory path then (.ok (), disk) else (.error fault, disk)

/-- Creates the first of some directories, each of which is held by the next, and the next ones
where they are missing. -/
def makeDirectoryIn (disk : Disk) : List String → Outcome Disk Unit
  | [] => (.ok (), disk)
  | path :: above =>
    match disk.makeDirectory path with
    | (.error (.system .notFound), disk) =>
      match disk.makeDirectoryIn above with
      | (.ok (), disk) => settleDirectory path (disk.makeDirectory path)
      | failed => failed
    | settled => settleDirectory path settled

/-- Creates a directory and those above it that are missing. What was created stays if a later
step fails. -/
def makeDirectories (disk : Disk) (path : String) : Outcome Disk Unit :=
  disk.makeDirectoryIn (Path.stages path).reverse

/-- Opens a file for writing: creates it, or takes away what it holds. -/
def createFile (disk : Disk) (path : String) : Outcome Disk Location :=
  match refusal? path with
  | some fault => (.error fault, disk)
  | none =>
    match (Path.components path).getLast?, Path.ending path with
    | some (.name name), .plain =>
      match disk.walk disk.here (Path.components path).dropLast with
      | .error fault => (.error fault, disk)
      | .ok parent =>
        match disk.entryFor parent name with
        | .error fault => (.error fault, disk)
        | .ok entry =>
          match disk.find? entry with
          | some .directory => (.error (.system .isADirectory), disk)
          | some .fullDevice => (.ok entry, disk)
          | some (.file _) => (.ok entry, disk.put entry (.file []))
          | none => (.ok entry, disk.put entry (.file []))
    | some (.name _), .slash =>
      match disk.walk disk.here (Path.components path).dropLast with
      | .error fault => (.error fault, disk)
      | .ok parent =>
        if disk.isDirectoryAt parent then (.error (.system .isADirectory), disk)
        else (.error (.system .notADirectory), disk)
    | _, _ =>
      match disk.locate path with
      | .error fault => (.error fault, disk)
      | .ok _ => (.error (.system .isADirectory), disk)

/-- Opens a file for writing, after creating the directories above it. -/
def createFileIn (disk : Disk) (path : String) : Outcome Disk Location :=
  match disk.makeDirectoryIn (Path.stages path).dropLast.reverse with
  | (.error fault, disk) => (.error fault, disk)
  | (.ok (), disk) => disk.createFile path

end ShardedLines.Disk
