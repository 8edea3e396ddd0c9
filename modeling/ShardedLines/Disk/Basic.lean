import ShardedLines.Bytes
import ShardedLines.Fault

/-!
A file system of directories, regular files and one kind of device.

A `Disk` maps locations, lists of names from the top, to nodes. Files are never removed or renamed,
so a location stands for the file itself, and several open files may share it.
-/

namespace ShardedLines

/-- What stands at a location. -/
inductive Node where
  | directory
  | file (contents : Bytes)
  /-- A device without room: it can be opened, but takes no byte. -/
  | fullDevice
  deriving DecidableEq, Repr

/-- The names from the top of the file system down to a place. -/
abbrev Location := List String

structure Disk where
  entries : List (Location × Node)
  /-- The working directory, where relative paths start. -/
  here : Location
  deriving Repr

/-- What an operation answers, and the state that it leaves behind, failed or not. -/
abbrev Outcome (σ α : Type) := Except Fault α × σ

namespace Disk

/-- An empty working directory, beside the device without room. -/
def fresh : Disk where
  entries := [(["dev"], .directory), (["dev", "full"], .fullDevice), (["work"], .directory)]
  here := ["work"]

/-! ## Nodes -/

def find? (disk : Disk) (location : Location) : Option Node :=
  if location.isEmpty then some .directory else disk.entries.lookup location

/-- Replaces the node at a location, or adds it at the end. -/
def putEntry (location : Location) (node : Node) :
    List (Location × Node) → List (Location × Node)
  | [] => [(location, node)]
  | entry :: rest =>
    if entry.1 == location then (location, node) :: rest
    else entry :: putEntry location node rest

def put (disk : Disk) (location : Location) (node : Node) : Disk :=
  { disk with entries := putEntry location node disk.entries }

theorem lookup_putEntry (location other : Location) (node : Node)
    (entries : List (Location × Node)) :
    (putEntry location node entries).lookup other =
      if other = location then some node else entries.lookup other := by
  induction entries with
  | nil =>
    by_cases h : other = location
    · simp [putEntry, h]
    · simp [putEntry, List.lookup_cons, h, beq_false_of_ne h]
  | cons entry rest ih =>
    obtain ⟨place, old⟩ := entry
    by_cases hp : place = location
    · subst hp
      by_cases h : other = place
      · simp [putEntry, h]
      · simp [putEntry, List.lookup_cons, h, beq_false_of_ne h]
    · by_cases h : other = place
      · subst h
        simp [putEntry, hp]
      · simp [putEntry, List.lookup_cons, hp, beq_false_of_ne h, ih]

/-- A node that is put somewhere is found there, and all others stay. The top stays a directory. -/
theorem find?_put (disk : Disk) {location : Location} (node : Node) (other : Location)
    (h : location ≠ []) :
    (disk.put location node).find? other =
      if other = location then some node else disk.find? other := by
  simp only [find?, put, lookup_putEntry]
  by_cases ho : other = []
  · subst ho
    simp [Ne.symm h]
  · simp [ho]

theorem find?_put_self (disk : Disk) (node : Node) {location : Location} (h : location ≠ []) :
    (disk.put location node).find? location = some node := by
  rw [find?_put disk node location h, if_pos rfl]

def isDirectoryAt (disk : Disk) (location : Location) : Bool :=
  disk.find? location == some .directory

/-- The names in a directory. -/
def children (disk : Disk) (location : Location) : List String :=
  disk.entries.filterMap fun entry =>
    if entry.1.dropLast == location then entry.1.getLast? else none

/-- The files below the working directory with their bytes, and its empty directories, without
bytes and with a slash after their path. -/
def listing (disk : Disk) : List (String × Option Bytes) :=
  disk.entries.filterMap fun (location, node) =>
    if location.take disk.here.length != disk.here || location == disk.here then none
    else
      let path := String.intercalate "/" (location.drop disk.here.length)
      match node with
      | .file contents => some (path, some contents)
      | .directory => if (disk.children location).isEmpty then some (path ++ "/", none) else none
      | .fullDevice => none

end Disk

end ShardedLines
