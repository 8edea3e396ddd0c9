import ShardedLines.Disk.Resolve
import ShardedLines.Disk.Pattern

/-!
The paths on a disk that a pattern stands for.

A pattern is matched segment by segment, from the top or from the working directory. A segment
without star and brackets is looked up by its name; any other is compared with the names in the
directory reached so far.
-/

namespace ShardedLines.Disk

/-- The path of an entry of a directory; the working directory itself is left out of paths. -/
def entryPath (directory name : String) : String :=
  if Path.components directory == [.here] then name else Path.join directory name

/-- The paths that one segment of a pattern adds to a directory's path. A star never stands for
the whole of `.` or `..`: these are found only by a segment that starts with a point. -/
def candidates (disk : Disk) (directory : String) (segment : List PatternToken) : List String :=
  match Pattern.text? segment with
  | some text =>
    let name := String.ofList text
    let path := entryPath directory name
    let found := if name == "." || name == ".." then disk.isDirectory directory
      else disk.hasPath path
    if found then [path] else []
  | none =>
    match disk.locate directory with
    | .error _ => []
    | .ok location =>
      if !disk.isDirectoryAt location then []
      else
        let names := (disk.children location).mergeSort
          |>.filter fun name => Pattern.covers segment name.toList
        let special := if segment.head? == some (.plain '.') then
            ["..", "."].filter fun name => Pattern.covers segment name.toList
          else []
        special.map (Path.join directory) ++ names.map (entryPath directory)

/-- The paths that the segments of a pattern stand for, starting in a directory. -/
def expandSegments (disk : Disk) : List (List PatternToken) → String → List String
  | [], directory => [directory]
  | segment :: rest, directory =>
    (disk.candidates directory segment).flatMap (disk.expandSegments rest)

/-- The paths that a pattern stands for. -/
def expand (disk : Disk) (pattern : List PatternToken) : List String :=
  match pattern with
  | .plain '/' :: rest => disk.expandSegments (pieces (.plain '/') rest) "/"
  | _ => disk.expandSegments (pieces (.plain '/') pattern) "."

end ShardedLines.Disk
