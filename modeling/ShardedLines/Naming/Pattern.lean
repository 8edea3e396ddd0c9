import ShardedLines.Naming.Template
import ShardedLines.Disk.Expand

/-!
Finding the shard files of a stem and a template.

The pattern of a template takes the stem as it stands and any run of characters for every run of
the letters `S` and `N`, so it stands for all names that some shard could have, and for more.
-/

namespace ShardedLines.Naming

/-- The pattern text of a template; `starred` tells whether a star was just written. -/
def templatePattern : (starred : Bool) → List Char → List Char
  | _, [] => []
  | starred, c :: rest =>
    if c == 'S' || c == 'N' then
      (if starred then [] else ['*']) ++ templatePattern true rest
    else Pattern.escape c ++ templatePattern false rest

/-- The text of the pattern that stands for the names of all shards. -/
def patternText (stem template : String) : String :=
  String.ofList (stem.toList.flatMap Pattern.escape ++ templatePattern false template.toList)

/-- A text that is no pattern. -/
structure PatternFault where
  pattern : String
  deriving DecidableEq, Repr

def PatternFault.message (fault : PatternFault) : String :=
  "invalid shard pattern: " ++ fault.pattern

/-- The regular files whose paths have the form of a shard's, in listing order. -/
def shardFiles (disk : Disk) (stem template : String) : Except PatternFault (List String) :=
  match Pattern.tokens? (patternText stem template).toList with
  | none => .error ⟨patternText stem template⟩
  | some pattern => .ok (Path.sorted ((disk.expand pattern).filter disk.isFile))

end ShardedLines.Naming
