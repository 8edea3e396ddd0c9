import ShardedLines.Text.Pieces
import ShardedLines.Text.Utf8

/-!
The lines of a run of bytes, seen in two ways.

`shownLines` never fails: it is for looking at what a channel holds, shows ill-formed bytes as
U+FFFD, and drops a carriage return at the end of every line. `readLines?` is the strict view of a
line-oriented reader: it refuses ill-formed bytes, and takes a carriage return for part of the line
break only where a line feed follows.
-/

namespace ShardedLines

def lineFeed : UInt8 := 0x0A

def carriageReturn : UInt8 := 0x0D

/-- The stretches between line feeds, without an empty one at the end. -/
def rawLines (bytes : Bytes) : List Bytes :=
  let lines := pieces lineFeed bytes
  if lines.getLast? == some [] then lines.dropLast else lines

/-- Drops one carriage return at the end. -/
def dropReturn (line : Bytes) : Bytes :=
  if line.getLast? == some carriageReturn then line.dropLast else line

/-- The lines of a channel's bytes, for people to look at. -/
def shownLines (bytes : Bytes) : List String :=
  (rawLines bytes).map fun line => Utf8.decodeLossy (dropReturn line)

/-- The lines as a reader takes them one by one: the line feed goes, and a carriage return right
before it; what follows the last line feed is a line as it stands, unless it is empty. -/
def terminatedLines (bytes : Bytes) : List Bytes :=
  let lines := pieces lineFeed bytes
  let last := lines.getLast?.getD []
  lines.dropLast.map dropReturn ++ if last.isEmpty then [] else [last]

/-- The lines of a file, if it is well-formed text. -/
def readLines? (bytes : Bytes) : Option (List String) :=
  (terminatedLines bytes).mapM Utf8.decode?

end ShardedLines
