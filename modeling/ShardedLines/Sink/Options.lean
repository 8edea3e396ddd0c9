import ShardedLines.Json.Reader.Typed
import ShardedLines.Naming.Template

/-!
The options that describe a text sink, and their JSON form.

Every field has a default. The shard count is a number, or none, which is also written `"auto"` in
any mixture of cases.
-/

namespace ShardedLines

structure SinkOptions where
  /-- A path, or the stem of the shards' paths. -/
  destination : String := ""
  /-- Whether the output is split over shards. -/
  sharded : Bool := false
  /-- The number of shards; none for one shard per processor. -/
  numShards? : Option Nat := none
  header? : Option String := none
  footer? : Option String := none
  /-- Whether every line ends in a line feed. -/
  trailingNewlines : Bool := true
  /-- How shards are named; none for the default template. -/
  shardTemplate? : Option String := none
  deriving DecidableEq, Repr

namespace SinkOptions

def jsonText (options : SinkOptions) : List Char :=
  Json.objectText [
    ("destination", Json.quoted options.destination),
    ("sharded", Json.boolText options.sharded),
    ("num_shards", Json.optionText Json.natText options.numShards?),
    ("header", Json.optionText Json.quoted options.header?),
    ("footer", Json.optionText Json.quoted options.footer?),
    ("append_trailing_newlines", Json.boolText options.trailingNewlines),
    ("shard_template", Json.optionText Json.quoted options.shardTemplate?)]

end SinkOptions

/-- The same letter in lower case, for the letters of ASCII. -/
def asciiLower (text : String) : List Char := text.toList.map Char.toLower

namespace Reader

/-- How deep values are nested that are kept before they are understood: with the record around
them, no deeper than 127. -/
def keptDepth : Nat := 126

/-- A value as a shard count: a number of 64 bits, or none. -/
def shardCountOf : Json → Except ReadFault (Option Nat)
  | .null => .ok none
  | .number n =>
    match n.value? with
    | some (.integer (.ofNat count)) => .ok (some count)
    | _ => .error (.rejected none)
  | .string text =>
    if asciiLower text == "auto".toList then .ok none
    else .error (.rejected
      (some s!"invalid shard count '{text}', expected a number or \"auto\""))
  | _ => .error (.rejected none)

def shardCount : Reader (Option Nat) := do
  match shardCountOf (← value keptDepth) with
  | .ok count => pure count
  | .error fault => throw fault

/-- The fields of sink options, as far as they have been read. -/
structure OptionsDraft where
  destination? : Option String := none
  sharded? : Option Bool := none
  numShards? : Option (Option Nat) := none
  header? : Option (Option String) := none
  footer? : Option (Option String) := none
  trailingNewlines? : Option Bool := none
  shardTemplate? : Option (Option String) := none

/-- Missing fields take their defaults. -/
def OptionsDraft.options (draft : OptionsDraft) : SinkOptions where
  destination := draft.destination?.getD ""
  sharded := draft.sharded?.getD false
  numShards? := draft.numShards?.join
  header? := draft.header?.join
  footer? := draft.footer?.join
  trailingNewlines := draft.trailingNewlines?.getD true
  shardTemplate? := draft.shardTemplate?.join

def optionsMember (draft : OptionsDraft) : String → Reader OptionsDraft
  | "destination" => do
    let destination? ← field draft.destination? string
    pure { draft with destination? }
  | "sharded" => do
    let sharded? ← field draft.sharded? bool
    pure { draft with sharded? }
  | "num_shards" => do
    let numShards? ← field draft.numShards? shardCount
    pure { draft with numShards? }
  | "header" => do
    let header? ← field draft.header? (option string)
    pure { draft with header? }
  | "footer" => do
    let footer? ← field draft.footer? (option string)
    pure { draft with footer? }
  | "append_trailing_newlines" => do
    let trailingNewlines? ← field draft.trailingNewlines? bool
    pure { draft with trailingNewlines? }
  | "shard_template" => do
    let shardTemplate? ← field draft.shardTemplate? (option string)
    pure { draft with shardTemplate? }
  | _ => do skipMember; pure draft

/-- The next item of a list, unless the list has ended before. -/
def further {α β : Type} (earlier : Option β) (reader : Reader α) : Reader (Option α) :=
  if earlier.isSome then item? false reader else pure none

def sinkOptions : Reader SinkOptions :=
  record
    (do
      let destination? ← item? true string
      let sharded? ← further destination? bool
      let numShards? ← further sharded? shardCount
      let header? ← further numShards? (option string)
      let footer? ← further header? (option string)
      let trailingNewlines? ← further footer? bool
      let shardTemplate? ← further trailingNewlines? (option string)
      let draft : OptionsDraft := {
        destination? := destination?
        sharded?, numShards?, header?, footer?, trailingNewlines?, shardTemplate? }
      pure draft.options)
    (do
      let draft ← members quotedString optionsMember {}
      pure draft.options)

end Reader

/-- The options that a JSON text writes. -/
def SinkOptions.ofJson (text : String) : Except ReadFault SinkOptions :=
  Reader.sinkOptions.run text

/-- What is said to be going on when options cannot be read. -/
def SinkOptions.readingContext : String := "parse text sink options"

end ShardedLines
