import ShardedLines.Channel.File
import ShardedLines.Coder.Basic
import ShardedLines.Naming.Pattern
import ShardedLines.Sink.Options
import ShardedLines.Text.Quoted

/-!
Text sinks: descriptions of where lines go and how they are framed.

A sink is built from a destination by builders, each of which sets one thing. Channels are opened
by a custom factory if there is one, and as local files otherwise.
-/

namespace ShardedLines

/-- A description of a text output. `κ` and `τ` are the channels that a custom factory opens for a
single stream and for shards. -/
structure TextSink (α κ τ : Type) where
  destination : String
  sharded : Bool := false
  /-- The number of shards; none for one shard per processor. -/
  numShards? : Option Nat := none
  header? : Option String := none
  footer? : Option String := none
  trailingNewlines : Bool := true
  coder : Coder α
  factory? : Option (ChannelFactory κ τ) := none
  /-- How local shard files are named. -/
  shardTemplate : String := Naming.defaultTemplate

/-- Why options do not describe a sink. -/
inductive SinkFault where
  | emptyDestination
  | noShards (destination : String)
  deriving DecidableEq, Repr

def SinkFault.message : SinkFault → String
  | emptyDestination => "text sink destination is empty"
  | noShards destination => s!"text sink {destination} needs at least one shard"

namespace TextSink

variable {α κ τ : Type}

/-! ## Building -/

/-- A single stream of bare records. -/
def new (destination : String) (coder : Coder α) : TextSink α κ τ where
  destination := destination
  coder := coder

def create (destination : String) (sharded : Bool) (header? footer? : Option String)
    (coder : Coder α) : TextSink α κ τ :=
  { new destination coder with sharded, header?, footer? }

def withHeader (header : String) (sink : TextSink α κ τ) : TextSink α κ τ :=
  { sink with header? := some header }

def withFooter (footer : String) (sink : TextSink α κ τ) : TextSink α κ τ :=
  { sink with footer? := some footer }

/-- Splits the output over so many shards. -/
def withNumShards (shards : Nat) (sink : TextSink α κ τ) : TextSink α κ τ :=
  { sink with sharded := true, numShards? := some shards }

def withTrailingNewlines (trailingNewlines : Bool) (sink : TextSink α κ τ) : TextSink α κ τ :=
  { sink with trailingNewlines }

/-- Opens channels by a factory instead of local files. -/
def withFactory (factory : ChannelFactory κ τ) (sink : TextSink α κ τ) : TextSink α κ τ :=
  { sink with factory? := some factory }

/-- Names local shard files by a template. -/
def withShardTemplate (shardTemplate : String) (sink : TextSink α κ τ) : TextSink α κ τ :=
  { sink with shardTemplate }

/-- The sink that options describe: it needs a destination, and a shard if shards are counted. -/
def ofOptions (options : SinkOptions) (coder : Coder α) : Except SinkFault (TextSink α κ τ) :=
  if options.destination.isEmpty then .error .emptyDestination
  else if options.numShards? == some 0 then .error (.noShards options.destination)
  else .ok {
    create options.destination options.sharded options.header? options.footer? coder with
    numShards? := options.numShards?
    trailingNewlines := options.trailingNewlines
    shardTemplate := options.shardTemplate?.getD Naming.defaultTemplate }

/-! ## Looking at a sink -/

/-- The number of shards that writers open, on a machine with so many processors. -/
def resolvedShards (processors : Nat) (sink : TextSink α κ τ) : Nat :=
  sink.numShards?.getD (max processors 1)

/-- The local shard files that exist for the sink. -/
def shardFiles (disk : Disk) (sink : TextSink α κ τ) :
    Except Naming.PatternFault (List String) :=
  Naming.shardFiles disk sink.destination sink.shardTemplate

/-- The text of a field's value. -/
inductive FieldText where
  | plain (text : String)
  | none
  | some (text : String)

def FieldText.ofOption {β : Type} (text : β → String) : Option β → FieldText
  | Option.none => .none
  | Option.some b => .some (text b)

/-- The name and the value of each field that is shown to people. -/
def shownFields (sink : TextSink α κ τ) : List (String × FieldText) := [
  ("destination", .plain (Quoted.text sink.destination)),
  ("sharded", .plain (toString sink.sharded)),
  ("num_shards", .ofOption toString sink.numShards?),
  ("header", .ofOption Quoted.text sink.header?),
  ("footer", .ofOption Quoted.text sink.footer?),
  ("append_trailing_newlines", .plain (toString sink.trailingNewlines))]

def FieldText.inLine : FieldText → String
  | .plain text => text
  | .none => "None"
  | .some text => "Some(" ++ text ++ ")"

/-- An inner value has a line of its own. -/
def FieldText.inLines : FieldText → String
  | .plain text => text
  | .none => "None"
  | .some text => "Some(\n        " ++ text ++ ",\n    )"

/-- The sink on one line, without coder and factory. -/
def describe (sink : TextSink α κ τ) : String :=
  "TextSink \x7b " ++
    String.join (sink.shownFields.map fun (name, value) => name ++ ": " ++ value.inLine ++ ", ") ++
    ".. \x7d"

/-- The sink with a line for each field. -/
def describeInLines (sink : TextSink α κ τ) : String :=
  "TextSink \x7b\n" ++
    String.join
      (sink.shownFields.map fun (name, value) => "    " ++ name ++ ": " ++ value.inLines ++ ",\n") ++
    "    ..\n\x7d"

end TextSink

end ShardedLines
