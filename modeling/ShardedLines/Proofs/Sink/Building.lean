import Mathlib.Data.List.Induction
import ShardedLines.Channel.Memory
import ShardedLines.Sink.Open

/-!
Building sinks.

What has been built is given by the values that were passed last to each builder, and for builders that
were not called by the sink at the start (`build_eq_given`). So only the last calls count, and calls of
different builders may change places. What is opened is given by the answers of one factory
(`OpensBy`), the custom one or that of local files. A template says how local files are named; where
there is a custom factory, sinks that differ in nothing else open the same writers (`OpensAlike`).
-/

namespace ShardedLines

variable {α κ τ : Type}

/-! ## Calls -/

/-- The builders that are passed one value. -/
inductive SinkBuilder where
  | header
  | footer
  | numShards
  | trailingNewlines
  | factory
  | shardTemplate
  deriving DecidableEq

/-- What a builder is passed. -/
abbrev SinkBuilder.Value (κ τ : Type) : SinkBuilder → Type
  | header => String
  | footer => String
  | numShards => Nat
  | trailingNewlines => Bool
  | factory => ChannelFactory κ τ
  | shardTemplate => String

/-- A call of a builder. -/
structure BuilderCall (κ τ : Type) where
  builder : SinkBuilder
  value : builder.Value κ τ

namespace BuilderCall

def apply : BuilderCall κ τ → TextSink α κ τ → TextSink α κ τ
  | ⟨.header, header⟩ => TextSink.withHeader header
  | ⟨.footer, footer⟩ => TextSink.withFooter footer
  | ⟨.numShards, shards⟩ => TextSink.withNumShards shards
  | ⟨.trailingNewlines, trailingNewlines⟩ => TextSink.withTrailingNewlines trailingNewlines
  | ⟨.factory, factory⟩ => TextSink.withFactory factory
  | ⟨.shardTemplate, template⟩ => TextSink.withShardTemplate template

/-- The value that the call passes to a builder, if it is a call of this one. -/
def passedTo (builder : SinkBuilder) (call : BuilderCall κ τ) : Option (builder.Value κ τ) :=
  if h : call.builder = builder then some (h ▸ call.value) else none

theorem passedTo_of_ne {builder : SinkBuilder} {call : BuilderCall κ τ} (h : call.builder ≠ builder) :
    call.passedTo builder = none := dif_neg h

theorem isSome_passedTo (builder : SinkBuilder) (call : BuilderCall κ τ) :
    (call.passedTo builder).isSome = decide (call.builder = builder) := by
  unfold passedTo
  split <;> simp_all

end BuilderCall

/-- The value that was passed last to a builder. -/
def lastPassed (builder : SinkBuilder) (calls : List (BuilderCall κ τ)) :
    Option (builder.Value κ τ) :=
  (calls.filterMap (BuilderCall.passedTo builder)).getLast?

section LastPassed

variable {builder : SinkBuilder}

theorem lastPassed_append (first second : List (BuilderCall κ τ)) :
    lastPassed builder (first ++ second) =
      (lastPassed builder second).or (lastPassed builder first) := by
  rw [lastPassed, List.filterMap_append, List.getLast?_append]
  rfl

theorem lastPassed_singleton (call : BuilderCall κ τ) :
    lastPassed builder [call] = call.passedTo builder := by
  rw [lastPassed, List.filterMap_cons]
  cases call.passedTo builder <;> rfl

theorem lastPassed_cons (call : BuilderCall κ τ) (rest : List (BuilderCall κ τ)) :
    lastPassed builder (call :: rest) = (lastPassed builder rest).or (call.passedTo builder) := by
  rw [← List.singleton_append, lastPassed_append, lastPassed_singleton]

theorem isSome_lastPassed {calls : List (BuilderCall κ τ)} :
    (lastPassed builder calls).isSome ↔ ∃ call ∈ calls, call.builder = builder := by
  induction calls with
  | nil => simp [lastPassed]
  | cons call rest ih =>
    rw [lastPassed_cons, Option.isSome_or, Bool.or_eq_true, ih, BuilderCall.isSome_passedTo]
    simp [or_comm]

/-- Calls of different builders may change places. -/
theorem lastPassed_swap {first second : BuilderCall κ τ} (h : first.builder ≠ second.builder)
    (before after : List (BuilderCall κ τ)) :
    lastPassed builder (before ++ first :: second :: after) =
      lastPassed builder (before ++ second :: first :: after) := by
  have hone : (second.passedTo builder).or (first.passedTo builder) =
      (first.passedTo builder).or (second.passedTo builder) := by
    by_cases hfirst : first.builder = builder
    · rw [second.passedTo_of_ne (hfirst ▸ h.symm), Option.none_or, Option.or_none]
    · rw [first.passedTo_of_ne hfirst, Option.none_or, Option.or_none]
  simp only [lastPassed_append, lastPassed_cons, Option.or_assoc, hone]

/-- A call of another builder may be left out. -/
theorem lastPassed_drop {call : BuilderCall κ τ} (h : call.builder ≠ builder)
    (before after : List (BuilderCall κ τ)) :
    lastPassed builder (before ++ call :: after) = lastPassed builder (before ++ after) := by
  rw [lastPassed_append, lastPassed_append, lastPassed_cons, call.passedTo_of_ne h, Option.or_none]

end LastPassed

/-- The calls that do what the options say beyond destination, header and footer. -/
def SinkOptions.builderCalls (κ τ : Type) (options : SinkOptions) : List (BuilderCall κ τ) :=
  ⟨.trailingNewlines, options.trailingNewlines⟩ ::
    ((options.shardTemplate?.map (⟨.shardTemplate, ·⟩)).toList ++
      (options.numShards?.map (⟨.numShards, ·⟩)).toList)

/-- The same factory, with channels of other types. -/
def ChannelFactory.map {κ' τ' : Type} (stream : κ → κ') (shards : τ → τ')
    (factory : ChannelFactory κ τ) : ChannelFactory κ' τ' where
  openStream destination world :=
    let (answer, world) := factory.openStream destination world
    (answer.map stream, world)
  openShards destination count world :=
    let (answer?, world) := factory.openShards destination count world
    (answer?.map (·.map shards), world)

namespace TextSink

/-! ## What is built -/

/-- The sink after some calls. -/
def build (sink : TextSink α κ τ) (calls : List (BuilderCall κ τ)) : TextSink α κ τ :=
  calls.foldl (fun sink call => call.apply sink) sink

/-- The sink with the values that were passed last. -/
def given (sink : TextSink α κ τ) (calls : List (BuilderCall κ τ)) : TextSink α κ τ where
  destination := sink.destination
  sharded := (lastPassed .numShards calls).isSome || sink.sharded
  numShards? := (lastPassed .numShards calls).or sink.numShards?
  header? := (lastPassed .header calls).or sink.header?
  footer? := (lastPassed .footer calls).or sink.footer?
  trailingNewlines := (lastPassed .trailingNewlines calls).getD sink.trailingNewlines
  coder := sink.coder
  factory? := (lastPassed .factory calls).or sink.factory?
  shardTemplate := (lastPassed .shardTemplate calls).getD sink.shardTemplate

theorem given_singleton (sink : TextSink α κ τ) (call : BuilderCall κ τ) :
    sink.given [call] = call.apply sink := by
  obtain ⟨builder, value⟩ := call
  cases builder <;>
    simp [given, lastPassed_singleton, BuilderCall.passedTo, BuilderCall.apply] <;> rfl

theorem given_append (sink : TextSink α κ τ) (first second : List (BuilderCall κ τ)) :
    sink.given (first ++ second) = (sink.given first).given second := by
  simp only [given, lastPassed_append, Option.or_assoc, Option.isSome_or, Option.getD_or,
    Bool.or_assoc]

theorem build_append (sink : TextSink α κ τ) (first second : List (BuilderCall κ τ)) :
    sink.build (first ++ second) = (sink.build first).build second := List.foldl_append

theorem build_eq_given (sink : TextSink α κ τ) (calls : List (BuilderCall κ τ)) :
    sink.build calls = sink.given calls := by
  induction calls using List.reverseRecOn with
  | nil => rfl
  | append_singleton calls call ih =>
    rw [build_append, ih, given_append, given_singleton]
    rfl

/-! ## What is opened -/

/-- What opens the channels of a sink: its factory, or else local files with names by a template. -/
def channels (factory? : Option (ChannelFactory κ τ)) (template : String) :
    ChannelFactory (FileChannel ⊕ κ) (ShardSet FileChannel ⊕ τ) :=
  match factory? with
  | some factory => factory.map .inr .inr
  | none => (LocalFiles.factory template).map .inl .inl

theorem openStream_eq (sink : TextSink α κ τ) (world : World) :
    sink.openStream world =
      (channels sink.factory? sink.shardTemplate).openStream sink.destination world := by
  unfold openStream channels
  cases sink.factory? <;> rfl

theorem openShards_eq (sink : TextSink α κ τ) (shards : Nat) (world : World) :
    sink.openShards shards world =
      (channels sink.factory? sink.shardTemplate).openShards sink.destination shards world := by
  unfold openShards channels
  cases sink.factory? <;> rfl

/-- The writers that a sink opens with the channels of a factory. They are new ones of this coder and
this framing, for this destination and so many shards. -/
structure OpensBy (factory : ChannelFactory (FileChannel ⊕ κ) (ShardSet FileChannel ⊕ τ))
    (destination : String) (shards : Nat → Nat) (coder : Coder α) (framing : Framing)
    (sink : TextSink α κ τ) : Prop where
  text : ∀ world channel opened, factory.openStream destination world = (.ok channel, opened) →
    sink.openTextWriter world =
      (.ok (⟨coder, framing⟩, channel), opened.record (.textWriterOpened destination))
  textFault : ∀ world cause left, factory.openStream destination world = (.error cause, left) →
    sink.openTextWriter world = (.error ⟨destination, none, cause⟩, left)
  sharding : ∀ router processors world channel opened,
    factory.openShards destination (shards processors) world = (some (.ok channel), opened) →
    sink.openShardingWriter router processors world =
      (some (.ok (⟨coder, framing, router⟩, channel)),
        opened.record (.shardingWriterOpened destination (shards processors)))
  shardingFault : ∀ router processors world cause left,
    factory.openShards destination (shards processors) world = (some (.error cause), left) →
    sink.openShardingWriter router processors world =
      (some (.error ⟨destination, some (shards processors), cause⟩), left)
  shardingPanic : ∀ router processors world left,
    factory.openShards destination (shards processors) world = (none, left) →
    sink.openShardingWriter router processors world = (none, left)
  /-- A sink that is not sharded opens a text writer. -/
  writerOfText : sink.sharded = false → ∀ processors world answer opened,
    sink.openTextWriter world = (answer, opened) →
    sink.openWriter processors world =
      (some (answer.map fun writer => .text writer.1 writer.2), opened)
  /-- A sharded sink opens a sharding writer whose records start at the first shard. -/
  writerOfShards : sink.sharded = true → ∀ processors world answer? opened,
    sink.openShardingWriter .fromFirst processors world = (answer?, opened) →
    sink.openWriter processors world =
      (answer?.map (·.map fun writer => .sharding writer.1 writer.2), opened)

/-- A sink opens its writers with the channels of its factory or of local files. -/
theorem opensBy (sink : TextSink α κ τ) :
    sink.OpensBy (channels sink.factory? sink.shardTemplate) sink.destination
      (fun processors => sink.resolvedShards processors) sink.coder sink.framing where
  text world channel opened h := by
    rw [openTextWriter, openStream_eq, h]
    rfl
  textFault world cause left h := by
    rw [openTextWriter, openStream_eq, h]
  sharding router processors world channel opened h := by
    rw [openShardingWriter, openShards_eq, h]
    rfl
  shardingFault router processors world cause left h := by
    rw [openShardingWriter, openShards_eq, h]
  shardingPanic router processors world left h := by
    rw [openShardingWriter, openShards_eq, h]
  writerOfText hsharded processors world answer opened h := by
    rw [openWriter, hsharded, h]
    rfl
  writerOfShards hsharded processors world answer? opened h := by
    rw [openWriter, hsharded, h]
    rfl

/-- A sink does what the values that were passed last say, and where a builder was not called, what
the sink at the start says: in what it tells of itself, in the files that it finds, in what it opens,
and in what its writers start from. -/
structure BuiltFrom (sink : TextSink α κ τ) (calls : List (BuilderCall κ τ))
    (built : TextSink α κ τ) : Prop where
  destination : built.destination = sink.destination
  sharded : built.sharded = true ↔
    sink.sharded = true ∨ ∃ call ∈ calls, call.builder = .numShards
  header : built.header? = (lastPassed .header calls).or sink.header?
  footer : built.footer? = (lastPassed .footer calls).or sink.footer?
  numShards : built.numShards? = (lastPassed .numShards calls).or sink.numShards?
  trailingNewlines : built.trailingNewlines =
    (lastPassed .trailingNewlines calls).getD sink.trailingNewlines
  shards : ∀ processors, built.resolvedShards processors =
    ((lastPassed .numShards calls).or sink.numShards?).getD (max processors 1)
  shardFiles : ∀ disk, built.shardFiles disk = Naming.shardFiles disk sink.destination
    ((lastPassed .shardTemplate calls).getD sink.shardTemplate)
  openStream : ∀ world, built.openStream world =
    (channels ((lastPassed .factory calls).or sink.factory?)
      ((lastPassed .shardTemplate calls).getD sink.shardTemplate)).openStream sink.destination world
  openShards : ∀ shards world, built.openShards shards world =
    (channels ((lastPassed .factory calls).or sink.factory?)
      ((lastPassed .shardTemplate calls).getD sink.shardTemplate)).openShards
        sink.destination shards world
  coder : built.coder = sink.coder
  framing : built.framing = .new ((lastPassed .header calls).or sink.header?)
    ((lastPassed .footer calls).or sink.footer?)
    ((lastPassed .trailingNewlines calls).getD sink.trailingNewlines)
  writers : built.OpensBy
    (channels ((lastPassed .factory calls).or sink.factory?)
      ((lastPassed .shardTemplate calls).getD sink.shardTemplate))
    sink.destination
    (fun processors =>
      ((lastPassed .numShards calls).or sink.numShards?).getD (max processors 1))
    sink.coder
    (.new ((lastPassed .header calls).or sink.header?) ((lastPassed .footer calls).or sink.footer?)
      ((lastPassed .trailingNewlines calls).getD sink.trailingNewlines))

theorem builtFrom_build (sink : TextSink α κ τ) (calls : List (BuilderCall κ τ)) :
    sink.BuiltFrom calls (sink.build calls) := by
  rw [build_eq_given]
  refine ⟨rfl, ?_, rfl, rfl, rfl, rfl, fun _ => rfl, fun _ => rfl, fun world => openStream_eq _ world,
    fun shards world => openShards_eq _ shards world, rfl, rfl, (sink.given calls).opensBy⟩
  rw [given, Bool.or_eq_true, isSome_lastPassed, or_comm]

/-- Whatever the two sinks open, they open in the same way. -/
structure OpensAlike (first second : TextSink α κ τ) : Prop where
  textWriter : ∀ world, first.openTextWriter world = second.openTextWriter world
  shardingWriter : ∀ router processors world,
    first.openShardingWriter router processors world =
      second.openShardingWriter router processors world
  writer : ∀ processors world, first.openWriter processors world = second.openWriter processors world

section Opening

variable {first second : TextSink α κ τ}
  {factory : ChannelFactory (FileChannel ⊕ κ) (ShardSet FileChannel ⊕ τ)} {destination : String}
  {shards : Nat → Nat} {coder : Coder α} {framing : Framing}

/-- The factory's answers settle what is opened. -/
theorem OpensBy.opensAlike (hfirst : first.OpensBy factory destination shards coder framing)
    (hsecond : second.OpensBy factory destination shards coder framing)
    (sharded : first.sharded = second.sharded) : first.OpensAlike second := by
  have htext : ∀ world, first.openTextWriter world = second.openTextWriter world := by
    intro world
    rcases h : factory.openStream destination world with ⟨cause | channel, opened⟩
    · rw [hfirst.textFault _ _ _ h, hsecond.textFault _ _ _ h]
    · rw [hfirst.text _ _ _ h, hsecond.text _ _ _ h]
  have hsharding : ∀ router processors world, first.openShardingWriter router processors world =
      second.openShardingWriter router processors world := by
    intro router processors world
    rcases h : factory.openShards destination (shards processors) world with
      ⟨_ | cause | channel, opened⟩
    · rw [hfirst.shardingPanic _ _ _ _ h, hsecond.shardingPanic _ _ _ _ h]
    · rw [hfirst.shardingFault _ _ _ _ _ h, hsecond.shardingFault _ _ _ _ _ h]
    · rw [hfirst.sharding _ _ _ _ _ h, hsecond.sharding _ _ _ _ _ h]
  refine ⟨htext, hsharding, fun processors world => ?_⟩
  cases hsecond_sharded : second.sharded with
  | false =>
    rw [hfirst.writerOfText (sharded.trans hsecond_sharded) _ _ _ _ (htext world),
      hsecond.writerOfText hsecond_sharded _ _ _ _ rfl]
  | true =>
    rw [hfirst.writerOfShards (sharded.trans hsecond_sharded) _ _ _ _ (hsharding _ _ world),
      hsecond.writerOfShards hsecond_sharded _ _ _ _ rfl]

/-- Sinks that are built from the same calls open the same. -/
theorem BuiltFrom.opensAlike {sink : TextSink α κ τ} {calls : List (BuilderCall κ τ)}
    (hfirst : sink.BuiltFrom calls first) (hsecond : sink.BuiltFrom calls second) :
    first.OpensAlike second :=
  hfirst.writers.opensAlike hsecond.writers
    (Bool.eq_iff_iff.mpr (hfirst.sharded.trans hsecond.sharded.symm))

/-- A factory does not look at the template. -/
theorem opensAlike_of_factory {sink : TextSink α κ τ} (h : sink.factory?.isSome) (template : String) :
    (sink.withShardTemplate template).OpensAlike sink := by
  obtain ⟨custom, hcustom⟩ := Option.isSome_iff_exists.mp h
  have hchannels : channels sink.factory? template = channels sink.factory? sink.shardTemplate := by
    rw [hcustom]
    rfl
  have hnamed := opensBy (sink.withShardTemplate template)
  rw [withShardTemplate, hchannels] at hnamed
  exact hnamed.opensAlike sink.opensBy rfl

end Opening

/-- A template that is set among other calls is all that it changes. -/
theorem build_shardTemplate (sink : TextSink α κ τ) (before : List (BuilderCall κ τ))
    (template : String) (after : List (BuilderCall κ τ)) :
    ∃ named, sink.build (before ++ ⟨.shardTemplate, template⟩ :: after) =
      (sink.build (before ++ after)).withShardTemplate named := by
  have hkeep : ∀ builder, builder ≠ .shardTemplate →
      lastPassed builder (before ++ ⟨.shardTemplate, template⟩ :: after) =
        lastPassed (κ := κ) (τ := τ) builder (before ++ after) :=
    fun _ h => lastPassed_drop h.symm before after
  rw [build_eq_given, build_eq_given, given, hkeep .numShards (by decide), hkeep .header (by decide),
    hkeep .footer (by decide), hkeep .trailingNewlines (by decide), hkeep .factory (by decide)]
  exact ⟨_, rfl⟩

/-! ## Sinks that options describe -/

theorem exists_ofOptions_eq_error_iff (options : SinkOptions) (coder : Coder α) :
    (∃ fault, (ofOptions options coder : Except SinkFault (TextSink α κ τ)) = .error fault) ↔
      options.destination = "" ∨ options.numShards? = some 0 := by
  unfold ofOptions
  split
  · simp_all
  · split <;> simp_all

theorem of_ofOptions {options : SinkOptions} {coder : Coder α} {sink : TextSink α κ τ}
    (h : ofOptions options coder = .ok sink) :
    sink = { (create options.destination options.sharded options.header? options.footer? coder).build
      (options.builderCalls κ τ) with sharded := options.sharded } := by
  unfold ofOptions at h
  split at h
  · cases h
  · split at h
    · cases h
    · obtain rfl := Except.ok.inj h
      rw [SinkOptions.builderCalls]
      cases options.shardTemplate? <;> cases options.numShards? <;> rfl

end TextSink

/-! ## What calls come to -/

/-- Whatever sink the calls start from, the last value that each builder was passed counts, and nothing
else about them: calls of different builders may change places. Where there is a factory, a template
makes no difference to what is opened, be it set before the factory or after it. Options describe the
sink that is created from them and built by calls, only that it stays as sharded as they say. -/
theorem sink_built_from_last_calls (sink : TextSink α κ τ) (calls : List (BuilderCall κ τ))
    (options : SinkOptions) (coder : Coder α) :
    (sink.BuiltFrom calls (sink.build calls) ∧
      ∀ built, sink.BuiltFrom calls built → built.OpensAlike (sink.build calls)) ∧
    (∀ other, (∀ builder, lastPassed builder other = lastPassed builder calls) →
      sink.build other = sink.build calls) ∧
    (∀ before first second after, first.builder ≠ second.builder →
      sink.build (before ++ first :: second :: after) =
        sink.build (before ++ second :: first :: after)) ∧
    (∀ before template after,
      sink.factory?.isSome ∨ (∃ call ∈ before ++ after, call.builder = .factory) →
      (sink.build (before ++ ⟨.shardTemplate, template⟩ :: after)).OpensAlike
        (sink.build (before ++ after))) ∧
    ((∃ fault, (TextSink.ofOptions options coder : Except SinkFault (TextSink α κ τ)) =
        .error fault) ↔ options.destination = "" ∨ options.numShards? = some 0) ∧
    (∀ built : TextSink α κ τ, TextSink.ofOptions options coder = .ok built →
      built = { (TextSink.create options.destination options.sharded options.header?
        options.footer? coder).build (options.builderCalls κ τ) with
          sharded := options.sharded }) := by
  have hbuilt := sink.builtFrom_build calls
  have hlast : ∀ first second : List (BuilderCall κ τ),
      (∀ builder, lastPassed builder first = lastPassed builder second) →
      sink.build first = sink.build second := by
    intro first second h
    simp only [TextSink.build_eq_given, TextSink.given, h]
  refine ⟨⟨hbuilt, fun built h => h.opensAlike hbuilt⟩, fun other h => hlast other calls h, ?_, ?_,
    TextSink.exists_ofOptions_eq_error_iff options coder, fun built h => TextSink.of_ofOptions h⟩
  · exact fun before first second after h => hlast _ _ fun _ => lastPassed_swap h before after
  · intro before template after h
    obtain ⟨named, heq⟩ := sink.build_shardTemplate before template after
    have hfactory : (sink.build (before ++ after)).factory?.isSome := by
      rw [TextSink.build_eq_given, TextSink.given, Option.isSome_or, Bool.or_eq_true,
        isSome_lastPassed, or_comm]
      exact h
    exact heq ▸ TextSink.opensAlike_of_factory hfactory named

/-- A header that is replaced, shards that a factory opens, a template before the factory and another
after it, and options with a shard count that are not sharded. -/
theorem sink_built_from_last_calls_repeated :
    let sink : TextSink String MemoryChannel MemoryChannel := .new "out" .text
    let factory : BuilderCall MemoryChannel MemoryChannel := ⟨.factory, MemoryChannel.factory⟩
    let calls : List (BuilderCall MemoryChannel MemoryChannel) :=
      [⟨.header, "a"⟩, ⟨.numShards, 3⟩, ⟨.header, "b"⟩]
    let options : SinkOptions := { destination := "out", numShards? := some 2 }
    let world : World := ⟨.fresh, []⟩
    (sink.build calls).header? = some "b" ∧ (sink.build calls).resolvedShards 8 = 3 ∧
      (sink.build (factory :: calls)).openShardingWriter .fromFirst 8 world =
        (some (.ok (⟨.text, .new (some "b") none true, .fromFirst⟩, .inr (.sharded 3))),
          world.record (.shardingWriterOpened "out" 3)) ∧
      sink.build [⟨.numShards, 3⟩, ⟨.header, "b"⟩] = sink.build calls ∧
      sink.build [⟨.numShards, 3⟩, ⟨.header, "a"⟩, ⟨.header, "b"⟩] = sink.build calls ∧
      (sink.build [⟨.shardTemplate, "-S"⟩, factory]).OpensAlike (sink.build [factory]) ∧
      (sink.build [factory, ⟨.shardTemplate, "-S"⟩]).OpensAlike (sink.build [factory]) ∧
      (∃ built : TextSink String MemoryChannel MemoryChannel,
        TextSink.ofOptions options .text = .ok built ∧ built.sharded = false ∧
          built.numShards? = some 2) := by
  intro sink factory calls options world
  obtain ⟨⟨hbuilt, -⟩, hlast, hswap, htemplate, -, hoptions⟩ :=
    sink_built_from_last_calls sink calls options .text
  have hopened := (sink_built_from_last_calls sink (factory :: calls) options .text).1.1
  have hfactory : sink.factory?.isSome ∨ ∃ call ∈ [factory], call.builder = .factory :=
    .inr ⟨factory, List.mem_singleton_self factory, rfl⟩
  refine ⟨hbuilt.header, hbuilt.shards 8, hopened.writers.sharding _ _ _ _ _ rfl,
    hlast _ fun builder => ?_,
    (hswap [] ⟨.header, "a"⟩ ⟨.numShards, 3⟩ [⟨.header, "b"⟩] (by decide)).symm,
    htemplate [] "-S" [factory] hfactory, htemplate [factory] "-S" [] hfactory, ?_⟩
  · cases builder <;> rfl
  · exact ⟨_, rfl, congrArg TextSink.sharded (hoptions _ rfl), rfl⟩

end ShardedLines
