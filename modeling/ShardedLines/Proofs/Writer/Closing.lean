import ShardedLines.Proofs.Channel.Memory
import ShardedLines.Proofs.Writer.Framing
import ShardedLines.Sink.Open

/-!
Closing writers.

A writer that is closed writes the lines that are still missing and then closes its channel, once
and in any case. `ClosedFrom` says this for every channel. Over a memory channel the answer can be
told before, from the framing and from what the channel was told (`MemoryClosing`).
-/

namespace ShardedLines

/-- A fault of the last lines, or else the answer of the channel. -/
def firstFailure (framed closed : Except Fault Unit) : Except Fault Unit :=
  match framed with
  | .error fault => .error fault
  | .ok () => closed

/-- The channel was closed once, as `s` has it, after the last lines ended with `framed`. -/
structure ClosedFrom {κ ω : Type} [ByteChannel κ] (framed : Except Fault Unit) (s : κ × World)
    (writer : ω) (outcome : Except Fault Unit × ω × κ × World) : Prop where
  answer : outcome.1 = firstFailure framed (ByteChannel.close s).1
  writer : outcome.2.1 = writer
  channel : outcome.2.2.1 = (ByteChannel.close s).2.1
  disk : outcome.2.2.2.disk = (ByteChannel.close s).2.2.disk

theorem firstFailure_assoc (first second third : Except Fault Unit) :
    firstFailure (firstFailure first second) third =
      firstFailure first (firstFailure second third) := by
  rcases first with fault | _ <;> rfl

theorem eq_of_firstFailure_eq_error {framed closed : Except Fault Unit} {fault : Fault}
    (h : firstFailure framed closed = .error fault) : framed = .error fault ∨ closed = .error fault := by
  rcases framed with other | _
  · exact .inl h
  · exact .inr h

theorem settleClose_fst (framed closed : Except Fault Unit) (world : World) :
    (settleClose framed closed world).1 = firstFailure framed closed := by
  rcases framed with fault | ⟨⟩ <;> rcases closed with other | ⟨⟩ <;> rfl

@[simp] theorem disk_settleClose (framed closed : Except Fault Unit) (world : World) :
    (settleClose framed closed world).2.disk = world.disk := by
  rcases framed with fault | ⟨⟩ <;> rcases closed with other | ⟨⟩ <;> rfl

theorem TextWriter.closedFrom {α κ : Type} [ByteChannel κ] (writer : TextWriter α)
    {framed : Except Fault Unit} {framing : Framing} {s t : κ × World}
    (h : writer.framing.finish s = (framed, framing, t)) :
    ClosedFrom framed t { writer with framing } (writer.close s) := by
  constructor <;> rw [close, h]
  · exact settleClose_fst ..
  · exact disk_settleClose ..

theorem ShardingWriter.closedFrom {α κ : Type} [ShardingChannel κ] (writer : ShardingWriter α)
    {framed : Except Fault Unit} {framing : Framing} {s t : κ × World}
    (h : writer.framing.finish s = (framed, framing, t)) :
    ClosedFrom framed t { writer with framing } (writer.close s) := by
  constructor <;> rw [close, h]
  · exact settleClose_fst ..
  · exact disk_settleClose ..

/-- A writer is closed without a fault where its lines are written and its channel is closed so. -/
theorem ClosedFrom.exists_ok {κ τ ω : Type} [ByteChannel κ] [ByteChannel τ] {s : κ × World}
    {writer : ω} {outcome : Except Fault Unit × ω × (κ ⊕ τ) × World}
    (h : ClosedFrom (.ok ()) (leftState τ s) writer outcome) {closed : κ} {last : World}
    (hclose : ByteChannel.close s = (.ok (), closed, last)) :
    ∃ left world, outcome = (.ok (), writer, left, world) ∧ world.disk = last.disk := by
  have hleft : ByteChannel.close (leftState τ s) = (.ok (), leftState τ (closed, last)) := by
    change onLeft (ByteChannel.close s) = _
    rw [hclose]
    rfl
  obtain ⟨hanswer, hwriter, -, hdisk⟩ := h
  rw [hleft] at hanswer hdisk
  obtain ⟨answer, done, left, world⟩ := outcome
  obtain rfl : answer = .ok () := hanswer
  obtain rfl : done = writer := hwriter
  exact ⟨left, world, rfl, hdisk⟩

/-! ## Memory channels -/

theorem InjectedFailure.fault_injective : Function.Injective InjectedFailure.fault := by
  rintro ⟨kind, message⟩ ⟨kind', message'⟩ h
  cases h
  rfl

namespace MemoryChannel

/-- What the writing of a line answers, if there is one to write. -/
def lineAnswer (channel : MemoryChannel) (line? : Option Bytes) : Except Fault Unit :=
  match line?.bind channel.lineFault? with
  | some fault => .error fault
  | none => .ok ()

/-- What the channel takes of a line, if there is one to write. -/
def lineTaken (channel : MemoryChannel) (line? : Option Bytes) : Bytes :=
  if (channel.lineAnswer line?).isOk then line?.getD [] else []

variable {channel : MemoryChannel}

theorem writeAll_lineAnswer (h : channel.Uninterrupted) (line : Bytes) (world : World) :
    ByteChannel.writeAll line (channel, world) =
      (channel.lineAnswer (some line), channel.received (channel.lineTaken (some line)), world) := by
  rw [writeAll_eq h, lineTaken, lineAnswer, Option.bind_some]
  cases channel.lineFault? line with
  | none => rfl
  | some fault =>
    change _ = (Except.error fault, channel.received [], world)
    rw [received_nil]

theorem writeFailure_of_lineFault? {line : Bytes} {failure : InjectedFailure}
    (h : channel.lineFault? line = some failure.fault) : channel.writeFailure = some failure := by
  unfold lineFault? refusal? at h
  split at h
  · cases h
  · split at h
    · rename_i fault hr
      split at hr
      · cases hr
        cases h
      · obtain ⟨told, ht, rfl⟩ := Option.map_eq_some_iff.mp hr
        rwa [← InjectedFailure.fault_injective (Option.some.inj h)]
    · split at h <;> cases h

/-- An injected failure that a line fails with is the one that the channel was told. -/
theorem writeFailure_of_lineAnswer {line? : Option Bytes} {failure : InjectedFailure}
    (h : channel.lineAnswer line? = .error failure.fault) :
    channel.writeFailure = some failure := by
  cases line? with
  | none => cases h
  | some line =>
    rw [lineAnswer, Option.bind_some] at h
    cases hl : channel.lineFault? line with
    | none =>
      rw [hl] at h
      cases h
    | some fault =>
      rw [hl] at h
      cases h
      exact writeFailure_of_lineFault? hl

/-- An injected failure that the close fails with is the one that the channel was told. -/
theorem closeFailure_of_close {failure : InjectedFailure}
    (h : channel.close.1 = .error failure.fault) : channel.closeFailure = some failure := by
  unfold close at h
  cases ho : channel.isOpen with
  | false =>
    rw [ho] at h
    cases h
  | true =>
    rw [ho] at h
    cases hc : channel.closeFailure with
    | none =>
      rw [hc] at h
      cases h
    | some told =>
      rw [hc] at h
      exact congrArg some (InjectedFailure.fault_injective (Except.error.inj h))

end MemoryChannel

namespace Framing

variable {channel : MemoryChannel}

theorem writeLine?_memory (h : channel.Uninterrupted) (line? : Option Bytes) (framing : Framing)
    (world : World) :
    ∃ bytes, framing.writeLine? line? (channel, world) =
      (channel.lineAnswer line?, { framing with bytes },
        channel.received (channel.lineTaken line?), world) := by
  cases line? with
  | none =>
    refine ⟨framing.bytes, ?_⟩
    change _ = (Except.ok (), framing, channel.received [], world)
    rw [MemoryChannel.received_nil]
    rfl
  | some line =>
    simp only [writeLine?, MemoryChannel.writeAll_lineAnswer h]
    cases channel.lineAnswer (some line) with
    | error fault => exact ⟨framing.bytes, rfl⟩
    | ok _ => exact ⟨_, rfl⟩

/-- What a memory channel takes of the lines that are missing at the end. -/
def lastTaken (framing : Framing) (channel : MemoryChannel) : Bytes :=
  channel.lineTaken framing.dueHeader? ++
    if (channel.lineAnswer framing.dueHeader?).isOk then channel.lineTaken framing.footerLine?
    else []

theorem finish_memory (h : channel.Uninterrupted) (framing : Framing) (world : World) :
    ∃ bytes, framing.finish (channel, world) =
      (firstFailure (channel.lineAnswer framing.dueHeader?)
        (channel.lineAnswer framing.footerLine?), { framing with headerTried := true, bytes },
        channel.received (framing.lastTaken channel), world) := by
  obtain ⟨bytes, hheader⟩ :=
    writeLine?_memory h framing.dueHeader? { framing with headerTried := true } world
  rw [finish_eq, hheader, lastTaken]
  cases channel.lineAnswer framing.dueHeader? with
  | error fault =>
    refine ⟨bytes, ?_⟩
    change _ = (Except.error fault, _, channel.received (_ ++ []), world)
    rw [List.append_nil]
  | ok _ =>
    -- the footer fares as it would have without the header before it
    obtain ⟨total, hfooter⟩ := writeLine?_memory (h.received (channel.lineTaken framing.dueHeader?))
      framing.footerLine? { framing with headerTried := true, bytes } world
    refine ⟨total, hfooter.trans ?_⟩
    rw [MemoryChannel.received_received]
    rfl

end Framing

/-- What the closing of a writer over a memory channel comes to. -/
structure MemoryClosing {ω : Type} (framing : Framing) (channel : MemoryChannel) (world : World)
    (outcome : Except Fault Unit × ω × MemoryChannel × World) : Prop where
  /-- The header, if it is still due, comes first, then the footer, and the channel's own answer
  last. -/
  answer : outcome.1 = firstFailure (channel.lineAnswer framing.dueHeader?)
    (firstFailure (channel.lineAnswer framing.footerLine?) channel.close.1)
  header : ∀ line ∈ framing.dueHeader?,
    (ByteChannel.writeAll line (channel, world)).1 = channel.lineAnswer (some line)
  footer : ∀ line ∈ framing.footerLine?,
    (ByteChannel.writeAll line (channel.received (channel.lineTaken framing.dueHeader?), world)).1 =
      channel.lineAnswer (some line)
  /-- An injected failure is answered as it was told. -/
  injected : ∀ failure : InjectedFailure, outcome.1 = .error failure.fault →
    channel.writeFailure = some failure ∨ channel.closeFailure = some failure
  next : outcome.2.2.1 = (channel.received (framing.lastTaken channel)).close.2
  closeCalls : outcome.2.2.1.closeCalls = channel.closeCalls + 1
  isOpen : outcome.2.2.1.isOpen = false
  shards : outcome.2.2.1.shards = channel.shards

theorem ClosedFrom.memoryClosing {ω : Type} {channel : MemoryChannel} (h : channel.Uninterrupted)
    {world : World} {framing : Framing} {writer : ω}
    {outcome : Except Fault Unit × ω × MemoryChannel × World}
    (closed : ClosedFrom (firstFailure (channel.lineAnswer framing.dueHeader?)
      (channel.lineAnswer framing.footerLine?)) (channel.received (framing.lastTaken channel), world)
      writer outcome) :
    MemoryClosing framing channel world outcome := by
  have answer : outcome.1 = firstFailure (channel.lineAnswer framing.dueHeader?)
      (firstFailure (channel.lineAnswer framing.footerLine?) channel.close.1) := by
    rw [closed.answer, firstFailure_assoc]
    rfl
  refine {
    answer
    header := fun line _ => by rw [MemoryChannel.writeAll_lineAnswer h]
    footer := fun line _ => by
      rw [MemoryChannel.writeAll_lineAnswer (h.received _)]
      rfl
    injected := fun failure hf => ?_
    next := closed.channel
    closeCalls := congrArg MemoryChannel.closeCalls closed.channel
    isOpen := congrArg MemoryChannel.isOpen closed.channel
    shards := by
      rw [closed.channel]
      rfl }
  -- the failure is that of the first of the three that fails
  rw [answer] at hf
  rcases eq_of_firstFailure_eq_error hf with hf | hf
  · exact .inl (MemoryChannel.writeFailure_of_lineAnswer hf)
  · rcases eq_of_firstFailure_eq_error hf with hf | hf
    · exact .inl (MemoryChannel.writeFailure_of_lineAnswer hf)
    · exact .inr (MemoryChannel.closeFailure_of_close hf)

/-- From every state of a writer and of its memory channel, the writer closes the channel once and
answers with the first failure. -/
theorem close_over_memory {α : Type} {channel : MemoryChannel} (h : channel.Uninterrupted)
    (world : World) :
    (∀ writer : TextWriter α,
      MemoryClosing writer.framing channel world (writer.close (channel, world))) ∧
    (∀ writer : ShardingWriter α,
      MemoryClosing writer.framing channel world (writer.close (channel, world))) := by
  constructor
  · intro writer
    obtain ⟨bytes, hfinish⟩ := Framing.finish_memory h writer.framing world
    exact (writer.closedFrom hfinish).memoryClosing h
  · intro writer
    obtain ⟨bytes, hfinish⟩ := Framing.finish_memory h writer.framing world
    exact (writer.closedFrom hfinish).memoryClosing h

/-- Header and close both fail, and the footer is not tried. -/
theorem close_over_memory_failing :
    let channel : MemoryChannel := .failClose .other "close" (.failWrites .storageFull "full" .new)
    let sink : TextSink String Empty Empty := .create "out" false (some "h") (some "f") .text
    channel.Uninterrupted ∧
      (sink.textWriter.close (channel, ⟨Disk.fresh, []⟩)).1 = .error (.injected .storageFull "full") ∧
      ((sink.shardingWriter .fromFirst).close (channel, ⟨Disk.fresh, []⟩)).1 =
        .error (.injected .storageFull "full") := by
  intro channel sink
  have told : channel.Uninterrupted := by
    intro failure hf
    obtain rfl : (⟨.storageFull, "full"⟩ : InjectedFailure) = failure := Option.some.inj hf
    decide
  have closing := close_over_memory (α := String) told ⟨Disk.fresh, []⟩
  exact ⟨told, (closing.1 sink.textWriter).answer, (closing.2 (sink.shardingWriter .fromFirst)).answer⟩

end ShardedLines
