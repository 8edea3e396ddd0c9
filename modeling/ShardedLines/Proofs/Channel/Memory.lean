import ShardedLines.Channel.Memory
import ShardedLines.Proofs.Channel.Stream

/-!
Writing to memory channels.

What a memory channel was told decides how the writing of a line ends before any of it is written:
the line is written whole, or not at all. `lineFault?` is the fault in the second case. Only a
channel that was told to answer with interruptions is left out, as these would never end.
-/

namespace ShardedLines.MemoryChannel

/-- The channel was not told to answer with interruptions. -/
def Uninterrupted (channel : MemoryChannel) : Prop :=
  ∀ failure, channel.writeFailure = some failure → failure.kind ≠ .interrupted

/-- What the writing of a line fails with, if it does. An empty line asks nothing of the channel. -/
def lineFault? (channel : MemoryChannel) (line : Bytes) : Option Fault :=
  if line.isEmpty then none
  else match channel.refusal? with
    | some fault => some fault
    | none => if channel.writeLimit = some 0 then some .nothingAccepted else none

/-- The channel after more bytes have come to its stream. -/
def received (bytes : Bytes) (channel : MemoryChannel) : MemoryChannel :=
  { channel with stream := channel.stream ++ bytes }

variable {channel : MemoryChannel}

@[simp] theorem received_nil (channel : MemoryChannel) : channel.received [] = channel := by
  simp [received]

@[simp] theorem received_received (first second : Bytes) (channel : MemoryChannel) :
    (channel.received first).received second = channel.received (first ++ second) := by
  simp [received]

theorem write_eq (buffer : Bytes) (s : MemoryChannel × World) :
    ByteChannel.write buffer s = ((s.1.write buffer).1, (s.1.write buffer).2, s.2) := rfl

theorem write_of_refusal?_eq_some {fault : Fault} (h : channel.refusal? = some fault)
    (buffer : Bytes) : channel.write buffer = (.error fault, channel) := by
  simp [write, h]

theorem Uninterrupted.received (h : channel.Uninterrupted) (bytes : Bytes) :
    (channel.received bytes).Uninterrupted := h

theorem Uninterrupted.of_refusal? (h : channel.Uninterrupted) {fault : Fault}
    (hr : channel.refusal? = some fault) : fault.isInterruption = false := by
  unfold refusal? at hr
  split at hr
  · cases hr
    rfl
  · obtain ⟨failure, hf, rfl⟩ := Option.map_eq_some_iff.mp hr
    simpa [Fault.isInterruption, InjectedFailure.fault, Fault.kind] using h failure hf

/-- Either something refuses the write, or the channel takes what its limit allows. -/
theorem write_cases (buffer : Bytes) (channel : MemoryChannel) :
    (∃ fault, channel.refusal? = some fault ∧ channel.write buffer = (.error fault, channel)) ∨
      (channel.refusal? = none ∧ channel.write buffer =
        (.ok (channel.allowance buffer.length),
          channel.received (buffer.take (channel.allowance buffer.length)))) := by
  cases hr : channel.refusal? with
  | some fault => exact .inl ⟨fault, rfl, write_of_refusal?_eq_some hr buffer⟩
  | none => exact .inr ⟨rfl, write_of_refusal?_eq_none hr buffer⟩

/-- The stream of a memory channel, whatever else it was told. -/
def view : StreamView MemoryChannel where
  stream s := s.1.stream
  valid s := s.1.Uninterrupted
  accepted {s t buffer count} hs _ hw := by
    rw [write_eq] at hw
    rcases write_cases buffer s.1 with ⟨fault, _, h⟩ | ⟨_, h⟩
    · rw [h] at hw
      cases hw
    · rw [h] at hw
      cases hw
      exact ⟨hs, rfl⟩
  refused {s t buffer fault} hs _ hw := by
    rw [write_eq] at hw
    rcases write_cases buffer s.1 with ⟨_, hr, h⟩ | ⟨_, h⟩
    · rw [h] at hw
      cases hw
      exact ⟨hs, rfl, fun hi => absurd hi (by simp [hs.of_refusal? hr])⟩
    · rw [h] at hw
      cases hw

/-! ## Channels that take what they are offered -/

/-- The channel is open and takes at least one byte at a time. -/
def Takes (channel : MemoryChannel) : Prop :=
  channel.refusal? = none ∧ channel.writeLimit ≠ some 0

theorem Takes.received (h : channel.Takes) (bytes : Bytes) : (channel.received bytes).Takes := h

theorem Takes.allowance_pos (h : channel.Takes) {offered : Nat} (ho : 0 < offered) :
    0 < channel.allowance offered := by
  unfold allowance
  split
  · exact ho
  · rename_i most hm
    have hne : most ≠ 0 := fun h0 => h.2 (h0 ▸ hm)
    omega

theorem Takes.write (h : channel.Takes) (buffer : Bytes) :
    channel.write buffer =
      (.ok (channel.allowance buffer.length),
        channel.received (buffer.take (channel.allowance buffer.length))) :=
  write_of_refusal?_eq_none h.1 buffer

/-- The view of those channels that take what they are offered, if in pieces. -/
def takingView : StreamView MemoryChannel :=
  view.narrow (fun s => s.1.Takes) fun {s t buffer answer} hs hw => by
    rw [write_eq, Takes.write hs] at hw
    cases hw
    exact hs

theorem takingView_steady : takingView.Steady := by
  intro s buffer hs hb
  rw [write_eq, hs.2.write]
  exact hs.2.allowance_pos (List.length_pos_iff.mpr hb)

theorem takingView_keptByClosing : takingView.KeptByClosing := by
  intro s t _ hc _
  have h := congrArg MemoryChannel.stream hc
  exact h

theorem takingView_hasWidth : takingView.HasWidth 1 := fun _ _ => rfl

/-- Another limit may be set between two calls, as long as it lets bytes through. -/
theorem harmless_limitWrites {most : Nat} (h : 0 < most) :
    takingView.Harmless fun (channel, world) => (channel.limitWrites most, world) := by
  rintro ⟨channel, world⟩ ⟨hv, hr, _⟩
  exact ⟨⟨hv, hr, by simpa [limitWrites] using Nat.pos_iff_ne_zero.mp h⟩, rfl⟩

/-! ## Whole lines -/

theorem Takes.writeAll (h : channel.Takes) (line : Bytes) (world : World) :
    ByteChannel.writeAll line (channel, world) = (.ok (), channel.received line, world) := by
  -- the state is the first one with bytes received, so the law is about these bytes
  have law : WriteLaw (ByteChannel.write (κ := MemoryChannel)) ByteChannel.patience
      (fun s bytes => s = (channel.received bytes, world)) (· ++ ·) := by
    refine ⟨List.append_nil, fun _ _ _ => (List.append_assoc ..).symm, ?_, ?_⟩
    · rintro s t a buffer count rfl _ hw
      rw [write_eq, (h.received a).write] at hw
      cases hw
      simp
    · rintro s t a buffer fault rfl _ hw
      rw [write_eq, (h.received a).write] at hw
      cases hw
  have steady : ∀ a, ShardedLines.Steady (ByteChannel.write (κ := MemoryChannel))
      (fun s => s = (channel.received a, world)) := by
    rintro a s buffer rfl hb
    rw [write_eq, (h.received a).write]
    exact (h.received a).allowance_pos (List.length_pos_iff.mpr hb)
  obtain ⟨t, ht, hr⟩ := law.fullWrite_of_steady steady line (a := []) (s := (channel, world))
    (by simp)
  rw [ByteChannel.writeAll, ht, hr, List.nil_append]

/-- A line is written whole or not at all, and what the channel was told says which. -/
theorem writeAll_eq (h : channel.Uninterrupted) (line : Bytes) (world : World) :
    ByteChannel.writeAll line (channel, world) =
      match channel.lineFault? line with
      | some fault => (.error fault, channel, world)
      | none => (.ok (), channel.received line, world) := by
  by_cases hl : line = []
  · -- the channel is not asked, whatever it was told
    subst hl
    simp [ByteChannel.writeAll, lineFault?]
  · cases hr : channel.refusal? with
    | some fault =>
      have hw : ByteChannel.write line (channel, world) = (.error fault, channel, world) := by
        rw [write_eq, write_of_refusal?_eq_some hr]
      rw [ByteChannel.writeAll, writeFully_of_error hl hw (h.of_refusal? hr)]
      simp [lineFault?, hl, hr]
    | none =>
      by_cases h0 : channel.writeLimit = some 0
      · have ha : channel.allowance line.length = 0 := by simp [allowance, h0]
        have hw : ByteChannel.write line (channel, world) = (.ok 0, channel, world) := by
          rw [write_eq, write_of_refusal?_eq_none hr]
          simp [ha]
        rw [ByteChannel.writeAll, writeFully_of_nothing hl hw]
        simp [lineFault?, hl, hr, h0]
      · rw [Takes.writeAll ⟨hr, h0⟩]
        simp [lineFault?, hl, hr, h0]

/-! ## Shards -/

/-- The channel after more bytes have come to its stream, or to a shard. -/
def receivedAt (shard? : Option Nat) (bytes : Bytes) (channel : MemoryChannel) : MemoryChannel :=
  match shard? with
  | none => channel.received bytes
  | some shard => { channel with shards := channel.shards.modify shard (· ++ bytes) }

/-- The channel with the stream of another in the place of a shard. -/
def withShard (shard : Nat) (channel other : MemoryChannel) : MemoryChannel :=
  { other with stream := channel.stream, shards := channel.shards.set shard other.stream }

/-- A shard takes what a stream in its place would take. -/
theorem writeToShard_withShard {shard : Nat} (h : shard < channel.shards.length)
    (other : MemoryChannel) (buffer : Bytes) :
    (channel.withShard shard other).writeToShard shard buffer =
      ((other.write buffer).1, channel.withShard shard (other.write buffer).2) := by
  have hrefusal : (channel.withShard shard other).refusal? = other.refusal? := rfl
  have hget : (channel.withShard shard other).shards[shard]? = some other.stream :=
    List.getElem?_set_self h
  rw [writeToShard, hrefusal, write]
  cases other.refusal? with
  | some fault => rfl
  | none =>
    simp only [hget]
    simp only [withShard, List.set_set]
    rfl

/-- A line of a shard is written whole or not at all, as a line of the stream is. -/
theorem writeAllToShard_eq (h : channel.Uninterrupted) {shard : Nat}
    (hs : shard < channel.shards.length) (line : Bytes) (world : World) :
    ShardingChannel.writeAllToShard shard line (channel, world) =
      match channel.lineFault? line with
      | some fault => (.error fault, channel, world)
      | none => (.ok (), channel.receivedAt (some shard) line, world) := by
  let stream : MemoryChannel := { channel with stream := channel.shards[shard] }
  let embed : MemoryChannel × World → MemoryChannel × World :=
    fun (other, world) => (channel.withShard shard other, world)
  have hstart : (channel, world) = embed (stream, world) := by
    simp only [embed, stream, withShard, List.set_getElem_self]
  have hwrites : ∀ buffer s, ShardingChannel.writeToShard shard buffer (embed s) =
      ((ByteChannel.write buffer s).1, embed (ByteChannel.write buffer s).2) := by
    rintro buffer ⟨other, world⟩
    have hw := writeToShard_withShard hs other buffer
    exact congrArg (fun outcome : Outcome MemoryChannel Nat => (outcome.1, outcome.2, world)) hw
  have hwaits : ∀ buffer s, ShardingChannel.shardPatience shard buffer (embed s) =
      ByteChannel.patience buffer s := fun _ _ => rfl
  have hwhole : writeFully ByteChannel.write ByteChannel.patience line (stream, world) =
      match channel.lineFault? line with
      | some fault => (.error fault, stream, world)
      | none => (.ok (), stream.received line, world) := stream.writeAll_eq h line world
  rw [hstart]
  refine (writeFully_embed hwrites hwaits line (stream, world)).trans ?_
  rw [hwhole]
  cases channel.lineFault? line with
  | some fault => rfl
  | none =>
    refine congrArg (fun shards => (Except.ok (), { channel with shards }, world)) ?_
    refine List.ext_getElem (by simp) fun i _ _ => ?_
    simp only [List.getElem_set, List.getElem_modify]
    split <;> rename_i hi
    · subst hi
      rfl
    · rfl

end ShardedLines.MemoryChannel
