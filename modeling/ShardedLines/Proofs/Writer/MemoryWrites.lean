import ShardedLines.Proofs.Writer.LineWrites

/-!
Lines written to memory channels.

A line that is written to the stream of a memory channel, or to a shard, comes there whole or leaves
the channel as it was (`LineWrite.allOrNothing`). `Grown` says what some writes in a row leave: the
stream and each shard have grown by the lines that were written to them, in order.
-/

namespace ShardedLines

/-- The lines that were written to a shard, or to the single stream, in order. -/
def linesTo (shard? : Option Nat) (writes : List (LineWrite MemoryChannel)) : Bytes :=
  (writes.filter fun write => write.shard? = shard? ∧ write.answer.isOk).flatMap LineWrite.line

@[simp] theorem linesTo_nil (shard? : Option Nat) : linesTo shard? [] = [] := rfl

@[simp] theorem linesTo_append (shard? : Option Nat)
    (first second : List (LineWrite MemoryChannel)) :
    linesTo shard? (first ++ second) = linesTo shard? first ++ linesTo shard? second := by
  simp [linesTo]

theorem linesTo_of_ok {write : LineWrite MemoryChannel} (h : write.answer = .ok ())
    (shard? : Option Nat) :
    linesTo shard? [write] = if write.shard? = shard? then write.line else [] := by
  by_cases hs : write.shard? = shard?
  · simp [linesTo, h, hs, Except.isOk, Except.toBool]
  · simp [linesTo, hs]

theorem linesTo_of_error {write : LineWrite MemoryChannel} {fault : Fault}
    (h : write.answer = .error fault) (shard? : Option Nat) : linesTo shard? [write] = [] := by
  simp [linesTo, h, Except.isOk, Except.toBool]

namespace MemoryChannel

variable {channel : MemoryChannel}

/-- The bytes of the stream and of all shards together. -/
def total (channel : MemoryChannel) : Nat :=
  channel.stream.length + totalLength channel.shards

/-- The shard is there, if one is meant and not the stream. -/
def Has (channel : MemoryChannel) (shard? : Option Nat) : Prop :=
  ∀ shard ∈ shard?, shard < channel.shards.length

theorem length_receivedAt (shard? : Option Nat) (line : Bytes) :
    (channel.receivedAt shard? line).shards.length = channel.shards.length := by
  cases shard? with
  | none => rfl
  | some shard => exact List.length_modify ..

theorem stream_receivedAt (shard? : Option Nat) (line : Bytes) :
    (channel.receivedAt shard? line).stream =
      channel.stream ++ if shard? = none then line else [] := by
  cases shard? with
  | none => rfl
  | some shard => exact (List.append_nil _).symm

theorem shards_receivedAt (shard? : Option Nat) (line : Bytes) (i : Nat) :
    (channel.receivedAt shard? line).shards[i]? =
      channel.shards[i]?.map (· ++ if shard? = some i then line else []) := by
  cases shard? with
  | none =>
    change channel.shards[i]? = _
    cases channel.shards[i]? <;> simp
  | some shard =>
    change (channel.shards.modify shard (· ++ line))[i]? = _
    rw [List.getElem?_modify]
    cases channel.shards[i]? with
    | none => rfl
    | some contents => by_cases hi : shard = i <;> simp [hi]

theorem total_receivedAt {shard? : Option Nat} (h : channel.Has shard?) (line : Bytes) :
    (channel.receivedAt shard? line).total = channel.total + line.length := by
  cases shard? with
  | none =>
    simp only [receivedAt, received, total, List.length_append]
    omega
  | some shard =>
    have hshard : (shard, line).1 < channel.shards.length := h shard rfl
    have hplace := totalLength_placeLine hshard
    rw [placeLine] at hplace
    simp only [receivedAt, total, hplace]
    omega

end MemoryChannel

namespace LineWrite

/-- The line came to its place, or nothing happened. -/
def AllOrNothing (write : LineWrite MemoryChannel) : Prop :=
  (write.answer = .ok () ∧
    write.after = (write.before.1.receivedAt write.shard? write.line, write.before.2)) ∨
  ∃ fault, write.answer = .error fault ∧ write.after = write.before

theorem allOrNothing {write : LineWrite MemoryChannel} (h : write.before.1.Uninterrupted)
    (has : write.before.1.Has write.shard?) : write.AllOrNothing := by
  obtain ⟨shard?, line, channel, world⟩ := write
  let write : LineWrite MemoryChannel := ⟨shard?, line, channel, world⟩
  cases hf : channel.lineFault? line with
  | some fault =>
    have houtcome : write.outcome = (.error fault, channel, world) := by
      cases shard? with
      | none =>
        change ByteChannel.writeAll line (channel, world) = _
        rw [MemoryChannel.writeAll_eq h, hf]
      | some shard =>
        change ShardingChannel.writeAllToShard shard line (channel, world) = _
        rw [MemoryChannel.writeAllToShard_eq h (has shard rfl), hf]
    exact .inr ⟨fault, congrArg Prod.fst houtcome, congrArg Prod.snd houtcome⟩
  | none =>
    have houtcome : write.outcome = (.ok (), channel.receivedAt shard? line, world) := by
      cases shard? with
      | none =>
        change ByteChannel.writeAll line (channel, world) = _
        rw [MemoryChannel.writeAll_eq h, hf]
        rfl
      | some shard =>
        change ShardingChannel.writeAllToShard shard line (channel, world) = _
        rw [MemoryChannel.writeAllToShard_eq h (has shard rfl), hf]
    exact .inl ⟨congrArg Prod.fst houtcome, congrArg Prod.snd houtcome⟩

end LineWrite

namespace MemoryChannel

/-- From one state of a channel to another, it has grown by the lines of these writes. -/
structure Grown (writes : List (LineWrite MemoryChannel))
    (before after : MemoryChannel) : Prop where
  uninterrupted : before.Uninterrupted → after.Uninterrupted
  length : after.shards.length = before.shards.length
  stream : after.stream = before.stream ++ linesTo none writes
  shards : ∀ i, after.shards[i]? = before.shards[i]?.map (· ++ linesTo (some i) writes)
  total : after.total = before.total + LineWrite.totalSize writes

/-- Nothing was written, whatever else changed. -/
theorem Grown.of_same {before after : MemoryChannel}
    (uninterrupted : before.Uninterrupted → after.Uninterrupted)
    (stream : after.stream = before.stream) (shards : after.shards = before.shards) :
    Grown [] before after where
  uninterrupted := uninterrupted
  length := by rw [shards]
  stream := by rw [stream, linesTo_nil, List.append_nil]
  shards i := by
    rw [shards]
    cases before.shards[i]? <;> simp
  total := by
    rw [MemoryChannel.total, stream, shards]
    rfl

theorem Grown.trans {first second : List (LineWrite MemoryChannel)}
    {before between after : MemoryChannel} (h : Grown first before between)
    (h' : Grown second between after) : Grown (first ++ second) before after where
  uninterrupted := h'.uninterrupted ∘ h.uninterrupted
  length := h'.length.trans h.length
  stream := by rw [h'.stream, h.stream, linesTo_append, List.append_assoc]
  shards i := by
    rw [h'.shards, h.shards]
    cases before.shards[i]? <;> simp
  total := by
    rw [h'.total, h.total, LineWrite.totalSize_append, Nat.add_assoc]

theorem grown_of_write {write : LineWrite MemoryChannel} (has : write.before.1.Has write.shard?)
    (h : write.AllOrNothing) : Grown [write] write.before.1 write.after.1 := by
  have hsize : LineWrite.totalSize [write] = write.size := Nat.add_zero _
  rcases h with ⟨hok, hafter⟩ | ⟨fault, herror, hafter⟩
  · refine ⟨?_, ?_, ?_, ?_, ?_⟩ <;> rw [hafter]
    · intro told
      cases hs : write.shard? <;> exact told
    · exact length_receivedAt ..
    · rw [linesTo_of_ok hok, stream_receivedAt]
    · intro i
      rw [linesTo_of_ok hok, shards_receivedAt]
    · rw [hsize, LineWrite.size_of_ok hok, total_receivedAt has]
  · refine ⟨?_, ?_, ?_, ?_, ?_⟩ <;> rw [hafter]
    · exact id
    · rw [linesTo_of_error herror, List.append_nil]
    · intro i
      rw [linesTo_of_error herror]
      cases write.before.1.shards[i]? <;> simp
    · rw [hsize, LineWrite.size_of_error herror, Nat.add_zero]

/-- Writes that go on from each other, to places that are there. -/
theorem grown_afterAll {s : MemoryChannel × World} {writes : List (LineWrite MemoryChannel)}
    (consecutive : LineWrite.Consecutive s writes) (h : s.1.Uninterrupted)
    (has : ∀ write ∈ writes, s.1.Has write.shard?) :
    Grown writes s.1 (LineWrite.afterAll s writes).1 ∧ ∀ write ∈ writes, write.AllOrNothing := by
  induction writes generalizing s with
  | nil => exact ⟨.of_same id rfl rfl, fun write hw => absurd hw List.not_mem_nil⟩
  | cons write rest ih =>
    obtain ⟨rfl, hrest⟩ := consecutive
    obtain ⟨hwrite, hothers⟩ := List.forall_mem_cons.mp has
    have hfirst := LineWrite.allOrNothing h hwrite
    have hgrown := grown_of_write hwrite hfirst
    obtain ⟨hlater, hall⟩ := ih hrest (hgrown.uninterrupted h) fun other ho shard hs =>
      hgrown.length ▸ hothers other ho shard hs
    exact ⟨hgrown.trans hlater, List.forall_mem_cons.mpr ⟨hfirst, hall⟩⟩

end MemoryChannel

/-! ## What is counted -/

/-- A memory channel makes one copy of every line. -/
theorem LineWrite.totalFrameSize_memory (writes : List (LineWrite MemoryChannel)) :
    totalFrameSize writes = totalSize writes :=
  congrArg List.sum (List.map_congr_left fun write _ => Nat.mul_one write.size)

namespace Framing

theorem bytes_told (framing : Framing) (told : AddWrites MemoryChannel) :
    (framing.told told).bytes = framing.bytes + LineWrite.totalSize told.writes := by
  rw [Framing.told, AddWrites.writes, LineWrite.totalSize_append, LineWrite.totalFrameSize_memory,
    Nat.add_assoc]

theorem bytes_finished (framing : Framing) (told : FinishWrites MemoryChannel) :
    (framing.finished told).bytes = framing.bytes + LineWrite.totalSize told.writes := by
  rw [finished, LineWrite.totalFrameSize_memory]

end Framing

end ShardedLines
