import ShardedLines.Proofs.Channel.Broadcast
import ShardedLines.Proofs.Channel.File
import ShardedLines.Proofs.Writer.LineWrites

/-!
What a writer does not touch.

A property of the channel and the world that single writes keep is kept by whole runs of a sharding
writer, and by the lines that it adds at the end (`KeptByWrites`). For a set of shards this holds of
whatever can be said of each shard by itself. So writers leave the paths of the shards and the log
as they are, and the set open (`Quiet.keptByWrites`).
-/

namespace ShardedLines

/-- No line that is written, to the stream or to a shard, takes the property away. -/
structure KeptByWrites {κ : Type} [ShardingChannel κ] (kept : κ × World → Prop) : Prop where
  writeAll : ∀ line s, kept s → kept (ByteChannel.writeAll line s).2
  writeAllToShard : ∀ shard line s, kept s → kept (ShardingChannel.writeAllToShard shard line s).2

namespace KeptByWrites

variable {α κ : Type} [ShardingChannel κ] {kept : κ × World → Prop}

theorem of_writes (write : ∀ buffer s, kept s → kept (ByteChannel.write buffer s).2)
    (writeToShard : ∀ shard buffer s, kept s →
      kept (ShardingChannel.writeToShard shard buffer s).2) : KeptByWrites kept where
  writeAll line _ h := writeFully_keeps write line h
  writeAllToShard shard line _ h := writeFully_keeps (writeToShard shard) line h

theorem after (h : KeptByWrites kept) {write : LineWrite κ} (hb : kept write.before) :
    kept write.after := by
  obtain ⟨shard? | shard, line, before⟩ := write
  · exact h.writeAll line before hb
  · exact h.writeAllToShard shard line before hb

theorem afterAll (h : KeptByWrites kept) {writes : List (LineWrite κ)} {s : κ × World}
    (hw : LineWrite.Consecutive s writes) (hs : kept s) : kept (LineWrite.afterAll s writes) := by
  induction writes generalizing s with
  | nil => exact hs
  | cons write rest ih =>
    obtain ⟨rfl, hrest⟩ := hw
    exact ih hrest (h.after hs)

theorem finish (h : KeptByWrites kept) (framing : Framing) {s : κ × World} (hs : kept s) :
    kept (framing.finish s).2.2 :=
  Framing.finish_keeps h.writeAll framing hs

theorem call (h : KeptByWrites kept) (writer : ShardingWriter α) (call : ShardCall α)
    {s : κ × World} (hs : kept s) : kept (writer.call s call).2.2 := by
  by_cases hlt : (call.target (ShardingChannel.shards s.1) writer.router).1 <
      ShardingChannel.shards s.1
  · rw [writer.call_of_lt call hlt]
    exact h.afterAll (Framing.consecutive_addWrites ..) hs
  · rw [writer.call_of_le call (Nat.le_of_not_lt hlt)]
    exact hs

theorem run (h : KeptByWrites kept) (writer : ShardingWriter α) (calls : List (ShardCall α))
    {s : κ × World} (hs : kept s) : kept (writer.run s calls).2.2 := by
  induction calls generalizing writer s with
  | nil => exact hs
  | cons call rest ih =>
    have hnext := h.call writer call hs
    rcases hc : writer.call s call with ⟨answer, next, t⟩
    rw [hc] at hnext
    simp only [ShardingWriter.run, hc]
    exact ih next hnext

end KeptByWrites

/-! ## Sets of quiet channels -/

/-- Channels that stay where they are, leave the log to others, and are closed for good. -/
structure Quiet (κ : Type) [ByteChannel κ] [Located κ] : Prop where
  path_write : ∀ buffer (s : κ × World),
    Located.path (ByteChannel.write buffer s).2.1 = Located.path s.1
  log_write : ∀ buffer (s : κ × World), (ByteChannel.write buffer s).2.2.log = s.2.log
  path_close : ∀ s : κ × World, Located.path (ByteChannel.close s).2.1 = Located.path s.1
  log_close : ∀ s : κ × World, (ByteChannel.close s).2.2.log = s.2.log
  isOpen_close : ∀ s : κ × World, ByteChannel.isOpen (ByteChannel.close s).2.1 = false

theorem FileChannel.quiet : Quiet FileChannel where
  path_write := by
    rintro buffer ⟨⟨path, handle?⟩, world⟩
    cases handle? <;> rfl
  log_write := by
    rintro buffer ⟨⟨path, handle?⟩, world⟩
    cases handle? <;> rfl
  path_close := by
    rintro ⟨⟨path, handle?⟩, world⟩
    cases handle? <;> rfl
  log_close := by
    rintro ⟨⟨path, handle?⟩, world⟩
    cases handle? <;> rfl
  isOpen_close := by
    rintro ⟨⟨path, handle?⟩, world⟩
    cases handle? <;> rfl

theorem ScriptedChannel.quiet : Quiet ScriptedChannel where
  path_write _ _ := rfl
  log_write _ _ := rfl
  path_close _ := rfl
  log_close _ := rfl
  isOpen_close _ := rfl

namespace ShardSet

variable {κ : Type} [Located κ]

/-- The set is open, with its shards at these paths, and nothing was logged since. -/
structure Settled (paths : List String) (log : List Event) (s : ShardSet κ × World) : Prop where
  isOpen : s.1.isOpen = true
  paths : s.1.shards.map Located.path = paths
  log : s.2.log = log

variable [ByteChannel κ]

theorem log_broadcast (quiet : Quiet κ) (line : Bytes) (shards : List κ) (world : World) :
    (broadcast line shards world).2.2.log = world.log := by
  induction shards generalizing world with
  | nil => rfl
  | cons shard rest ih =>
    let kept (t : κ × World) : Prop := t.2.log = world.log
    have keeps : ∀ buffer t, kept t → kept (ByteChannel.write buffer t).2 :=
      fun buffer t ht => (quiet.log_write buffer t).trans ht
    have hkept : kept (ByteChannel.writeAll line (shard, world)).2 := writeFully_keeps keeps line rfl
    rcases hw : ByteChannel.writeAll line (shard, world) with ⟨fault | _, next, later⟩
    · rw [hw] at hkept
      simp only [broadcast, hw]
      exact hkept
    · rw [hw] at hkept
      simp only [broadcast, hw]
      exact (ih later).trans hkept

theorem log_write (quiet : Quiet κ) (buffer : Bytes) (set : ShardSet κ) (world : World) :
    (set.write buffer world).2.2.log = world.log := by
  have h := log_broadcast quiet buffer set.shards world
  rw [write]
  split
  · rfl
  · rcases hb : broadcast buffer set.shards world with ⟨fault | _, next, later⟩
    · rw [hb] at h
      exact h
    · rw [hb] at h
      exact h

theorem log_writeToShard (quiet : Quiet κ) (shard : Nat) (buffer : Bytes) (set : ShardSet κ)
    (world : World) : (set.writeToShard shard buffer world).2.2.log = world.log := by
  rw [writeToShard]
  split
  · rfl
  · split
    · rfl
    · exact quiet.log_write ..

end ShardSet

theorem Quiet.keptByWrites {κ : Type} [ByteChannel κ] [Located κ] (quiet : Quiet κ)
    (paths : List String) (log : List Event) :
    KeptByWrites (ShardSet.Settled (κ := κ) paths log) := by
  refine .of_writes ?_ ?_
  · rintro buffer ⟨set, world⟩ h
    exact {
      isOpen := (ShardSet.isOpen_write buffer set world).trans h.isOpen
      paths := (ShardSet.map_write quiet.path_write buffer set world).trans h.paths
      log := (ShardSet.log_write quiet buffer set world).trans h.log }
  · rintro shard buffer ⟨set, world⟩ h
    exact {
      isOpen := (ShardSet.isOpen_writeToShard shard buffer set world).trans h.isOpen
      paths := (ShardSet.map_writeToShard quiet.path_write shard buffer set world).trans h.paths
      log := (ShardSet.log_writeToShard quiet shard buffer set world).trans h.log }

end ShardedLines
