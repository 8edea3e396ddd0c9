import ShardedLines.Proofs.Writer.StrayCalls

/-!
Calls for shards that are there.

Memory channels and sets of files have the number of shards that they were opened with, and do not
say of any of these shards that it is out of range (`OfShards`). So a writer that is asked for one of
them gives such an answer only where its coder does (`OfShards.bytes?_of_isOutOfRange`).
-/

namespace ShardedLines

/-- The fault says that a shard is not there. -/
def Fault.IsOutOfRange (fault : Fault) : Prop :=
  ∃ shard shards, fault = .shardOutOfRange shard shards

/-- A channel with so many shards, none of which it takes to be out of range. -/
structure OfShards (κ : Type) [ShardingChannel κ] (shards : Nat) : Prop where
  kept : KeptByWrites fun s : κ × World => ShardingChannel.shards s.1 = shards
  stream : ∀ line (s : κ × World) fault, (ByteChannel.writeAll line s).1 = .error fault →
    ¬ fault.IsOutOfRange
  shard : ∀ shard < shards, ∀ line (s : κ × World) fault, ShardingChannel.shards s.1 = shards →
    (ShardingChannel.writeAllToShard shard line s).1 = .error fault → ¬ fault.IsOutOfRange

section Faults

variable {fault : Fault}

theorem not_isOutOfRange_channelClosed : ¬ Fault.channelClosed.IsOutOfRange := by
  rintro ⟨shard, shards, h⟩
  cases h

theorem not_isOutOfRange_nothingAccepted : ¬ Fault.nothingAccepted.IsOutOfRange := by
  rintro ⟨shard, shards, h⟩
  cases h

theorem writeFully_not_isOutOfRange {σ : Type} {write : Bytes → σ → Outcome σ Nat}
    {patience : Bytes → σ → Nat} (kept : σ → Prop)
    (keeps : ∀ buffer s, kept s → kept (write buffer s).2)
    (single : ∀ buffer s fault, kept s → (write buffer s).1 = .error fault → ¬ fault.IsOutOfRange)
    {buffer : Bytes} {s : σ} (hs : kept s)
    (h : (writeFully write patience buffer s).1 = .error fault) : ¬ fault.IsOutOfRange :=
  writeFully_fault kept keeps (¬ ·.IsOutOfRange) single not_isOutOfRange_nothingAccepted buffer hs h

/-! ## Memory -/

theorem MemoryChannel.not_isOutOfRange {channel : MemoryChannel}
    (h : channel.refusal? = some fault) : ¬ fault.IsOutOfRange := by
  unfold refusal? at h
  split at h
  · cases h
    exact not_isOutOfRange_channelClosed
  · obtain ⟨failure, -, rfl⟩ := Option.map_eq_some_iff.mp h
    rintro ⟨shard, shards, h⟩
    cases h

theorem MemoryChannel.ofShards (shards : Nat) : OfShards MemoryChannel shards where
  kept := MemoryChannel.keepsShards shards
  stream line s fault h := by
    refine writeFully_not_isOutOfRange (fun _ => True) (fun _ _ => id) ?_ trivial h
    intro buffer t fault _ hwrite
    rcases t.1.write_cases buffer with ⟨refusal, hrefusal, hw⟩ | ⟨-, hw⟩
    · rw [write_eq, hw] at hwrite
      cases hwrite
      exact not_isOutOfRange hrefusal
    · rw [write_eq, hw] at hwrite
      cases hwrite
  shard shard hlt line s fault hs h := by
    refine writeFully_not_isOutOfRange (fun t => ShardingChannel.shards t.1 = shards) ?_ ?_ hs h
    · exact fun buffer t ht => (t.1.length_writeToShard shard buffer).trans ht
    · intro buffer t fault ht hwrite
      have hwrite : (t.1.writeToShard shard buffer).1 = .error fault := hwrite
      have hlength : shard < t.1.shards.length := Nat.lt_of_lt_of_eq hlt ht.symm
      have hget := List.getElem?_eq_getElem hlength
      rw [writeToShard] at hwrite
      split at hwrite
      · rename_i refusal hrefusal
        cases hwrite
        exact not_isOutOfRange hrefusal
      · rw [hget] at hwrite
        cases hwrite

/-! ## Sets -/

namespace ShardSet

variable {κ : Type} [ByteChannel κ]
  (single : ∀ buffer (s : κ × World) fault, (ByteChannel.write buffer s).1 = .error fault →
    ¬ fault.IsOutOfRange)

include single

theorem broadcast_not_isOutOfRange {line : Bytes} {shards : List κ} {world : World}
    (h : (broadcast line shards world).1 = .error fault) : ¬ fault.IsOutOfRange := by
  induction shards generalizing world with
  | nil => cases h
  | cons shard rest ih =>
    rcases hw : ByteChannel.writeAll line (shard, world) with ⟨failure | _, next, later⟩
    · simp only [broadcast, hw] at h
      cases h
      exact writeFully_not_isOutOfRange (fun _ => True) (fun _ _ => id)
        (fun buffer t fault _ => single buffer t fault) trivial (congrArg Prod.fst hw)
    · simp only [broadcast, hw] at h
      exact ih h

theorem ofShards [Located κ] (shards : Nat) : OfShards (ShardSet κ) shards where
  kept := keepsShards shards
  stream line s fault h := by
    rw [writeAll_eq] at h
    split at h
    · exact broadcast_not_isOutOfRange single h
    · cases h
      exact not_isOutOfRange_channelClosed
  shard shard hlt line s fault hs h := by
    refine writeFully_not_isOutOfRange (fun t => ShardingChannel.shards t.1 = shards) ?_ ?_ hs h
    · exact fun buffer t ht => (length_writeToShard shard buffer t).trans ht
    · intro buffer t fault ht hwrite
      have hwrite : (t.1.writeToShard shard buffer t.2).1 = .error fault := hwrite
      have hlength : shard < t.1.shards.length := Nat.lt_of_lt_of_eq hlt ht.symm
      have hget := List.getElem?_eq_getElem hlength
      rw [writeToShard, hget] at hwrite
      split at hwrite
      · cases hwrite
        exact not_isOutOfRange_channelClosed
      · exact single buffer _ fault hwrite

end ShardSet

/-! ## Files -/

namespace FileHandle

variable {handle : FileHandle} {disk : Disk} {bytes : Bytes}

/-- All that can go wrong with an open file is up to the system. -/
theorem writeOut_fault (h : (handle.writeOut bytes disk).1 = .error fault) :
    ∃ kind, fault = .system kind := by
  unfold writeOut Disk.writeAt at h
  cases hnode : disk.find? handle.location with
  | none =>
    rw [hnode] at h
    cases h
    exact ⟨_, rfl⟩
  | some node =>
    rw [hnode] at h
    cases node <;> cases h
    · exact ⟨_, rfl⟩
    · exact ⟨_, rfl⟩

theorem flush_fault (h : (handle.flush disk).1 = .error fault) : ∃ kind, fault = .system kind := by
  rw [flush] at h
  split at h
  · cases h
  · split at h
    · cases h
    · exact writeOut_fault h

theorem add_fault (h : (handle.add bytes disk).1 = .error fault) : ∃ kind, fault = .system kind := by
  rw [add] at h
  split at h
  · cases h
  · split at h
    · cases h
    · rename_i hw
      cases h
      exact writeOut_fault (congrArg Prod.fst hw)

theorem write_fault (h : (handle.write bytes disk).1 = .error fault) :
    ∃ kind, fault = .system kind := by
  rw [write] at h
  split at h
  · exact add_fault h
  · split at h
    · exact add_fault h
    · rename_i hf
      cases h
      exact flush_fault (congrArg Prod.fst hf)

end FileHandle

theorem FileChannel.write_not_isOutOfRange (buffer : Bytes) (s : FileChannel × World) (fault : Fault)
    (h : (ByteChannel.write buffer s).1 = .error fault) : ¬ fault.IsOutOfRange := by
  have h : (s.1.write buffer s.2).1 = .error fault := h
  rw [write] at h
  split at h
  · cases h
    exact not_isOutOfRange_channelClosed
  · obtain ⟨kind, rfl⟩ := FileHandle.write_fault h
    rintro ⟨shard, shards, h⟩
    cases h

theorem FileChannel.ofShards (shards : Nat) : OfShards (ShardSet FileChannel) shards :=
  ShardSet.ofShards write_not_isOutOfRange shards

end Faults

/-! ## Answers -/

/-- Where a writer is asked for a shard that is there, it says that a shard is out of range only if
the coder does. -/
theorem OfShards.bytes?_of_isOutOfRange {α κ : Type} [ShardingChannel κ] {shards : Nat}
    (channel : OfShards κ shards) (writer : ShardingWriter α) {s : κ × World}
    (hs : ShardingChannel.shards s.1 = shards) {shard : Nat} (hlt : shard < shards) {record : α}
    {fault : Fault} (h : (writer.addToShard shard record s).1 = .error fault)
    (hfault : fault.IsOutOfRange) : writer.coder.bytes? record = .error fault := by
  have hanswer := congrArg Prod.fst (writer.addToShard_eq record (hs.symm ▸ hlt))
  rw [h] at hanswer
  let header? := LineWrite.ofLine? writer.framing.dueHeader? s
  rcases writer.framing.addWrites_cases (some shard) writer.coder record s with
    ⟨failure, htold, hfailed⟩ | ⟨line, -, htold⟩
  · rw [htold] at hanswer
    cases hanswer
    rcases hfailed with hheader | hrecord
    · cases hdue : writer.framing.dueHeader? with
      | none =>
        rw [hdue] at hheader
        cases hheader
      | some line =>
        rw [hdue] at hheader
        exact absurd hfault (channel.stream line s fault hheader)
    · rw [Framing.recordLine] at hrecord
      cases hbytes : writer.coder.bytes? record with
      | error failure =>
        rw [hbytes] at hrecord
        cases hrecord
        rfl
      | ok bytes =>
        rw [hbytes] at hrecord
        cases hrecord
  · rw [htold] at hanswer
    have hbefore : ShardingChannel.shards (LineWrite.afterAll s header?.toList).1 = shards :=
      channel.kept.afterAll (LineWrite.consecutive_ofLine? _ s) hs
    let write : LineWrite κ := ⟨some shard, line, LineWrite.afterAll s header?.toList⟩
    have hanswer : Except.error fault = write.answer.map fun _ => line.length := hanswer
    have hwrite : write.answer = .error fault := by
      rcases hw : write.answer with failure | _
      · rw [hw] at hanswer
        cases hanswer
        rfl
      · rw [hw] at hanswer
        cases hanswer
    exact absurd hfault (channel.shard shard hlt line _ fault hbefore hwrite)

end ShardedLines
