import ShardedLines.Proofs.Channel.Broadcast
import ShardedLines.Proofs.Writer.TextRun
import ShardedLines.Proofs.Writer.ShardRun

/-!
Sets of one shard.

A sharding writer over a set of one channel and a text writer over the channel itself take the same
steps, whatever the channel answers. A line around the records goes through two loops on the one
side and through one on the other, but the outer loop only hands over what the inner one answers
(`writeAll_single`). So after every call the answers and the framing are the same, and the set holds
the channel as the text writer leaves it (`single_shard_of_run`).
-/

namespace ShardedLines

/-- From these states a channel makes one copy of what it is given, and goes on doing so. -/
structure SingleCopy {κ : Type} [ByteChannel κ] (valid : κ × World → Prop) : Prop where
  width : ∀ {s}, valid s → ByteChannel.width s.1 = 1
  write : ∀ buffer s, valid s → valid (ByteChannel.write buffer s).2

namespace ShardSet

variable {κ : Type}

/-- An open set of one channel. -/
def single (s : κ × World) : ShardSet κ × World := (⟨[s.1], true⟩, s.2)

variable [ByteChannel κ] [Located κ]

theorem writeAll_single (line : Bytes) (s : κ × World) :
    ByteChannel.writeAll line (single s) =
      ((ByteChannel.writeAll line s).1, single (ByteChannel.writeAll line s).2) := by
  obtain ⟨channel, world⟩ := s
  rw [writeAll_eq]
  rcases hw : ByteChannel.writeAll line (channel, world) with ⟨fault | _, next, later⟩
  · simp only [single, broadcast, hw, Bool.true_or, if_true]
  · simp only [single, broadcast, hw, Bool.true_or, if_true]

theorem writeAllToShard_single (line : Bytes) (s : κ × World) :
    ShardingChannel.writeAllToShard 0 line (single s) =
      ((ByteChannel.writeAll line s).1, single (ByteChannel.writeAll line s).2) :=
  writeAllToShard_eq Nat.one_pos line s.2

/-- Closing the set closes its channel; a failure is logged besides. -/
theorem close_single (s : κ × World) :
    ∃ world, ByteChannel.close (single s) =
        ((ByteChannel.close s).1, ⟨[(ByteChannel.close s).2.1], false⟩, world) ∧
      world.disk = (ByteChannel.close s).2.2.disk := by
  obtain ⟨channel, world⟩ := s
  change ∃ later, ShardSet.close ⟨[channel], true⟩ world = _ ∧ _
  rcases hc : ByteChannel.close (channel, world) with ⟨fault | _, next, later⟩
  · refine ⟨later.record (.shardCloseFailed (Located.path next) fault), ?_, rfl⟩
    simp [ShardSet.close, closeEach, hc]
  · refine ⟨later, ?_, rfl⟩
    simp [ShardSet.close, closeEach, hc]

end ShardSet

open ShardSet (single)

section Single

variable {κ : Type} [ByteChannel κ] [Located κ] {valid : κ × World → Prop} {s : κ × World}

omit [Located κ] in
theorem SingleCopy.writeAll (one : SingleCopy valid) (line : Bytes) (h : valid s) :
    valid (ByteChannel.writeAll line s).2 :=
  writeFully_keeps one.write line h

namespace Framing

theorem writeLine?_single (one : SingleCopy valid) (line? : Option Bytes) (framing : Framing)
    (h : valid s) :
    framing.writeLine? line? (single s) =
        ((framing.writeLine? line? s).1, (framing.writeLine? line? s).2.1,
          single (framing.writeLine? line? s).2.2) ∧
      valid (framing.writeLine? line? s).2.2 := by
  cases line? with
  | none => exact ⟨rfl, h⟩
  | some line =>
    have hvalid := one.writeAll line h
    rcases hw : ByteChannel.writeAll line s with ⟨fault | _, t⟩
    · simp only [hw] at hvalid
      simp only [writeLine?, ShardSet.writeAll_single, hw]
      exact ⟨trivial, hvalid⟩
    · simp only [hw] at hvalid
      simp only [writeLine?, ShardSet.writeAll_single, hw, one.width hvalid]
      exact ⟨rfl, hvalid⟩

theorem ensureHeader_single (one : SingleCopy valid) (framing : Framing) (h : valid s) :
    framing.ensureHeader (single s) =
        ((framing.ensureHeader s).1, (framing.ensureHeader s).2.1,
          single (framing.ensureHeader s).2.2) ∧
      valid (framing.ensureHeader s).2.2 := by
  rw [ensureHeader_eq, ensureHeader_eq]
  exact writeLine?_single one _ _ h

theorem finish_single (one : SingleCopy valid) (framing : Framing) (h : valid s) :
    framing.finish (single s) =
      ((framing.finish s).1, (framing.finish s).2.1, single (framing.finish s).2.2) := by
  rw [finish_eq, finish_eq]
  obtain ⟨hheader, hvalid⟩ :=
    writeLine?_single one framing.dueHeader? { framing with headerTried := true } h
  rw [hheader]
  rcases hw : writeLine? framing.dueHeader? { framing with headerTried := true } s with
    ⟨fault | _, next, t⟩
  · rfl
  · rw [hw] at hvalid
    exact (writeLine?_single one framing.footerLine? next hvalid).1

end Framing

/-- The sharding writer that frames as a text writer does. -/
def TextWriter.sharding {α : Type} (router : Router) (writer : TextWriter α) : ShardingWriter α where
  coder := writer.coder
  framing := writer.framing
  router := router

variable {α : Type}

theorem addToShard_single (one : SingleCopy valid) (router : Router) (writer : TextWriter α)
    (record : α) (h : valid s) :
    (writer.sharding router).addToShard 0 record (single s) =
        ((writer.add record s).1, (writer.add record s).2.1.sharding router,
          single (writer.add record s).2.2) ∧
      valid (writer.add record s).2.2 := by
  obtain ⟨hheader, hvalid⟩ := Framing.ensureHeader_single one writer.framing h
  have hshards : ¬ ShardingChannel.shards (single s).1 ≤ 0 := Nat.not_succ_le_zero 0
  simp only [ShardingWriter.addToShard, if_neg hshards, TextWriter.sharding, hheader]
  rcases hh : writer.framing.ensureHeader s with ⟨fault | _, framing, t⟩
  · rw [hh] at hvalid
    simp only [TextWriter.add, hh]
    exact ⟨trivial, hvalid⟩
  · rw [hh] at hvalid
    rcases hl : framing.recordLine writer.coder record with fault | line
    · simp only [TextWriter.add, hh, hl]
      exact ⟨trivial, hvalid⟩
    · have hnext := one.writeAll line hvalid
      simp only [TextWriter.add, hh, hl, ShardSet.writeAllToShard_single]
      rcases hw : ByteChannel.writeAll line t with ⟨fault | _, u⟩
      · rw [hw] at hnext
        exact ⟨rfl, hnext⟩
      · rw [hw] at hnext
        exact ⟨rfl, hnext⟩

/-- A call for the only shard, by number or by turns. -/
def ShardCall.ToFirst : ShardCall α → Prop
  | add _ => True
  | addToShard shard _ => shard = 0

theorem ShardCall.target_of_toFirst {call : ShardCall α} (h : call.ToFirst) (start : Nat) :
    ∃ next, call.target 1 (.startingAt start) = (0, .startingAt next) := by
  cases call with
  | add record =>
    refine ⟨1, ?_⟩
    simp [target, Nat.mod_one]
  | addToShard shard record =>
    obtain rfl : shard = 0 := h
    exact ⟨start, rfl⟩

/-- Both writers take the same steps. -/
theorem run_single (one : SingleCopy valid) (writer : TextWriter α) (start : Nat)
    {calls : List (ShardCall α)} (toFirst : ∀ call ∈ calls, call.ToFirst) (h : valid s) :
    let steps : List (TextStep α κ) := calls.map fun call => .add call.record
    ∃ next, (writer.sharding (.startingAt start)).run (single s) calls =
        ((writer.run s steps).1, (writer.run s steps).2.1.sharding (.startingAt next),
          single (writer.run s steps).2.2) ∧
      valid (writer.run s steps).2.2 := by
  induction calls generalizing writer start s with
  | nil => exact ⟨start, rfl, h⟩
  | cons call rest ih =>
    obtain ⟨hcall, hrest⟩ := List.forall_mem_cons.mp toFirst
    obtain ⟨next, htarget⟩ := call.target_of_toFirst hcall start
    obtain ⟨hadd, hvalid⟩ :=
      addToShard_single one (.startingAt next) writer call.record h
    -- the router only moves on: with one shard every turn is that shard's
    have hone : (writer.sharding (.startingAt start)).call (single s) call =
        ((writer.add call.record s).1, (writer.add call.record s).2.1.sharding (.startingAt next),
          single (writer.add call.record s).2.2) := by
      have hshards : ShardingChannel.shards (single s).1 = 1 := rfl
      rw [ShardingWriter.call_eq _ call hshards]
      change ShardingWriter.addToShard _ (call.target 1 (.startingAt start)).1 _ _ = _
      rw [htarget, ← hadd]
      simp only [TextWriter.sharding, htarget]
    obtain ⟨last, hrun, hend⟩ := ih (writer.add call.record s).2.1 next hrest hvalid
    refine ⟨last, ?_, hend⟩
    simp only [ShardingWriter.run, hone]
    rw [hrun]
    rfl

end Single

theorem ScriptedChannel.singleCopy :
    SingleCopy fun s : ScriptedChannel × World => s.1.width = 1 where
  width h := h
  write _ _ h := (width_offer ..).trans h

theorem FileChannel.singleCopy : SingleCopy fun _ : FileChannel × World => True where
  width _ := rfl
  write _ _ _ := trivial

/-- What is the same where one shard and a single stream are compared: the answer, the counts, and
the channel with its file. -/
structure SameOutcome {α β κ : Type} (text : β × TextWriter α × κ × World)
    (sharding : β × ShardingWriter α × ShardSet κ × World) : Prop where
  answer : sharding.1 = text.1
  records : sharding.2.1.records = text.2.1.records
  bytes : sharding.2.1.bytes = text.2.1.bytes
  channel : sharding.2.2.1.shards = [text.2.2.1]
  disk : sharding.2.2.2.disk = text.2.2.2.disk

theorem close_single_same {α κ : Type} [ByteChannel κ] [Located κ] {valid : κ × World → Prop}
    (one : SingleCopy valid) (writer : TextWriter α) (router : Router) {s : κ × World}
    (h : valid s) : SameOutcome (writer.close s) ((writer.sharding router).close (single s)) := by
  rcases hf : writer.framing.finish s with ⟨framed, framing, t⟩
  have hsingle : writer.framing.finish (single s) = (framed, framing, single t) := by
    rw [Framing.finish_single one _ h, hf]
  have ctext := writer.closedFrom hf
  have csharding := (writer.sharding router).closedFrom hsingle
  obtain ⟨world, hclose, hdisk⟩ := ShardSet.close_single t
  refine ⟨?_, ?_, ?_, ?_, ?_⟩
  · rw [csharding.answer, ctext.answer, hclose]
  · rw [csharding.writer, ctext.writer]
    rfl
  · rw [csharding.writer, ctext.writer]
    rfl
  · rw [csharding.channel, ctext.channel, hclose]
  · rw [csharding.disk, ctext.disk, hclose, hdisk]

/-- Over one channel the two writers answer and count alike after each call of a run and at its end,
and leave the channel and its file alike, whatever the channel answers and whichever records can be
encoded. -/
theorem single_shard_of_run {α κ μ τ : Type} [ByteChannel κ] [Located κ]
    {valid : κ × World → Prop} (one : SingleCopy valid) (sink : TextSink α μ τ) (start : Nat)
    {calls : List (ShardCall α)} (toFirst : ∀ call ∈ calls, call.ToFirst) {s : κ × World}
    (h : valid s) :
    let text (calls : List (ShardCall α)) :=
      sink.textWriter.run s (calls.map fun call => .add call.record)
    let sharding (calls : List (ShardCall α)) :=
      (sink.shardingWriter (.startingAt start)).run (single s) calls
    (∀ earlier, earlier <+: calls → SameOutcome (text earlier) (sharding earlier)) ∧
    SameOutcome ((text calls).2.1.close (text calls).2.2)
      ((sharding calls).2.1.close (sharding calls).2.2) := by
  intro text sharding
  have same {calls : List (ShardCall α)} (toFirst : ∀ call ∈ calls, call.ToFirst) :
      ∃ next, sharding calls = ((text calls).1, (text calls).2.1.sharding (.startingAt next),
        single (text calls).2.2) ∧ valid (text calls).2.2 :=
    run_single one sink.textWriter start toFirst h
  constructor
  · intro earlier hearlier
    obtain ⟨next, hrun, _⟩ := same fun call hc => toFirst call (hearlier.subset hc)
    rw [hrun]
    exact ⟨rfl, rfl, rfl, rfl, rfl⟩
  · obtain ⟨next, hrun, hvalid⟩ := same toFirst
    rw [hrun]
    exact close_single_same one (text calls).2.1 (.startingAt next) hvalid

/-- A slow channel that is interrupted, takes nothing once and fails to close, with a record that
cannot be encoded; and a file on a device that is full. -/
theorem single_shard_of_run_failing :
    let again := ScriptLine.fail (.reported .interrupted "again")
    let slow : ScriptedChannel := {
      shards := [], closeFault := some (.reported .other "close")
      script := [again, .take 1, .take 1, .take 5, .take 1, .take 0, again] }
    let full : FileChannel := ⟨"/dev/full", some { location := ["dev", "full"] }⟩
    let world : World := ⟨Disk.fresh, []⟩
    let coder : Coder String :=
      ⟨fun text => (if text = "bad" then .error (.refused "bad") else .ok (), utf8 text)⟩
    let sink : TextSink String Empty Empty := .create "out" true (some "h") (some "f") coder
    let calls : List (ShardCall String) := [.add "a", .addToShard 0 "bad", .add "b", .add "c"]
    let ran := (sink.shardingWriter (.startingAt 7)).run (single (slow, world)) calls
    let closed := ran.2.1.close ran.2.2
    let filed := (sink.shardingWriter (.startingAt 0)).run (single (full, world)) [.add "a"]
    (ran.1 = [.ok 2, .error (.refused "bad"), .error .nothingAccepted, .ok 2] ∧
      ran.2.1.records = 2 ∧ ran.2.1.bytes = 6 ∧
      closed.1 = .error (.reported .other "close") ∧
      closed.2.2.1.shards.map ScriptedChannel.stream = [utf8 "h\na\nbc\nf\n"]) ∧
    filed.1 = [.ok 2] ∧ (filed.2.1.close filed.2.2).1 = .error (.system .storageFull) := by
  intro again slow full world coder sink calls ran closed filed
  constructor
  · have toFirst : ∀ call ∈ calls, call.ToFirst := by
      simp [calls, ShardCall.ToFirst]
    obtain ⟨hrun, hclose⟩ := single_shard_of_run ScriptedChannel.singleCopy sink 7 toFirst
      (s := (slow, world)) rfl
    have hran := hrun calls (List.prefix_refl calls)
    refine ⟨?_, ?_, ?_, ?_, ?_⟩
    · rw [hran.answer]
      cbv
    · rw [hran.records]
      cbv
    · rw [hran.bytes]
      cbv
    · rw [hclose.answer]
      cbv
    · rw [hclose.channel]
      cbv
  · have toFirst : ∀ call ∈ [ShardCall.add "a"], call.ToFirst := by
      simp [ShardCall.ToFirst]
    obtain ⟨hrun, hclose⟩ := single_shard_of_run FileChannel.singleCopy sink 0 toFirst
      (s := (full, world)) trivial
    have hran := hrun [.add "a"] (List.prefix_refl _)
    constructor
    · rw [hran.answer]
      cbv
    · rw [hclose.answer]
      cbv

end ShardedLines
