import ShardedLines.Proofs.Writer.Kept
import ShardedLines.Sink.Open

/-!
Calls for shards that are not there.

A record that is sent past the last shard is refused before header, coder and channel are asked. The
call leaves everything as it was; where the router chose the shard, the router alone has moved on.
Between the calls of a run anything may happen to the channel, which other writers may share
(`follow`). Without the calls that name such a shard the run answers the other calls alike, and ends
in the same state (`stray_calls_leave_no_trace`).
-/

namespace ShardedLines

section Steps

variable {α κ : Type}

/-- The call names a shard that is not there. -/
def ShardCall.isStray (shards : Nat) : ShardCall α → Bool
  | .add _ => false
  | .addToShard shard _ => decide (shards ≤ shard)

/-- A step of a run: a call of the writer, or what others do to its channel and the world. -/
inductive ShardStep (α κ : Type) where
  | call (call : ShardCall α)
  | meanwhile (change : κ × World → κ × World)

def ShardStep.isStray (shards : Nat) : ShardStep α κ → Bool
  | .call asked => asked.isStray shards
  | .meanwhile _ => false

/-- A call that was made, how many shards there were, and what it was answered. -/
structure AnsweredCall (α : Type) where
  call : ShardCall α
  shards : Nat
  answer : Except Fault Nat

def AnsweredCall.isStray (made : AnsweredCall α) : Bool := made.call.isStray made.shards

end Steps

namespace ShardingWriter

variable {α κ : Type} [ShardingChannel κ]

/-- Goes through the steps of a run, and collects the calls with their answers. -/
def follow (writer : ShardingWriter α) (s : κ × World) :
    List (ShardStep α κ) → List (AnsweredCall α) × ShardingWriter α × κ × World
  | [] => ([], writer, s)
  | .meanwhile change :: rest => follow writer (change s) rest
  | .call call :: rest =>
    match writer.call s call with
    | (answer, next, t) =>
      match follow next t rest with
      | (made, final) => (⟨call, ShardingChannel.shards s.1, answer⟩ :: made, final)

/-- The steps of a run without the calls that name a shard which is not there at the time. -/
def withoutStrays (writer : ShardingWriter α) (s : κ × World) :
    List (ShardStep α κ) → List (ShardStep α κ)
  | [] => []
  | .meanwhile change :: rest => .meanwhile change :: withoutStrays writer (change s) rest
  | .call call :: rest =>
    match writer.call s call with
    | (_, next, t) =>
      if call.isStray (ShardingChannel.shards s.1) then withoutStrays next t rest
      else .call call :: withoutStrays next t rest

/-- A run on which nobody else touches the channel. -/
theorem follow_calls (writer : ShardingWriter α) (s : κ × World) (calls : List (ShardCall α)) :
    let followed := writer.follow s (calls.map .call)
    writer.run s calls = (followed.1.map AnsweredCall.answer, followed.2) := by
  induction calls generalizing writer s with
  | nil => rfl
  | cons call rest ih =>
    simp only [List.map_cons, run, follow, ih]

/-! ## One call -/

/-- A record for which the router chooses a shard that is not there. -/
theorem add_of_le (writer : ShardingWriter α) {s : κ × World} {shard : Nat} {router : Router}
    (hpos : 0 < ShardingChannel.shards s.1)
    (hpick : writer.router.pick (ShardingChannel.shards s.1) = (shard, router))
    (h : ShardingChannel.shards s.1 ≤ shard) (record : α) :
    writer.add record s =
      (.error (.shardOutOfRange shard (ShardingChannel.shards s.1)), { writer with router }, s) := by
  have htarget : (ShardCall.add record).target (ShardingChannel.shards s.1) writer.router =
      (shard, router) := by
    rw [ShardCall.target, if_neg (Nat.ne_of_gt hpos), hpick]
  have hcall := writer.call_of_le (ShardCall.add record) (s := s) (by rwa [htarget])
  rw [htarget] at hcall
  exact hcall

theorem add_of_no_shards (writer : ShardingWriter α) {s : κ × World}
    (h : ShardingChannel.shards s.1 = 0) (record : α) :
    writer.add record s = (.error (.shardOutOfRange 0 0), writer, s) := by
  simp [add, h]

/-- A call that names a shard which is not there is refused, and changes nothing. -/
theorem call_of_stray (writer : ShardingWriter α) {s : κ × World} {call : ShardCall α}
    (h : call.isStray (ShardingChannel.shards s.1) = true) :
    ∃ fault, writer.call s call = (.error fault, writer, s) ∧ fault.kind = .invalidInput := by
  cases call with
  | add record => cases h
  | addToShard shard record =>
    have hle : ShardingChannel.shards s.1 ≤ shard := of_decide_eq_true h
    exact ⟨_, writer.addToShard_of_le rfl hle record, rfl⟩

/-! ## Whole runs -/

theorem kind_of_stray (writer : ShardingWriter α) (s : κ × World) (steps : List (ShardStep α κ)) :
    ∀ made ∈ (writer.follow s steps).1, made.isStray = true →
      ∃ fault, made.answer = .error fault ∧ fault.kind = .invalidInput := by
  induction steps generalizing writer s with
  | nil =>
    intro made hm
    cases hm
  | cons step rest ih =>
    cases step with
    | meanwhile change => exact ih writer (change s)
    | call call =>
      intro made hm hstray
      rcases List.mem_cons.mp hm with rfl | hm
      · obtain ⟨fault, hcall, hkind⟩ := writer.call_of_stray hstray
        exact ⟨fault, congrArg Prod.fst hcall, hkind⟩
      · exact ih _ _ made hm hstray

/-- The other calls are answered alike, and the run ends alike. -/
theorem follow_withoutStrays (writer : ShardingWriter α) (s : κ × World)
    (steps : List (ShardStep α κ)) :
    writer.follow s (writer.withoutStrays s steps) =
      ((writer.follow s steps).1.filter fun made => !made.isStray, (writer.follow s steps).2) := by
  induction steps generalizing writer s with
  | nil => rfl
  | cons step rest ih =>
    cases step with
    | meanwhile change => exact ih writer (change s)
    | call call =>
      by_cases hstray : call.isStray (ShardingChannel.shards s.1) = true
      · -- the step that is left out has not moved the run on
        obtain ⟨fault, hcall, _⟩ := writer.call_of_stray hstray
        simp only [withoutStrays, follow, hcall, if_pos hstray, ih]
        rw [List.filter_cons_of_neg (by simpa [AnsweredCall.isStray] using hstray)]
      · simp only [withoutStrays, if_neg hstray, follow, ih]
        rw [List.filter_cons_of_pos (by simpa [AnsweredCall.isStray] using hstray)]

/-- Where nothing changes the number of shards, the stray calls are those that name one past it. -/
theorem withoutStrays_eq_filter {shards : Nat}
    (kept : KeptByWrites fun t : κ × World => ShardingChannel.shards t.1 = shards)
    (writer : ShardingWriter α) {s : κ × World} (hs : ShardingChannel.shards s.1 = shards)
    {steps : List (ShardStep α κ)}
    (changes : ∀ change, .meanwhile change ∈ steps → ∀ t : κ × World,
      ShardingChannel.shards t.1 = shards → ShardingChannel.shards (change t).1 = shards) :
    writer.withoutStrays s steps = steps.filter fun step => !step.isStray shards := by
  induction steps generalizing writer s with
  | nil => rfl
  | cons step rest ih =>
    have hrest : ∀ change, .meanwhile change ∈ rest → ∀ t : κ × World,
        ShardingChannel.shards t.1 = shards → ShardingChannel.shards (change t).1 = shards :=
      fun change hm => changes change (List.mem_cons_of_mem _ hm)
    cases step with
    | meanwhile change =>
      have hnext := ih writer (changes change List.mem_cons_self s hs) hrest
      rw [List.filter_cons_of_pos (by simp [ShardStep.isStray]), ← hnext]
      rfl
    | call call =>
      have hnext := ih (writer.call s call).2.1 (kept.call writer call hs) hrest
      by_cases hstray : call.isStray shards = true
      · rw [List.filter_cons_of_neg (by simpa [ShardStep.isStray] using hstray), ← hnext]
        simp only [withoutStrays, hs, if_pos hstray]
      · rw [List.filter_cons_of_pos (by simpa [ShardStep.isStray] using hstray), ← hnext]
        simp only [withoutStrays, hs, if_neg hstray]

end ShardingWriter

theorem MemoryChannel.length_writeToShard (shard : Nat) (buffer : Bytes) (channel : MemoryChannel) :
    (channel.writeToShard shard buffer).2.shards.length = channel.shards.length := by
  rw [writeToShard]
  split
  · rfl
  · split
    · rfl
    · exact List.length_set ..

theorem MemoryChannel.keepsShards (shards : Nat) :
    KeptByWrites fun s : MemoryChannel × World => ShardingChannel.shards s.1 = shards := by
  apply KeptByWrites.of_writes
  · intro buffer s hs
    rcases s.1.write_cases buffer with ⟨fault, _, hw⟩ | ⟨_, hw⟩
    · rw [write_eq, hw]
      exact hs
    · rw [write_eq, hw]
      exact hs
  · intro shard buffer s hs
    exact (s.1.length_writeToShard shard buffer).trans hs

theorem ShardSet.keepsShards {κ : Type} [ByteChannel κ] [Located κ] (shards : Nat) :
    KeptByWrites fun s : ShardSet κ × World => ShardingChannel.shards s.1 = shards where
  writeAll line s hs := (ShardSet.length_writeAll line s).trans hs
  writeAllToShard shard line s hs := (ShardSet.length_writeAllToShard shard line s).trans hs

/-- Whatever state writer and channel are in, a record for a shard that is not there is invalid input,
and nothing else comes of it, but for the router that chose the shard. So the calls that name such a
shard can be taken out of any run: the other calls are answered alike, and the writer, the channel and
the world come out alike, also when the writer is closed then. -/
theorem stray_calls_leave_no_trace {α κ : Type} [ShardingChannel κ] (writer : ShardingWriter α)
    (s : κ × World) :
    let shards := ShardingChannel.shards s.1
    (∀ shard record, shards ≤ shard →
      writer.addToShard shard record s = (.error (.shardOutOfRange shard shards), writer, s)) ∧
    (∀ record, shards = 0 →
      writer.add record s = (.error (.shardOutOfRange 0 0), writer, s)) ∧
    (∀ record shard router, 0 < shards → writer.router.pick shards = (shard, router) →
      shards ≤ shard → writer.add record s =
        (.error (.shardOutOfRange shard shards), { writer with router }, s)) ∧
    (∀ shard shards, (Fault.shardOutOfRange shard shards).kind = .invalidInput) ∧
    (∀ steps : List (ShardStep α κ),
      let all := writer.follow s steps
      let part := writer.follow s (writer.withoutStrays s steps)
      (∀ made ∈ all.1, made.isStray = true →
        ∃ fault, made.answer = .error fault ∧ fault.kind = .invalidInput) ∧
      part.1 = (all.1.filter fun made => !made.isStray) ∧
      part.2 = all.2 ∧
      part.2.1.close part.2.2 = all.2.1.close all.2.2) ∧
    (∀ steps : List (ShardStep α κ),
      KeptByWrites (fun t : κ × World => ShardingChannel.shards t.1 = shards) →
      (∀ change, .meanwhile change ∈ steps → ∀ t : κ × World,
        ShardingChannel.shards t.1 = shards → ShardingChannel.shards (change t).1 = shards) →
      writer.withoutStrays s steps = steps.filter fun step => !step.isStray shards) := by
  intro shards
  refine ⟨?_, ?_, ?_, ?_, ?_, ?_⟩
  · intro shard record h
    exact writer.addToShard_of_le rfl h record
  · intro record h
    exact writer.add_of_no_shards h record
  · intro record shard router hpos hpick h
    exact writer.add_of_le hpos hpick h record
  · intro shard shards
    rfl
  · intro steps all part
    have hpart : part = (all.1.filter (fun made => !made.isStray), all.2) :=
      writer.follow_withoutStrays s steps
    rw [hpart]
    exact ⟨writer.kind_of_stray s steps, rfl, rfl, rfl⟩
  · intro steps kept changes
    exact ShardingWriter.withoutStrays_eq_filter kept writer rfl changes

/-- A router that is always one past the last shard, a channel that fails for a while before the
header has been written, and a set of files that is closed. -/
theorem stray_calls_leave_no_trace_before_header :
    let sink : TextSink String Empty Empty := .create "out" true (some "h") none .text
    let writer := sink.shardingWriter (.ofFunction id)
    let world : World := ⟨⟨[], []⟩, []⟩
    let two : MemoryChannel := .sharded 2
    let bare : MemoryChannel := .sharded 0
    let closed : ShardSet FileChannel := ⟨[⟨"a", none⟩], false⟩
    let broken : ShardStep String MemoryChannel :=
      .meanwhile fun (channel, world) => (channel.failWrites .storageFull "full", world)
    let mended : ShardStep String MemoryChannel :=
      .meanwhile fun (channel, world) => (channel.clearWriteFailure, world)
    let steps : List (ShardStep String MemoryChannel) := [.call (.addToShard 2 "a"), broken,
      .call (.addToShard 7 "b"), .call (.addToShard 1 "c"), mended, .call (.addToShard 2 "d"),
      .call (.addToShard 1 "e"), .call (.add "f")]
    let others : List (ShardStep String MemoryChannel) :=
      [broken, .call (.addToShard 1 "c"), mended, .call (.addToShard 1 "e"), .call (.add "f")]
    let all := writer.follow (two, world) steps
    let part := writer.follow (two, world) others
    writer.addToShard 2 "a" (two, world) = (.error (.shardOutOfRange 2 2), writer, two, world) ∧
      writer.add "a" (bare, world) = (.error (.shardOutOfRange 0 0), writer, bare, world) ∧
      writer.add "a" (two, world) = (.error (.shardOutOfRange 2 2),
        { writer with router := (writer.router.pick 2).2 }, two, world) ∧
      part.1 = (all.1.filter fun made => !made.isStray) ∧
      part.2 = all.2 ∧
      writer.withoutStrays (closed, world) [.call (.addToShard 1 "a"), .call (.addToShard 0 "b")] =
        [.call (.addToShard 0 "b")] := by
  intro sink writer world two bare closed broken mended steps others all part
  obtain ⟨named, _, chosen, _, deleted, filtered⟩ := stray_calls_leave_no_trace writer (two, world)
  obtain ⟨_, unsharded, _⟩ := stray_calls_leave_no_trace writer (bare, world)
  obtain ⟨_, _, _, _, _, ofFiles⟩ := stray_calls_leave_no_trace writer (closed, world)
  have hothers : writer.withoutStrays (two, world) steps = others := by
    apply filtered steps (MemoryChannel.keepsShards 2)
    intro change hm t ht
    simp only [steps, broken, mended, List.mem_cons, reduceCtorEq, ShardStep.meanwhile.injEq,
      List.not_mem_nil, or_false, false_or] at hm
    rcases hm with rfl | rfl
    · exact ht
    · exact ht
  obtain ⟨_, hanswers, hend, _⟩ := deleted steps
  rw [hothers] at hanswers hend
  refine ⟨?_, ?_, ?_, hanswers, hend, ?_⟩
  · exact named 2 "a" (Nat.le_refl 2)
  · exact unsharded "a" rfl
  · exact chosen "a" 2 (writer.router.pick 2).2 Nat.zero_lt_two rfl (Nat.le_refl 2)
  · apply ofFiles [.call (.addToShard 1 "a"), .call (.addToShard 0 "b")] (ShardSet.keepsShards 1)
    intro change hm
    simp at hm

end ShardedLines
