import ShardedLines.Proofs.Writer.MemoryWrites

/-!
Writers that share a memory channel.

Any number of writers take turns with one memory channel, in any order, while it is told to fail, to
recover or to close. A run is told by its history: what each step wrote, and what it answered.
Nothing is lost between the writers: at every point the channel holds as many bytes as they count
together, and stream and shards hold the lines that were written to them, in order
(`bytes_of_shared_memory`).
-/

namespace ShardedLines

/-- What is done to a memory channel beside the calls of its writers. -/
inductive MemoryCommand where
  | failWrites (kind : FaultKind) (message : String) (final : kind ≠ .interrupted)
  | clearWriteFailure
  | failClose (kind : FaultKind) (message : String)
  | limitWrites (most : Nat)
  | close

namespace MemoryCommand

def apply : MemoryCommand → MemoryChannel → MemoryChannel
  | failWrites kind message _, channel => channel.failWrites kind message
  | clearWriteFailure, channel => channel.clearWriteFailure
  | failClose kind message, channel => channel.failClose kind message
  | limitWrites most, channel => channel.limitWrites most
  | close, channel => channel.close.2

/-- No command takes away or adds bytes. -/
theorem grown_apply (command : MemoryCommand) (channel : MemoryChannel) :
    MemoryChannel.Grown [] channel (command.apply channel) := by
  cases command with
  | failWrites kind message final =>
    refine .of_same ?_ rfl rfl
    rintro - failure hf
    obtain rfl := Option.some.inj hf
    exact final
  | clearWriteFailure =>
    refine .of_same ?_ rfl rfl
    rintro - failure hf
    cases hf
  | failClose kind message => exact .of_same id rfl rfl
  | limitWrites most => exact .of_same id rfl rfl
  | close => exact .of_same id rfl rfl

end MemoryCommand

/-! ## Steps -/

section Steps

variable {ι κ : Type}

/-- A call of one of the writers, or a command to the channel. -/
inductive SharedStep (α : ι → Type) (β : κ → Type) where
  | addText (i : ι) (record : α i)
  | closeText (i : ι)
  | callSharding (j : κ) (call : ShardCall (β j))
  | closeSharding (j : κ)
  | command (command : MemoryCommand)

/-- The writers and their channel. -/
structure SharedMemory (α : ι → Type) (β : κ → Type) where
  texts : ∀ i, TextWriter (α i)
  shardings : ∀ j, ShardingWriter (β j)
  state : MemoryChannel × World

variable {α : ι → Type} {β : κ → Type}

/-- The writer that is called, if one is. -/
def SharedStep.writer? : SharedStep α β → Option (ι ⊕ κ)
  | addText i _ => some (.inl i)
  | closeText i => some (.inl i)
  | callSharding j _ => some (.inr j)
  | closeSharding j => some (.inr j)
  | command _ => none

namespace SharedMemory

/-- The lines that a step writes. -/
def writes (memory : SharedMemory α β) : SharedStep α β → List (LineWrite MemoryChannel)
  | .addText i record =>
    let writer := memory.texts i
    (writer.framing.addWrites none writer.coder record memory.state).writes
  | .closeText i => ((memory.texts i).framing.finishWrites memory.state).writes
  | .callSharding j call =>
    let writer := memory.shardings j
    let shards := memory.state.1.shards.length
    let shard := (call.target shards writer.router).1
    if shard < shards then
      (writer.framing.addWrites (some shard) writer.coder call.record memory.state).writes
    else []
  | .closeSharding j => ((memory.shardings j).framing.finishWrites memory.state).writes
  | .command _ => []

/-- All lines are written to places that are there. -/
theorem has_writes (memory : SharedMemory α β) (step : SharedStep α β) :
    ∀ write ∈ memory.writes step, memory.state.1.Has write.shard? := by
  have hstream : memory.state.1.Has none := fun shard hs => by cases hs
  intro write hw
  cases step with
  | addText i record =>
    rcases Framing.shard?_of_mem_addWrites hw with hs | hs <;> exact hs ▸ hstream
  | closeText i => exact Framing.shard?_of_mem_finishWrites hw ▸ hstream
  | callSharding j call =>
    rw [writes] at hw
    split at hw
    next hlt =>
      rcases Framing.shard?_of_mem_addWrites hw with hs | hs
      · exact hs ▸ hstream
      · intro shard hshard
        rw [hs] at hshard
        obtain rfl := Option.some.inj hshard
        exact hlt
    next => cases hw
  | closeSharding j => exact Framing.shard?_of_mem_finishWrites hw ▸ hstream
  | command command => cases hw

variable [DecidableEq ι] [DecidableEq κ]

/-- Takes a step. Calls that add a record have an answer. -/
def step (memory : SharedMemory α β) :
    SharedStep α β → Option (Except Fault Nat) × SharedMemory α β
  | .addText i record =>
    match (memory.texts i).add record memory.state with
    | (answer, writer, state) =>
      (some answer, { memory with texts := Function.update memory.texts i writer, state })
  | .closeText i =>
    match (memory.texts i).close memory.state with
    | (_, writer, state) =>
      (none, { memory with texts := Function.update memory.texts i writer, state })
  | .callSharding j call =>
    match (memory.shardings j).call memory.state call with
    | (answer, writer, state) =>
      (some answer, { memory with shardings := Function.update memory.shardings j writer, state })
  | .closeSharding j =>
    match (memory.shardings j).close memory.state with
    | (_, writer, state) =>
      (none, { memory with shardings := Function.update memory.shardings j writer, state })
  | .command command =>
    (none, { memory with state := (command.apply memory.state.1, memory.state.2) })

end SharedMemory

/-- What a step came to. -/
structure SharedEntry (α : ι → Type) (β : κ → Type) where
  step : SharedStep α β
  before : MemoryChannel × World
  writes : List (LineWrite MemoryChannel)
  answer? : Option (Except Fault Nat)
  after : MemoryChannel × World

namespace SharedEntry

/-- Beside these writes, a call does no more to the channel than to close it. -/
def Told (entry : SharedEntry α β) : Prop :=
  LineWrite.Consecutive entry.before entry.writes ∧
  match entry.step with
  | .addText _ _ => entry.after = LineWrite.afterAll entry.before entry.writes
  | .callSharding _ _ => entry.after = LineWrite.afterAll entry.before entry.writes
  | .closeText _ => entry.after.1 = (LineWrite.afterAll entry.before entry.writes).1.close.2
  | .closeSharding _ => entry.after.1 = (LineWrite.afterAll entry.before entry.writes).1.close.2
  | .command command => entry.writes = [] ∧ entry.after.1 = command.apply entry.before.1

/-- The step added a record for this writer. -/
def adds [DecidableEq ι] [DecidableEq κ] (writer : ι ⊕ κ) (entry : SharedEntry α β) : Bool :=
  entry.step.writer? = some writer && entry.answer?.any Except.isOk

/-- The entries go on from each other. -/
def Linked (s : MemoryChannel × World) : List (SharedEntry α β) → MemoryChannel × World → Prop
  | [], t => t = s
  | entry :: rest, t => entry.before = s ∧ Linked entry.after rest t

end SharedEntry

namespace SharedMemory

variable [DecidableEq ι] [DecidableEq κ]

def entry (memory : SharedMemory α β) (step : SharedStep α β) : SharedEntry α β where
  step := step
  before := memory.state
  writes := memory.writes step
  answer? := (memory.step step).1
  after := (memory.step step).2.state

/-- Takes some steps, and keeps their history. -/
def run (memory : SharedMemory α β) :
    List (SharedStep α β) → List (SharedEntry α β) × SharedMemory α β
  | [] => ([], memory)
  | step :: rest =>
    match run (memory.step step).2 rest with
    | (history, final) => (memory.entry step :: history, final)

/-! ## What a step does -/

/-- The writes of a step are all that it does to the channel, but for closing it. -/
theorem told_entry (memory : SharedMemory α β) (step : SharedStep α β) :
    (memory.entry step).Told := by
  cases step with
  | addText i record =>
    refine ⟨Framing.consecutive_addWrites .., ?_⟩
    exact congrArg (·.2.2) ((memory.texts i).add_eq record memory.state)
  | closeText i =>
    refine ⟨Framing.consecutive_finishWrites .., ?_⟩
    exact ((memory.texts i).closedFrom (Framing.finish_eq_writes _ memory.state)).channel
  | callSharding j call =>
    change LineWrite.Consecutive memory.state (memory.writes (.callSharding j call)) ∧
      ((memory.shardings j).call memory.state call).2.2 =
        LineWrite.afterAll memory.state (memory.writes (.callSharding j call))
    rw [writes]
    split
    next hlt =>
      rw [(memory.shardings j).call_of_lt call hlt]
      exact ⟨Framing.consecutive_addWrites .., rfl⟩
    next hle =>
      rw [(memory.shardings j).call_of_le call (Nat.le_of_not_lt hle)]
      exact ⟨trivial, rfl⟩
  | closeSharding j =>
    refine ⟨Framing.consecutive_finishWrites .., ?_⟩
    exact ((memory.shardings j).closedFrom (Framing.finish_eq_writes _ memory.state)).channel
  | command command => exact ⟨trivial, rfl, rfl⟩

/-- A step has stream and shards grow by its lines, each of them as a whole. -/
theorem grown_step (memory : SharedMemory α β) (step : SharedStep α β)
    (h : memory.state.1.Uninterrupted) :
    MemoryChannel.Grown (memory.writes step) memory.state.1 (memory.step step).2.state.1 ∧
      ∀ write ∈ memory.writes step, write.AllOrNothing := by
  obtain ⟨consecutive, hafter⟩ := memory.told_entry step
  obtain ⟨hgrown, hall⟩ := MemoryChannel.grown_afterAll consecutive h (memory.has_writes step)
  have hclosed : MemoryChannel.Grown (memory.writes step) memory.state.1
      (LineWrite.afterAll memory.state (memory.writes step)).1.close.2 := by
    have hclose := MemoryCommand.grown_apply .close
      (LineWrite.afterAll memory.state (memory.writes step)).1
    have htrans := hgrown.trans hclose
    rw [List.append_nil] at htrans
    exact htrans
  refine ⟨?_, hall⟩
  cases step with
  | addText i record => exact (congrArg Prod.fst hafter).symm ▸ hgrown
  | closeText i => exact hafter.symm ▸ hclosed
  | callSharding j call => exact (congrArg Prod.fst hafter).symm ▸ hgrown
  | closeSharding j => exact hafter.symm ▸ hclosed
  | command command => exact command.grown_apply memory.state.1

/-! ## What the writers count -/

omit [DecidableEq ι] [DecidableEq κ] in
/-- What a writer has counted. -/
def framing (memory : SharedMemory α β) : ι ⊕ κ → Framing :=
  Sum.elim (fun i => (memory.texts i).framing) fun j => (memory.shardings j).framing

/-- One writer counted so many bytes and records more, and the others nothing. -/
structure Counted (before after : ι ⊕ κ → Framing) (writer? : Option (ι ⊕ κ))
    (bytes records : Nat) : Prop where
  bytes : ∀ writer, (after writer).bytes =
    (before writer).bytes + if writer? = some writer then bytes else 0
  records : ∀ writer, (after writer).records =
    (before writer).records + if writer? = some writer then records else 0

theorem Counted.of_update {before after : ι ⊕ κ → Framing} {writer : ι ⊕ κ} {bytes records : Nat}
    {framing : Framing}
    (others : ∀ other, after other = if writer = other then framing else before other)
    (hb : framing.bytes = (before writer).bytes + bytes)
    (hr : framing.records = (before writer).records + records) :
    Counted before after (some writer) bytes records where
  bytes other := by
    rw [others]
    by_cases h : writer = other
    · rw [if_pos h, if_pos (congrArg some h), ← h, hb]
    · rw [if_neg h, if_neg fun hs => h (Option.some.inj hs), Nat.add_zero]
  records other := by
    rw [others]
    by_cases h : writer = other
    · rw [if_pos h, if_pos (congrArg some h), ← h, hr]
    · rw [if_neg h, if_neg fun hs => h (Option.some.inj hs), Nat.add_zero]

theorem framing_texts_update (memory : SharedMemory α β) (i : ι) (writer : TextWriter (α i))
    (state : MemoryChannel × World) (other : ι ⊕ κ) :
    { memory with texts := Function.update memory.texts i writer, state }.framing other =
      if .inl i = other then writer.framing else memory.framing other := by
  cases other with
  | inl other =>
    by_cases h : i = other
    · subst h
      simp [framing]
    · simp [framing, h, Function.update_of_ne (Ne.symm h)]
  | inr other => simp [framing]

theorem framing_shardings_update (memory : SharedMemory α β) (j : κ) (writer : ShardingWriter (β j))
    (state : MemoryChannel × World) (other : ι ⊕ κ) :
    { memory with shardings := Function.update memory.shardings j writer, state }.framing other =
      if .inr j = other then writer.framing else memory.framing other := by
  cases other with
  | inl other => simp [framing]
  | inr other =>
    by_cases h : j = other
    · subst h
      simp [framing]
    · simp [framing, h, Function.update_of_ne (Ne.symm h)]

/-- The writer that is called counts the lines that its call writes. -/
theorem counted_step (memory : SharedMemory α β) (step : SharedStep α β) :
    Counted memory.framing (memory.step step).2.framing step.writer?
      (LineWrite.totalSize (memory.writes step))
      (if (memory.step step).1.any Except.isOk then 1 else 0) := by
  cases step with
  | addText i record =>
    have hadd := (memory.texts i).add_eq record memory.state
    simp only [SharedMemory.step, hadd]
    exact .of_update (memory.framing_texts_update i _ _) (Framing.bytes_told ..) rfl
  | closeText i =>
    have hclose := ((memory.texts i).closedFrom (Framing.finish_eq_writes _ memory.state)).writer
    refine .of_update
      (memory.framing_texts_update i ((memory.texts i).close memory.state).2.1 _) ?_ ?_
    · rw [hclose]
      exact Framing.bytes_finished ..
    · rw [hclose]
      rfl
  | callSharding j call =>
    rw [writes]
    split
    next hlt =>
      have hcall := (memory.shardings j).call_of_lt call (s := memory.state) hlt
      simp only [SharedMemory.step, hcall]
      exact .of_update (memory.framing_shardings_update j _ _) (Framing.bytes_told ..) rfl
    next hle =>
      have hcall :=
        (memory.shardings j).call_of_le call (s := memory.state) (Nat.le_of_not_lt hle)
      simp only [SharedMemory.step, hcall]
      exact .of_update (memory.framing_shardings_update j _ _) rfl rfl
  | closeSharding j =>
    have hclose :=
      ((memory.shardings j).closedFrom (Framing.finish_eq_writes _ memory.state)).writer
    refine .of_update
      (memory.framing_shardings_update j ((memory.shardings j).close memory.state).2.1 _) ?_ ?_
    · rw [hclose]
      exact Framing.bytes_finished ..
    · rw [hclose]
      rfl
  | command command => exact ⟨fun _ => rfl, fun _ => rfl⟩

theorem Counted.sum_bytes [Fintype ι] [Fintype κ] {before after : ι ⊕ κ → Framing}
    {writer? : Option (ι ⊕ κ)} {bytes records : Nat}
    (h : Counted before after writer? bytes records) (none : writer? = none → bytes = 0) :
    ∑ writer, (after writer).bytes = ∑ writer, (before writer).bytes + bytes := by
  rw [Finset.sum_congr rfl fun writer _ => h.bytes writer, Finset.sum_add_distrib]
  cases writer? with
  | none => simp [none rfl]
  | some writer => simp

/-! ## Runs -/

/-- What a run does to the channel: its history is that of the steps, in order, and stream and
shards grow by its lines. -/
theorem grown_run (memory : SharedMemory α β) (steps : List (SharedStep α β))
    (h : memory.state.1.Uninterrupted) :
    let history := (memory.run steps).1
    let final := (memory.run steps).2
    history.map SharedEntry.step = steps ∧
    SharedEntry.Linked memory.state history final.state ∧
    (∀ entry ∈ history, entry.Told ∧ ∀ write ∈ entry.writes, write.AllOrNothing) ∧
    MemoryChannel.Grown (history.flatMap SharedEntry.writes) memory.state.1 final.state.1 := by
  induction steps generalizing memory with
  | nil => exact ⟨rfl, rfl, fun entry he => absurd he List.not_mem_nil, .of_same id rfl rfl⟩
  | cons step rest ih =>
    obtain ⟨hgrown, hall⟩ := memory.grown_step step h
    obtain ⟨hsteps, hlinked, hrest, hlater⟩ := ih (memory.step step).2 (hgrown.uninterrupted h)
    refine ⟨congrArg (step :: ·) hsteps, ⟨rfl, hlinked⟩, ?_, hgrown.trans hlater⟩
    exact List.forall_mem_cons.mpr ⟨⟨memory.told_entry step, hall⟩, hrest⟩

theorem records_run (memory : SharedMemory α β) (steps : List (SharedStep α β))
    (writer : ι ⊕ κ) :
    ((memory.run steps).2.framing writer).records =
      (memory.framing writer).records + (memory.run steps).1.countP (·.adds writer) := by
  induction steps generalizing memory with
  | nil => rfl
  | cons step rest ih =>
    have hstep := (memory.counted_step step).records writer
    have hrun : memory.run (step :: rest) =
        (memory.entry step :: ((memory.step step).2.run rest).1,
          ((memory.step step).2.run rest).2) := rfl
    have hadds : (memory.entry step).adds writer =
        (decide (step.writer? = some writer) && (memory.step step).1.any Except.isOk) := rfl
    have hcount : (if (memory.entry step).adds writer then 1 else 0) =
        if step.writer? = some writer then
          if (memory.step step).1.any Except.isOk then 1 else 0
        else 0 := by
      by_cases hw : step.writer? = some writer
      · rw [hadds, if_pos hw, decide_eq_true hw, Bool.true_and]
      · rw [hadds, if_neg hw, decide_eq_false hw, Bool.false_and]
        rfl
    rw [hrun, ih, hstep, List.countP_cons, hcount]
    omega

/-- The writers together count the lines that were written. -/
theorem sum_bytes_run [Fintype ι] [Fintype κ] (memory : SharedMemory α β)
    (steps : List (SharedStep α β)) :
    ∑ writer, ((memory.run steps).2.framing writer).bytes =
      ∑ writer, (memory.framing writer).bytes +
        LineWrite.totalSize ((memory.run steps).1.flatMap SharedEntry.writes) := by
  induction steps generalizing memory with
  | nil => rfl
  | cons step rest ih =>
    have hnone : step.writer? = none → LineWrite.totalSize (memory.writes step) = 0 := by
      intro h
      cases step with
      | command command => rfl
      | _ => cases h
    have hstep := (memory.counted_step step).sum_bytes hnone
    have hrun : (memory.run (step :: rest)).1.flatMap SharedEntry.writes =
        memory.writes step ++ ((memory.step step).2.run rest).1.flatMap SharedEntry.writes := rfl
    rw [hrun, LineWrite.totalSize_append, ← Nat.add_assoc, ← hstep]
    exact ih (memory.step step).2

end SharedMemory

end Steps

/-- However the calls of some writers and the commands to their memory channel follow each other, at
every point the channel holds as many bytes as the writers count together. Every line comes whole
or leaves the channel as it was, stream and shards hold the lines that were written to them in
order, and each writer counts as records those calls that answered with a length. -/
theorem bytes_of_shared_memory {ι κ : Type} [Fintype ι] [DecidableEq ι] [Fintype κ] [DecidableEq κ]
    {α : ι → Type} {β : κ → Type} {μ τ : Type} (texts : ∀ i, TextSink (α i) μ τ)
    (shardings : ∀ j, TextSink (β j) μ τ) (routers : κ → Router) (shards : Nat) (world : World)
    (steps : List (SharedStep α β)) :
    let start : SharedMemory α β :=
      { texts := fun i => (texts i).textWriter
        shardings := fun j => (shardings j).shardingWriter (routers j)
        state := (.sharded shards, world) }
    let history := (start.run steps).1
    let final := (start.run steps).2
    let channel := final.state.1
    let writes := history.flatMap SharedEntry.writes
    channel.stream.length + totalLength channel.shards =
      ∑ i, (final.texts i).bytes + ∑ j, (final.shardings j).bytes ∧
    (∀ i, (final.texts i).records = history.countP (·.adds (.inl i))) ∧
    (∀ j, (final.shardings j).records = history.countP (·.adds (.inr j))) ∧
    history.map SharedEntry.step = steps ∧ SharedEntry.Linked start.state history final.state ∧
    (∀ entry ∈ history, entry.Told ∧ ∀ write ∈ entry.writes, write.AllOrNothing) ∧
    channel.stream = linesTo none writes ∧
    channel.shards = (List.range shards).map fun shard => linesTo (some shard) writes := by
  intro start history final channel writes
  have honest : start.state.1.Uninterrupted := fun failure hf => by cases hf
  obtain ⟨hsteps, hlinked, hall, hgrown⟩ := start.grown_run steps honest
  have hbytes : ∑ writer, (final.framing writer).bytes = LineWrite.totalSize writes := by
    have hstart : ∑ writer, (start.framing writer).bytes = 0 := by
      refine Finset.sum_eq_zero fun writer _ => ?_
      cases writer <;> rfl
    rw [start.sum_bytes_run steps, hstart, Nat.zero_add]
  refine ⟨?_, ?_, ?_, hsteps, hlinked, hall, hgrown.stream, ?_⟩
  · have hempty : (MemoryChannel.sharded shards).total = 0 := by
      simp [MemoryChannel.total, MemoryChannel.sharded, totalLength]
    have htotal : channel.total = LineWrite.totalSize writes := by
      rw [hgrown.total, hempty, Nat.zero_add]
    rw [Fintype.sum_sum_type] at hbytes
    exact htotal.trans hbytes.symm
  · intro i
    exact (start.records_run steps (.inl i)).trans (Nat.zero_add _)
  · intro j
    exact (start.records_run steps (.inr j)).trans (Nat.zero_add _)
  · refine List.ext_getElem? fun i => ?_
    have hempty : start.state.1.shards[i]? = if i < shards then some [] else none :=
      List.getElem?_replicate
    rw [hgrown.shards i, hempty, List.getElem?_map]
    by_cases hi : i < shards
    · rw [if_pos hi, List.getElem?_range hi]
      rfl
    · rw [if_neg hi, List.getElem?_eq_none (by simpa using hi)]
      rfl

end ShardedLines
