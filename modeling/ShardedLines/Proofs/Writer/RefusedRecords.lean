import ShardedLines.Proofs.Channel.Taking
import ShardedLines.Proofs.Writer.ShardRun
import ShardedLines.Proofs.Writer.TextRun

/-!
Records that a coder refuses.

A refused record may be the one that the header is written for, and nothing else of it is seen. A
writer that is called for the first time first gets the header out of the way (`settle`), and closing
it would do the same; from then on a refused record changes nothing (`Refuses`). So a run comes to
the same with these records and without them (`refused_records_leave_no_trace`).
-/

namespace ShardedLines

/-- What a coder refuses a record with, if it does, whatever it has appended before. -/
def Coder.refusal? {α : Type} (coder : Coder α) (record : α) : Option Fault :=
  match coder.bytes? record with
  | .ok _ => none
  | .error fault => some fault

theorem Framing.recordLine_of_refusal? {α : Type} {coder : Coder α} {record : α} {fault : Fault}
    (h : coder.refusal? record = some fault) (framing : Framing) :
    framing.recordLine coder record = .error fault := by
  rw [Coder.refusal?] at h
  rw [recordLine]
  cases hb : coder.bytes? record with
  | ok bytes =>
    rw [hb] at h
    cases h
  | error other =>
    rw [hb] at h
    cases h
    rfl

/-! ## Calls that are refused -/

section Calls

variable {ι σ : Type}

/-- Makes calls one after the other, and collects the answers. -/
def answerEach (call : ι → σ → Except Fault Nat × σ) (s : σ) :
    List ι → List (Except Fault Nat) × σ
  | [] => ([], s)
  | first :: rest =>
    ((call first s).1 :: (answerEach call (call first s).2 rest).1,
      (answerEach call (call first s).2 rest).2)

/-- The calls that are not refused. -/
def granted (refusal? : ι → Option Fault) (calls : List ι) : List ι :=
  calls.filter fun call => (refusal? call).isNone

/-- Some answers to all calls agree with others to those that are granted, and refused calls are
answered with what they are refused with. -/
structure Answered (refusal? : ι → Option Fault) (calls : List ι)
    (all part : List (Except Fault Nat)) : Prop where
  length : all.length = calls.length
  refused : ∀ call answer, (call, answer) ∈ calls.zip all → ∀ fault, refusal? call = some fault →
    answer = .error fault
  others : ((calls.zip all).filter fun (call, _) => (refusal? call).isNone).map Prod.snd = part

variable {refusal? : ι → Option Fault}

theorem Answered.nil : Answered refusal? [] [] [] := ⟨rfl, by simp, rfl⟩

theorem Answered.cons_refused {first : ι} {calls : List ι} {all part : List (Except Fault Nat)}
    {fault : Fault} (h : Answered refusal? calls all part) (hf : refusal? first = some fault) :
    Answered refusal? (first :: calls) (.error fault :: all) part where
  length := congrArg (· + 1) h.length
  refused call answer hm other ho := by
    rcases List.mem_cons.mp hm with hm | hm
    · obtain ⟨rfl, rfl⟩ := Prod.mk.inj hm
      exact congrArg Except.error (Option.some.inj (hf.symm.trans ho))
    · exact h.refused call answer hm other ho
  others := by
    rw [List.zip_cons_cons, List.filter_cons_of_neg (by simp [hf])]
    exact h.others

theorem Answered.cons_granted {first : ι} {calls : List ι} {all part : List (Except Fault Nat)}
    (h : Answered refusal? calls all part) (hf : refusal? first = none) (answer : Except Fault Nat) :
    Answered refusal? (first :: calls) (answer :: all) (answer :: part) where
  length := congrArg (· + 1) h.length
  refused call other hm fault ho := by
    rcases List.mem_cons.mp hm with hm | hm
    · obtain ⟨rfl, rfl⟩ := Prod.mk.inj hm
      rw [hf] at ho
      cases ho
    · exact h.refused call other hm fault ho
  others := by
    rw [List.zip_cons_cons, List.filter_cons_of_pos (by simp [hf]), List.map_cons]
    exact congrArg (answer :: ·) h.others

/-- In settled states, which calls do not leave, a refused call changes nothing. -/
structure Refuses (call : ι → σ → Except Fault Nat × σ) (refusal? : ι → Option Fault)
    (settled : σ → Prop) : Prop where
  keeps : ∀ first {s}, settled s → settled (call first s).2
  refused : ∀ {first s fault}, settled s → refusal? first = some fault →
    call first s = (.error fault, s)

variable {call : ι → σ → Except Fault Nat × σ} {settled : σ → Prop}

theorem Refuses.answerEach (refuses : Refuses call refusal? settled) (calls : List ι) {s : σ}
    (hs : settled s) :
    Answered refusal? calls (answerEach call s calls).1
        (answerEach call s (granted refusal? calls)).1 ∧
      (answerEach call s calls).2 = (answerEach call s (granted refusal? calls)).2 := by
  induction calls generalizing s with
  | nil => exact ⟨.nil, rfl⟩
  | cons first rest ih =>
    cases hf : refusal? first with
    | some fault =>
      have hgranted : granted refusal? (first :: rest) = granted refusal? rest :=
        List.filter_cons_of_neg (by simp [hf])
      obtain ⟨answered, hstate⟩ := ih hs
      rw [hgranted, ShardedLines.answerEach, refuses.refused hs hf]
      exact ⟨answered.cons_refused hf, hstate⟩
    | none =>
      have hgranted : granted refusal? (first :: rest) = first :: granted refusal? rest :=
        List.filter_cons_of_pos (by simp [hf])
      obtain ⟨answered, hstate⟩ := ih (refuses.keeps first hs)
      rw [hgranted]
      exact ⟨answered.cons_granted hf _, hstate⟩

/-- Two states that no call tells apart, and no observation, are not told apart by more calls. -/
theorem answerEach_of_same {γ : Type} {s t : σ} (same : ∀ first, call first s = call first t)
    {observe : σ → γ} (looks : observe s = observe t) (calls : List ι) :
    (answerEach call s calls).1 = (answerEach call t calls).1 ∧
      observe (answerEach call s calls).2 = observe (answerEach call t calls).2 := by
  cases calls with
  | nil => exact ⟨rfl, looks⟩
  | cons first rest =>
    rw [answerEach, answerEach, same first]
    exact ⟨rfl, rfl⟩

/-- A run from a state that the first call, or the observation at the end, would settle anyway. -/
theorem Refuses.observed {γ : Type} (refuses : Refuses call refusal? settled) {s t : σ}
    (ht : settled t) (same : ∀ first, call first s = call first t) {observe : σ → γ}
    (looks : observe s = observe t) (calls : List ι) :
    Answered refusal? calls (ShardedLines.answerEach call s calls).1
        (ShardedLines.answerEach call s (granted refusal? calls)).1 ∧
      observe (ShardedLines.answerEach call s calls).2 =
        observe (ShardedLines.answerEach call s (granted refusal? calls)).2 := by
  obtain ⟨hall, hend⟩ := answerEach_of_same same looks calls
  obtain ⟨hpart, hend'⟩ := answerEach_of_same same looks (granted refusal? calls)
  obtain ⟨answered, hstate⟩ := refuses.answerEach calls ht
  rw [hall, hpart, hend, hend', hstate]
  exact ⟨answered, rfl⟩

end Calls

/-! ## The header -/

namespace Framing

variable {κ : Type} [ByteChannel κ]

/-- Once the header has been tried, it is out of the way. -/
theorem ensureHeader_of_tried {framing : Framing} (h : framing.headerTried = true) (s : κ × World) :
    framing.ensureHeader s = (.ok (), framing, s) := by
  rw [ensureHeader, if_pos h]

/-- Where lines are written, the header can be got out of the way. -/
theorem exists_ensureHeader {valid : κ × World → Prop}
    (takes : Takes (ByteChannel.write (κ := κ)) ByteChannel.patience valid) (framing : Framing)
    {s : κ × World} (hs : valid s) :
    ∃ bytes t, framing.ensureHeader s = (.ok (), { framing with headerTried := true, bytes }, t) ∧
      valid t := by
  rw [ensureHeader_eq]
  cases framing.dueHeader? with
  | none => exact ⟨framing.bytes, s, rfl, hs⟩
  | some line =>
    obtain ⟨t, hw, ht⟩ := takes.writeFully line hs
    have hwrite : ByteChannel.writeAll line s = (.ok (), t) := hw
    refine ⟨framing.bytes + line.length * ByteChannel.width t.1, t, ?_, ht⟩
    rw [writeLine?, hwrite]

theorem finish_of_ensureHeader {framing next : Framing} {s t : κ × World}
    (h : framing.ensureHeader s = (.ok (), next, t)) (tried : next.headerTried = true) :
    framing.finish s = next.finish t := by
  rw [finish, finish, h, ensureHeader_of_tried tried]

end Framing

/-! ## Writers -/

namespace TextWriter

variable {α κ : Type} [ByteChannel κ]

/-- The writer and its channel after a record. -/
def addTo (record : α) (s : TextWriter α × κ × World) :
    Except Fault Nat × TextWriter α × κ × World :=
  s.1.add record s.2

theorem run_eq_answerEach (writer : TextWriter α) (s : κ × World) (records : List α) :
    writer.run s (records.map .add) = answerEach addTo (writer, s) records := by
  induction records generalizing writer s with
  | nil => rfl
  | cons record rest ih =>
    simp only [List.map_cons, run, ih]
    rfl

theorem add_of_ensureHeader {writer : TextWriter α} {framing : Framing} {s t : κ × World}
    (h : writer.framing.ensureHeader s = (.ok (), framing, t)) (tried : framing.headerTried = true)
    (record : α) : writer.add record s = { writer with framing }.add record t := by
  rw [add, add, h, Framing.ensureHeader_of_tried tried]

/-- The writer uses a coder, and the header is out of the way. -/
def Settled (coder : Coder α) (s : TextWriter α × κ × World) : Prop :=
  s.1.coder = coder ∧ s.1.framing.headerTried = true

theorem refuses (coder : Coder α) :
    Refuses (addTo (κ := κ)) coder.refusal? (Settled coder) where
  keeps record s := by
    obtain ⟨writer, s⟩ := s
    rintro ⟨hcoder, tried⟩
    change Settled coder (writer.add record s).2
    rw [add, Framing.ensureHeader_of_tried tried]
    dsimp only
    split
    · exact ⟨hcoder, tried⟩
    · split
      · exact ⟨hcoder, tried⟩
      · exact ⟨hcoder, tried⟩
  refused {record s fault} := by
    obtain ⟨writer, s⟩ := s
    rintro ⟨rfl, tried⟩ hf
    change writer.add record s = _
    rw [add, Framing.ensureHeader_of_tried tried]
    simp only [Framing.recordLine_of_refusal? hf]

end TextWriter

namespace ShardingWriter

variable {α κ : Type} [ShardingChannel κ] {shards : Nat}

/-- The writer and its channel after a record for one of so many shards. -/
def addTo (call : Fin shards × α) (s : ShardingWriter α × κ × World) :
    Except Fault Nat × ShardingWriter α × κ × World :=
  s.1.addToShard call.1 call.2 s.2

theorem run_eq_answerEach (writer : ShardingWriter α) (s : κ × World)
    (calls : List (Fin shards × α)) :
    writer.run s (calls.map fun (shard, record) => .addToShard shard record) =
      answerEach addTo (writer, s) calls := by
  induction calls generalizing writer s with
  | nil => rfl
  | cons first rest ih =>
    simp only [List.map_cons, run, ih]
    rfl

theorem addToShard_of_ensureHeader {writer : ShardingWriter α} {framing : Framing} {s t : κ × World}
    (h : writer.framing.ensureHeader s = (.ok (), framing, t)) (tried : framing.headerTried = true)
    (same : ShardingChannel.shards t.1 = ShardingChannel.shards s.1) {shard : Nat}
    (hlt : shard < ShardingChannel.shards s.1) (record : α) :
    writer.addToShard shard record s = { writer with framing }.addToShard shard record t := by
  rw [addToShard, addToShard, same, if_neg (Nat.not_le_of_lt hlt), if_neg (Nat.not_le_of_lt hlt), h,
    Framing.ensureHeader_of_tried tried]

/-- The writer uses a coder, the header is out of the way, and the channel is fit. -/
structure Settled (coder : Coder α) (valid : κ × World → Prop) (s : ShardingWriter α × κ × World) :
    Prop where
  coder : s.1.coder = coder
  tried : s.1.framing.headerTried = true
  valid : valid s.2

theorem refuses {valid : κ × World → Prop} (takes : TakesOnShards shards valid) (coder : Coder α) :
    Refuses addTo (fun call : Fin shards × α => coder.refusal? call.2) (Settled coder valid) where
  keeps call s := by
    obtain ⟨writer, s⟩ := s
    rintro ⟨hcoder, tried, hs⟩
    have hlt : ¬ ShardingChannel.shards s.1 ≤ call.1 := by
      rw [takes.shards_eq hs]
      exact Nat.not_le_of_lt call.1.isLt
    change Settled coder valid (writer.addToShard call.1 call.2 s).2
    rw [addToShard, if_neg hlt, Framing.ensureHeader_of_tried tried]
    cases hline : writer.framing.recordLine writer.coder call.2 with
    | error fault =>
      simp only [hline]
      exact ⟨hcoder, tried, hs⟩
    | ok line =>
      obtain ⟨t, hw, ht⟩ := (takes.shard call.1.isLt).writeFully line hs
      simp only [hline, ShardingChannel.writeAllToShard, hw]
      exact ⟨hcoder, tried, ht⟩
  refused {call s fault} := by
    obtain ⟨writer, s⟩ := s
    rintro ⟨rfl, tried, hs⟩ hf
    have hlt : ¬ ShardingChannel.shards s.1 ≤ call.1 := by
      rw [takes.shards_eq hs]
      exact Nat.not_le_of_lt call.1.isLt
    change writer.addToShard call.1 call.2 s = _
    rw [addToShard, if_neg hlt, Framing.ensureHeader_of_tried tried]
    simp only [Framing.recordLine_of_refusal? hf]

end ShardingWriter

/-! ## Whole runs -/

/-- A run of all calls cannot be told from a run of those that are granted: their answers, the count
of records, and the closing with its answer, the count of bytes, the channel and the world are the
same. -/
structure NoTrace {ι ω κ : Type} (refusal? : ι → Option Fault) (calls : List ι) (records : ω → Nat)
    (close : ω → κ × World → Except Fault Unit × ω × κ × World)
    (all part : List (Except Fault Nat) × ω × κ × World) : Prop where
  answers : Answered refusal? calls all.1 part.1
  records : records all.2.1 = records part.2.1
  closing : close all.2.1 all.2.2 = close part.2.1 part.2.2

theorem TextWriter.noTrace {α κ : Type} [ByteChannel κ] {valid : κ × World → Prop}
    (takes : Takes (ByteChannel.write (κ := κ)) ByteChannel.patience valid) (writer : TextWriter α)
    {s : κ × World} (hs : valid s) (records : List α) :
    NoTrace writer.coder.refusal? records TextWriter.records TextWriter.close
      (writer.run s (records.map .add))
      (writer.run s ((granted writer.coder.refusal? records).map .add)) := by
  obtain ⟨bytes, t, ht, _⟩ := Framing.exists_ensureHeader takes writer.framing hs
  let settled : TextWriter α := { writer with framing.headerTried := true, framing.bytes := bytes }
  have same : ∀ record, addTo record (writer, s) = addTo record (settled, t) :=
    add_of_ensureHeader ht rfl
  let observe (u : TextWriter α × κ × World) := (u.1.records, u.1.close u.2)
  have looks : observe (writer, s) = observe (settled, t) := by
    have hfinish := Framing.finish_of_ensureHeader ht rfl
    have hclose : writer.close s = settled.close t := by
      rw [close, close, hfinish]
    exact Prod.ext rfl hclose
  obtain ⟨answers, hobserve⟩ := (refuses writer.coder).observed ⟨rfl, rfl⟩ same looks records
  rw [run_eq_answerEach, run_eq_answerEach]
  exact ⟨answers, (Prod.mk.inj hobserve).1, (Prod.mk.inj hobserve).2⟩

theorem ShardingWriter.noTrace {α κ : Type} [ShardingChannel κ] {shards : Nat}
    {valid : κ × World → Prop} (takes : TakesOnShards shards valid) (writer : ShardingWriter α)
    {s : κ × World} (hs : valid s) (calls : List (Fin shards × α)) :
    let refusal? (call : Fin shards × α) := writer.coder.refusal? call.2
    let toShard (call : Fin shards × α) : ShardCall α := .addToShard call.1 call.2
    NoTrace refusal? calls ShardingWriter.records ShardingWriter.close
      (writer.run s (calls.map toShard)) (writer.run s ((granted refusal? calls).map toShard)) := by
  intro refusal? toShard
  obtain ⟨bytes, t, hheader, ht⟩ := Framing.exists_ensureHeader takes.stream writer.framing hs
  let settled : ShardingWriter α := { writer with framing.headerTried := true, framing.bytes := bytes }
  have hshards : ShardingChannel.shards t.1 = ShardingChannel.shards s.1 :=
    (takes.shards_eq ht).trans (takes.shards_eq hs).symm
  have same : ∀ call : Fin shards × α, addTo call (writer, s) = addTo call (settled, t) := by
    intro call
    have hlt : call.1 < ShardingChannel.shards s.1 := takes.shards_eq hs ▸ call.1.isLt
    exact addToShard_of_ensureHeader hheader rfl hshards hlt call.2
  let observe (u : ShardingWriter α × κ × World) := (u.1.records, u.1.close u.2)
  have looks : observe (writer, s) = observe (settled, t) := by
    have hfinish := Framing.finish_of_ensureHeader hheader rfl
    have hclose : writer.close s = settled.close t := by
      rw [close, close, hfinish]
    exact Prod.ext rfl hclose
  obtain ⟨answers, hobserve⟩ := (refuses takes writer.coder).observed ⟨rfl, rfl, ht⟩ same looks calls
  rw [run_eq_answerEach, run_eq_answerEach]
  exact ⟨answers, (Prod.mk.inj hobserve).1, (Prod.mk.inj hobserve).2⟩

/-- On a channel that takes what it is offered, at least a byte each time, no record that the coder
refuses leaves a trace, whatever the coder has appended before. The call answers what the coder
answered, and without it everything else is as it is. -/
theorem refused_records_leave_no_trace {α μ τ : Type} (sink : TextSink α μ τ) :
    (∀ {κ : Type} [ByteChannel κ] {valid : κ × World → Prop},
      Takes (ByteChannel.write (κ := κ)) ByteChannel.patience valid →
      ∀ (s : κ × World) (records : List α), valid s →
        let run records := sink.textWriter.run s (records.map .add)
        NoTrace sink.coder.refusal? records TextWriter.records TextWriter.close
          (run records) (run (granted sink.coder.refusal? records))) ∧
    (∀ {κ : Type} [ShardingChannel κ] {shards : Nat} {valid : κ × World → Prop},
      TakesOnShards shards valid →
      ∀ (s : κ × World) (router : Router) (calls : List (Fin shards × α)), valid s →
        let refusal? (call : Fin shards × α) := sink.coder.refusal? call.2
        let run (calls : List (Fin shards × α)) := (sink.shardingWriter router).run s
          (calls.map fun (shard, record) => .addToShard shard record)
        NoTrace refusal? calls ShardingWriter.records ShardingWriter.close
          (run calls) (run (granted refusal? calls))) :=
  ⟨fun takes _ records hs => sink.textWriter.noTrace takes hs records,
    fun takes _ router calls hs => (sink.shardingWriter router).noTrace takes hs calls⟩

/-- A coder that gives up in the middle of a record, on a channel that takes one byte at a time and on
two files. -/
theorem refused_records_leave_no_trace_partial :
    let coder : Coder String :=
      ⟨fun record =>
        if record = "no" then (.error (.refused "no"), utf8 "n") else (.ok (), utf8 record)⟩
    let sink : TextSink String Empty Empty := .create "out" true (some "h") (some "f") coder
    let slow : MemoryChannel := (MemoryChannel.sharded 2).limitWrites 1
    let files : ShardSet FileChannel :=
      ⟨[⟨"a", some { location := ["a"] }⟩, ⟨"b", some { location := ["b"] }⟩], true⟩
    let world : World := ⟨⟨[(["a"], .file []), (["b"], .file [])], []⟩, []⟩
    let text (records : List String) := sink.textWriter.run (slow, world) (records.map .add)
    let toShards {κ : Type} [ShardingChannel κ] (channel : κ) (calls : List (ShardCall String)) :=
      (sink.shardingWriter .fromFirst).run (channel, world) calls
    let refusal? (call : Fin 2 × String) := coder.refusal? call.2
    let calls : List (Fin 2 × String) := [(1, "no"), (0, "yes"), (1, "no")]
    let all : List (ShardCall String) := [.addToShard 1 "no", .addToShard 0 "yes", .addToShard 1 "no"]
    let part : List (ShardCall String) := [.addToShard 0 "yes"]
    NoTrace coder.refusal? ["no", "yes", "no"] TextWriter.records TextWriter.close
        (text ["no", "yes", "no"]) (text ["yes"]) ∧
      NoTrace refusal? calls ShardingWriter.records ShardingWriter.close
        (toShards slow all) (toShards slow part) ∧
      NoTrace refusal? calls ShardingWriter.records ShardingWriter.close
        (toShards files all) (toShards files part) := by
  intro coder sink slow files world text toShards refusal? calls all part
  obtain ⟨htext, hshards⟩ := refused_records_leave_no_trace sink
  have hslow : slow.Takes ∧ slow.shards.length = 2 := ⟨⟨rfl, by decide⟩, rfl⟩
  have hfiles : ∃ contents, FileChannel.shardView.Holds (files, world) contents ∧
      contents.length = 2 := by
    refine ⟨[[], []], ⟨rfl, List.forall_mem_cons.mpr ⟨⟨_, rfl, [], rfl, Nat.le_refl _⟩,
      List.forall_mem_singleton.mpr ⟨_, rfl, [], rfl, Nat.le_refl _⟩⟩, ?_, rfl⟩, rfl⟩
    refine List.pairwise_pair.mpr ?_
    intro handle hh other ho
    cases hh
    cases ho
    decide
  refine ⟨?_, ?_, ?_⟩
  · exact htext (MemoryChannel.takesOnShards 2).stream (slow, world) ["no", "yes", "no"] hslow
  · exact hshards (MemoryChannel.takesOnShards 2) (slow, world) .fromFirst calls hslow
  · exact hshards (ShardView.takesOnShards FileChannel.shardView_steady 2) (files, world) .fromFirst
      calls hfiles

end ShardedLines
