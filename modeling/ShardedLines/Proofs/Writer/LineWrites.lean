import ShardedLines.Proofs.Writer.ShardRun

/-!
The lines that calls write.

A call that adds a record writes the header, if it is due, and the line of the record; closing a
writer writes what is missing of header and footer. `addWrites` and `finishWrites` list these
writes, each with the state that it goes on from, and the calls do nothing else to the channel
(`add_eq`, `addToShard_eq`, `finish_eq_writes`). What a writer counts is read off the writes.
-/

namespace ShardedLines

/-! ## Writes of lines -/

/-- A line on its way to the single stream of a channel, or to one of its shards. -/
structure LineWrite (κ : Type) where
  shard? : Option Nat
  line : Bytes
  before : κ × World

namespace LineWrite

variable {κ : Type}

/-- The write of a line to the single stream, if there is a line. -/
def ofLine? (line? : Option Bytes) (s : κ × World) : Option (LineWrite κ) :=
  line?.map fun line => ⟨none, line, s⟩

theorem shard?_of_mem_ofLine? {line? : Option Bytes} {s : κ × World} {write : LineWrite κ}
    (h : write ∈ ofLine? line? s) : write.shard? = none := by
  obtain ⟨line, _, rfl⟩ := Option.map_eq_some_iff.mp h
  rfl

variable [ShardingChannel κ]

def outcome (write : LineWrite κ) : Outcome (κ × World) Unit :=
  match write.shard? with
  | none => ByteChannel.writeAll write.line write.before
  | some shard => ShardingChannel.writeAllToShard shard write.line write.before

def answer (write : LineWrite κ) : Except Fault Unit := write.outcome.1

def after (write : LineWrite κ) : κ × World := write.outcome.2

/-- The length of the line, if it was written. -/
def size (write : LineWrite κ) : Nat :=
  if write.answer.isOk then write.line.length else 0

/-- The bytes that a line around the records counts for: all copies that the channel makes. -/
def frameSize (write : LineWrite κ) : Nat :=
  write.size * ByteChannel.width write.after.1

theorem size_of_ok {write : LineWrite κ} (h : write.answer = .ok ()) :
    write.size = write.line.length := by
  rw [size, h]
  rfl

theorem size_of_error {write : LineWrite κ} {fault : Fault} (h : write.answer = .error fault) :
    write.size = 0 := by
  rw [size, h]
  rfl

/-- What some lines around the records count for. -/
def totalFrameSize (writes : List (LineWrite κ)) : Nat := (writes.map frameSize).sum

/-- The length of the lines that were written. -/
def totalSize (writes : List (LineWrite κ)) : Nat := (writes.map size).sum

/-- How a write ended, if there was one. -/
def answerOf (write? : Option (LineWrite κ)) : Except Fault Unit :=
  write?.elim (.ok ()) answer

/-- The state after some writes that go on from each other. -/
def afterAll (s : κ × World) (writes : List (LineWrite κ)) : κ × World :=
  writes.foldl (fun _ write => write.after) s

/-- The writes go on from each other. -/
def Consecutive (s : κ × World) : List (LineWrite κ) → Prop
  | [] => True
  | write :: rest => write.before = s ∧ Consecutive write.after rest

theorem totalFrameSize_append (first second : List (LineWrite κ)) :
    totalFrameSize (first ++ second) = totalFrameSize first + totalFrameSize second := by
  simp [totalFrameSize]

theorem totalSize_append (first second : List (LineWrite κ)) :
    totalSize (first ++ second) = totalSize first + totalSize second := by
  simp [totalSize]

theorem afterAll_append (s : κ × World) (first second : List (LineWrite κ)) :
    afterAll s (first ++ second) = afterAll (afterAll s first) second :=
  List.foldl_append

theorem Consecutive.append {s : κ × World} {first second : List (LineWrite κ)}
    (h : Consecutive s first) (h' : Consecutive (afterAll s first) second) :
    Consecutive s (first ++ second) := by
  induction first generalizing s with
  | nil => exact h'
  | cons write rest ih => exact ⟨h.1, ih h.2 h'⟩

theorem consecutive_ofLine? (line? : Option Bytes) (s : κ × World) :
    Consecutive s (ofLine? line? s).toList := by
  cases line? with
  | none => trivial
  | some line => exact ⟨rfl, trivial⟩

end LineWrite

namespace Framing

variable {α κ : Type} [ShardingChannel κ]

theorem writeLine?_eq (line? : Option Bytes) (framing : Framing) (s : κ × World) :
    framing.writeLine? line? s =
      (LineWrite.answerOf (LineWrite.ofLine? line? s),
        { framing with
          bytes := framing.bytes +
            LineWrite.totalFrameSize (LineWrite.ofLine? line? s).toList },
        LineWrite.afterAll s (LineWrite.ofLine? line? s).toList) := by
  cases line? with
  | none => rfl
  | some line =>
    let write : LineWrite κ := ⟨none, line, s⟩
    have hsize : LineWrite.totalFrameSize [write] = write.frameSize := Nat.add_zero _
    change writeLine? (some line) framing s = (write.answer,
      { framing with bytes := framing.bytes + LineWrite.totalFrameSize [write] }, write.after)
    rw [hsize]
    rcases hw : ByteChannel.writeAll line s with ⟨fault | _, t⟩
    · have hanswer : write.answer = .error fault := congrArg Prod.fst hw
      have hafter : write.after = t := congrArg Prod.snd hw
      rw [LineWrite.frameSize, LineWrite.size_of_error hanswer, hanswer, hafter, Nat.zero_mul]
      simp only [writeLine?, hw, Nat.add_zero]
    · have hanswer : write.answer = .ok () := congrArg Prod.fst hw
      have hafter : write.after = t := congrArg Prod.snd hw
      rw [LineWrite.frameSize, LineWrite.size_of_ok hanswer, hanswer, hafter]
      simp only [writeLine?, hw, write]

end Framing

/-! ## Adding a record -/

/-- The writes of a call that adds a record, and its answer. -/
structure AddWrites (κ : Type) where
  header? : Option (LineWrite κ)
  record? : Option (LineWrite κ)
  answer : Except Fault Nat

namespace AddWrites

variable {κ : Type} [ShardingChannel κ]

def writes (told : AddWrites κ) : List (LineWrite κ) :=
  told.header?.toList ++ told.record?.toList

end AddWrites

/-- The length of a line that a call answers with, if it does. -/
def answeredLength (answer : Except Fault Nat) : Nat := answer.toOption.getD 0

namespace Framing

variable {α κ : Type} [ShardingChannel κ]

/-- Writes the line of a record, and counts it. -/
def writeRecord (write : LineWrite κ) (framing : Framing) :
    Except Fault Nat × Framing × κ × World :=
  match write.outcome with
  | (.error fault, s) => (.error fault, framing, s)
  | (.ok (), s) => (.ok write.line.length, framing.recordWritten write.line.length, s)

theorem writeRecord_eq (write : LineWrite κ) (framing : Framing) :
    writeRecord write framing =
      (write.answer.map fun _ => write.line.length,
        { framing with
          records := framing.records + if write.answer.isOk then 1 else 0
          bytes := framing.bytes + write.size },
        write.after) := by
  rcases hw : write.outcome with ⟨fault | _, t⟩
  · have hanswer : write.answer = .error fault := congrArg Prod.fst hw
    have hafter : write.after = t := congrArg Prod.snd hw
    rw [LineWrite.size_of_error hanswer, hanswer, hafter]
    simp only [writeRecord, hw]
    rfl
  · have hanswer : write.answer = .ok () := congrArg Prod.fst hw
    have hafter : write.after = t := congrArg Prod.snd hw
    rw [LineWrite.size_of_ok hanswer, hanswer, hafter]
    simp only [writeRecord, hw]
    rfl

/-- Writes a record as a line to the single stream or to a shard, after the header if that is
due. -/
def addLine (framing : Framing) (shard? : Option Nat) (coder : Coder α) (record : α)
    (s : κ × World) : Except Fault Nat × Framing × κ × World :=
  match framing.ensureHeader s with
  | (.error fault, framing, s) => (.error fault, framing, s)
  | (.ok (), framing, s) =>
    match framing.recordLine coder record with
    | .error fault => (.error fault, framing, s)
    | .ok line => framing.writeRecord ⟨shard?, line, s⟩

/-- What a call writes that adds a record. -/
def addWrites (framing : Framing) (shard? : Option Nat) (coder : Coder α) (record : α)
    (s : κ × World) : AddWrites κ :=
  let header? := LineWrite.ofLine? framing.dueHeader? s
  match LineWrite.answerOf header? with
  | .error fault => ⟨header?, none, .error fault⟩
  | .ok () =>
    match framing.recordLine coder record with
    | .error fault => ⟨header?, none, .error fault⟩
    | .ok line =>
      let write : LineWrite κ := ⟨shard?, line, LineWrite.afterAll s header?.toList⟩
      ⟨header?, some write, write.answer.map fun _ => line.length⟩

/-- The framing after a call that adds a record. -/
def told (framing : Framing) (told : AddWrites κ) : Framing :=
  { framing with
    headerTried := true
    records := framing.records + if told.answer.isOk then 1 else 0
    bytes := framing.bytes + LineWrite.totalFrameSize told.header?.toList +
      LineWrite.totalSize told.record?.toList }

theorem addLine_eq (framing : Framing) (shard? : Option Nat) (coder : Coder α) (record : α)
    (s : κ × World) :
    let told := framing.addWrites shard? coder record s
    framing.addLine shard? coder record s =
      (told.answer, framing.told told, LineWrite.afterAll s told.writes) := by
  intro told
  have hline : ∀ bytes, { framing with headerTried := true, bytes }.recordLine coder record =
      framing.recordLine coder record := fun _ => rfl
  have hnone : ∀ (header? : Option (LineWrite κ)) answer,
      AddWrites.writes ⟨header?, none, answer⟩ = header?.toList := fun _ _ => List.append_nil _
  rw [addLine, ensureHeader_eq, writeLine?_eq]
  simp only [told, addWrites]
  cases LineWrite.answerOf (LineWrite.ofLine? framing.dueHeader? s) with
  | error fault =>
    rw [hnone]
    rfl
  | ok _ =>
    simp only [hline]
    cases framing.recordLine coder record with
    | error fault =>
      rw [hnone]
      rfl
    | ok line =>
      have hok : ∀ answer : Except Fault Unit,
          (answer.map fun _ => line.length).isOk = answer.isOk := by
        rintro (_ | _) <;> rfl
      simp only [writeRecord_eq, Framing.told, AddWrites.writes, LineWrite.afterAll_append, hok]
      rfl

/-- What a call writes: the header, and the record unless header or coder fail. -/
theorem addWrites_cases (framing : Framing) (shard? : Option Nat) (coder : Coder α) (record : α)
    (s : κ × World) :
    let header? := LineWrite.ofLine? framing.dueHeader? s
    let told := framing.addWrites shard? coder record s
    (∃ fault, told = ⟨header?, none, .error fault⟩ ∧
      (LineWrite.answerOf header? = .error fault ∨
        framing.recordLine coder record = .error fault)) ∨
    (∃ line, framing.recordLine coder record = .ok line ∧
      let write : LineWrite κ := ⟨shard?, line, LineWrite.afterAll s header?.toList⟩
      told = ⟨header?, some write, write.answer.map fun _ => line.length⟩) := by
  intro header? told
  simp only [told, addWrites]
  cases hh : LineWrite.answerOf (LineWrite.ofLine? framing.dueHeader? s) with
  | error fault => exact .inl ⟨fault, rfl, .inl rfl⟩
  | ok _ =>
    cases hr : framing.recordLine coder record with
    | error fault => exact .inl ⟨fault, rfl, .inr rfl⟩
    | ok line => exact .inr ⟨line, rfl, rfl⟩

theorem header?_addWrites (framing : Framing) (shard? : Option Nat) (coder : Coder α) (record : α)
    (s : κ × World) :
    (framing.addWrites shard? coder record s).header? = LineWrite.ofLine? framing.dueHeader? s := by
  rcases framing.addWrites_cases shard? coder record s with ⟨fault, h, _⟩ | ⟨line, _, h⟩ <;> rw [h]

/-- A record counts for what the call answers with. -/
theorem recordSize_addWrites (framing : Framing) (shard? : Option Nat) (coder : Coder α)
    (record : α) (s : κ × World) :
    LineWrite.totalSize (framing.addWrites shard? coder record s).record?.toList =
      answeredLength (framing.addWrites shard? coder record s).answer := by
  rcases framing.addWrites_cases shard? coder record s with ⟨fault, h, _⟩ | ⟨line, _, h⟩
  · rw [h]
    rfl
  · rw [h]
    let write : LineWrite κ :=
      ⟨shard?, line, LineWrite.afterAll s (LineWrite.ofLine? framing.dueHeader? s).toList⟩
    have hsize : LineWrite.totalSize [write] = write.size := Nat.add_zero _
    change LineWrite.totalSize [write] = answeredLength (write.answer.map fun _ => line.length)
    rw [hsize]
    cases hanswer : write.answer with
    | error fault => exact LineWrite.size_of_error hanswer
    | ok _ => exact LineWrite.size_of_ok hanswer

/-- A call that answers with a length has written the line of its record. -/
theorem exists_recordLine_of_answer {framing : Framing} {shard? : Option Nat} {coder : Coder α}
    {record : α} {s : κ × World} {length : Nat}
    (h : (framing.addWrites shard? coder record s).answer = .ok length) :
    ∃ bytes, framing.recordLine coder record = .ok bytes ∧ bytes.length = length := by
  rcases framing.addWrites_cases shard? coder record s with ⟨fault, hw, _⟩ | ⟨line, hline, hw⟩
  · rw [hw] at h
    cases h
  · refine ⟨line, hline, ?_⟩
    let write : LineWrite κ :=
      ⟨shard?, line, LineWrite.afterAll s (LineWrite.ofLine? framing.dueHeader? s).toList⟩
    rw [hw] at h
    change (write.answer.map fun _ => line.length) = .ok length at h
    cases ha : write.answer with
    | error fault =>
      rw [ha] at h
      cases h
    | ok _ =>
      rw [ha] at h
      exact Except.ok.inj h

/-- The header goes to the single stream, and the record where it is sent. -/
theorem shard?_of_mem_addWrites {framing : Framing} {shard? : Option Nat} {coder : Coder α}
    {record : α} {s : κ × World} {write : LineWrite κ}
    (h : write ∈ (framing.addWrites shard? coder record s).writes) :
    write.shard? = none ∨ write.shard? = shard? := by
  rw [AddWrites.writes, header?_addWrites] at h
  rcases List.mem_append.mp h with h | h
  · exact .inl (LineWrite.shard?_of_mem_ofLine? (Option.mem_toList.mp h))
  · rcases framing.addWrites_cases shard? coder record s with ⟨fault, hw, _⟩ | ⟨line, _, hw⟩
    · rw [hw] at h
      cases h
    · rw [hw] at h
      obtain rfl := List.mem_singleton.mp h
      exact .inr rfl

theorem consecutive_addWrites (framing : Framing) (shard? : Option Nat) (coder : Coder α)
    (record : α) (s : κ × World) :
    LineWrite.Consecutive s (framing.addWrites shard? coder record s).writes := by
  have hheader := LineWrite.consecutive_ofLine? framing.dueHeader? s
  rcases framing.addWrites_cases shard? coder record s with ⟨fault, h, _⟩ | ⟨line, _, h⟩ <;> rw [h]
  · exact hheader.append trivial
  · exact hheader.append ⟨rfl, trivial⟩

end Framing

theorem TextWriter.add_eq {α κ : Type} [ShardingChannel κ] (writer : TextWriter α) (record : α)
    (s : κ × World) :
    let told := writer.framing.addWrites none writer.coder record s
    writer.add record s =
      (told.answer, { writer with framing := writer.framing.told told },
        LineWrite.afterAll s told.writes) := by
  intro told
  have hline : writer.add record s =
      ((writer.framing.addLine none writer.coder record s).1,
        { writer with framing := (writer.framing.addLine none writer.coder record s).2.1 },
        (writer.framing.addLine none writer.coder record s).2.2) := by
    rw [add, Framing.addLine]
    rcases writer.framing.ensureHeader s with ⟨fault | _, framing, t⟩
    · rfl
    · dsimp only
      rcases framing.recordLine writer.coder record with fault | line
      · rfl
      · simp only [Framing.writeRecord, LineWrite.outcome]
        rcases ByteChannel.writeAll line t with ⟨fault | _, u⟩ <;> rfl
  rw [hline, Framing.addLine_eq]

theorem ShardingWriter.addToShard_eq {α κ : Type} [ShardingChannel κ] (writer : ShardingWriter α)
    {shard : Nat} (record : α) {s : κ × World} (h : shard < ShardingChannel.shards s.1) :
    let told := writer.framing.addWrites (some shard) writer.coder record s
    writer.addToShard shard record s =
      (told.answer, { writer with framing := writer.framing.told told },
        LineWrite.afterAll s told.writes) := by
  intro told
  have hline : writer.addToShard shard record s =
      ((writer.framing.addLine (some shard) writer.coder record s).1,
        { writer with framing := (writer.framing.addLine (some shard) writer.coder record s).2.1 },
        (writer.framing.addLine (some shard) writer.coder record s).2.2) := by
    rw [addToShard, if_neg (Nat.not_le_of_lt h), Framing.addLine]
    rcases writer.framing.ensureHeader s with ⟨fault | _, framing, t⟩
    · rfl
    · dsimp only
      rcases framing.recordLine writer.coder record with fault | line
      · rfl
      · simp only [Framing.writeRecord, LineWrite.outcome]
        rcases ShardingChannel.writeAllToShard shard line t with ⟨fault | _, u⟩ <;> rfl
  rw [hline, Framing.addLine_eq]

/-- A call that is directed to a shard that is there. -/
theorem ShardingWriter.call_of_lt {α κ : Type} [ShardingChannel κ] (writer : ShardingWriter α)
    (call : ShardCall α) {s : κ × World}
    (h : (call.target (ShardingChannel.shards s.1) writer.router).1 < ShardingChannel.shards s.1) :
    let target := call.target (ShardingChannel.shards s.1) writer.router
    let told := writer.framing.addWrites (some target.1) writer.coder call.record s
    writer.call s call =
      (told.answer, { writer with framing := writer.framing.told told, router := target.2 },
        LineWrite.afterAll s told.writes) := by
  intro target told
  rw [writer.call_eq call rfl]
  exact addToShard_eq { writer with router := target.2 } call.record h

/-- A call that is directed to no shard there is refused, and nothing is written. -/
theorem ShardingWriter.call_of_le {α κ : Type} [ShardingChannel κ] (writer : ShardingWriter α)
    (call : ShardCall α) {s : κ × World}
    (h : ShardingChannel.shards s.1 ≤ (call.target (ShardingChannel.shards s.1) writer.router).1) :
    let target := call.target (ShardingChannel.shards s.1) writer.router
    writer.call s call =
      (.error (.shardOutOfRange target.1 (ShardingChannel.shards s.1)),
        { writer with router := target.2 }, s) := by
  intro target
  rw [writer.call_eq call rfl]
  exact addToShard_of_le { writer with router := target.2 } rfl h call.record

/-! ## Closing a writer -/

/-- The writes of the lines that are missing at the end. -/
structure FinishWrites (κ : Type) where
  header? : Option (LineWrite κ)
  footer? : Option (LineWrite κ)

namespace FinishWrites

variable {κ : Type} [ShardingChannel κ]

def writes (told : FinishWrites κ) : List (LineWrite κ) :=
  told.header?.toList ++ told.footer?.toList

def answer (told : FinishWrites κ) : Except Fault Unit :=
  firstFailure (LineWrite.answerOf told.header?) (LineWrite.answerOf told.footer?)

end FinishWrites

namespace Framing

variable {κ : Type} [ShardingChannel κ]

/-- What is written at the end. The footer is left out where the header fails just before. -/
def finishWrites (framing : Framing) (s : κ × World) : FinishWrites κ :=
  let header? := LineWrite.ofLine? framing.dueHeader? s
  match LineWrite.answerOf header? with
  | .error _ => ⟨header?, none⟩
  | .ok () =>
    ⟨header?, LineWrite.ofLine? framing.footerLine? (LineWrite.afterAll s header?.toList)⟩

/-- The framing after the lines that are missing at the end. -/
def finished (framing : Framing) (told : FinishWrites κ) : Framing :=
  { framing with
    headerTried := true
    bytes := framing.bytes + LineWrite.totalFrameSize told.writes }

theorem finish_eq_writes (framing : Framing) (s : κ × World) :
    let told := framing.finishWrites s
    framing.finish s = (told.answer, framing.finished told, LineWrite.afterAll s told.writes) := by
  intro told
  rw [finish_eq, writeLine?_eq]
  simp only [told, finishWrites]
  cases hh : LineWrite.answerOf (LineWrite.ofLine? framing.dueHeader? s) with
  | error fault =>
    simp only [FinishWrites.answer, FinishWrites.writes, hh, finished, Option.toList_none,
      List.append_nil]
    rfl
  | ok _ =>
    simp only [writeLine?_eq, FinishWrites.answer, FinishWrites.writes, hh,
      LineWrite.afterAll_append, finished, LineWrite.totalFrameSize_append, ← Nat.add_assoc]
    rfl

theorem finishWrites_eq (framing : Framing) (s : κ × World) :
    let header? := LineWrite.ofLine? framing.dueHeader? s
    framing.finishWrites s = ⟨header?,
      if (LineWrite.answerOf header?).isOk then
        LineWrite.ofLine? framing.footerLine? (LineWrite.afterAll s header?.toList)
      else none⟩ := by
  intro header?
  rw [finishWrites]
  cases LineWrite.answerOf (LineWrite.ofLine? framing.dueHeader? s) <;> rfl

theorem mem_finishWrites {framing : Framing} {s : κ × World} {write : LineWrite κ}
    (h : write ∈ (framing.finishWrites s).writes) :
    let header? := LineWrite.ofLine? framing.dueHeader? s
    write ∈ header? ∨
      write ∈ LineWrite.ofLine? framing.footerLine? (LineWrite.afterAll s header?.toList) := by
  rw [finishWrites_eq] at h
  rcases List.mem_append.mp h with h | h
  · exact .inl (Option.mem_toList.mp h)
  · refine .inr (Option.mem_toList.mp ?_)
    split at h
    · exact h
    · cases h

theorem shard?_of_mem_finishWrites {framing : Framing} {s : κ × World} {write : LineWrite κ}
    (h : write ∈ (framing.finishWrites s).writes) : write.shard? = none := by
  rcases mem_finishWrites h with h | h
  · exact LineWrite.shard?_of_mem_ofLine? h
  · exact LineWrite.shard?_of_mem_ofLine? h

theorem consecutive_finishWrites (framing : Framing) (s : κ × World) :
    LineWrite.Consecutive s (framing.finishWrites s).writes := by
  rw [finishWrites_eq]
  refine (LineWrite.consecutive_ofLine? framing.dueHeader? s).append ?_
  dsimp only
  split
  · exact LineWrite.consecutive_ofLine? ..
  · trivial

end Framing

end ShardedLines
