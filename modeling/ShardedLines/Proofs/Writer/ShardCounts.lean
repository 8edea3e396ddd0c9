import ShardedLines.Proofs.Channel.Broadcast
import ShardedLines.Proofs.Writer.LineWrites

/-!
What a sharding writer counts.

A record counts for its line. A header or a footer counts once for each shard if all shards got it,
and for nothing otherwise, also where some shards got it whole before another failed
(`bytes_of_shard_run`). So the count is that of the lines that came to shards, unless a line around
the records came to some shards and not to all.
-/

namespace ShardedLines

/-! ## Lines that are broadcast -/

namespace LineWrite

variable {κ : Type} [ByteChannel κ] [Located κ]

/-- How many shards the line comes to as a whole. -/
def copies (write : LineWrite (ShardSet κ)) : Nat :=
  ShardSet.copies write.line write.before

/-- The bytes of the copies that came to a shard as a whole. -/
def deliveredSize (write : LineWrite (ShardSet κ)) : Nat := write.line.length * write.copies

/-- What became of a line that was broadcast to so many shards. -/
structure Broadcast (shards : Nat) (write : LineWrite (ShardSet κ)) : Prop where
  toStream : write.shard? = none
  length : write.before.1.shards.length = shards
  copies_of_ok : write.answer = .ok () → write.copies = shards
  copies_of_error : ∀ fault, write.answer = .error fault → 0 < shards → write.copies < shards
  /-- Whatever the shards are, the copies are the shards that grow by the line. -/
  grown : ∀ (view : ShardView κ) contents,
    view.HoldsEach write.before.1.shards write.before.2 contents →
      ∃ next, view.HoldsEach write.after.1.shards write.after.2 next ∧
        grownBy write.line contents next = write.copies

theorem length_after (write : LineWrite (ShardSet κ)) :
    write.after.1.shards.length = write.before.1.shards.length := by
  obtain ⟨shard?, line, before⟩ := write
  cases shard? with
  | none => exact ShardSet.length_writeAll line before
  | some shard => exact ShardSet.length_writeAllToShard shard line before

theorem length_afterAll {s : ShardSet κ × World} {writes : List (LineWrite (ShardSet κ))}
    (h : Consecutive s writes) : (afterAll s writes).1.shards.length = s.1.shards.length := by
  induction writes generalizing s with
  | nil => rfl
  | cons write rest ih =>
    obtain ⟨rfl, hrest⟩ := h
    exact (ih hrest).trans write.length_after

variable {shards : Nat}

theorem broadcast_of_mem_ofLine? {line? : Option Bytes} {s : ShardSet κ × World}
    (hs : s.1.shards.length = shards) {write : LineWrite (ShardSet κ)}
    (h : write ∈ ofLine? line? s) : write.Broadcast shards := by
  obtain ⟨line, _, rfl⟩ := Option.map_eq_some_iff.mp h
  subst hs
  exact {
    toStream := rfl
    length := rfl
    copies_of_ok := ShardSet.copies_of_ok
    copies_of_error := fun _ => ShardSet.copies_lt_of_error
    grown := fun view contents hold => view.grownBy_writeAll line hold }

theorem broadcast_of_mem_finishWrites {framing : Framing} {s : ShardSet κ × World}
    (hs : s.1.shards.length = shards) {write : LineWrite (ShardSet κ)}
    (h : write ∈ (framing.finishWrites s).writes) : write.Broadcast shards := by
  rcases Framing.mem_finishWrites h with h | h
  · exact broadcast_of_mem_ofLine? hs h
  · exact broadcast_of_mem_ofLine? ((length_afterAll (consecutive_ofLine? ..)).trans hs) h

/-- A line around the records counts for all copies or for none. -/
theorem frameSize_eq {write : LineWrite (ShardSet κ)} (h : write.Broadcast shards) :
    write.frameSize = if write.answer.isOk then write.line.length * shards else 0 := by
  have hwidth : ByteChannel.width write.after.1 = shards := write.length_after.trans h.length
  rw [frameSize, size, hwidth]
  split
  · rfl
  · exact Nat.zero_mul shards

/-- A line that is empty cannot fail. -/
theorem line_ne_nil_of_error {write : LineWrite (ShardSet κ)} (h : write.Broadcast shards)
    {fault : Fault} (herror : write.answer = .error fault) : write.line ≠ [] := by
  obtain ⟨shard?, line, before⟩ := write
  obtain rfl : shard? = none := h.toStream
  rintro rfl
  have hok : answer (⟨none, [], before⟩ : LineWrite (ShardSet κ)) = .ok () :=
    congrArg Prod.fst (writeFully_nil ..)
  rw [hok] at herror
  cases herror

theorem frameSize_le {write : LineWrite (ShardSet κ)} (h : write.Broadcast shards) :
    write.frameSize ≤ write.deliveredSize := by
  rw [frameSize_eq h]
  cases hanswer : write.answer with
  | error fault => exact Nat.zero_le _
  | ok _ =>
    rw [deliveredSize, h.copies_of_ok hanswer]
    exact Nat.le_refl _

/-- The count is right unless the line failed after it had come to some shards. -/
theorem frameSize_eq_iff {write : LineWrite (ShardSet κ)} (h : write.Broadcast shards) :
    write.frameSize = write.deliveredSize ↔ write.answer = .ok () ∨ write.copies = 0 := by
  rw [frameSize_eq h, deliveredSize]
  cases hanswer : write.answer with
  | error fault =>
    have hl : write.line.length ≠ 0 := by
      simpa using line_ne_nil_of_error h hanswer
    constructor
    · intro heq
      exact .inr ((Nat.mul_eq_zero.mp heq.symm).resolve_left hl)
    · rintro (hok | hzero)
      · cases hok
      · rw [hzero, Nat.mul_zero]
        rfl
  | ok _ =>
    rw [h.copies_of_ok hanswer]
    exact ⟨fun _ => .inl rfl, fun _ => rfl⟩

end LineWrite

/-! ## Counts -/

theorem sum_map_eq_iff {α : Type} {f g : α → Nat} {xs : List α} (h : ∀ x ∈ xs, f x ≤ g x) :
    (xs.map f).sum ≤ (xs.map g).sum ∧ ((xs.map f).sum = (xs.map g).sum ↔ ∀ x ∈ xs, f x = g x) := by
  induction xs with
  | nil => simp
  | cons x xs ih =>
    obtain ⟨hx, hxs⟩ := List.forall_mem_cons.mp h
    obtain ⟨hle, heq⟩ := ih hxs
    simp only [List.map_cons, List.sum_cons, List.forall_mem_cons, ← heq]
    omega

section Counts

variable {κ : Type} [ByteChannel κ] [Located κ]

/-- The bytes that a writer counts after these lines around the records were broadcast, and records
of some length were written. -/
structure CountsFrames (shards : Nat) (frames : List (LineWrite (ShardSet κ)))
    (records bytes : Nat) : Prop where
  broadcast : ∀ write ∈ frames, write.Broadcast shards
  counted : bytes = records + (frames.map fun write =>
    if write.answer.isOk then write.line.length * shards else 0).sum
  le_delivered : bytes ≤ records + (frames.map LineWrite.deliveredSize).sum
  /-- Nothing that was delivered is missing from the count, unless a line came to some shards
  before it failed. -/
  eq_delivered_iff : bytes = records + (frames.map LineWrite.deliveredSize).sum ↔
    ∀ write ∈ frames, write.answer = .ok () ∨ write.copies = 0

theorem CountsFrames.of_frameSize {shards : Nat} {frames : List (LineWrite (ShardSet κ))}
    {records bytes : Nat} (broadcast : ∀ write ∈ frames, write.Broadcast shards)
    (h : bytes = records + LineWrite.totalFrameSize frames) :
    CountsFrames shards frames records bytes := by
  obtain ⟨hle, heq⟩ := sum_map_eq_iff (f := LineWrite.frameSize) (g := LineWrite.deliveredSize)
    fun write hw => LineWrite.frameSize_le (broadcast write hw)
  have hsizes : frames.map LineWrite.frameSize = frames.map fun write =>
      if write.answer.isOk then write.line.length * shards else 0 :=
    List.map_congr_left fun write hw => LineWrite.frameSize_eq (broadcast write hw)
  rw [LineWrite.totalFrameSize] at h
  refine ⟨broadcast, hsizes ▸ h, by omega, ?_⟩
  rw [h, Nat.add_left_cancel_iff, heq]
  exact forall₂_congr fun write hw => LineWrite.frameSize_eq_iff (broadcast write hw)

end Counts

/-! ## Runs -/

/-- A call that answers with a length was directed to a shard that is there, and the length is that
of its record's line. -/
def AnswersLength {α : Type} (shards : Nat) (line : α → Except Fault Bytes) (entry : Nat × α)
    (answer : Except Fault Nat) : Prop :=
  ∀ length, answer = .ok length →
    entry.1 < shards ∧ ∃ bytes, line entry.2 = .ok bytes ∧ bytes.length = length

/-- The framing after calls with these answers, of which the first that was directed to a shard
counted so many bytes for the header. -/
def Framing.counted (started : Bool) (header : Nat) (answers : List (Except Fault Nat))
    (framing : Framing) : Framing :=
  { framing with
    headerTried := framing.headerTried || started
    records := framing.records + answers.countP Except.isOk
    bytes := framing.bytes + (if started then header else 0) + (answers.map answeredLength).sum }

namespace Framing

theorem counted_nil (header : Nat) (framing : Framing) :
    framing.counted false header [] = framing := by
  simp [counted]

theorem counted_refused (header : Nat) (fault : Fault) (framing : Framing) :
    framing.counted false header [.error fault] = framing := by
  simp [counted, answeredLength, Except.toOption, Except.isOk, Except.toBool]

/-- The bytes that the header counts for where it is still due. -/
def headerSize {κ : Type} [ShardingChannel κ] (framing : Framing) (s : κ × World) : Nat :=
  LineWrite.totalFrameSize (LineWrite.ofLine? framing.dueHeader? s).toList

/-- Once a call was directed to a shard, the header is out of the way. -/
theorem dueHeader?_counted (started : Bool) (header : Nat) (answers : List (Except Fault Nat))
    (framing : Framing) :
    (framing.counted started header answers).dueHeader? =
      if started then none else framing.dueHeader? := by
  cases started with
  | true =>
    rw [dueHeader?, counted, Bool.or_true]
    rfl
  | false =>
    rw [dueHeader?, counted, Bool.or_false]
    rfl

/-- What the first call counts, and then the others. -/
theorem counted_cons (first started : Bool) (header : Nat) (answer : Except Fault Nat)
    (answers : List (Except Fault Nat)) (framing : Framing) :
    (framing.counted first header [answer]).counted started (if first then 0 else header) answers =
      framing.counted (first || started) header (answer :: answers) := by
  cases first with
  | true =>
    simp [counted, List.countP_cons]
    omega
  | false =>
    simp [counted, List.countP_cons]
    omega

/-- What a call counts that adds a record: the header, if it is due, and what it answers. -/
theorem told_addWrites {α κ : Type} [ShardingChannel κ] (framing : Framing) (shard? : Option Nat)
    (coder : Coder α) (record : α) (s : κ × World) :
    let told := framing.addWrites shard? coder record s
    framing.told told = framing.counted true (framing.headerSize s) [told.answer] := by
  intro told
  rw [Framing.told, header?_addWrites, recordSize_addWrites]
  simp [counted, headerSize, List.countP_cons, told]

section Header

variable {κ : Type} [ShardingChannel κ] (framing : Framing) (started : Bool)
  (answers : List (Except Fault Nat)) {s t : κ × World}

theorem bytes_counted :
    (framing.counted started (framing.headerSize s) answers).bytes =
      framing.bytes + (answers.map answeredLength).sum + LineWrite.totalFrameSize
        (if started then (LineWrite.ofLine? framing.dueHeader? s).toList else []) := by
  rw [Nat.add_right_comm]
  cases started with
  | true => rfl
  | false => rfl

/-- What is written at the end comes after the header, which was written with the first record if
there was one. -/
theorem writes_counted (unchanged : started = false → t = s) (header : Nat) :
    let header? := LineWrite.ofLine? framing.dueHeader? s
    let footer? :=
      if started then LineWrite.ofLine? framing.footerLine? t
      else if (LineWrite.answerOf header?).isOk then
        LineWrite.ofLine? framing.footerLine? (LineWrite.afterAll s header?.toList)
      else none
    (if started then header?.toList else []) ++
        ((framing.counted started header answers).finishWrites t).writes =
      header?.toList ++ footer?.toList := by
  intro header? footer?
  rw [finishWrites_eq, dueHeader?_counted]
  cases started with
  | true => rfl
  | false =>
    rw [unchanged rfl]
    rfl

end Header

end Framing

namespace ShardingWriter

variable {α κ : Type} [ByteChannel κ] [Located κ] {shards : Nat}

/-- Some call is directed to a shard that is there. -/
def starts (shards : Nat) (directed : List (Nat × α)) : Bool := directed.any (·.1 < shards)

/-- What a call leaves: the header counts if the call is directed to a shard that is there, and the
channel is as it was otherwise. -/
theorem call_counts (writer : ShardingWriter α) (call : ShardCall α) {s : ShardSet κ × World}
    (hs : s.1.shards.length = shards) :
    let target := call.target shards writer.router
    let first := decide (target.1 < shards)
    ∃ answer t,
      writer.call s call = (answer, { writer with
        framing := writer.framing.counted first (writer.framing.headerSize s) [answer]
        router := target.2 }, t) ∧
      AnswersLength shards (writer.framing.recordLine writer.coder) (target.1, call.record) answer ∧
      t.1.shards.length = shards ∧ (first = false → t = s) := by
  subst hs
  intro target first
  by_cases hlt : target.1 < s.1.shards.length
  · have hfirst : first = true := decide_eq_true hlt
    let told := writer.framing.addWrites (some target.1) writer.coder call.record s
    refine ⟨told.answer, LineWrite.afterAll s told.writes, ?_, ?_, ?_, ?_⟩
    · rw [hfirst, ← Framing.told_addWrites]
      exact writer.call_of_lt call hlt
    · intro length hl
      exact ⟨hlt, Framing.exists_recordLine_of_answer hl⟩
    · exact LineWrite.length_afterAll (Framing.consecutive_addWrites ..)
    · intro hfalse
      rw [hfirst] at hfalse
      cases hfalse
  · have hfirst : first = false := decide_eq_false hlt
    refine ⟨.error (.shardOutOfRange target.1 s.1.shards.length), s, ?_, ?_, rfl, fun _ => rfl⟩
    · rw [hfirst, Framing.counted_refused]
      exact writer.call_of_le call (Nat.le_of_not_lt hlt)
    · intro length h
      cases h

/-- What a run leaves: the header counts from the first call on that is directed to a shard that is
there, and until then the channel is as it was. -/
theorem run_counts (writer : ShardingWriter α) (calls : List (ShardCall α))
    {s : ShardSet κ × World} (hs : s.1.shards.length = shards) :
    let directed := ShardCall.directed shards writer.router calls
    let started := starts shards directed
    ∃ answers router t,
      writer.run s calls = (answers, { writer with
        framing := writer.framing.counted started (writer.framing.headerSize s) answers
        router }, t) ∧
      List.Forall₂ (AnswersLength shards (writer.framing.recordLine writer.coder)) directed
        answers ∧
      t.1.shards.length = shards ∧ (started = false → t = s) := by
  induction calls generalizing writer s with
  | nil =>
    refine ⟨[], writer.router, s, ?_, .nil, hs, fun _ => rfl⟩
    exact congrArg (fun framing => ([], { writer with framing }, s))
      (Framing.counted_nil ..).symm
  | cons call rest ih =>
    intro directed started
    obtain ⟨answer, t, hcall, hanswer, ht, hfirst⟩ := writer.call_counts call hs
    rcases htarget : call.target shards writer.router with ⟨shard, router⟩
    rw [htarget] at hcall hanswer hfirst
    let next : ShardingWriter α := { writer with
      framing := writer.framing.counted (decide (shard < shards)) (writer.framing.headerSize s)
        [answer]
      router }
    obtain ⟨answers, final, u, hrun, hall, hu, hsame⟩ := ih next ht
    have hdirected : directed = (shard, call.record) :: ShardCall.directed shards router rest := by
      simp only [directed, ShardCall.directed, htarget]
    have hstarted : started = (decide (shard < shards) ||
        starts shards (ShardCall.directed shards router rest)) := by
      simp only [started, hdirected, starts, List.any_cons]
    -- the header is due as before until a call is directed to a shard
    have hsize : next.framing.headerSize t =
        if decide (shard < shards) then 0 else writer.framing.headerSize s := by
      rw [Framing.headerSize, Framing.dueHeader?_counted]
      cases hd : decide (shard < shards) with
      | true => rfl
      | false =>
        rw [hfirst hd]
        rfl
    refine ⟨answer :: answers, final, u, ?_, hdirected ▸ .cons hanswer hall, hu, ?_⟩
    · simp only [run, hcall]
      rw [hrun, hsize, hstarted, ← Framing.counted_cons]
    · intro hfalse
      rw [hstarted, Bool.or_eq_false_iff] at hfalse
      exact (hsame hfalse.2).trans (hfirst hfalse.1)

end ShardingWriter

/-- At every point of a run and after closing, the writer counts the lines of the records that it
answered for, and each line around the records once for each shard if all shards got it. This is
what came to the shards, unless a line around the records came to some of them and not to all. -/
theorem bytes_of_shard_run {α κ μ τ : Type} [ByteChannel κ] [Located κ] (sink : TextSink α μ τ)
    (router : Router) (calls : List (ShardCall α)) (s : ShardSet κ × World) :
    let shards := s.1.shards.length
    let directed := ShardCall.directed shards router calls
    let started := ShardingWriter.starts shards directed
    let outcome := (sink.shardingWriter router).run s calls
    let closed := outcome.2.1.close outcome.2.2
    let header? := LineWrite.ofLine? sink.framing.headerLine? s
    let footer? :=
      if started then LineWrite.ofLine? sink.framing.footerLine? outcome.2.2
      else if (LineWrite.answerOf header?).isOk then
        LineWrite.ofLine? sink.framing.footerLine? (LineWrite.afterAll s header?.toList)
      else none
    let records := (outcome.1.map answeredLength).sum
    List.Forall₂ (AnswersLength shards (sink.framing.recordLine sink.coder)) directed outcome.1 ∧
    CountsFrames shards (if started then header?.toList else []) records outcome.2.1.bytes ∧
    CountsFrames shards (header?.toList ++ footer?.toList) records closed.2.1.bytes := by
  intro shards directed started outcome closed header? footer? records
  obtain ⟨answers, final, t, hrun, hall, ht, hsame⟩ :=
    (sink.shardingWriter router).run_counts calls (show s.1.shards.length = shards from rfl)
  let framing : Framing := sink.framing.counted started (sink.framing.headerSize s) answers
  let writer : ShardingWriter α := ⟨sink.coder, framing, final⟩
  have houtcome : outcome = (answers, writer, t) := hrun
  have hcounted : framing.bytes =
      records + LineWrite.totalFrameSize (if started then header?.toList else []) := by
    have hrecords : records = (answers.map answeredLength).sum := by
      change (outcome.1.map answeredLength).sum = _
      rw [houtcome]
    rw [hrecords, ← Nat.zero_add (answers.map answeredLength).sum]
    exact sink.framing.bytes_counted started answers
  have hclosed : closed.2.1.bytes =
      framing.bytes + LineWrite.totalFrameSize (framing.finishWrites t).writes := by
    change (outcome.2.1.close outcome.2.2).2.1.bytes = _
    rw [houtcome, (writer.closedFrom (framing.finish_eq_writes t)).writer]
    rfl
  have hframes : (if started then header?.toList else []) ++ (framing.finishWrites t).writes =
      header?.toList ++ footer?.toList := by
    change _ = _ ++ (if started then LineWrite.ofLine? _ outcome.2.2 else _).toList
    rw [houtcome]
    exact sink.framing.writes_counted started answers hsame (sink.framing.headerSize s)
  have hheader : ∀ write ∈ (if started then header?.toList else []), write.Broadcast shards := by
    intro write hw
    split at hw
    · exact LineWrite.broadcast_of_mem_ofLine? rfl (Option.mem_toList.mp hw)
    · cases hw
  refine ⟨houtcome ▸ hall, ?_, ?_⟩
  · refine .of_frameSize hheader ?_
    rw [houtcome]
    exact hcounted
  · rw [← hframes]
    refine .of_frameSize ?_ ?_
    · intro write hw
      rcases List.mem_append.mp hw with hw | hw
      · exact hheader write hw
      · exact LineWrite.broadcast_of_mem_finishWrites ht hw
    · rw [hclosed, hcounted, LineWrite.totalFrameSize_append, Nat.add_assoc]

/-- The header came to the first of two files and was refused by the second: the writer counts
nothing of it, and not the copy that was delivered. -/
theorem bytes_ne_delivered_of_torn_header :
    let files : ShardSet FileChannel :=
      ⟨[⟨"a", some { location := ["a"] }⟩, ⟨"b", none⟩], true⟩
    let s := (files, (⟨⟨[(["a"], .file []), (["b"], .file [])], []⟩, []⟩ : World))
    let sink : TextSink String Empty Empty := .create "out" true (some "h") none .text
    let outcome := (sink.shardingWriter .fromFirst).run s [.add "x"]
    let header : LineWrite (ShardSet FileChannel) := ⟨none, utf8 "h\n", s⟩
    outcome.1 = [.error .channelClosed] ∧
    outcome.2.2.1.shards.map (fun shard => FileChannel.received (shard, outcome.2.2.2)) =
      [utf8 "h\n", []] ∧
    header.copies = 1 ∧ outcome.2.1.bytes = 0 ∧
    outcome.2.1.bytes ≠ (outcome.1.map answeredLength).sum + header.deliveredSize := by
  refine ⟨?_, ?_, ?_, ?_, ?_⟩
  · cbv
  · cbv
  · cbv
  · cbv
  · cbv

end ShardedLines
