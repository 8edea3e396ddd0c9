import ShardedLines.Proofs.Writer.Kept

/-!
Closing a set of shards.

A set closes every shard in turn, also after some have failed, and reports each failure by itself
(`ShardClose`, `InTurn`). Its answer is the first failure, and the writer's answer is that of the
last lines if they failed before (`ShardingClosed`). So a failure that is not answered has been
logged (`shard_failures_reported`).
-/

namespace ShardedLines

/-- The closing of a shard, in the world in which its turn comes. -/
structure ShardClose (κ : Type) where
  shard : κ
  before : World

namespace ShardClose

variable {κ : Type} [ByteChannel κ] [Located κ]

def outcome (close : ShardClose κ) : Outcome (κ × World) Unit :=
  ByteChannel.close (close.shard, close.before)

/-- The shard afterwards. -/
def closed (close : ShardClose κ) : κ := close.outcome.2.1

def fault? (close : ShardClose κ) : Option Fault :=
  match close.outcome.1 with
  | .error fault => some fault
  | .ok () => none

/-- What is logged of the closing: nothing, unless it fails. -/
def report? (close : ShardClose κ) : Option Event :=
  close.fault?.map (.shardCloseFailed (Located.path close.shard))

/-- The world in which the turn of the next shard comes. -/
def after (close : ShardClose κ) : World :=
  { close.outcome.2.2 with log := close.before.log ++ close.report?.toList }

/-- The shards are closed one after the other, and the last one leaves this world. -/
def InTurn (world : World) : List (ShardClose κ) → World → Prop
  | [], last => last = world
  | close :: rest, last => close.before = world ∧ InTurn close.after rest last

/-- The failures, in the order of the shards. -/
def faults (closes : List (ShardClose κ)) : List Fault := closes.filterMap fault?

/-- The answer for what fails first, if anything does. -/
def answerOf (fault? : Option Fault) : Except Fault Unit := fault?.elim (.ok ()) .error

theorem InTurn.log_eq {closes : List (ShardClose κ)} {world last : World}
    (h : InTurn world closes last) : last.log = world.log ++ closes.filterMap report? := by
  induction closes generalizing world with
  | nil => rw [show last = world from h, List.filterMap_nil, List.append_nil]
  | cons close rest ih =>
    obtain ⟨rfl, hrest⟩ := h
    rw [ih hrest, after, List.append_assoc, List.filterMap_cons]
    cases close.report? <;> rfl

theorem length_filterMap_report? (closes : List (ShardClose κ)) :
    (closes.filterMap report?).length = (faults closes).length := by
  induction closes with
  | nil => rfl
  | cons close rest ih =>
    rw [faults, List.filterMap_cons, List.filterMap_cons, report?]
    cases close.fault? with
    | none => exact ih
    | some fault => exact congrArg (· + 1) ih

theorem level_of_mem_report? {closes : List (ShardClose κ)} {event : Event}
    (h : event ∈ closes.filterMap report?) : event.level = .debug := by
  obtain ⟨close, _, hreport⟩ := List.mem_filterMap.mp h
  obtain ⟨fault, _, rfl⟩ := Option.map_eq_some_iff.mp hreport
  rfl

end ShardClose

open ShardClose

section Closing

variable {κ : Type} [ByteChannel κ] [Located κ]

/-- Each of some shards is closed in its turn, whatever became of those before. -/
theorem ShardSet.closeEach_inTurn (quiet : Quiet κ) (shards : List κ) (world : World) :
    ∃ closes last, closeEach shards world =
        (answerOf (faults closes).head?, closes.map ShardClose.closed, last) ∧
      closes.map ShardClose.shard = shards ∧ InTurn world closes last := by
  induction shards generalizing world with
  | nil => exact ⟨[], world, rfl, rfl, rfl⟩
  | cons shard rest ih =>
    let close : ShardClose κ := ⟨shard, world⟩
    obtain ⟨closes, last, hrest, hshards, hturn⟩ := ih close.after
    have hlog := quiet.log_close (shard, world)
    have hpath := quiet.path_close (shard, world)
    refine ⟨close :: closes, last, ?_, congrArg (shard :: ·) hshards, rfl, hturn⟩
    rcases hc : ByteChannel.close (shard, world) with ⟨fault | _, next, later⟩
    · rw [hc] at hlog hpath
      have hfault : close.fault? = some fault := by simp [fault?, outcome, close, hc]
      have hafter : later.record (.shardCloseFailed (Located.path next) fault) = close.after := by
        simp only [World.record, after, report?, hfault, outcome, close, hc]
        rw [show later.log = world.log from hlog, show Located.path next = Located.path shard from hpath]
        rfl
      simp only [closeEach, hc, hafter, hrest, faults, List.filterMap_cons, hfault, List.map_cons]
      simp only [List.head?_cons, ShardClose.closed, outcome, close, hc]
      rfl
    · rw [hc] at hlog
      have hfault : close.fault? = none := by simp [fault?, outcome, close, hc]
      have hafter : later = close.after := by
        simp only [after, report?, hfault, outcome, close, hc, Option.map_none, Option.toList_none,
          List.append_nil]
        rw [← show later.log = world.log from hlog]
      simp only [closeEach, hc]
      rw [hafter, hrest]
      simp only [faults, List.filterMap_cons, hfault, List.map_cons, ShardClose.closed, outcome,
        close, hc]

/-- What is logged where a set failed to close after the last lines had failed already. -/
def lateFailure? (framed : Except Fault Unit) (fault? : Option Fault) : Option Event :=
  match framed with
  | .error _ => fault?.map .closeFailedToo
  | .ok () => none

/-- How the closing of a sharding writer went, whose last lines ended with `framed` and left the set
in the state `s`. -/
structure ShardingClosed {α : Type} (framed : Except Fault Unit) (s : ShardSet κ × World)
    (closes : List (ShardClose κ))
    (outcome : Except Fault Unit × ShardingWriter α × ShardSet κ × World) : Prop where
  /-- Each shard is closed once, in order. -/
  shards : closes.map ShardClose.shard = s.1.shards
  inTurn : ∃ last, InTurn s.2 closes last ∧ outcome.2.2.2.disk = last.disk
  closed : outcome.2.2.1.shards = closes.map ShardClose.closed
  isOpen : outcome.2.2.1.isOpen = false
  isOpen_shard : ∀ shard ∈ outcome.2.2.1.shards, ByteChannel.isOpen shard = false
  answer : outcome.1 = firstFailure framed (answerOf (faults closes).head?)
  log : outcome.2.2.2.log = s.2.log ++ (closes.filterMap ShardClose.report? ++
    .shardingWriterClosed s.1.shards.length outcome.2.1.records outcome.2.1.bytes outcome.1.isOk ::
    (lateFailure? framed (faults closes).head?).toList)

theorem log_settleClose (framed : Except Fault Unit) (fault? : Option Fault) (world : World) :
    (settleClose framed (answerOf fault?) world).2.log =
      world.log ++ (lateFailure? framed fault?).toList := by
  rcases framed with fault | ⟨⟩
  · cases fault? with
    | none => exact (List.append_nil _).symm
    | some late => rfl
  · exact (List.append_nil _).symm

theorem isOk_firstFailure (framed closed : Except Fault Unit) :
    (firstFailure framed closed).isOk = (framed.isOk && closed.isOk) := by
  rcases framed with fault | ⟨⟩ <;> rfl

/-- A writer whose set is still open closes each shard of it. -/
theorem exists_shardingClosed {α : Type} (quiet : Quiet κ) (writer : ShardingWriter α)
    {framed : Except Fault Unit} {framing : Framing} {s t : ShardSet κ × World}
    (finished : writer.framing.finish s = (framed, framing, t)) (isOpen : t.1.isOpen = true) :
    ∃ closes, ShardingClosed framed t closes (writer.close s) := by
  obtain ⟨⟨shards, openFlag⟩, world⟩ := t
  obtain rfl : openFlag = true := isOpen
  obtain ⟨closes, last, hclose, hshards, hturn⟩ := ShardSet.closeEach_inTurn quiet shards world
  have hset : ByteChannel.close ((⟨shards, true⟩, world) : ShardSet κ × World) =
      (answerOf (faults closes).head?, ⟨closes.map ShardClose.closed, false⟩, last) := by
    change ShardSet.close ⟨shards, true⟩ world = _
    simp [ShardSet.close, hclose]
  have hclosed := writer.closedFrom finished
  have hanswer : (writer.close s).1 = firstFailure framed (answerOf (faults closes).head?) := by
    rw [hclosed.answer, hset]
  have hchannel : (writer.close s).2.2.1 = ⟨closes.map ShardClose.closed, false⟩ := by
    rw [hclosed.channel, hset]
  have hcount : (closes.map ShardClose.closed).length = shards.length := by
    rw [← hshards, List.length_map, List.length_map]
  refine ⟨closes, ?_⟩
  refine {
    shards := hshards
    inTurn := ⟨last, hturn, ?_⟩
    closed := by rw [hchannel]
    isOpen := by rw [hchannel]
    isOpen_shard := ?_
    answer := hanswer
    log := ?_ }
  · rw [hclosed.disk, hset]
  · rw [hchannel]
    intro shard hs
    obtain ⟨close, _, rfl⟩ := List.mem_map.mp hs
    exact quiet.isOpen_close (close.shard, close.before)
  · have hlog : (writer.close s).2.2.2.log = last.log ++ [.shardingWriterClosed
        (closes.map ShardClose.closed).length framing.records framing.bytes
          (framed.isOk && (answerOf (faults closes).head?).isOk)] ++
        (lateFailure? framed (faults closes).head?).toList := by
      rw [ShardingWriter.close, finished]
      simp only [hset]
      exact log_settleClose ..
    rw [hlog, hturn.log_eq, hcount, hanswer, isOk_firstFailure, hclosed.writer]
    simp [ShardingWriter.records, ShardingWriter.bytes]

end Closing

/-- After every run over an open set, the writer closes each shard once and in order, and answers
with the first failure: that of the last lines, or else of the first shard that fails. It logs every
shard that fails, then its own end, and then the first shard's failure if the last lines had failed
before; so no failure is left out of both the answer and the log. -/
theorem shard_failures_reported {α κ : Type} [ByteChannel κ] [Located κ] (quiet : Quiet κ)
    (writer : ShardingWriter α) (calls : List (ShardCall α)) {s : ShardSet κ × World}
    (isOpen : s.1.isOpen = true) :
    let ran := writer.run s calls
    let outcome := ran.2.1.close ran.2.2
    ∃ framed framing t closes,
      ran.2.1.framing.finish ran.2.2 = (framed, framing, t) ∧
      t.1.shards.map Located.path = s.1.shards.map Located.path ∧ t.2.log = s.2.log ∧
      ShardingClosed framed t closes outcome ∧
      (outcome.2.2.2.log.drop s.2.log.length).map Event.level =
        List.replicate (faults closes).length .debug ++
          .debug :: (lateFailure? framed (faults closes).head?).toList.map (fun _ => .warn) ∧
      (∀ fault, framed = .error fault → outcome.1 = .error fault) ∧
      ∀ close ∈ closes, ∀ fault, close.outcome.1 = .error fault →
        .shardCloseFailed (Located.path close.shard) fault ∈ outcome.2.2.2.log := by
  intro ran outcome
  have kept := quiet.keptByWrites (s.1.shards.map Located.path) s.2.log
  have hran := kept.run writer calls ⟨isOpen, rfl, rfl⟩
  have hlast := kept.finish ran.2.1.framing hran
  rcases hf : ran.2.1.framing.finish ran.2.2 with ⟨framed, framing, t⟩
  rw [hf] at hlast
  obtain ⟨closes, hclosed⟩ := exists_shardingClosed quiet ran.2.1 hf hlast.isOpen
  have hlog := hclosed.log
  rw [hlast.log] at hlog
  refine ⟨framed, framing, t, closes, rfl, hlast.paths, hlast.log, hclosed, ?_, ?_, ?_⟩
  · rw [hlog, List.drop_left, List.map_append, List.map_cons]
    congr 1
    · rw [← length_filterMap_report?, List.eq_replicate_iff]
      refine ⟨List.length_map _, fun level hl => ?_⟩
      obtain ⟨event, he, rfl⟩ := List.mem_map.mp hl
      exact level_of_mem_report? he
    · congr 1
      rcases framed with fault | ⟨⟩
      · cases (faults closes).head? <;> rfl
      · rfl
  · intro fault hframed
    rw [hclosed.answer, hframed]
    rfl
  · intro close hc fault hfault
    rw [hlog]
    refine List.mem_append_right _ (List.mem_append_left _ (List.mem_filterMap.mpr ⟨close, hc, ?_⟩))
    simp [report?, fault?, hfault]

/-- The header fails at the first of three shards, and the two others fail to close; and of three
files the second is on a device that is full. -/
theorem shard_failures_reported_twice :
    let lost := Fault.reported .connectionReset "lost"
    let first := Fault.reported .timedOut "first"
    let second := Fault.reported .other "second"
    let torn : ShardSet ScriptedChannel := ⟨[{ shards := [], script := [.fail lost] },
      { shards := [], closeFault := some first }, { shards := [], closeFault := some second }], true⟩
    let files : ShardSet FileChannel := ⟨[⟨"a", some { location := ["a"] }⟩,
      ⟨"/dev/full", some { location := ["dev", "full"] }⟩, ⟨"b", some { location := ["b"] }⟩], true⟩
    let world : World := ⟨⟨(["a"], .file []) :: (["b"], .file []) :: Disk.fresh.entries, []⟩, []⟩
    let sink : TextSink String Empty Empty := .create "out" true (some "h") none .text
    let ran := (sink.shardingWriter .fromFirst).run (files, world) [.add "x"]
    let ends := (sink.shardingWriter .fromFirst).close (torn, world)
    let closed := ran.2.1.close ran.2.2
    (ends.1 = .error lost ∧
      ends.2.2.2.log = [.shardCloseFailed "" first, .shardCloseFailed "" second,
        .shardingWriterClosed 3 0 0 false, .closeFailedToo first] ∧
      ∃ t closes, ShardingClosed (.error lost) t closes ends) ∧
    (closed.1 = .error (.system .storageFull) ∧
      closed.2.2.2.log = [.shardCloseFailed "/dev/full" (.system .storageFull),
        .shardingWriterClosed 3 1 8 false] ∧
      ∃ t closes, ShardingClosed (.ok ()) t closes closed) := by
  intro lost first second torn files world sink ran ends closed
  have hends : sink.framing.finish (torn, world) = (.error lost,
      { header? := some "h", footer? := none, terminator := newline, headerTried := true },
      ⟨[{ shards := [], offers := [⟨none, utf8 "h\n"⟩] }, { shards := [], closeFault := some first },
        { shards := [], closeFault := some second }], true⟩, world) := by cbv
  have hran : ran.2 = ({
      coder := .text, router := .startingAt 1,
      framing := { header? := some "h", footer? := none, terminator := newline, headerTried := true,
                   records := 1, bytes := 8 } },
      (⟨[⟨"a", some { location := ["a"], pending := utf8 "h\nx\n" }⟩,
        ⟨"/dev/full", some { location := ["dev", "full"], pending := utf8 "h\n" }⟩,
        ⟨"b", some { location := ["b"], pending := utf8 "h\n" }⟩], true⟩, world)) := by cbv
  refine ⟨⟨?_, ?_, ?_⟩, ⟨?_, ?_, ?_⟩⟩
  · simp only [ends, ShardingWriter.close, TextSink.shardingWriter, hends]
    rfl
  · simp only [ends, ShardingWriter.close, TextSink.shardingWriter, hends]
    rfl
  · obtain ⟨framed, framing, t, closes, hf, _, _, hclosed, _⟩ :=
      shard_failures_reported ScriptedChannel.quiet (sink.shardingWriter .fromFirst) []
        (s := (torn, world)) rfl
    obtain rfl : Except.error lost = framed := congrArg Prod.fst (hends.symm.trans hf)
    exact ⟨t, closes, hclosed⟩
  · simp only [closed, hran]
    rfl
  · simp only [closed, hran]
    rfl
  · obtain ⟨framed, framing, t, closes, hf, _, _, hclosed, _⟩ :=
      shard_failures_reported FileChannel.quiet (sink.shardingWriter .fromFirst) [.add "x"]
        (s := (files, world)) rfl
    have hframed : ran.2.1.framing.finish ran.2.2 = (framed, framing, t) := hf
    rw [hran] at hframed
    obtain rfl : Except.ok () = framed := congrArg Prod.fst hframed
    exact ⟨t, closes, hclosed⟩

end ShardedLines
