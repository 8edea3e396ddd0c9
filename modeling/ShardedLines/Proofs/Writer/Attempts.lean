import ShardedLines.Proofs.Writer.TextRun

/-!
What a text writer tries to write.

Writes may fail at any byte of any line. A run is then told by the lines that the writer tried to
write: for each of them the part that came to the stream, and how the attempt ended. `Attempts` ties
such a list to the calls that really wrote: nothing else is done to the channel in between, but for
what others do to it. `attempts_of_run` says which lines these are.
-/

namespace ShardedLines

/-- A line that a writer tried to write. -/
structure Attempt where
  line : Bytes
  /-- The part of the line that came to the stream. -/
  taken : Bytes
  answer : Except Fault Unit

namespace Attempt

/-- A line that was written came to the stream as a whole, one that failed in a strict part. -/
def Sound (attempt : Attempt) : Prop :=
  match attempt.answer with
  | .ok () => attempt.taken = attempt.line
  | .error _ => attempt.taken <+: attempt.line ∧ attempt.taken ≠ attempt.line

/-- The length of the line, if it was written. -/
def size (attempt : Attempt) : Nat :=
  match attempt.answer with
  | .ok () => attempt.line.length
  | .error _ => 0

/-- The length of the lines that were written. -/
def totalSize (attempts : List Attempt) : Nat := (attempts.map size).sum

/-- The part of all lines that came to the stream. -/
def allTaken (attempts : List Attempt) : Bytes := attempts.flatMap taken

/-- How an attempt ended, if one was made. -/
def outcome (attempt? : Option Attempt) : Except Fault Unit := attempt?.elim (.ok ()) answer

@[simp] theorem outcome_none : outcome none = .ok () := rfl

@[simp] theorem outcome_some (attempt : Attempt) : outcome (some attempt) = attempt.answer := rfl

@[simp] theorem totalSize_nil : totalSize [] = 0 := rfl

@[simp] theorem totalSize_singleton (attempt : Attempt) : totalSize [attempt] = attempt.size := by
  simp [totalSize]

@[simp] theorem totalSize_append (first second : List Attempt) :
    totalSize (first ++ second) = totalSize first + totalSize second := by
  simp [totalSize]

@[simp] theorem allTaken_nil : allTaken [] = [] := rfl

@[simp] theorem allTaken_cons (attempt : Attempt) (rest : List Attempt) :
    allTaken (attempt :: rest) = attempt.taken ++ allTaken rest :=
  List.flatMap_cons

@[simp] theorem allTaken_append (first second : List Attempt) :
    allTaken (first ++ second) = allTaken first ++ allTaken second := by
  simp [allTaken]

/-- Of a line that is tried, a part comes to the stream. -/
theorem Sound.isPrefix {attempt : Attempt} (h : attempt.Sound) : attempt.taken <+: attempt.line := by
  unfold Sound at h
  split at h
  · rw [h]
  · exact h.1

end Attempt

/-- A full write is an attempt. -/
theorem FullWrite.exists_attempt {σ ρ : Type} {holds : σ → ρ → Prop} {grow : ρ → Bytes → ρ} {a : ρ}
    {line : Bytes} {outcome : Outcome σ Unit} (h : FullWrite holds grow a line outcome) :
    ∃ attempt : Attempt, attempt.line = line ∧ attempt.Sound ∧ outcome.1 = attempt.answer ∧
      holds outcome.2 (grow a attempt.taken) := by
  cases h with
  | whole ht => exact ⟨⟨line, line, .ok ()⟩, rfl, rfl, rfl, ht⟩
  | @torn _ fault taken hp hne ht _ =>
    exact ⟨⟨line, taken, .error fault⟩, rfl, ⟨hp, hne⟩, rfl, ht⟩

/-- From one state of a channel to another, these lines were tried, and nothing else was written. -/
inductive Attempts {κ : Type} [ByteChannel κ] (view : StreamView κ) :
    κ × World → List Attempt → κ × World → Prop where
  | none {s} : Attempts view s [] s
  | meanwhile {s t change attempts} : view.Harmless change →
      Attempts view (change s) attempts t → Attempts view s attempts t
  | next {s t u attempt rest} : ByteChannel.writeAll attempt.line s = (attempt.answer, t) →
      view.Shows t (view.stream s ++ attempt.taken) → attempt.Sound →
      Attempts view t rest u → Attempts view s (attempt :: rest) u

namespace Attempts

variable {κ : Type} [ByteChannel κ] {view : StreamView κ} {s t u : κ × World}

theorem append {first second : List Attempt} (h : Attempts view s first t)
    (h' : Attempts view t second u) : Attempts view s (first ++ second) u := by
  induction h with
  | none => exact h'
  | meanwhile hc _ ih => exact .meanwhile hc (ih h')
  | next hw hs ha _ ih => exact .next hw hs ha (ih h')

/-- The stream grows by what was taken of each line, in order. -/
theorem shows {attempts : List Attempt} (h : Attempts view s attempts t) (valid : view.valid s) :
    view.Shows t (view.stream s ++ Attempt.allTaken attempts) := by
  induction h with
  | none => exact ⟨valid, by simp [Attempt.allTaken]⟩
  | @meanwhile s t change attempts hc _ ih =>
    have hs := hc s valid
    exact hs.2 ▸ ih hs.1
  | next _ hs _ _ ih =>
    have h := ih hs.1
    rw [hs.2, List.append_assoc] at h
    exact h

theorem exists_attempt (valid : view.valid s) (line : Bytes) :
    ∃ attempt t, attempt.line = line ∧ ByteChannel.writeAll line s = (attempt.answer, t) ∧
      Attempts view s [attempt] t := by
  obtain ⟨attempt, rfl, sound, answer, shows⟩ :=
    (view.writeAll line (view.shows_stream valid)).exists_attempt
  exact ⟨attempt, _, rfl, Prod.ext answer rfl, .next (Prod.ext answer rfl) shows sound .none⟩

end Attempts

namespace Framing

variable {κ : Type} [ByteChannel κ] {view : StreamView κ} {copies : Nat} {s : κ × World}

theorem writeLine?_attempt (width : view.HasWidth copies) (line? : Option Bytes)
    (framing : Framing) (valid : view.valid s) :
    ∃ (attempt? : Option Attempt) (t : κ × World), attempt?.map Attempt.line = line? ∧
      framing.writeLine? line? s = (Attempt.outcome attempt?, { framing with
        bytes := framing.bytes + Attempt.totalSize attempt?.toList * copies }, t) ∧
      Attempts view s attempt?.toList t := by
  cases line? with
  | none =>
    refine ⟨none, s, rfl, ?_, .none⟩
    simp [writeLine?]
  | some line =>
    obtain ⟨attempt, t, hl, hw, h⟩ := Attempts.exists_attempt valid line
    refine ⟨some attempt, t, congrArg some hl, ?_, h⟩
    simp only [writeLine?, hw, Attempt.outcome_some, Option.toList_some,
      Attempt.totalSize_singleton, Attempt.size]
    cases ha : attempt.answer with
    | error fault => simp
    | ok _ => simp [hl, width t (h.shows valid).1]

/-- The framing after the header was tried, if it was due. -/
def headerDone (copies : Nat) (header? : Option Attempt) (framing : Framing) : Framing :=
  { framing with
    headerTried := true
    bytes := framing.bytes + Attempt.totalSize header?.toList * copies }

theorem ensureHeader_attempt (width : view.HasWidth copies) (framing : Framing)
    (valid : view.valid s) :
    ∃ (header? : Option Attempt) (t : κ × World), header?.map Attempt.line = framing.dueHeader? ∧
      framing.ensureHeader s = (Attempt.outcome header?, framing.headerDone copies header?, t) ∧
      Attempts view s header?.toList t := by
  rw [ensureHeader_eq]
  exact writeLine?_attempt width framing.dueHeader? { framing with headerTried := true } valid

/-- The header is tried if it is still due, and the footer unless the header fails. -/
theorem finish_attempt (width : view.HasWidth copies) (framing : Framing)
    (valid : view.valid s) :
    ∃ (header? footer? : Option Attempt) (t : κ × World),
      header?.map Attempt.line = framing.dueHeader? ∧
      footer?.map Attempt.line =
        (if (Attempt.outcome header?).isOk then framing.footerLine? else none) ∧
      framing.finish s = (firstFailure (Attempt.outcome header?) (Attempt.outcome footer?),
        { framing.headerDone copies header? with
          bytes := framing.bytes + Attempt.totalSize header?.toList * copies +
            Attempt.totalSize footer?.toList * copies }, t) ∧
      Attempts view s (header?.toList ++ footer?.toList) t := by
  obtain ⟨header?, t, hl, hh, h⟩ :=
    writeLine?_attempt width framing.dueHeader? { framing with headerTried := true } valid
  rw [finish_eq, hh]
  cases ho : Attempt.outcome header? with
  | error fault =>
    refine ⟨header?, none, t, hl, by simp [ho, Except.isOk, Except.toBool], ?_, by simpa using h⟩
    simp [ho, firstFailure, headerDone]
  | ok _ =>
    obtain ⟨footer?, u, hl', hw, h'⟩ := writeLine?_attempt width framing.footerLine?
      (framing.headerDone copies header?) (h.shows valid).1
    refine ⟨header?, footer?, u, hl, ?_, ?_, h.append h'⟩
    · rw [hl', ho]
      rfl
    · rw [ho]
      exact hw

end Framing

/-! ## Calls -/

/-- What a call of `add` came to. -/
structure AddReport (α : Type) where
  record : α
  /-- The attempt to write the line of the record, if it came to that. -/
  attempt? : Option Attempt
  answer : Except Fault Nat

/-- A call goes through the header, the coder and the line, and answers with the first failure. -/
inductive AddReport.Follows {α : Type} (coder : Coder α) (newline : Bytes) :
    Except Fault Unit → AddReport α → Prop where
  | headerFailed {record fault} :
      Follows coder newline (.error fault) ⟨record, none, .error fault⟩
  | refused {record fault} : coder.bytes? record = .error fault →
      Follows coder newline (.ok ()) ⟨record, none, .error fault⟩
  | torn {record bytes attempt fault} : coder.bytes? record = .ok bytes →
      attempt.line = bytes ++ newline → attempt.answer = .error fault →
      Follows coder newline (.ok ()) ⟨record, some attempt, .error fault⟩
  | written {record bytes attempt} : coder.bytes? record = .ok bytes →
      attempt.line = bytes ++ newline → attempt.answer = .ok () →
      Follows coder newline (.ok ()) ⟨record, some attempt, .ok attempt.line.length⟩

/-- The calls that answered with a count. -/
def AddReport.successes {α : Type} (reports : List (AddReport α)) : Nat :=
  reports.countP (·.answer.isOk)

/-- The attempts to write lines of records. -/
def AddReport.attempts {α : Type} (reports : List (AddReport α)) : List Attempt :=
  reports.filterMap AddReport.attempt?

/-- The first call depends on how the header fared; from then on the header is out of the way. -/
def AddReport.AllFollow {α : Type} (coder : Coder α) (newline : Bytes)
    (header : Except Fault Unit) : List (AddReport α) → Prop
  | [] => True
  | first :: rest => first.Follows coder newline header ∧
      ∀ report ∈ rest, report.Follows coder newline (.ok ())

theorem AddReport.AllFollow.forall {α : Type} {coder : Coder α} {newline : Bytes}
    {reports : List (AddReport α)} (h : AllFollow coder newline (.ok ()) reports) :
    ∀ report ∈ reports, report.Follows coder newline (.ok ()) := by
  cases reports with
  | nil => simp
  | cons first rest => simpa [AllFollow] using h

namespace Framing

/-- The framing after some calls of `add`, which came to these reports. -/
def reported {α : Type} (copies : Nat) (header? : Option Attempt) (reports : List (AddReport α))
    (framing : Framing) : Framing :=
  { framing with
    headerTried := framing.headerTried || !reports.isEmpty
    records := framing.records + AddReport.successes reports
    bytes := framing.bytes + Attempt.totalSize header?.toList * copies +
      Attempt.totalSize (AddReport.attempts reports) }

theorem reported_singleton {α : Type} (copies : Nat) (header? : Option Attempt)
    (report : AddReport α) (framing : Framing) :
    framing.reported copies header? [report] =
      { framing.headerDone copies header? with
        records := framing.records + if report.answer.isOk then 1 else 0
        bytes := framing.bytes + Attempt.totalSize header?.toList * copies +
          Attempt.totalSize report.attempt?.toList } := by
  obtain ⟨record, attempt?, answer⟩ := report
  cases attempt? <;> simp [reported, headerDone, AddReport.successes, AddReport.attempts]

theorem reported_cons {α : Type} (copies : Nat) (header? : Option Attempt) (report : AddReport α)
    (rest : List (AddReport α)) (framing : Framing) :
    (framing.reported copies header? [report]).reported copies none rest =
      framing.reported copies header? (report :: rest) := by
  obtain ⟨record, attempt?, answer⟩ := report
  cases attempt? <;>
    simp [reported, AddReport.successes, AddReport.attempts, Attempt.totalSize, List.countP_cons]
  all_goals omega

theorem dueHeader?_reported {α : Type} (copies : Nat) (header? : Option Attempt)
    (reports : List (AddReport α)) (framing : Framing) :
    (framing.reported copies header? reports).dueHeader? =
      if reports = [] then framing.dueHeader? else none := by
  cases reports with
  | nil => simp [reported, dueHeader?, headerLine?]; rfl
  | cons report rest => simp [reported, dueHeader?]

end Framing

namespace TextWriter

variable {α κ : Type} [ByteChannel κ] {view : StreamView κ} {copies : Nat}

theorem add_attempt (width : view.HasWidth copies) (writer : TextWriter α) (record : α)
    {s : κ × World} (valid : view.valid s) :
    ∃ (header? : Option Attempt) (report : AddReport α) (t : κ × World),
      header?.map Attempt.line = writer.framing.dueHeader? ∧
      report.record = record ∧
      report.Follows writer.coder writer.framing.terminator (Attempt.outcome header?) ∧
      writer.add record s = (report.answer,
        { writer with framing := writer.framing.reported copies header? [report] }, t) ∧
      Attempts view s (header?.toList ++ report.attempt?.toList) t := by
  obtain ⟨header?, t, hl, hh, h⟩ := Framing.ensureHeader_attempt width writer.framing valid
  simp only [add, hh]
  cases ho : Attempt.outcome header? with
  | error fault =>
    refine ⟨header?, ⟨record, none, .error fault⟩, t, hl, rfl, ho ▸ .headerFailed, ?_,
      by simpa using h⟩
    rw [Framing.reported_singleton]
    rfl
  | ok _ =>
    have hr : (writer.framing.headerDone copies header?).recordLine writer.coder record =
        (writer.coder.bytes? record).map (· ++ writer.framing.terminator) := rfl
    cases hc : writer.coder.bytes? record with
    | error fault =>
      refine ⟨header?, ⟨record, none, .error fault⟩, t, hl, rfl, ho ▸ .refused hc, ?_,
        by simpa using h⟩
      rw [Framing.reported_singleton]
      simp only [hr, hc, Except.map]
      rfl
    | ok bytes =>
      obtain ⟨attempt, u, hl', hw, h'⟩ := Attempts.exists_attempt (h.shows valid).1
        (bytes ++ writer.framing.terminator)
      cases ha : attempt.answer with
      | error fault =>
        refine ⟨header?, ⟨record, some attempt, .error fault⟩, u, hl, rfl,
          ho ▸ .torn hc hl' ha, ?_, h.append h'⟩
        rw [Framing.reported_singleton]
        simp only [hr, hc, Except.map, hw, ha]
        simp [Framing.headerDone, Attempt.size, ha, Except.isOk, Except.toBool]
      | ok _ =>
        refine ⟨header?, ⟨record, some attempt, .ok attempt.line.length⟩, u, hl, rfl,
          ho ▸ .written hc hl' ha, ?_, h.append h'⟩
        rw [Framing.reported_singleton]
        simp only [hr, hc, Except.map, hw, ha]
        simp [Framing.headerDone, Framing.recordWritten, Attempt.size, ha, hl', Except.isOk,
          Except.toBool]

theorem run_attempts (width : view.HasWidth copies) (writer : TextWriter α)
    {steps : List (TextStep α κ)} (harmless : TextStep.Harmless view steps) {s : κ × World}
    (valid : view.valid s) :
    ∃ (header? : Option Attempt) (reports : List (AddReport α)) (t : κ × World),
      header?.map Attempt.line =
        (if TextStep.records steps = [] then none else writer.framing.dueHeader?) ∧
      reports.map AddReport.record = TextStep.records steps ∧
      AddReport.AllFollow writer.coder writer.framing.terminator (Attempt.outcome header?)
        reports ∧
      writer.run s steps = (reports.map AddReport.answer,
        { writer with framing := writer.framing.reported copies header? reports }, t) ∧
      Attempts view s (header?.toList ++ AddReport.attempts reports) t := by
  induction steps generalizing writer s with
  | nil => exact ⟨none, [], s, rfl, rfl, trivial, by simp [run, Framing.reported,
      AddReport.successes, AddReport.attempts], .none⟩
  | cons step rest ih =>
    have harmless' : TextStep.Harmless view rest :=
      fun change hc => harmless change (List.mem_cons_of_mem _ hc)
    cases step with
    | add record =>
      obtain ⟨header?, report, t, hl, hrec, hf, hw, h⟩ := add_attempt width writer record valid
      let next : TextWriter α :=
        { writer with framing := writer.framing.reported copies header? [report] }
      obtain ⟨late?, reports, u, hl', hrec', hf', hw', h'⟩ := ih next harmless' (h.shows valid).1
      -- the header has been tried by now
      have hlate : late? = none := by
        have hd : next.framing.dueHeader? = none := Framing.dueHeader?_reported ..
        rw [hd, ite_self, Option.map_eq_none_iff] at hl'
        exact hl'
      subst hlate
      refine ⟨header?, report :: reports, u, by simpa using hl, by simp [hrec, hrec'],
        ⟨hf, hf'.forall⟩, ?_, ?_⟩
      · simp only [run, hw]
        rw [hw', Framing.reported_cons]
        rfl
      · have ha : header?.toList ++ AddReport.attempts (report :: reports) =
            (header?.toList ++ report.attempt?.toList) ++ AddReport.attempts reports := by
          cases hr : report.attempt? <;> simp [AddReport.attempts, hr]
        rw [ha]
        exact h.append h'
    | meanwhile change =>
      have hs := harmless change (by simp)
      obtain ⟨header?, reports, t, hl, hrec, hf, hw, h⟩ := ih writer harmless' (hs s valid).1
      exact ⟨header?, reports, t, hl, hrec, hf, hw, .meanwhile hs h⟩

end TextWriter

/-! ## Runs -/

/-- What the calls of `add` in a run came to. -/
structure RunReport (α : Type) where
  /-- The attempt to write the header, if it came to that. -/
  header? : Option Attempt
  adds : List (AddReport α)

/-- The attempts of a run, in order. -/
def RunReport.attempts {α : Type} (report : RunReport α) : List Attempt :=
  report.header?.toList ++ AddReport.attempts report.adds

/-- What the closing of a writer came to. -/
structure CloseReport (κ : Type) where
  header? : Option Attempt
  footer? : Option Attempt
  /-- The channel as it was handed over to be closed. -/
  handedOver : κ × World

def CloseReport.attempts {κ : Type} (report : CloseReport κ) : List Attempt :=
  report.header?.toList ++ report.footer?.toList

section Telling

variable {α κ μ τ : Type} [ByteChannel κ] (view : StreamView κ) (copies : Nat)
  (sink : TextSink α μ τ) (steps : List (TextStep α κ))

/-- The report is true of a run that starts from `s` with a new writer. -/
structure RunReport.Tells (report : RunReport α) (s : κ × World)
    (outcome : List (Except Fault Nat) × TextWriter α × κ × World) : Prop where
  records : report.adds.map AddReport.record = TextStep.records steps
  answers : outcome.1 = report.adds.map AddReport.answer
  /-- The first call tries the header, and no other does. -/
  header : report.header?.map Attempt.line =
    if TextStep.records steps = [] then none else sink.framing.headerLine?
  adds : AddReport.AllFollow sink.coder sink.framing.terminator
    (Attempt.outcome report.header?) report.adds
  attempts : Attempts view s report.attempts outcome.2.2
  stream : view.stream outcome.2.2 = view.stream s ++ Attempt.allTaken report.attempts
  bytes : outcome.2.1.bytes = Attempt.totalSize report.header?.toList * copies +
    Attempt.totalSize (AddReport.attempts report.adds)
  recordCount : outcome.2.1.records = AddReport.successes report.adds

/-- The report is true of the closing of a writer after a run. -/
structure CloseReport.Tells (report : CloseReport κ) (before : TextWriter α × κ × World)
    (outcome : Except Fault Unit × TextWriter α × κ × World) : Prop where
  /-- The header is tried if no call has tried it before. -/
  header : report.header?.map Attempt.line =
    if TextStep.records steps = [] then sink.framing.headerLine? else none
  /-- The footer is left out where the header fails just before. -/
  footer : report.footer?.map Attempt.line =
    if (Attempt.outcome report.header?).isOk then sink.framing.footerLine? else none
  attempts : Attempts view before.2 report.attempts report.handedOver
  stream : view.stream report.handedOver =
    view.stream before.2 ++ Attempt.allTaken report.attempts
  closing : ClosedFrom (firstFailure (Attempt.outcome report.header?)
    (Attempt.outcome report.footer?)) report.handedOver outcome.2.1 outcome
  bytes : outcome.2.1.bytes = before.1.bytes + Attempt.totalSize report.attempts * copies
  recordCount : outcome.2.1.records = before.1.records

end Telling

/-- A run is told by the lines that the writer tried: the header once and first, then the lines of
those calls that got past header and coder, and the footer last, when the writer is closed. -/
theorem attempts_of_run {α κ μ τ : Type} [ByteChannel κ] {view : StreamView κ} {copies : Nat}
    (width : view.HasWidth copies) (sink : TextSink α μ τ) {steps : List (TextStep α κ)}
    (harmless : TextStep.Harmless view steps) {s : κ × World} (valid : view.valid s) :
    let outcome := sink.textWriter.run s steps
    ∃ (report : RunReport α) (closing : CloseReport κ),
      report.Tells view copies sink steps s outcome ∧
      closing.Tells view copies sink steps outcome.2 (outcome.2.1.close outcome.2.2) := by
  obtain ⟨header?, reports, t, hl, hrec, hf, hw, h⟩ :=
    TextWriter.run_attempts width sink.textWriter harmless valid
  have hs := h.shows valid
  let writer : TextWriter α := ⟨sink.coder, sink.framing.reported copies header? reports⟩
  obtain ⟨late?, footer?, u, hl', hf', hw', h'⟩ :=
    Framing.finish_attempt width writer.framing hs.1
  have hclosed := writer.closedFrom hw'
  rw [show sink.textWriter.run s steps = (reports.map AddReport.answer, writer, t) from hw]
  have hnil : reports = [] ↔ TextStep.records steps = [] := by
    rw [← hrec, List.map_eq_nil_iff]
  refine ⟨⟨header?, reports⟩, ⟨late?, footer?, u⟩, ?_, ?_⟩
  · exact {
      records := hrec
      answers := rfl
      header := hl
      adds := hf
      attempts := h
      stream := hs.2
      bytes := congrArg (· + _) (Nat.zero_add _)
      recordCount := Nat.zero_add _ }
  · refine {
      header := ?_
      footer := hf'
      attempts := h'
      stream := (h'.shows hs.1).2
      closing := hclosed.writer.symm ▸ hclosed
      bytes := ?_
      recordCount := congrArg (·.framing.records) hclosed.writer }
    · rw [hl', Framing.dueHeader?_reported, if_congr hnil rfl rfl]
      rfl
    · rw [CloseReport.attempts, Attempt.totalSize_append, Nat.add_mul, ← Nat.add_assoc]
      exact congrArg (·.framing.bytes) hclosed.writer

/-- A header that fails after its first byte, a record in pieces, and one of which nothing is
taken. -/
theorem attempts_of_run_torn :
    let sink : TextSink String Empty Empty := .create "out" false (some "head") none .text
    let script : List ScriptLine :=
      [.take 1, .fail (.reported .storageFull "full"), .take 1, .take 2, .take 0]
    let channel : ScriptedChannel := { shards := [], script }
    let steps : List (TextStep String ScriptedChannel) := [.add "a", .add "bc", .add "d"]
    let outcome := sink.textWriter.run (channel, ⟨Disk.fresh, []⟩) steps
    ∃ (report : RunReport String) (closing : CloseReport ScriptedChannel),
      report.Tells (ScriptedChannel.view 1) 1 sink steps (channel, ⟨Disk.fresh, []⟩) outcome ∧
      closing.Tells (ScriptedChannel.view 1) 1 sink steps outcome.2
        (outcome.2.1.close outcome.2.2) := by
  intro sink script channel steps outcome
  have harmless : TextStep.Harmless (ScriptedChannel.view 1) steps := by
    intro change hc
    simp [steps] at hc
  have valid : (ScriptedChannel.view 1).valid (channel, ⟨Disk.fresh, []⟩) := rfl
  exact attempts_of_run (ScriptedChannel.view_hasWidth 1) sink harmless valid

end ShardedLines
