import Mathlib.Data.List.Forall2
import ShardedLines.Proofs.Text.WrittenLines
import ShardedLines.Proofs.Writer.Attempts

/-!
The part of each record in what is written.

A call that answers with a count has brought the whole line of its record, and one that fails a
strict part of it or nothing (`RecordPart`). Where no record has a line feed of its own, a part that
is not whole has none at all. So the line feeds of the parts are those of the accepted records, and
each of these has a line to itself, but for what an earlier call that failed left in front of it
(`OnLines`).
-/

namespace ShardedLines

/-! ## Parts and answers -/

/-- The part of the line of a record that came to a stream, by what the call answered. -/
inductive RecordPart {α : Type} (coder : Coder α) (newline : Bytes) :
    α × Except Fault Nat → Bytes → Prop where
  | whole {record text} : coder.bytes? record = .ok text →
      RecordPart coder newline (record, .ok (text ++ newline).length) (text ++ newline)
  | torn {record text part fault} : coder.bytes? record = .ok text → part <+: text ++ newline →
      part ≠ text ++ newline → RecordPart coder newline (record, .error fault) part
  | nothing {record fault} : RecordPart coder newline (record, .error fault) []

/-- An attempt to write the line of a record, as the answer of the call tells it. -/
theorem RecordPart.of_attempt {α : Type} {coder : Coder α} {newline text : Bytes} {record : α}
    {attempt : Attempt} (sound : attempt.Sound) (encoded : coder.bytes? record = .ok text)
    (hline : attempt.line = text ++ newline) :
    RecordPart coder newline (record, attempt.answer.map fun _ => attempt.line.length)
      attempt.taken := by
  rw [Attempt.Sound] at sound
  cases ha : attempt.answer with
  | error fault =>
    rw [ha, hline] at sound
    exact .torn encoded sound.1 sound.2
  | ok _ =>
    rw [ha, hline] at sound
    rw [sound, hline]
    exact .whole encoded

theorem Attempts.sound {κ : Type} [ByteChannel κ] {view : StreamView κ} {s t : κ × World}
    {attempts : List Attempt} (h : Attempts view s attempts t) :
    ∀ attempt ∈ attempts, attempt.Sound := by
  induction h with
  | none => exact fun _ ha => nomatch ha
  | meanwhile _ _ ih => exact ih
  | next _ _ ha _ ih => exact List.forall_mem_cons.mpr ⟨ha, ih⟩

/-- What came of a line that was to be written once at most is a part of it. -/
theorem Attempt.allTaken_toList_prefix {attempt? : Option Attempt} {line? : Option Bytes}
    (sound : ∀ attempt ∈ attempt?.toList, attempt.Sound) (h : attempt?.map Attempt.line = line?) :
    allTaken attempt?.toList <+: line?.getD [] := by
  subst h
  cases attempt? with
  | none => exact List.nil_prefix
  | some attempt => simpa using (sound attempt (by simp)).isPrefix

/-- What a call of `add` brought of the line of its record. -/
def AddReport.taken {α : Type} (report : AddReport α) : Bytes :=
  Attempt.allTaken report.attempt?.toList

theorem AddReport.Follows.recordPart {α : Type} {coder : Coder α} {newline : Bytes}
    {header : Except Fault Unit} {report : AddReport α} (h : report.Follows coder newline header)
    (sound : ∀ attempt ∈ report.attempt?, attempt.Sound) :
    RecordPart coder newline (report.record, report.answer) report.taken := by
  cases h with
  | headerFailed => exact .nothing
  | refused _ => exact .nothing
  | torn encoded hline ha =>
    have hpart := RecordPart.of_attempt (sound _ rfl) encoded hline
    simpa [taken, ha, Except.map] using hpart
  | written encoded hline ha =>
    have hpart := RecordPart.of_attempt (sound _ rfl) encoded hline
    simpa [taken, ha, Except.map] using hpart

theorem AddReport.flatten_taken {α : Type} (reports : List (AddReport α)) :
    (reports.map taken).flatten = Attempt.allTaken (attempts reports) := by
  induction reports with
  | nil => rfl
  | cons report rest ih =>
    rw [List.map_cons, List.flatten_cons, ih]
    cases hr : report.attempt? <;> simp [taken, attempts, hr]

theorem AddReport.AllFollow.recordParts {α : Type} {coder : Coder α} {newline : Bytes}
    {header : Except Fault Unit} {reports : List (AddReport α)}
    (h : AllFollow coder newline header reports)
    (sound : ∀ attempt ∈ attempts reports, attempt.Sound) :
    List.Forall₂ (RecordPart coder newline)
      ((reports.map AddReport.record).zip (reports.map AddReport.answer)) (reports.map taken) := by
  have heach : ∀ report ∈ reports,
      RecordPart coder newline (report.record, report.answer) report.taken := by
    intro report hr
    have hsound : ∀ attempt ∈ report.attempt?, attempt.Sound := fun attempt ha =>
      sound attempt (List.mem_filterMap.mpr ⟨report, hr, ha⟩)
    cases reports with
    | nil => cases hr
    | cons first rest =>
      rcases List.mem_cons.mp hr with rfl | hr
      · exact h.1.recordPart hsound
      · exact (h.2 report hr).recordPart hsound
  rw [List.zip_map']
  exact List.forall₂_map_left_iff.mpr (List.forall₂_map_right_iff.mpr
    (List.forall₂_same.mpr heach))

/-! ## Lines -/

/-- No record has a line feed of its own. -/
def Coder.StaysOnLine {α : Type} (coder : Coder α) : Prop :=
  ∀ record text, coder.bytes? record = .ok text → lineFeed ∉ text

/-- What some calls brought: the texts of the accepted records, each ended by a line feed, and of the
other records nothing with a line feed. -/
structure OnLines {α : Type} (coder : Coder α) (calls : List (α × Except Fault Nat))
    (texts : List Bytes) (body : Bytes) : Prop where
  /-- The texts are those of the accepted records, and answered with their lengths. -/
  accepted : List.Forall₂
    (fun call text => coder.bytes? call.1 = .ok text ∧ call.2 = .ok (text.length + 1))
    (calls.filter (·.2.isOk)) texts
  newlines : body.count lineFeed = texts.length
  /-- Whatever stands in front of them and behind them, each of the texts ends a line of its own. -/
  lines : ∀ front behind, ∃ before own after,
    pieces lineFeed (front ++ body ++ behind) = before ++ own ++ after ∧
    before.length = front.count lineFeed ∧ List.Forall₂ (· <:+ ·) texts own
  /-- Where no record failed that can be encoded, each of the texts is a line. -/
  unbroken : (∀ call ∈ calls, (coder.bytes? call.1).isOk → call.2.isOk) → body = writtenLines texts

theorem exists_pieces_count (front : Bytes) :
    ∃ init last, pieces lineFeed front = init ++ [last] ∧ init.length = front.count lineFeed := by
  obtain ⟨init, last, h⟩ := exists_pieces front
  have hlength := length_pieces lineFeed front
  rw [h, List.length_append, List.length_singleton] at hlength
  exact ⟨init, last, h, Nat.succ_injective hlength⟩

namespace OnLines

variable {α : Type} {coder : Coder α} {call : α × Except Fault Nat}
  {calls : List (α × Except Fault Nat)} {texts : List Bytes} {body text part : Bytes}

theorem none : OnLines coder [] [] [] where
  accepted := .nil
  newlines := rfl
  lines front behind := by
    obtain ⟨init, last, hfront, hinit⟩ := exists_pieces_count front
    obtain ⟨first, rest, hbehind⟩ := List.exists_cons_of_ne_nil (pieces_ne_nil lineFeed behind)
    refine ⟨init, [], (last ++ first) :: rest, ?_, hinit, .nil⟩
    rw [List.append_nil, List.append_nil, pieces_append hfront hbehind]
  unbroken _ := rfl

/-- A record is written as a line in front of the others. -/
theorem whole (h : OnLines coder calls texts body) (encoded : coder.bytes? call.1 = .ok text)
    (answer : call.2 = .ok (text.length + 1)) (hfeed : lineFeed ∉ text) :
    OnLines coder (call :: calls) (text :: texts) ((text ++ [lineFeed]) ++ body) where
  accepted := by
    rw [List.filter_cons_of_pos (by rw [answer]; rfl)]
    exact .cons ⟨encoded, answer⟩ h.accepted
  newlines := by
    simp [h.newlines, List.count_eq_zero_of_not_mem hfeed]
  lines front behind := by
    obtain ⟨init, last, hfront, hinit⟩ := exists_pieces_count front
    obtain ⟨before, own, after, hpieces, hbefore, hown⟩ := h.lines [] behind
    obtain rfl : before = [] := List.length_eq_zero_iff.mp hbefore
    rw [List.nil_append, List.nil_append] at hpieces
    have hline : pieces lineFeed (text ++ lineFeed :: (body ++ behind)) = text :: (own ++ after) := by
      rw [pieces_append_cons hfeed, hpieces]
    have happend := pieces_append hfront hline
    refine ⟨init, (last ++ text) :: own, after, ?_, hinit,
      .cons (List.suffix_append last text) hown⟩
    simpa using happend
  unbroken hall := by
    rw [h.unbroken (List.forall_mem_cons.mp hall).2]
    rfl

/-- A record fails, and leaves something without a line feed in front of the others. -/
theorem broken {fault : Fault} (h : OnLines coder calls texts body)
    (answer : call.2 = .error fault) (hfeed : lineFeed ∉ part)
    (nothing : ¬ (coder.bytes? call.1).isOk → part = []) :
    OnLines coder (call :: calls) texts (part ++ body) where
  accepted := by
    rw [List.filter_cons_of_neg (by simp [answer, Except.isOk, Except.toBool])]
    exact h.accepted
  newlines := by
    rw [List.count_append, List.count_eq_zero_of_not_mem hfeed, Nat.zero_add, h.newlines]
  lines front behind := by
    obtain ⟨before, own, after, hpieces, hbefore, hown⟩ := h.lines (front ++ part) behind
    refine ⟨before, own, after, ?_, ?_, hown⟩
    · rw [← List.append_assoc, hpieces]
    · rw [hbefore, List.count_append, List.count_eq_zero_of_not_mem hfeed, Nat.add_zero]
  unbroken hall := by
    obtain ⟨hcall, hcalls⟩ := List.forall_mem_cons.mp hall
    rw [answer] at hcall
    rw [nothing fun hok => Bool.false_ne_true (hcall hok), List.nil_append]
    exact h.unbroken hcalls

end OnLines

/-- The parts of records stand on lines. -/
theorem exists_onLines {α : Type} {coder : Coder α} (single : coder.StaysOnLine)
    {calls : List (α × Except Fault Nat)} {parts : List Bytes}
    (h : List.Forall₂ (RecordPart coder [lineFeed]) calls parts) :
    ∃ texts, OnLines coder calls texts parts.flatten := by
  induction h with
  | nil => exact ⟨[], .none⟩
  | cons hpart _ ih =>
    obtain ⟨texts, onLines⟩ := ih
    rw [List.flatten_cons]
    cases hpart with
    | whole encoded =>
      exact ⟨_, onLines.whole encoded (by simp) (single _ _ encoded)⟩
    | torn encoded hprefix hne =>
      -- a strict part stops short of the line feed
      have htext := (List.prefix_concat_iff.mp hprefix).resolve_left hne
      refine ⟨texts, onLines.broken rfl (fun hm => single _ _ encoded (htext.subset hm)) ?_⟩
      intro hfails
      exact absurd (by rw [encoded]; rfl) hfails
    | nothing => exact ⟨texts, onLines.broken rfl List.not_mem_nil fun _ => rfl⟩

/-! ## Runs of a text writer -/

/-- The header is tried in a run, or by the closing of the writer where the run is empty. -/
theorem Framing.exists_heads {α : Type} {copies : Nat} (framing : Framing)
    {header? late? : Option Attempt} {reports : List (AddReport α)}
    (sound : ∀ attempt ∈ header?.toList, attempt.Sound)
    (header : header?.map Attempt.line = if reports = [] then none else framing.dueHeader?)
    (sound' : ∀ attempt ∈ late?.toList, attempt.Sound)
    (late : late?.map Attempt.line = (framing.reported copies header? reports).dueHeader?) :
    ∃ heads, heads <+: framing.pendingHeader ∧
      Attempt.allTaken header?.toList ++ ((reports.map AddReport.taken).flatten ++
        Attempt.allTaken late?.toList) = heads ++ (reports.map AddReport.taken).flatten := by
  have hearly := Attempt.allTaken_toList_prefix sound header
  have hclosing := Attempt.allTaken_toList_prefix sound'
    (late.trans (dueHeader?_reported copies header? reports framing))
  cases reports with
  | nil =>
    obtain rfl : header? = none := Option.map_eq_none_iff.mp header
    exact ⟨_, hclosing, by simp⟩
  | cons report rest =>
    rw [if_neg (List.cons_ne_nil report rest)] at hearly hclosing
    exact ⟨_, hearly, by rw [List.prefix_nil.mp hclosing, List.append_nil]⟩

/-- A run brings a part of the header and a part of each record, and the closing of the writer a part
of the footer. -/
theorem TextSink.exists_parts {α κ μ τ : Type} [ByteChannel κ] {view : StreamView κ} {copies : Nat}
    (width : view.HasWidth copies) (sink : TextSink α μ τ) {steps : List (TextStep α κ)}
    (harmless : TextStep.Harmless view steps) {s : κ × World} (valid : view.valid s) :
    let outcome := sink.textWriter.run s steps
    outcome.1.length = (TextStep.records steps).length ∧
    ∃ parts heads feet framed handed closed,
      List.Forall₂ (RecordPart sink.coder sink.framing.terminator)
        ((TextStep.records steps).zip outcome.1) parts ∧
      heads <+: sink.framing.headerLine ∧ feet <+: sink.framing.footerLine ∧
      view.stream handed = view.stream s ++ heads ++ parts.flatten ++ feet ∧
      ClosedFrom framed handed closed (outcome.2.1.close outcome.2.2) ∧
      outcome.2.1.records = outcome.1.countP (·.isOk) := by
  obtain ⟨header?, reports, t, hheader, hrecords, hall, hrun, hattempts⟩ :=
    TextWriter.run_attempts width sink.textWriter harmless valid
  have hshows := hattempts.shows valid
  have hsound := hattempts.sound
  rw [List.forall_mem_append] at hsound
  let writer : TextWriter α := ⟨sink.coder, sink.framing.reported copies header? reports⟩
  obtain ⟨late?, footer?, handed, hlate, hfooter, hfinish, hlast⟩ :=
    Framing.finish_attempt width writer.framing hshows.1
  have hsound' := hlast.sound
  rw [List.forall_mem_append] at hsound'
  rw [show sink.textWriter.run s steps = (reports.map AddReport.answer, writer, t) from hrun]
  have hfeet : Attempt.allTaken footer?.toList <+: sink.framing.footerLine := by
    have hprefix := Attempt.allTaken_toList_prefix hsound'.2 hfooter
    split at hprefix
    · exact hprefix
    · exact hprefix.trans List.nil_prefix
  have hnil : TextStep.records steps = [] ↔ reports = [] := by
    rw [← hrecords, List.map_eq_nil_iff]
  rw [if_congr hnil rfl rfl] at hheader
  obtain ⟨heads, hheads, heq⟩ :=
    Framing.exists_heads sink.framing hsound.1 hheader hsound'.1 hlate
  refine ⟨by simp [← hrecords], reports.map AddReport.taken, heads, _, _, handed, _, ?_, hheads,
    hfeet, ?_, writer.closedFrom hfinish, ?_⟩
  · rw [← hrecords]
    exact hall.recordParts hsound.2
  · rw [(hlast.shows hshows.1).2, hshows.2, Attempt.allTaken_append, Attempt.allTaken_append,
      ← AddReport.flatten_taken, List.append_assoc (view.stream s) heads, ← heq]
    simp only [List.append_assoc]
  · change 0 + _ = _
    rw [Nat.zero_add, AddReport.successes, List.countP_map]
    rfl

end ShardedLines
