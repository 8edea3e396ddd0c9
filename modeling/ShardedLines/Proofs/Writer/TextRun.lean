import ShardedLines.Proofs.Channel.Memory
import ShardedLines.Proofs.Writer.Closing
import ShardedLines.Sink.Open

/-!
Runs of a text writer.

A run is a list of calls of the writer, with whatever else happens to its channel between them. On
a channel that only delays what is written, the stream comes to hold the framed lines of the
records in order (`stream_of_run`), however the channel cuts them into pieces.
-/

namespace ShardedLines

/-- A step of a run: a call of the writer, or something that others do to its channel. -/
inductive TextStep (α κ : Type) where
  | add (record : α)
  | meanwhile (change : κ × World → κ × World)

namespace TextStep

variable {α κ : Type}

def record? : TextStep α κ → Option α
  | add record => some record
  | meanwhile _ => none

/-- The records of a run, in order. -/
def records (steps : List (TextStep α κ)) : List α := steps.filterMap record?

@[simp] theorem records_add (record : α) (rest : List (TextStep α κ)) :
    records (.add record :: rest) = record :: records rest := rfl

/-- Others keep to what a view allows. -/
def Harmless [ByteChannel κ] (view : StreamView κ) (steps : List (TextStep α κ)) : Prop :=
  ∀ change, .meanwhile change ∈ steps → view.Harmless change

end TextStep

namespace TextWriter

variable {α κ : Type} [ByteChannel κ]

/-- Goes through the steps of a run, and collects the answers of the writer. -/
def run (writer : TextWriter α) (s : κ × World) :
    List (TextStep α κ) → List (Except Fault Nat) × TextWriter α × κ × World
  | [] => ([], writer, s)
  | .add record :: rest =>
    match writer.add record s with
    | (answer, writer, s) =>
      match run writer s rest with
      | (answers, final) => (answer :: answers, final)
  | .meanwhile change :: rest => run writer (change s) rest

variable {ρ : Type} {holds : κ × World → ρ → Prop} {grow : ρ → Bytes → ρ} {copies : Nat}

/-- The writing of a record that can be encoded, where every line is written. -/
theorem add_of_reliable (reliable : Reliable holds grow copies) {writer : TextWriter α} {record : α}
    {bytes : Bytes} (encoded : writer.coder.bytes? record = .ok bytes) {s : κ × World} {a : ρ}
    (h : holds s a) :
    ∃ t, writer.add record s =
        (.ok (bytes ++ writer.framing.terminator).length, { writer with
          framing := writer.framing.afterRecord copies (bytes ++ writer.framing.terminator) }, t) ∧
      holds t (grow (grow a writer.framing.pendingHeader) (bytes ++ writer.framing.terminator)) := by
  obtain ⟨t, ht, hold⟩ := Framing.ensureHeader_of_reliable reliable writer.framing h
  obtain ⟨u, hu, hold⟩ := reliable.writeAll (bytes ++ writer.framing.terminator) hold
  refine ⟨u, ?_, hold⟩
  have hl : (writer.framing.afterHeader copies).recordLine writer.coder record =
      .ok (bytes ++ writer.framing.terminator) := Framing.recordLine_of_encoded encoded _
  rw [add, ht]
  simp only [hl, hu, Framing.afterRecord]

/-- What a run leaves where every line is written, and others take nothing away. -/
theorem run_of_reliable (reliable : Reliable holds grow copies) (writer : TextWriter α)
    {encode : α → Bytes} {steps : List (TextStep α κ)}
    (encodes : ∀ record ∈ TextStep.records steps,
      writer.coder.bytes? record = .ok (encode record))
    (harmless : ∀ change, .meanwhile change ∈ steps → ∀ s a, holds s a → holds (change s) a)
    {s : κ × World} {a : ρ} (h : holds s a) :
    let lines := (TextStep.records steps).map (encode · ++ writer.framing.terminator)
    ∃ t, writer.run s steps =
        (lines.map fun line => .ok line.length,
          { writer with framing := writer.framing.afterRecords copies lines }, t) ∧
      holds t (lines.foldl grow (if lines = [] then a else grow a writer.framing.pendingHeader)) := by
  induction steps generalizing writer s a with
  | nil => exact ⟨s, rfl, h⟩
  | cons step rest ih =>
    have harmless' : ∀ change, .meanwhile change ∈ rest → ∀ s a, holds s a → holds (change s) a :=
      fun change hc => harmless change (List.mem_cons_of_mem _ hc)
    cases step with
    | add record =>
      obtain ⟨t, ht, hold⟩ := add_of_reliable reliable (encodes record (by simp)) h
      let line := encode record ++ writer.framing.terminator
      obtain ⟨u, hu, hold⟩ := ih
        { writer with framing := writer.framing.afterRecord copies line }
        (fun r hr => encodes r (by simp [hr])) harmless' hold
      refine ⟨u, ?_, ?_⟩
      · simp only [run, ht]
        rw [hu]
        rfl
      · simpa [reliable.grow_nil] using hold
    | meanwhile change =>
      obtain ⟨t, ht, hold⟩ := ih writer encodes harmless' (harmless change (by simp) s a h)
      exact ⟨t, ht, hold⟩

theorem foldl_append (lines : List Bytes) (received : Bytes) :
    lines.foldl (· ++ ·) received = received ++ lines.flatten := by
  induction lines generalizing received with
  | nil => simp
  | cons line rest ih => rw [List.foldl_cons, ih, List.flatten_cons, List.append_assoc]

/-- The header comes with the first line, or at the end if there is none. -/
theorem foldl_append_header (lines : List Bytes) (received header : Bytes) :
    lines.foldl (· ++ ·) (if lines = [] then received else received ++ header) ++
        (if lines = [] then header else []) = received ++ header ++ lines.flatten := by
  rw [foldl_append]
  by_cases h : lines = []
  · simp [h]
  · simp [h]

/-- What a run leaves on a channel that only delays what is written. -/
theorem run_of_steady {view : StreamView κ} (steady : view.Steady) (width : view.HasWidth copies)
    (writer : TextWriter α) {encode : α → Bytes} {steps : List (TextStep α κ)}
    (encodes : ∀ record ∈ TextStep.records steps,
      writer.coder.bytes? record = .ok (encode record))
    (harmless : TextStep.Harmless view steps) {s : κ × World} {received : Bytes}
    (h : view.Shows s received) :
    let lines := (TextStep.records steps).map (encode · ++ writer.framing.terminator)
    ∃ t, writer.run s steps =
        (lines.map fun line => .ok line.length,
          { writer with framing := writer.framing.afterRecords copies lines }, t) ∧
      view.Shows t (received ++
        (if lines = [] then [] else writer.framing.pendingHeader) ++ lines.flatten) := by
  intro lines
  obtain ⟨t, ht, shows⟩ := run_of_reliable (StreamView.reliable steady width) writer encodes
    (fun change hc _ _ hs => (harmless change hc).shows hs) h
  refine ⟨t, ht, ?_⟩
  rw [foldl_append] at shows
  by_cases hnil : lines = []
  · simpa [lines, hnil] using shows
  · simpa [lines, hnil] using shows

variable {kept : κ × World → Prop}
  (keeps : ∀ line s, kept s → kept (ByteChannel.writeAll line s).2)

include keeps

theorem add_keeps (writer : TextWriter α) (record : α) {s : κ × World} (hs : kept s) :
    kept (writer.add record s).2.2 := by
  have h := Framing.ensureHeader_keeps keeps writer.framing hs
  rw [add]
  split <;> rename_i framing t hheader <;> rw [hheader] at h
  · exact h
  · split
    · exact h
    · rename_i line _
      have hline := keeps line t h
      split <;> rename_i u hw <;> rw [hw] at hline <;> exact hline

/-- What no line takes away is kept by a run. -/
theorem run_keeps (writer : TextWriter α) (records : List α) {s : κ × World} (hs : kept s) :
    kept (writer.run s (records.map .add)).2.2 := by
  induction records generalizing writer s with
  | nil => exact hs
  | cons record rest ih =>
    have hnext := add_keeps keeps writer record hs
    rcases hadd : writer.add record s with ⟨answer, next, t⟩
    rw [hadd] at hnext
    simp only [List.map_cons, run, hadd]
    exact ih next hnext

end TextWriter

theorem TextSink.terminator_eq {α μ τ : Type} {sink : TextSink α μ τ}
    (terminated : sink.trailingNewlines = true) : sink.framing.terminator = [lineFeed] := by
  rw [framing, Framing.new, terminated]
  rfl

/-- Every call of the writer answers with the length of its record's line, and the channel is handed
over to be closed with the framed lines in order. A channel that keeps a single stream counts one
copy of what it is given; one that broadcasts counts several, and so do header and footer. -/
theorem stream_of_run {α κ μ τ : Type} [ByteChannel κ] {view : StreamView κ} {copies : Nat}
    (steady : view.Steady) (width : view.HasWidth copies) (sink : TextSink α μ τ)
    (encode : α → Bytes) {steps : List (TextStep α κ)}
    (encodes : ∀ record ∈ TextStep.records steps, sink.coder.bytes? record = .ok (encode record))
    (harmless : TextStep.Harmless view steps) {s : κ × World} (valid : view.valid s) :
    let records := TextStep.records steps
    let newline := sink.framing.terminator
    let stream := view.stream s ++ sink.framing.headerLine ++
      records.flatMap (encode · ++ newline) ++ sink.framing.footerLine
    ∃ writer t u closed,
      sink.textWriter.run s steps =
        (records.map fun record => .ok ((encode record).length + newline.length), writer, t) ∧
      writer.records = records.length ∧
      writer.bytes = (if records = [] then 0 else sink.framing.headerLine.length * copies) +
        (records.map fun record => (encode record).length + newline.length).sum ∧
      view.stream u = stream ∧ ClosedFrom (.ok ()) u closed (writer.close t) ∧
      (view.KeptByClosing → view.stream (writer.close t).2.2 = stream) := by
  intro records newline stream
  let lines := records.map (encode · ++ newline)
  let writer : TextWriter α := ⟨sink.coder, sink.framing.afterRecords copies lines⟩
  obtain ⟨t, ht, shows⟩ : ∃ t, sink.textWriter.run s steps =
        (lines.map fun line => .ok line.length, writer, t) ∧
      view.Shows t (view.stream s ++ (if lines = [] then [] else sink.framing.headerLine) ++
        lines.flatten) :=
    TextWriter.run_of_steady steady width sink.textWriter encodes harmless
      (StreamView.shows_stream valid)
  obtain ⟨u, hu, shows⟩ := Framing.finish_of_reliable (StreamView.reliable steady width)
    writer.framing shows
  have hnil : lines = [] ↔ records = [] := List.map_eq_nil_iff
  have hrecords : writer.records = records.length := by
    rw [TextWriter.records, Framing.records_afterRecords, List.length_map]
    exact Nat.zero_add _
  have hbytes : writer.bytes = (if records = [] then 0 else sink.framing.headerLine.length * copies) +
      (records.map fun record => (encode record).length + newline.length).sum := by
    rw [TextWriter.bytes, Framing.bytes_afterRecords, List.map_map]
    simp only [hnil, Function.comp_def, List.length_append]
    change 0 + _ + _ = _
    rw [Nat.zero_add]
    rfl
  -- the header comes with the first record, or at the end if there was none
  have hstream : view.stream u = stream := by
    have hpending : sink.framing.pendingHeader = sink.framing.headerLine := rfl
    rw [shows.2, Framing.pendingHeader_afterRecords, Framing.footerLine_afterRecords, hpending]
    change _ = view.stream s ++ sink.framing.headerLine ++ lines.flatten ++ sink.framing.footerLine
    by_cases h : lines = []
    · rw [if_pos h, if_pos h, h, List.flatten_nil]
      simp only [List.append_nil]
    · rw [if_neg h, if_neg h, List.append_nil]
  have hclosed := writer.closedFrom hu
  refine ⟨writer, t, u, _, ht.trans ?_, hrecords, hbytes, hstream, hclosed, fun kept => ?_⟩
  · simp only [lines, List.map_map, Function.comp_def, List.length_append]
  · exact (kept u _ shows.1 hclosed.channel hclosed.disk).trans hstream

/-- Two records on a channel that is slow and interrupted, and on one whose limit is changed. -/
theorem stream_of_run_interrupted :
    let again := ScriptLine.fail (.reported .interrupted "again")
    let slow : ScriptedChannel := { shards := [], script := [.take 1, again, again, .take 1] }
    let limited : MemoryChannel := MemoryChannel.new.limitWrites 1
    let loosen : MemoryChannel × World → MemoryChannel × World :=
      fun (channel, world) => (channel.limitWrites 2, world)
    let sink : TextSink String Empty Empty := .create "out" false (some "h") (some "f") .text
    let world : World := ⟨Disk.fresh, []⟩
    (∃ writer t,
      sink.textWriter.run (slow, world) [.add "ab", .meanwhile id, .add ""] =
        ([.ok 3, .ok 1], writer, t) ∧
      writer.records = 2 ∧ writer.bytes = 6 ∧
      (writer.close t).2.2.1.stream = utf8 "h\nab\n\nf\n") ∧
    (∃ writer t,
      sink.textWriter.run (limited, world) [.add "ab", .meanwhile loosen, .add ""] =
        ([.ok 3, .ok 1], writer, t) ∧
      writer.records = 2 ∧ writer.bytes = 6 ∧
      (writer.close t).2.2.1.stream = utf8 "h\nab\n\nf\n") := by
  intro again slow limited loosen sink world
  constructor
  · have valid : (ScriptedChannel.steadyView 1).valid (slow, world) := by
      refine ⟨rfl, ?_⟩
      simp [ScriptedChannel.Delays, slow, again, ScriptLine.Progresses, Fault.isInterruption,
        Fault.kind]
    have harmless : TextStep.Harmless (ScriptedChannel.steadyView 1)
        [.add "ab", .meanwhile id, .add ""] := by
      intro change hc
      obtain rfl : change = id := by simpa using hc
      exact fun s hs => ⟨hs, rfl⟩
    obtain ⟨writer, t, _, _, hrun, hrecords, hbytes, _, _, hstream⟩ := stream_of_run
      (ScriptedChannel.steadyView_steady 1) (ScriptedChannel.steadyView_hasWidth 1) sink
      utf8 (fun _ _ => rfl) harmless valid
    exact ⟨writer, t, hrun, hrecords, hbytes, hstream (ScriptedChannel.steadyView_keptByClosing 1)⟩
  · have valid : MemoryChannel.takingView.valid (limited, world) := by
      refine ⟨?_, rfl, ?_⟩
      · intro failure hf
        cases hf
      · decide
    have harmless : TextStep.Harmless MemoryChannel.takingView
        [.add "ab", .meanwhile loosen, .add ""] := by
      intro change hc
      obtain rfl : change = loosen := by simpa using hc
      exact MemoryChannel.harmless_limitWrites Nat.two_pos
    obtain ⟨writer, t, _, _, hrun, hrecords, hbytes, _, _, hstream⟩ := stream_of_run
      MemoryChannel.takingView_steady MemoryChannel.takingView_hasWidth sink
      utf8 (fun _ _ => rfl) harmless valid
    exact ⟨writer, t, hrun, hrecords, hbytes, hstream MemoryChannel.takingView_keptByClosing⟩

end ShardedLines
