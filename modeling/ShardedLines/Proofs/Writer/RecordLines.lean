import ShardedLines.Proofs.Coder.Controls
import ShardedLines.Proofs.Writer.ShardParts

/-!
One line for each record.

Where no record has a line feed of its own, whatever goes wrong with some records, each of the others
is on one line of the stream or the shard that it was written to, and there are as many line feeds
between header and footer as records that were accepted (`FramedLines`). JSON records are of this
kind (`json_records_on_lines`).
-/

namespace ShardedLines

/-- Without header and footer, nothing stands around the records. -/
theorem Framing.framed_eq_body {framing : Framing} (header : framing.header? = none)
    (footer : framing.footer? = none) {heads feet : Bytes} (hheads : heads <+: framing.headerLine)
    (hfeet : feet <+: framing.footerLine) (body : Bytes) : heads ++ body ++ feet = body := by
  rw [headerLine, headerLine?, header] at hheads
  rw [footerLine, footerLine?, footer] at hfeet
  rw [List.prefix_nil.mp hheads, List.prefix_nil.mp hfeet, List.nil_append, List.append_nil]

/-- What a writer brought to a stream, after some calls and its closing. -/
structure FramedLines {α : Type} (coder : Coder α) (framing : Framing)
    (calls : List (α × Except Fault Nat)) (brought : Bytes) : Prop where
  /-- Parts of the header and of the footer stand around the records. -/
  framed : ∃ texts heads body feet, heads <+: framing.headerLine ∧ feet <+: framing.footerLine ∧
    brought = heads ++ body ++ feet ∧ OnLines coder calls texts body
  newlines : framing.header? = none → framing.footer? = none →
    brought.count lineFeed = calls.countP (·.2.isOk)

theorem OnLines.framedLines {α : Type} {coder : Coder α} {framing : Framing}
    {calls : List (α × Except Fault Nat)} {texts : List Bytes} {heads body feet : Bytes}
    (h : OnLines coder calls texts body) (hheads : heads <+: framing.headerLine)
    (hfeet : feet <+: framing.footerLine) :
    FramedLines coder framing calls (heads ++ body ++ feet) where
  framed := ⟨texts, heads, body, feet, hheads, hfeet, rfl, h⟩
  newlines header footer := by
    rw [Framing.framed_eq_body header footer hheads hfeet, h.newlines, ← h.accepted.length_eq,
      List.countP_eq_length_filter]

theorem FramedLines.exists_onLines {α : Type} {coder : Coder α} {framing : Framing}
    {calls : List (α × Except Fault Nat)} {brought : Bytes}
    (h : FramedLines coder framing calls brought) (header : framing.header? = none)
    (footer : framing.footer? = none) : ∃ texts, OnLines coder calls texts brought := by
  obtain ⟨texts, heads, body, feet, hheads, hfeet, rfl, onLines⟩ := h.framed
  rw [Framing.framed_eq_body header footer hheads hfeet]
  exact ⟨texts, onLines⟩

/-- What a run and the closing of its writer bring to the stream. -/
theorem TextSink.exists_framedLines {α κ μ τ : Type} [ByteChannel κ] {view : StreamView κ}
    {copies : Nat} (width : view.HasWidth copies) {sink : TextSink α μ τ}
    (single : sink.coder.StaysOnLine) (terminated : sink.trailingNewlines = true)
    {steps : List (TextStep α κ)} (harmless : TextStep.Harmless view steps) {s : κ × World}
    (valid : view.valid s) :
    let outcome := sink.textWriter.run s steps
    outcome.1.length = (TextStep.records steps).length ∧
    ∃ brought framed handed closed,
      view.stream handed = view.stream s ++ brought ∧
      FramedLines sink.coder sink.framing ((TextStep.records steps).zip outcome.1) brought ∧
      outcome.2.1.records = outcome.1.countP (·.isOk) ∧
      ClosedFrom framed handed closed (outcome.2.1.close outcome.2.2) := by
  obtain ⟨hlength, parts, heads, feet, framed, handed, closed, hparts, hheads, hfeet, hstream,
    hclosed, hrecords⟩ := sink.exists_parts width harmless valid
  rw [terminator_eq terminated] at hparts
  obtain ⟨texts, onLines⟩ := exists_onLines single hparts
  refine ⟨hlength, _, framed, handed, closed, ?_, onLines.framedLines hheads hfeet, hrecords,
    hclosed⟩
  simpa only [List.append_assoc] using hstream

/-! ## Shards -/

/-- The records that were directed to one of the shards, with the answers. -/
def answersAt {α : Type} (shard : Nat) (entries : List ((Nat × α) × Except Fault Nat)) :
    List (α × Except Fault Nat) :=
  (entries.filter (·.1.1 = shard)).map fun entry => (entry.1.2, entry.2)

/-- These are all the records that were directed to the shard. -/
theorem map_fst_answersAt {α : Type} {shard : Nat} {directed : List (Nat × α)}
    {answers : List (Except Fault Nat)} (h : answers.length = directed.length) :
    (answersAt shard (directed.zip answers)).map Prod.fst =
      (directed.filter (·.1 = shard)).map Prod.snd := by
  have hdirected := List.map_fst_zip (Nat.le_of_eq h.symm)
  conv_rhs => rw [← hdirected, List.filter_map, List.map_map]
  rw [answersAt, List.map_map]
  rfl

theorem answersAt_map {α : Type} (shard : Nat) (directed : List (Nat × α))
    (answer : Nat × α → Except Fault Nat) :
    answersAt shard (directed.zip (directed.map answer)) =
      (directed.filter (·.1 = shard)).map fun entry => (entry.2, answer entry) := by
  have hzip : directed.zip (directed.map answer) = directed.map fun entry => (entry, answer entry) := by
    rw [List.zip_eq_zipWith, List.zipWith_map_right, List.zipWith_self]
  rw [answersAt, hzip, List.filter_map, List.map_map]
  rfl

/-- What came to a shard are the parts of its own records. -/
theorem exists_parts_at {α : Type} {coder : Coder α} {newline : Bytes}
    {entries : List ((Nat × α) × Except Fault Nat)} {parts : List Bytes}
    (h : List.Forall₂ (fun entry => RecordPart coder newline (entry.1.2, entry.2)) entries parts)
    (shard : Nat) :
    ∃ own, List.Forall₂ (RecordPart coder newline) (answersAt shard entries) own ∧
      (List.zipWith (fun entry => partFor entry.1.1) entries parts).flatMap (· shard) =
        own.flatten := by
  induction h with
  | nil => exact ⟨[], .nil, rfl⟩
  | @cons entry part entries parts hpart _ ih =>
    obtain ⟨own, hown, heq⟩ := ih
    rw [List.zipWith_cons_cons, List.flatMap_cons, heq, answersAt]
    by_cases hs : entry.1.1 = shard
    · refine ⟨part :: own, ?_, ?_⟩
      · rw [List.filter_cons_of_pos (by simpa using hs)]
        exact .cons hpart hown
      · rw [partFor, if_pos hs.symm, List.flatten_cons]
    · refine ⟨own, ?_, ?_⟩
      · rw [List.filter_cons_of_neg (by simpa using hs)]
        exact hown
      · rw [partFor, if_neg (Ne.symm hs), List.nil_append]

/-- What a run and the closing of its writer bring to each of the shards. -/
theorem TextSink.exists_framedLines_at {α κ μ τ : Type} [ByteChannel κ] [Located κ]
    {view : ShardView κ} {sink : TextSink α μ τ} (single : sink.coder.StaysOnLine)
    (terminated : sink.trailingNewlines = true) {s : ShardSet κ × World} {contents : List Bytes}
    (holds : view.Holds s contents) (router : Router) (calls : List (ShardCall α)) :
    let outcome := (sink.shardingWriter router).run s calls
    let directed := ShardCall.directed contents.length router calls
    outcome.1.length = directed.length ∧
    ∃ brought framed handed closed,
      view.Holds handed (addParts brought contents) ∧
      (∀ shard, FramedLines sink.coder sink.framing (answersAt shard (directed.zip outcome.1))
        (brought shard)) ∧
      ClosedFrom framed handed closed (outcome.2.1.close outcome.2.2) := by
  intro outcome directed
  obtain ⟨hlength, parts, hparts, delivered⟩ := (sink.shardingWriter router).run_parts calls holds
  obtain ⟨heads, -, feet, hheads, hfeet, -, -, handed⟩ := delivered.finish rfl
  refine ⟨hlength, _, _, _, _, handed, fun shard => ?_,
    outcome.2.1.closedFrom (Framing.finish_eq_writes ..)⟩
  obtain ⟨own, hown, heq⟩ := exists_parts_at hparts shard
  change List.Forall₂ (RecordPart sink.coder sink.framing.terminator) _ _ at hown
  rw [terminator_eq terminated] at hown
  obtain ⟨texts, onLines⟩ := exists_onLines single hown
  rw [← heq] at onLines
  exact onLines.framedLines (hheads.isPrefix shard) (hfeet.isPrefix shard)

/-! ## JSON -/

theorem Coder.staysOnLine_json : Coder.json.StaysOnLine := by
  intro record text encoded hm
  have hrun := Coder.bytes?_eq_ok_iff.mp encoded
  have hle : 0x20 ≤ lineFeed := @Coder.le_of_mem_json record _ (hrun.symm ▸ hm)
  exact absurd hle (by decide)

/-- Every value that can be written as JSON, or fails to, appends bytes of which none is below 0x20
to what stands in the buffer. So every record that a writer accepts has one line of the stream, or
of the shard that the call is directed to, and adds one line feed to it. -/
theorem json_records_on_lines :
    (∀ record buffer, ∃ added, (Coder.json.encode record buffer).2 = buffer ++ added ∧
      ∀ b ∈ added, 0x20 ≤ b) ∧
    (∀ {κ μ τ : Type} [ByteChannel κ] {view : StreamView κ} {copies : Nat}
      {sink : TextSink Datum μ τ} {steps : List (TextStep Datum κ)} {s : κ × World},
      view.HasWidth copies → sink.coder = .json → sink.trailingNewlines = true →
      TextStep.Harmless view steps → view.valid s →
      let outcome := sink.textWriter.run s steps
      outcome.1.length = (TextStep.records steps).length ∧
      ∃ brought framed handed closed,
        view.stream handed = view.stream s ++ brought ∧
        FramedLines .json sink.framing ((TextStep.records steps).zip outcome.1) brought ∧
        outcome.2.1.records = outcome.1.countP (·.isOk) ∧
        ClosedFrom framed handed closed (outcome.2.1.close outcome.2.2)) ∧
    ∀ {κ μ τ : Type} [ByteChannel κ] [Located κ] {view : ShardView κ} {sink : TextSink Datum μ τ}
      {s : ShardSet κ × World} {contents : List Bytes} (router : Router)
      (calls : List (ShardCall Datum)),
      sink.coder = .json → sink.trailingNewlines = true → view.Holds s contents →
      let outcome := (sink.shardingWriter router).run s calls
      let directed := ShardCall.directed contents.length router calls
      outcome.1.length = directed.length ∧
      ∃ brought framed handed closed,
        view.Holds handed (addParts brought contents) ∧
        (∀ shard, FramedLines .json sink.framing (answersAt shard (directed.zip outcome.1))
          (brought shard)) ∧
        ClosedFrom framed handed closed (outcome.2.1.close outcome.2.2) := by
  refine ⟨fun record buffer => ⟨_, rfl, fun b hb => Coder.le_of_mem_json hb⟩, ?_, ?_⟩
  · intro κ μ τ _ view copies sink steps s width coded terminated harmless valid
    have h := TextSink.exists_framedLines width (coded ▸ Coder.staysOnLine_json) terminated harmless
      valid
    rwa [coded] at h
  · intro κ μ τ _ _ view sink s contents router calls coded terminated holds
    have h := TextSink.exists_framedLines_at (coded ▸ Coder.staysOnLine_json) terminated holds router
      calls
    rwa [coded] at h

/-- A text with a line feed comes in two bytes, a list fails within, and a truth value is accepted: it
ends the one line, behind what the text left. Of two shards, the first has this line. -/
theorem json_records_on_lines_torn :
    let full := ScriptLine.fail (.system .storageFull)
    let channel : ScriptedChannel := { shards := [], script := [.take 2, full] }
    let shards : ShardSet ScriptedChannel := ⟨[channel, { shards := [] }], true⟩
    let world : World := ⟨Disk.fresh, []⟩
    let sink : TextSink Datum Empty Empty := .create "out" true none none .json
    let records : List Datum := [.text "a\nb", .seq [.int 1, .failure "no"], .bool true]
    let single := sink.textWriter.run (channel, world) (records.map .add)
    let several := (sink.shardingWriter .fromFirst).run (shards, world)
      (.addToShard 1 .null :: records.map (.addToShard 0))
    let refused : List (Except Fault Nat) :=
      [.error (.system .storageFull), .error (.refused "no"), .ok 5]
    single.1 = refused ∧ single.2.2.1.stream = utf8 "\"atrue\n" ∧
    several.1 = .ok 5 :: refused ∧
    several.2.2.1.shards.map ScriptedChannel.stream = [utf8 "\"atrue\n", utf8 "null\n"] ∧
    (∃ brought handed, (ScriptedChannel.view 1).stream handed = [] ++ brought ∧
      FramedLines .json sink.framing (records.zip refused) brought) ∧
    ∃ brought handed, ScriptedChannel.faultyView.Holds handed (addParts brought [[], []]) ∧
      FramedLines .json sink.framing (records.zip refused) (brought 0) ∧
      FramedLines .json sink.framing [(.null, .ok 5)] (brought 1) := by
  intro full channel shards world sink records single several refused
  have hsingle : single.1 = refused := by cbv
  have hseveral : several.1 = .ok 5 :: refused := by cbv
  have harmless : TextStep.Harmless (ScriptedChannel.view 1) (records.map .add) := by
    intro change hc
    simp [records] at hc
  have holds : ScriptedChannel.faultyView.Holds (shards, world) [[], []] := by
    refine ⟨rfl, ?_, by simp [shards, ScriptedChannel.faultyView], rfl⟩
    intro shard hs
    simp only [shards, List.mem_cons, List.not_mem_nil, or_false] at hs
    rcases hs with rfl | rfl <;> rfl
  obtain ⟨-, text, sharded⟩ := json_records_on_lines
  obtain ⟨-, brought, -, handed, -, hstream, hlines, -, -⟩ :=
    @text _ _ _ _ (ScriptedChannel.view 1) 1 sink _ (channel, world)
      (ScriptedChannel.view_hasWidth 1) rfl rfl harmless rfl
  obtain ⟨-, brought', -, handed', -, hhold, hlines', -⟩ :=
    @sharded _ _ _ _ _ _ sink _ _ .fromFirst
      (.addToShard 1 .null :: records.map (.addToShard 0)) rfl rfl holds
  simp only [show (ShardingWriter.run _ _ _).1 = _ from hseveral] at hlines'
  exact ⟨hsingle, by cbv, hseveral, by cbv, ⟨brought, handed, hstream, hsingle ▸ hlines⟩,
    brought', handed', hhold, hlines' 0, hlines' 1⟩

end ShardedLines
