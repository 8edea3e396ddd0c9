import ShardedLines.Proofs.Channel.PlacedFiles
import ShardedLines.Proofs.Disk.Creation
import ShardedLines.Proofs.Text.WrittenLines
import ShardedLines.Proofs.Writer.TextRun

/-!
A single stream to a local file.

Where opening succeeds, the writer has an empty regular file or a device without room. Nothing fails
on the file, which is left with the framed lines (`exists_written`). A device may take all lines into
the buffer, but it cannot be closed (`exists_close_device`), so a run that succeeds was one on a file.
Its lines are read back as the texts that were written exactly if a line can hold each of them
(`lines_read_back_iff`).
-/

namespace ShardedLines

section Local

variable {α κ τ : Type} {world opened : World} {location : Location}

/-! ## Opening -/

/-- What is opened is at the place of the destination, an empty file or a device. -/
theorem TextSink.exists_opened_stream {sink : TextSink α κ τ} {writer : TextWriter α}
    {channel : FileChannel ⊕ κ} (isLocal : sink.factory? = none)
    (h : sink.openTextWriter world = (.ok (writer, channel), opened)) :
    ∃ location, writer = sink.textWriter ∧
      channel = .inl (LocalFiles.openAt location sink.destination) ∧
      opened.disk.EntryAt sink.destination location ∧ Path.ending sink.destination = .plain ∧
      (opened.disk.find? location = some (.file []) ∨
        opened.disk.find? location = some .fullDevice) := by
  simp only [openTextWriter, openStream, isLocal, LocalFiles.factory] at h
  rcases hcreate : FileChannel.create sink.destination world with ⟨fault | file, begun⟩
  · rw [hcreate] at h
    cases h
  · rw [hcreate] at h
    cases h
    obtain ⟨location, disk, hdisk, rfl, rfl⟩ := FileChannel.create_eq_ok.mp hcreate
    exact ⟨location, rfl, rfl, Disk.entryAt_of_createFileIn hdisk⟩

variable [ByteChannel κ]

/-! ## Devices -/

/-- A writer on a device cannot be closed without a fault, whatever it wrote. -/
theorem TextWriter.exists_close_device (writer : TextWriter α) (records : List α)
    {s : FileChannel × World} (h : FileChannel.OnDevice s) :
    ∃ answers written t fault outcome,
      writer.run (leftState κ s) (records.map .add) = (answers, written, t) ∧
        written.close t = (.error fault, outcome) := by
  let kept (t : (FileChannel ⊕ κ) × World) : Prop :=
    ∃ s, t = leftState κ s ∧ FileChannel.OnDevice s
  have keeps : ∀ line t, kept t → kept (ByteChannel.writeAll line t).2 := by
    rintro line _ ⟨s, rfl, hs⟩
    rw [writeAll_leftState]
    exact ⟨_, rfl, writeFully_keeps (fun buffer _ => FileChannel.onDevice_write buffer) line hs⟩
  have hrun := run_keeps keeps writer records ⟨s, rfl, h⟩
  rcases hwritten : writer.run (leftState κ s) (records.map .add) with ⟨answers, written, t⟩
  rw [hwritten] at hrun
  have hfinish := Framing.finish_keeps keeps written.framing hrun
  rcases hframed : written.framing.finish t with ⟨framed, framing, u⟩
  rw [hframed] at hfinish
  obtain ⟨last, rfl, hdevice⟩ := hfinish
  obtain ⟨fault, hclose⟩ := FileChannel.onDevice_close hdevice
  have hanswer : (written.close t).1 = firstFailure framed (ByteChannel.close last).1 :=
    (written.closedFrom hframed).answer
  rw [hclose] at hanswer
  rcases framed with framedFault | _
  · exact ⟨answers, written, t, framedFault, _, rfl, Prod.ext hanswer rfl⟩
  · exact ⟨answers, written, t, fault, _, rfl, Prod.ext hanswer rfl⟩

/-! ## Files -/

@[simp] theorem TextStep.records_map_add {μ : Type} (records : List α) :
    TextStep.records (records.map (.add : α → TextStep α μ)) = records := by
  induction records with
  | nil => rfl
  | cons record rest ih => rw [List.map_cons, TextStep.records_add, ih]

/-- A file that was just opened is left with the framed lines of the records, and no other file is
touched. -/
theorem TextSink.exists_written (sink : TextSink α κ τ) (encode : α → Bytes) (records : List α)
    (encodes : ∀ record ∈ records, sink.coder.bytes? record = .ok (encode record))
    (hfile : opened.disk.find? location = some (.file [])) :
    ∃ written t closed left last,
      sink.textWriter.run (leftState κ (LocalFiles.openAt location sink.destination, opened))
          (records.map .add) =
        (records.map fun record => .ok (encode record ++ sink.framing.terminator).length,
          written, t) ∧
      written.close t = (.ok (), closed, left, last) ∧
      last.disk.find? location = some (.file (sink.framing.headerLine ++
        records.flatMap (encode · ++ sink.framing.terminator) ++ sink.framing.footerLine)) ∧
      Disk.Grows (· = location) opened.disk last.disk := by
  let lines := records.map (encode · ++ sink.framing.terminator)
  let view := FileChannel.placedView (fun _ => location) (· = location) opened.disk
  have placed : FileChannel.Placed (fun _ => location) (· = location) opened.disk
      (LocalFiles.openAt location sink.destination, opened) :=
    ⟨⟨_, rfl, rfl, rfl, [], hfile, rfl⟩, .refl _ _⟩
  have hempty : view.stream (LocalFiles.openAt location sink.destination, opened) = [] := by
    change FileHandle.received _ opened.disk = []
    simp [FileHandle.received, FileHandle.writtenOut, hfile]
  have width : view.HasWidth 1 := fun _ _ => rfl
  have reliable := (StreamView.reliable FileChannel.placedView_steady width).left (τ := κ)
  let steps : List (TextStep α (FileChannel ⊕ κ)) := records.map .add
  have encodes' : ∀ record ∈ TextStep.records steps,
      sink.coder.bytes? record = .ok (encode record) := by
    rwa [TextStep.records_map_add]
  obtain ⟨t, hrun, hold⟩ := TextWriter.run_of_reliable reliable sink.textWriter encodes'
    (by simp [steps]) ⟨_, rfl, ⟨placed.fits, placed⟩, hempty⟩
  rw [TextStep.records_map_add] at hrun hold
  let written : TextWriter α := ⟨sink.coder, sink.framing.afterRecords 1 lines⟩
  obtain ⟨u, hfinish, ⟨channel, later⟩, rfl, ⟨-, hplaced⟩, hstream⟩ :=
    Framing.finish_of_reliable reliable written.framing hold
  obtain ⟨closed, disk, hclose, hcontents, grows⟩ := FileChannel.close_placed hplaced
  obtain ⟨left, last, hwritten, hdisk⟩ := (written.closedFrom hfinish).exists_ok hclose
  refine ⟨written, t, _, left, last, ?_, hwritten, ?_, ?_⟩
  · rw [List.map_map] at hrun
    exact hrun
  · have hreceived : FileChannel.received (channel, later) =
        lines.foldl (· ++ ·) (if lines = [] then [] else [] ++ sink.framing.headerLine) ++
          (if lines = [] then sink.framing.headerLine else []) ++ sink.framing.footerLine := by
      rw [Framing.pendingHeader_afterRecords, Framing.footerLine_afterRecords] at hstream
      exact hstream
    rw [hdisk, hcontents, hreceived, TextWriter.foldl_append_header, List.nil_append,
      ← List.flatMap_def]
  · rw [hdisk]
    exact hplaced.grows.trans grows

end Local

/-! ## Texts -/

section Texts

variable {κ τ : Type} {sink : TextSink String κ τ}

/-- The texts around some records, and the records. -/
def TextSink.texts (sink : TextSink String κ τ) (records : List String) : List String :=
  sink.header?.toList ++ records ++ sink.footer?.toList

/-- With line feeds, what is left is the texts line by line. -/
theorem TextSink.framed_eq_writtenLines (terminated : sink.trailingNewlines = true)
    (records : List String) :
    sink.framing.headerLine ++ records.flatMap (utf8 · ++ sink.framing.terminator) ++
      sink.framing.footerLine = writtenLines ((sink.texts records).map utf8) := by
  have hterminator := terminator_eq terminated
  have hframe : ∀ text? : Option String,
      (text?.map sink.framing.frameLine).getD [] = writtenLines (text?.toList.map utf8) := by
    intro text?
    cases text? with
    | none => rfl
    | some text => simp [Framing.frameLine, hterminator, writtenLines]
  have happend : ∀ first second,
      writtenLines (first ++ second) = writtenLines first ++ writtenLines second :=
    fun _ _ => List.flatMap_append
  rw [texts, List.map_append, List.map_append, happend, happend, ← hframe, ← hframe, writtenLines,
    List.flatMap_map, hterminator]
  rfl

end Texts

/-- A run of texts to a local file succeeds unless the file is a device. After a run that succeeds
the file can be read, and the lines that are read are header, records and footer, as they were
given, exactly if none of them has a line feed or ends in a carriage return. -/
theorem lines_read_back_iff {κ τ : Type} [ByteChannel κ] {sink : TextSink String κ τ}
    (isLocal : sink.factory? = none) (terminated : sink.trailingNewlines = true)
    (coded : sink.coder = .text) {world opened : World} {writer : TextWriter String}
    {channel : FileChannel ⊕ κ}
    (h : sink.openTextWriter world = (.ok (writer, channel), opened)) (records : List String) :
    ∃ answers written t answer closed left last,
      writer.run (channel, opened) (records.map .add) = (answers, written, t) ∧
      written.close t = (answer, closed, left, last) ∧
      (answer = .ok () ↔ opened.disk.nodeAt? sink.destination ≠ some .fullDevice) ∧
      (answer = .ok () →
        answers = records.map (fun record => .ok ((utf8 record).length + 1)) ∧
        ∃ bytes lines, last.disk.contentsOf sink.destination = .ok bytes ∧
          readLines? bytes = some lines ∧
          (lines = sink.texts records ↔ ∀ text ∈ sink.texts records,
            '\n' ∉ text.toList ∧ text.toList.getLast? ≠ some '\r')) := by
  obtain ⟨location, rfl, rfl, hentry, hending, hnode⟩ := TextSink.exists_opened_stream isLocal h
  have hlocate := hentry.locate_eq_ok hending
  rcases hnode with hfile | hdevice
  · have hnodeAt : opened.disk.nodeAt? sink.destination = some (.file []) := by
      rw [Disk.nodeAt?, hlocate (Option.isSome_of_mem hfile)]
      exact hfile
    obtain ⟨written, t, closed, left, last, hrun, hclose, hcontents, grows⟩ :=
      sink.exists_written utf8 records (fun _ _ => coded ▸ rfl) hfile
    rw [TextSink.framed_eq_writtenLines terminated] at hcontents
    refine ⟨_, written, t, _, closed, left, last, hrun, hclose, by simp [hnodeAt], fun _ => ?_⟩
    obtain ⟨lines, hlines, hiff⟩ := readLines?_written (sink.texts records)
    refine ⟨?_, _, lines, ?_, hlines, hiff⟩
    · simp only [TextSink.terminator_eq terminated, List.length_append, List.length_singleton]
    · have hfound := (hentry.mono grows).locate_eq_ok hending (Option.isSome_of_mem hcontents)
      rw [Disk.contentsOf, hfound]
      simp only [hcontents]
  · have hnodeAt : opened.disk.nodeAt? sink.destination = some .fullDevice := by
      rw [Disk.nodeAt?, hlocate (Option.isSome_of_mem hdevice)]
      exact hdevice
    obtain ⟨answers, written, t, fault, ⟨closed, left, last⟩, hrun, hclose⟩ :=
      sink.textWriter.exists_close_device (κ := κ) records
        (s := (LocalFiles.openAt location sink.destination, opened)) ⟨_, rfl, hdevice⟩
    refine ⟨answers, written, t, _, closed, left, last, hrun, hclose, by simp [hnodeAt], ?_⟩
    intro hok
    cases hok

/-- An empty record and a carriage return within a line come back, a return at the end of one does
not. -/
theorem lines_read_back_of_returns :
    let sink : TextSink String MemoryChannel MemoryChannel :=
      .create "out/log" false (some "h") (some "") .text
    sink.factory? = none ∧ sink.trailingNewlines = true ∧ sink.coder = .text ∧
      ∃ writer channel opened, sink.openTextWriter ⟨.fresh, []⟩ = (.ok (writer, channel), opened) ∧
        (∃ written t closed left last bytes,
          writer.run (channel, opened) (["", "a\rb"].map .add) = ([.ok 1, .ok 4], written, t) ∧
          written.close t = (.ok (), closed, left, last) ∧
          last.disk.contentsOf "out/log" = .ok bytes ∧
          readLines? bytes = some ["h", "", "a\rb", ""]) ∧
        ∃ written t closed left last bytes lines,
          writer.run (channel, opened) (["a\r"].map .add) = ([.ok 3], written, t) ∧
          written.close t = (.ok (), closed, left, last) ∧
          last.disk.contentsOf "out/log" = .ok bytes ∧
          readLines? bytes = some lines ∧ lines ≠ ["h", "a\r", ""] := by
  intro sink
  have hok : (sink.openTextWriter ⟨.fresh, []⟩).1.isOk = true := by decide +kernel
  have hfile : (sink.openTextWriter ⟨.fresh, []⟩).2.disk.nodeAt? "out/log" ≠ some .fullDevice := by
    decide +kernel
  rcases h : sink.openTextWriter ⟨.fresh, []⟩ with ⟨fault | ⟨writer, channel⟩, opened⟩
  · rw [h] at hok
    cases hok
  · rw [h] at hfile
    have hread := lines_read_back_iff rfl rfl rfl h
    refine ⟨rfl, rfl, rfl, writer, channel, opened, rfl, ?_, ?_⟩
    · obtain ⟨answers, written, t, answer, closed, left, last, hrun, hclose, hanswer, hlines⟩ :=
        hread ["", "a\rb"]
      obtain rfl := hanswer.mpr hfile
      obtain ⟨rfl, bytes, lines, hbytes, hlines, hiff⟩ := hlines rfl
      obtain rfl := hiff.mpr (by decide)
      exact ⟨written, t, closed, left, last, bytes, hrun, hclose, hbytes, hlines⟩
    · obtain ⟨answers, written, t, answer, closed, left, last, hrun, hclose, hanswer, hlines⟩ :=
        hread ["a\r"]
      obtain rfl := hanswer.mpr hfile
      obtain ⟨rfl, bytes, lines, hbytes, hlines, hiff⟩ := hlines rfl
      exact ⟨written, t, closed, left, last, bytes, lines, hrun, hclose, hbytes, hlines,
        mt hiff.mp (by decide)⟩

end ShardedLines
