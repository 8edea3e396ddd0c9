import ShardedLines.Proofs.Text.Lines

/-!
Lines that are written and read back.

Every text is written with a line feed behind it. A reader never takes a line with a line feed in
it, nor one that keeps a carriage return in front of its line feed, so texts that have one are lost,
and no combination of them reads as the texts that were written (`terminatedLines_written_iff`). All
other texts come back as they are, empty ones too (`readLines?_written`).
-/

namespace ShardedLines

/-- Lines as they are written, each ended by a line feed. -/
def writtenLines (lines : List Bytes) : Bytes :=
  lines.flatMap (· ++ [lineFeed])

theorem writtenLines_cons (line : Bytes) (rest : List Bytes) :
    writtenLines (line :: rest) = line ++ lineFeed :: writtenLines rest := by
  simp [writtenLines]

/-- No line that is read has a line feed. -/
theorem lineFeed_notMem_of_mem_terminatedLines {bytes line : Bytes}
    (h : line ∈ terminatedLines bytes) : lineFeed ∉ line := by
  have hlines := linesOf_terminatedLines bytes
  generalize terminatedLines bytes = lines at h hlines
  induction hlines with
  | none => cases h
  | last _ hl =>
    obtain rfl := List.mem_singleton.mp h
    exact hl
  | @next first rest lines hl _ ih =>
    rcases List.mem_cons.mp h with rfl | h
    · rw [dropReturn]
      split
      · intro hm
        exact hl (List.dropLast_subset first hm)
      · exact hl
    · exact ih h

theorem terminatedLines_written {lines : List Bytes} (h : ∀ line ∈ lines, lineFeed ∉ line) :
    terminatedLines (writtenLines lines) = lines.map dropReturn := by
  induction lines with
  | nil => rfl
  | cons line rest ih =>
    rw [List.forall_mem_cons] at h
    rw [writtenLines_cons, terminatedLines_append_cons h.1, ih h.2, List.map_cons]

theorem dropReturn_eq_self_iff {line : Bytes} :
    dropReturn line = line ↔ line.getLast? ≠ some carriageReturn := by
  constructor
  · intro h hr
    have hlength := congrArg List.length (eq_concat_of_getLast? hr)
    rw [h, List.length_append, List.length_singleton] at hlength
    omega
  · exact dropReturn_of_ne

theorem map_dropReturn_eq_self_iff {lines : List Bytes} :
    lines.map dropReturn = lines ↔ ∀ line ∈ lines, line.getLast? ≠ some carriageReturn := by
  induction lines with
  | nil => simp
  | cons line rest ih =>
    rw [List.map_cons, List.cons.injEq, ih, dropReturn_eq_self_iff, List.forall_mem_cons]

/-- The lines that are read are those that were written exactly if none of them has a line feed or
ends in a carriage return. -/
theorem terminatedLines_written_iff (lines : List Bytes) :
    terminatedLines (writtenLines lines) = lines ↔
      ∀ line ∈ lines, lineFeed ∉ line ∧ line.getLast? ≠ some carriageReturn := by
  constructor
  · intro h line hl
    have hfeed : ∀ line ∈ lines, lineFeed ∉ line := fun line hl =>
      lineFeed_notMem_of_mem_terminatedLines (h.symm ▸ hl)
    rw [terminatedLines_written hfeed, map_dropReturn_eq_self_iff] at h
    exact ⟨hfeed line hl, h line hl⟩
  · intro h
    rw [terminatedLines_written fun line hl => (h line hl).1, map_dropReturn_eq_self_iff]
    exact fun line hl => (h line hl).2

/-! ## Texts -/

/-- A text that a line can hold. -/
def FitsLine (text : String) : Prop :=
  '\n' ∉ text.toList ∧ text.toList.getLast? ≠ some '\r'

theorem fitsLine_iff (text : String) :
    FitsLine text ↔ lineFeed ∉ utf8 text ∧ (utf8 text).getLast? ≠ some carriageReturn := by
  have hfeed : lineFeed ∈ utf8 text ↔ '\n' ∈ text.toList :=
    Utf8.mem_encodeChars_iff (a := '\n') (by decide)
  have hreturn : (utf8 text).getLast? = some carriageReturn ↔ text.toList.getLast? = some '\r' :=
    Utf8.getLast?_encodeChars_iff (a := '\r') (by decide)
  rw [FitsLine, hfeed, ne_eq, ne_eq, hreturn]

/-- Distinct texts have distinct bytes. -/
theorem utf8_injective : Function.Injective utf8 := by
  intro first second h
  have hdecoded : Utf8.decodeLossy (encodeChars first.toList) =
      Utf8.decodeLossy (encodeChars second.toList) := congrArg Utf8.decodeLossy h
  rwa [Utf8.decodeLossy_encodeChars, Utf8.decodeLossy_encodeChars, String.ofList_toList,
    String.ofList_toList] at hdecoded

/-- Texts that are written line by line are always read as some lines, and as the same texts exactly
if a line can hold each of them. -/
theorem readLines?_written (texts : List String) :
    ∃ lines, readLines? (writtenLines (texts.map utf8)) = some lines ∧
      (lines = texts ↔ ∀ text ∈ texts, FitsLine text) := by
  have formed : WellFormed (writtenLines (texts.map utf8)) := by
    refine ⟨texts.flatMap (·.toList ++ ['\n']), ?_⟩
    induction texts with
    | nil => rfl
    | cons text rest ih =>
      rw [List.map_cons, writtenLines_cons, ih, List.flatMap_cons, encodeChars_append,
        encodeChars_append, List.append_assoc]
      rfl
  refine ⟨_, formed.readLines?, ?_⟩
  have heach : ∀ line ∈ terminatedLines (writtenLines (texts.map utf8)), WellFormed line :=
    fun _ => formed.of_mem_terminatedLines
  rw [← (List.map_injective_iff.mpr utf8_injective).eq_iff, WellFormed.map_decodeLossy heach,
    terminatedLines_written_iff, List.forall_mem_map]
  simp only [fitsLine_iff]

end ShardedLines
