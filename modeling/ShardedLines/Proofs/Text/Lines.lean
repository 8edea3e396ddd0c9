import Mathlib.Data.List.Basic
import ShardedLines.Proofs.Text.Utf8
import ShardedLines.Text.Lines

/-!
The two views of lines compared.

`LinesOf` says what a reader takes that goes through the bytes line by line, and `terminatedLines`
is its one answer. On well-formed text the view for people differs from it in one place: where the
text ends in a carriage return, the last line keeps it for the reader, and loses it in the view
(`shownLines_eq_iff`).
-/

namespace ShardedLines

/-! ## Pieces -/

section Pieces

variable {α β : Type} [BEq α] [LawfulBEq α] [BEq β] [LawfulBEq β] {sep : α}

theorem pieces_append_of_not_mem {xs : List α} (h : sep ∉ xs) (ys : List α) :
    pieces sep (xs ++ ys) = (pieces sep ys).modifyHead (xs ++ ·) := by
  induction xs with
  | nil =>
    obtain ⟨piece, rest, hp⟩ := List.exists_cons_of_ne_nil (pieces_ne_nil sep ys)
    rw [List.nil_append, hp, List.modifyHead_cons, List.nil_append]
  | cons x xs ih =>
    obtain ⟨hx, hxs⟩ := not_or.mp (mt List.mem_cons.mpr h)
    have hne : (x == sep) = false := beq_false_of_ne (Ne.symm hx)
    rw [List.cons_append, pieces, hne, ih hxs, if_neg Bool.false_ne_true,
      List.modifyHead_modifyHead]
    rfl

theorem pieces_of_not_mem {xs : List α} (h : sep ∉ xs) : pieces sep xs = [xs] := by
  have := pieces_append_of_not_mem h []
  rwa [List.append_nil, pieces, List.modifyHead_cons, List.append_nil] at this

theorem pieces_append_cons {xs : List α} (h : sep ∉ xs) (ys : List α) :
    pieces sep (xs ++ sep :: ys) = xs :: pieces sep ys := by
  rw [pieces_append_of_not_mem h, pieces, beq_self_eq_true, if_pos rfl, List.modifyHead_cons,
    List.append_nil]

/-- Parts without the separator are the pieces of what joining them with it gives. -/
theorem pieces_intercalate {parts : List (List α)} (hne : parts ≠ [])
    (h : ∀ part ∈ parts, sep ∉ part) : pieces sep ([sep].intercalate parts) = parts := by
  induction parts with
  | nil => exact absurd rfl hne
  | cons first rest ih =>
    obtain ⟨hfirst, hrest⟩ := List.forall_mem_cons.mp h
    cases rest with
    | nil =>
      rw [List.intercalate_singleton]
      exact pieces_of_not_mem hfirst
    | cons next rest =>
      rw [List.intercalate_cons_cons, List.append_assoc, List.singleton_append,
        pieces_append_cons hfirst, ih (List.cons_ne_nil next rest) hrest]

/-- Where two texts meet, the last piece of the one and the first of the other are one. -/
theorem pieces_append {xs ys : List α} {init rest : List (List α)} {last first : List α}
    (hx : pieces sep xs = init ++ [last]) (hy : pieces sep ys = first :: rest) :
    pieces sep (xs ++ ys) = init ++ (last ++ first) :: rest := by
  by_cases h : sep ∈ xs
  · obtain ⟨front, behind, rfl, hf⟩ := List.eq_append_cons_of_mem h
    rw [pieces_append_cons hf] at hx
    obtain ⟨others, last', hb⟩ : ∃ others last', pieces sep behind = others ++ [last'] :=
      ⟨_, _, (List.dropLast_concat_getLast (pieces_ne_nil sep behind)).symm⟩
    rw [hb, ← List.cons_append] at hx
    obtain ⟨rfl, hlast⟩ := List.append_inj' hx rfl
    obtain rfl := List.singleton_inj.mp hlast
    rw [List.append_assoc, List.cons_append, pieces_append_cons hf, pieces_append hb hy]
    rfl
  · rw [pieces_of_not_mem h] at hx
    obtain ⟨rfl, rfl⟩ : init = [] ∧ last = xs := by
      cases init with
      | nil => exact ⟨rfl, (List.singleton_inj.mp hx).symm⟩
      | cons => simp at hx
    rw [pieces_append_of_not_mem h, hy]
    rfl
termination_by xs.length
decreasing_by
  subst_vars
  simp only [List.length_append, List.length_cons]
  omega

/-- Spelling every element out keeps the pieces apart, if the separator has a spelling of one
element that is in no other. -/
theorem pieces_flatMap {sep' : β} {spell : α → List β} (hsep : spell sep = [sep'])
    (other : ∀ {x}, sep' ∈ spell x → x = sep) (xs : List α) :
    pieces sep' (xs.flatMap spell) = (pieces sep xs).map (·.flatMap spell) := by
  induction xs with
  | nil => rfl
  | cons x xs ih =>
    rw [List.flatMap_cons, pieces]
    by_cases hx : x = sep
    · subst hx
      rw [hsep, beq_self_eq_true, if_pos rfl, List.map_cons, ← ih]
      exact pieces_append_cons List.not_mem_nil _
    · rw [if_neg (by simpa using hx), pieces_append_of_not_mem fun h => hx (other h), ih]
      obtain ⟨piece, rest, hp⟩ := List.exists_cons_of_ne_nil (pieces_ne_nil sep xs)
      simp only [hp, List.map_cons, List.modifyHead_cons, List.flatMap_cons]

/-- The last piece stands at the end, right behind a separator or at the very start. -/
theorem exists_front {xs : List α} {init : List (List α)} {last : List α}
    (h : pieces sep xs = init ++ [last]) :
    ∃ front, xs = front ++ last ∧ (front = [] ∨ front.getLast? = some sep) := by
  rw [← intercalate_pieces sep xs, h]
  clear h
  induction init with
  | nil => exact ⟨[], by simp, .inl rfl⟩
  | cons piece init ih =>
    obtain ⟨front, hf, hend⟩ := ih
    refine ⟨piece ++ [sep] ++ front, ?_, .inr ?_⟩
    · obtain ⟨next, rest, hn⟩ := List.exists_cons_of_ne_nil (List.append_ne_nil_of_right_ne_nil init
        (List.cons_ne_nil last []))
      rw [hn] at hf
      rw [List.cons_append, hn, List.intercalate_cons_cons, hf]
      simp only [List.append_assoc]
    · rcases hend with rfl | hend
      · rw [List.append_nil, List.getLast?_concat]
      · rw [List.getLast?_append, hend]
        rfl

end Pieces

/-! ## Line by line -/

/-- The lines that a reader takes off some bytes one by one. -/
inductive LinesOf : Bytes → List Bytes → Prop where
  /-- No line is left. -/
  | none : LinesOf [] []
  /-- What no line feed ends is a line as it stands. -/
  | last {line} : line ≠ [] → lineFeed ∉ line → LinesOf line [line]
  /-- The line feed goes, and one carriage return right before it. -/
  | next {line rest lines} : lineFeed ∉ line → LinesOf rest lines →
      LinesOf (line ++ lineFeed :: rest) (dropReturn line :: lines)

/-- The lines behind the last line feed: one, unless nothing is there. -/
def lastLine (last : Bytes) : List Bytes := if last.isEmpty then [] else [last]

theorem terminatedLines_of_pieces {bytes last : Bytes} {init : List Bytes}
    (h : pieces lineFeed bytes = init ++ [last]) :
    terminatedLines bytes = init.map dropReturn ++ lastLine last := by
  simp only [terminatedLines, h, List.getLast?_concat, List.dropLast_concat, Option.getD_some,
    lastLine]

theorem rawLines_of_pieces {bytes last : Bytes} {init : List Bytes}
    (h : pieces lineFeed bytes = init ++ [last]) : rawLines bytes = init ++ lastLine last := by
  simp only [rawLines, h, List.getLast?_concat, List.dropLast_concat, lastLine]
  cases last with
  | nil => simp
  | cons b rest => simp

theorem exists_pieces (bytes : Bytes) :
    ∃ init last, pieces lineFeed bytes = init ++ [last] :=
  ⟨_, _, (List.dropLast_concat_getLast (pieces_ne_nil lineFeed bytes)).symm⟩

theorem terminatedLines_append_cons {line : Bytes} (h : lineFeed ∉ line) (rest : Bytes) :
    terminatedLines (line ++ lineFeed :: rest) = dropReturn line :: terminatedLines rest := by
  obtain ⟨init, last, hp⟩ := exists_pieces rest
  have hq : pieces lineFeed (line ++ lineFeed :: rest) = (line :: init) ++ [last] := by
    rw [pieces_append_cons h, hp, List.cons_append]
  rw [terminatedLines_of_pieces hq, terminatedLines_of_pieces hp, List.map_cons, List.cons_append]

theorem terminatedLines_of_not_mem {line : Bytes} (h : lineFeed ∉ line) :
    terminatedLines line = lastLine line := by
  have hp : pieces lineFeed line = [] ++ [line] := pieces_of_not_mem h
  exact terminatedLines_of_pieces hp

theorem linesOf_terminatedLines (bytes : Bytes) : LinesOf bytes (terminatedLines bytes) := by
  by_cases h : lineFeed ∈ bytes
  · obtain ⟨line, rest, rfl, hl⟩ := List.eq_append_cons_of_mem h
    rw [terminatedLines_append_cons hl]
    exact .next hl (linesOf_terminatedLines rest)
  · rw [terminatedLines_of_not_mem h]
    cases bytes with
    | nil => exact .none
    | cons b rest => exact .last (List.cons_ne_nil b rest) h
termination_by bytes.length
decreasing_by
  subst_vars
  simp only [List.length_append, List.length_cons]
  omega

theorem linesOf_iff {bytes : Bytes} {lines : List Bytes} :
    LinesOf bytes lines ↔ lines = terminatedLines bytes := by
  constructor
  · intro h
    induction h with
    | none => rfl
    | @last line hne hl =>
      rw [terminatedLines_of_not_mem hl, lastLine, if_neg (by simpa using hne)]
    | next hl _ ih => rw [terminatedLines_append_cons hl, ih]
  · intro h
    rw [h]
    exact linesOf_terminatedLines bytes

/-! ## The view for people -/

theorem dropReturn_of_ne {line : Bytes} (h : line.getLast? ≠ some carriageReturn) :
    dropReturn line = line := by
  rw [dropReturn, if_neg (by simpa using h)]

@[simp] theorem dropReturn_concat (line : Bytes) :
    dropReturn (line ++ [carriageReturn]) = line := by
  rw [dropReturn, List.getLast?_concat, beq_self_eq_true, if_pos rfl, List.dropLast_concat]

theorem eq_concat_of_getLast? {line : Bytes} (h : line.getLast? = some carriageReturn) :
    line = dropReturn line ++ [carriageReturn] := by
  obtain ⟨start, rfl⟩ := List.getLast?_eq_some_iff.mp h
  rw [dropReturn_concat]

/-- The bytes of the shown lines. -/
def shownBytes (bytes : Bytes) : List Bytes := (rawLines bytes).map dropReturn

theorem shownBytes_eq {bytes : Bytes} (h : bytes.getLast? ≠ some carriageReturn) :
    shownBytes bytes = terminatedLines bytes := by
  obtain ⟨init, last, hp⟩ := exists_pieces bytes
  rw [shownBytes, rawLines_of_pieces hp, terminatedLines_of_pieces hp, List.map_append]
  congr 1
  obtain ⟨front, rfl, _⟩ := exists_front hp
  cases last with
  | nil => rfl
  | cons b rest =>
    rw [List.getLast?_append_of_ne_nil _ (List.cons_ne_nil b rest)] at h
    simp only [lastLine, List.isEmpty_cons, Bool.false_eq_true, if_false, List.map_cons,
      List.map_nil, dropReturn_of_ne h]

theorem shownBytes_of_getLast? {bytes : Bytes} (h : bytes.getLast? = some carriageReturn) :
    ∃ rest last, terminatedLines bytes = rest ++ [last ++ [carriageReturn]] ∧
      shownBytes bytes = rest ++ [last] := by
  obtain ⟨init, last, hp⟩ := exists_pieces bytes
  rw [shownBytes, rawLines_of_pieces hp, terminatedLines_of_pieces hp, List.map_append]
  obtain ⟨front, rfl, hfront⟩ := exists_front hp
  have hne : last ≠ [] := by
    rintro rfl
    rw [List.append_nil] at h
    rcases hfront with rfl | hf
    · cases h
    · rw [hf] at h
      exact absurd h (by decide)
  rw [List.getLast?_append_of_ne_nil _ hne] at h
  have hlast : lastLine last = [last] := by
    rw [lastLine, if_neg (by simpa using hne)]
  refine ⟨init.map dropReturn, dropReturn last, ?_, ?_⟩
  · rw [hlast, ← eq_concat_of_getLast? h]
  · rw [hlast, List.map_cons, List.map_nil]

/-! ## Lines of well-formed text -/

/-- The bytes of some text. -/
def WellFormed (bytes : Bytes) : Prop := ∃ cs, bytes = encodeChars cs

theorem WellFormed.decode? {bytes : Bytes} (h : WellFormed bytes) :
    Utf8.decode? bytes = some (Utf8.decodeLossy bytes) := by
  obtain ⟨cs, rfl⟩ := h
  rw [Utf8.decode?_encodeChars, Utf8.decodeLossy_encodeChars]

theorem WellFormed.utf8_decodeLossy {bytes : Bytes} (h : WellFormed bytes) :
    utf8 (Utf8.decodeLossy bytes) = bytes := by
  obtain ⟨cs, rfl⟩ := h
  rw [Utf8.decodeLossy_encodeChars, utf8_ofList]

theorem WellFormed.of_mem_pieces {bytes piece : Bytes} (h : WellFormed bytes)
    (hp : piece ∈ pieces lineFeed bytes) : WellFormed piece := by
  obtain ⟨cs, rfl⟩ := h
  have hfeed : String.utf8EncodeChar '\n' = [lineFeed] := rfl
  have hcut : pieces lineFeed (encodeChars cs) = (pieces '\n' cs).map encodeChars :=
    pieces_flatMap hfeed (Utf8.eq_of_mem_encodeChar (a := '\n') (by decide)) cs
  rw [hcut] at hp
  obtain ⟨line, _, rfl⟩ := List.mem_map.mp hp
  exact ⟨line, rfl⟩

theorem WellFormed.dropReturn {bytes : Bytes} (h : WellFormed bytes) :
    WellFormed (dropReturn bytes) := by
  obtain ⟨cs, rfl⟩ := h
  by_cases hr : (encodeChars cs).getLast? = some carriageReturn
  · -- the byte belongs to the last character, which therefore is the carriage return itself
    obtain ⟨start, rfl⟩ := List.getLast?_eq_some_iff.mp
      ((Utf8.getLast?_encodeChars_iff (a := '\r') (by decide)).mp hr)
    refine ⟨start, ?_⟩
    rw [encodeChars_append]
    exact dropReturn_concat _
  · rw [dropReturn_of_ne hr]
    exact ⟨cs, rfl⟩

theorem WellFormed.of_mem_terminatedLines {bytes line : Bytes} (h : WellFormed bytes)
    (hl : line ∈ terminatedLines bytes) : WellFormed line := by
  obtain ⟨init, last, hp⟩ := exists_pieces bytes
  rw [terminatedLines_of_pieces hp] at hl
  rcases List.mem_append.mp hl with hl | hl
  · obtain ⟨piece, hm, rfl⟩ := List.mem_map.mp hl
    exact (h.of_mem_pieces (hp ▸ List.mem_append_left _ hm)).dropReturn
  · have hlast : line = last := by
      unfold lastLine at hl
      split at hl
      · cases hl
      · exact List.mem_singleton.mp hl
    exact hlast ▸ h.of_mem_pieces (hp ▸ List.mem_append_right _ (List.mem_singleton_self last))

theorem WellFormed.readLines? {bytes : Bytes} (h : WellFormed bytes) :
    readLines? bytes = some ((terminatedLines bytes).map Utf8.decodeLossy) := by
  have hall : ∀ line ∈ terminatedLines bytes, WellFormed line := fun _ => h.of_mem_terminatedLines
  rw [ShardedLines.readLines?]
  generalize terminatedLines bytes = lines at hall
  induction lines with
  | nil => rfl
  | cons line rest ih =>
    obtain ⟨hline, hrest⟩ := List.forall_mem_cons.mp hall
    simp [hline.decode?, ih hrest]

theorem WellFormed.map_decodeLossy {lines : List Bytes} (h : ∀ line ∈ lines, WellFormed line) :
    (lines.map Utf8.decodeLossy).map utf8 = lines := by
  rw [List.map_map]
  refine (List.map_congr_left fun line hl => ?_).trans (List.map_id lines)
  exact (h line hl).utf8_decodeLossy

/-- On well-formed text the shown lines are those of a reader unless the text ends in a carriage
return, which then stays for the reader and is not shown. -/
theorem shownLines_eq_iff (text : String) :
    ∃ lines, readLines? (utf8 text) = some lines ∧
      (∀ taken, LinesOf (utf8 text) taken ↔ taken = lines.map utf8) ∧
      (shownLines (utf8 text) = lines ↔ (utf8 text).getLast? ≠ some carriageReturn) ∧
      ((utf8 text).getLast? = some carriageReturn →
        ∃ rest last, lines = rest ++ [last ++ "\r"] ∧ shownLines (utf8 text) = rest ++ [last]) := by
  have formed : WellFormed (utf8 text) := ⟨text.toList, rfl⟩
  have each : ∀ line ∈ terminatedLines (utf8 text), WellFormed line :=
    fun _ => formed.of_mem_terminatedLines
  have hshown : shownLines (utf8 text) = (shownBytes (utf8 text)).map Utf8.decodeLossy := by
    rw [shownLines, shownBytes, List.map_map]
    rfl
  -- what differs at the end of the bytes differs at the end of the text
  have differ : (utf8 text).getLast? = some carriageReturn → ∃ rest last,
      (terminatedLines (utf8 text)).map Utf8.decodeLossy = rest ++ [last ++ "\r"] ∧
        shownLines (utf8 text) = rest ++ [last] := by
    intro h
    obtain ⟨rest, last, hterm, hbytes⟩ := shownBytes_of_getLast? h
    have hlast : WellFormed (last ++ [carriageReturn]) :=
      each _ (hterm ▸ List.mem_append_right rest (List.mem_singleton_self _))
    obtain ⟨cs, rfl⟩ : WellFormed last := dropReturn_concat last ▸ hlast.dropReturn
    refine ⟨rest.map Utf8.decodeLossy, String.ofList cs, ?_, ?_⟩
    · have hjoin : encodeChars cs ++ [carriageReturn] = encodeChars (cs ++ ['\r']) :=
        (encodeChars_append cs ['\r']).symm
      rw [hterm, List.map_append, List.map_singleton, hjoin, Utf8.decodeLossy_encodeChars,
        String.ofList_append]
    · rw [hshown, hbytes, List.map_append, List.map_singleton, Utf8.decodeLossy_encodeChars]
  refine ⟨(terminatedLines (utf8 text)).map Utf8.decodeLossy, formed.readLines?, ?_, ?_, differ⟩
  · intro taken
    rw [WellFormed.map_decodeLossy each, linesOf_iff]
  · constructor
    · intro heq h
      obtain ⟨rest, last, hlines, hlast⟩ := differ h
      rw [heq, hlines] at hlast
      have := congrArg String.length (List.singleton_inj.mp (List.append_cancel_left hlast))
      simp at this
    · intro h
      rw [hshown, shownBytes_eq h]

/-- A last line that only a carriage return ends is shown without it. -/
theorem shownLines_ne_of_final_return :
    readLines? (utf8 "a\r") = some ["a\r"] ∧ shownLines (utf8 "a\r") = ["a"] := by
  have formed : WellFormed (utf8 "a\r") := ⟨_, rfl⟩
  refine ⟨?_, ?_⟩
  · rw [formed.readLines?]
    exact congrArg (fun line => some [line]) (Utf8.decodeLossy_encodeChars ['a', '\r'])
  · exact congrArg (fun line => [line]) (Utf8.decodeLossy_encodeChars ['a'])

end ShardedLines
