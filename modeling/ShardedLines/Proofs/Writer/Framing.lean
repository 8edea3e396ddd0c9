import Mathlib
import ShardedLines.Proofs.Channel.Stream
import ShardedLines.Writer.Framing

/-!
Framing where every line is written.

`headerLine` and `footerLine` are the lines around the records, without bytes where none is asked
for. Both are written by one operation (`writeLine?`), which is all that a channel has to be asked
about. On a channel that writes every line (`Reliable`), the header is added before the first
record or at the end, the footer at the end, and each counts once for every copy that the channel
makes.
-/

namespace ShardedLines

/-- Every line is written; `grow` says what it adds to what is read off the channel. -/
structure Reliable {κ ρ : Type} [ByteChannel κ] (holds : κ × World → ρ → Prop)
    (grow : ρ → Bytes → ρ) (copies : Nat) : Prop where
  grow_nil : ∀ a, grow a [] = a
  writeAll : ∀ line {s a}, holds s a →
    ∃ t, ByteChannel.writeAll line s = (.ok (), t) ∧ holds t (grow a line)
  width : ∀ {s a}, holds s a → ByteChannel.width s.1 = copies

theorem StreamView.reliable {κ : Type} [ByteChannel κ] {view : StreamView κ} {copies : Nat}
    (steady : view.Steady) (width : view.HasWidth copies) :
    Reliable view.Shows (· ++ ·) copies where
  grow_nil := List.append_nil
  writeAll line _ _ h := view.writeAll_of_steady steady line h
  width h := width _ h.1

section Either

variable {κ τ ρ : Type} [ByteChannel κ] [ByteChannel τ]

/-- A channel as the first of two kinds. -/
def leftState (τ : Type) (s : κ × World) : (κ ⊕ τ) × World := (.inl s.1, s.2)

theorem writeAll_leftState (line : Bytes) (s : κ × World) :
    ByteChannel.writeAll line (leftState τ s) =
      ((ByteChannel.writeAll line s).1, leftState τ (ByteChannel.writeAll line s).2) :=
  writeFully_embed (fun _ _ => rfl) (fun _ _ => rfl) line s

theorem Reliable.left {holds : κ × World → ρ → Prop} {grow : ρ → Bytes → ρ} {copies : Nat}
    (reliable : Reliable holds grow copies) :
    Reliable (fun (t : (κ ⊕ τ) × World) a => ∃ s, t = leftState τ s ∧ holds s a) grow copies where
  grow_nil := reliable.grow_nil
  width := by
    rintro _ a ⟨s, rfl, h⟩
    exact reliable.width h
  writeAll := by
    rintro line _ a ⟨s, rfl, h⟩
    obtain ⟨t, ht, hold⟩ := reliable.writeAll line h
    refine ⟨leftState τ t, ?_, t, rfl, hold⟩
    rw [writeAll_leftState, ht]

end Either

namespace Framing

/-! ## The lines around the records -/

/-- The line of the header, if there is one. -/
def headerLine? (framing : Framing) : Option Bytes :=
  framing.header?.map framing.frameLine

/-- The line of the footer, if there is one. -/
def footerLine? (framing : Framing) : Option Bytes :=
  framing.footer?.map framing.frameLine

/-- The line of the header, unless it has been tried. -/
def dueHeader? (framing : Framing) : Option Bytes :=
  if framing.headerTried then none else framing.headerLine?

def headerLine (framing : Framing) : Bytes := framing.headerLine?.getD []

def footerLine (framing : Framing) : Bytes := framing.footerLine?.getD []

def pendingHeader (framing : Framing) : Bytes := framing.dueHeader?.getD []

/-- The framing once the header is out of the way. -/
def afterHeader (copies : Nat) (framing : Framing) : Framing :=
  { framing with
    headerTried := true, bytes := framing.bytes + framing.pendingHeader.length * copies }

/-- The framing once the footer is written. -/
def afterFooter (copies : Nat) (framing : Framing) : Framing :=
  { framing with bytes := framing.bytes + framing.footerLine.length * copies }

/-- The framing once a record's line is written, with the header before it if that was due. -/
def afterRecord (copies : Nat) (framing : Framing) (line : Bytes) : Framing :=
  (framing.afterHeader copies).recordWritten line.length

theorem recordLine_of_encoded {α : Type} {coder : Coder α} {record : α} {bytes : Bytes}
    (encoded : coder.bytes? record = .ok bytes) (framing : Framing) :
    framing.recordLine coder record = .ok (bytes ++ framing.terminator) := by
  rw [recordLine, encoded]
  rfl

/-- The framing once the lines of some records are written. -/
def afterRecords (copies : Nat) (framing : Framing) (lines : List Bytes) : Framing :=
  lines.foldl (afterRecord copies) framing

variable {copies : Nat} {framing : Framing}

@[simp] theorem pendingHeader_afterRecord (line : Bytes) :
    (framing.afterRecord copies line).pendingHeader = [] := rfl

@[simp] theorem terminator_afterRecord (line : Bytes) :
    (framing.afterRecord copies line).terminator = framing.terminator := rfl

@[simp] theorem footerLine_afterRecords (lines : List Bytes) :
    (framing.afterRecords copies lines).footerLine = framing.footerLine := by
  induction lines generalizing framing with
  | nil => rfl
  | cons line rest ih => exact ih

theorem pendingHeader_afterRecords (lines : List Bytes) :
    (framing.afterRecords copies lines).pendingHeader =
      if lines = [] then framing.pendingHeader else [] := by
  induction lines generalizing framing with
  | nil => rfl
  | cons line rest ih =>
    rw [afterRecords, List.foldl_cons, ← afterRecords, ih]
    simp

theorem records_afterRecords (lines : List Bytes) :
    (framing.afterRecords copies lines).records = framing.records + lines.length := by
  induction lines generalizing framing with
  | nil => rfl
  | cons line rest ih =>
    rw [afterRecords, List.foldl_cons, ← afterRecords, ih, List.length_cons]
    simp only [afterRecord, afterHeader, recordWritten]
    omega

theorem bytes_afterRecords (lines : List Bytes) :
    (framing.afterRecords copies lines).bytes = framing.bytes +
      (if lines = [] then 0 else framing.pendingHeader.length * copies) +
        (lines.map List.length).sum := by
  induction lines generalizing framing with
  | nil => rfl
  | cons line rest ih =>
    rw [afterRecords, List.foldl_cons, ← afterRecords, ih]
    simp [afterRecord, afterHeader, recordWritten, pendingHeader, dueHeader?]
    omega

/-- The framing once everything is written. -/
def afterAll (copies : Nat) (framing : Framing) (lines : List Bytes) : Framing :=
  ((framing.afterRecords copies lines).afterHeader copies).afterFooter copies

theorem bytes_afterAll (lines : List Bytes) :
    (framing.afterAll copies lines).bytes = framing.bytes + framing.pendingHeader.length * copies +
      (lines.map List.length).sum + framing.footerLine.length * copies := by
  change (framing.afterRecords copies lines).bytes +
    (framing.afterRecords copies lines).pendingHeader.length * copies +
      (framing.afterRecords copies lines).footerLine.length * copies = _
  rw [bytes_afterRecords, pendingHeader_afterRecords, footerLine_afterRecords]
  by_cases h : lines = []
  · simp [h]
  · simp only [if_neg h, List.length_nil, Nat.zero_mul, Nat.add_zero]

/-! ## Writing them -/

section Writing

variable {κ ρ : Type} [ByteChannel κ]

/-- Writes a line around the records, if there is one, and counts all copies of it. -/
def writeLine? (line? : Option Bytes) (framing : Framing) (s : κ × World) :
    Except Fault Unit × Framing × κ × World :=
  match line? with
  | none => (.ok (), framing, s)
  | some line =>
    match ByteChannel.writeAll line s with
    | (.error fault, t) => (.error fault, framing, t)
    | (.ok (), t) =>
      (.ok (), { framing with bytes := framing.bytes + line.length * ByteChannel.width t.1 }, t)

theorem ensureHeader_eq (framing : Framing) (s : κ × World) :
    framing.ensureHeader s =
      { framing with headerTried := true }.writeLine? framing.dueHeader? s := by
  obtain ⟨header?, footer?, terminator, tried, records, bytes⟩ := framing
  cases tried with
  | true => rfl
  | false => cases header? <;> rfl

/-- Writing a line changes no more of the framing than the count of its bytes. -/
theorem exists_writeLine? (line? : Option Bytes) (framing : Framing) (s : κ × World) :
    ∃ answer bytes t, framing.writeLine? line? s = (answer, { framing with bytes }, t) := by
  cases line? with
  | none => exact ⟨_, framing.bytes, s, rfl⟩
  | some line =>
    rcases hw : ByteChannel.writeAll line s with ⟨fault | _, t⟩ <;> simp only [writeLine?, hw]
    · exact ⟨_, framing.bytes, t, rfl⟩
    · exact ⟨_, _, t, rfl⟩

/-- The footer is tried unless the header fails just before. -/
theorem finish_eq (framing : Framing) (s : κ × World) :
    framing.finish s =
      match { framing with headerTried := true }.writeLine? framing.dueHeader? s with
      | (.error fault, next, t) => (.error fault, next, t)
      | (.ok (), next, t) => next.writeLine? framing.footerLine? t := by
  rw [finish, ensureHeader_eq]
  obtain ⟨answer, bytes, t, h⟩ :=
    exists_writeLine? framing.dueHeader? { framing with headerTried := true } s
  rw [h]
  rcases answer with fault | _
  · rfl
  · obtain ⟨header?, footer?, terminator, tried, records, count⟩ := framing
    cases footer? <;> rfl

variable {holds : κ × World → ρ → Prop} {grow : ρ → Bytes → ρ} {s : κ × World} {a : ρ}

theorem writeLine?_of_reliable (reliable : Reliable holds grow copies) (line? : Option Bytes)
    (framing : Framing) (h : holds s a) :
    ∃ t, framing.writeLine? line? s = (.ok (),
        { framing with bytes := framing.bytes + (line?.getD []).length * copies }, t) ∧
      holds t (grow a (line?.getD [])) := by
  cases line? with
  | none =>
    refine ⟨s, ?_, (reliable.grow_nil a).symm ▸ h⟩
    simp [writeLine?]
  | some line =>
    obtain ⟨t, ht, hold⟩ := reliable.writeAll line h
    refine ⟨t, ?_, hold⟩
    simp only [writeLine?, ht, reliable.width hold, Option.getD_some]

theorem ensureHeader_of_reliable (reliable : Reliable holds grow copies) (framing : Framing)
    (h : holds s a) :
    ∃ t, framing.ensureHeader s = (.ok (), framing.afterHeader copies, t) ∧
      holds t (grow a framing.pendingHeader) := by
  rw [ensureHeader_eq]
  exact writeLine?_of_reliable reliable framing.dueHeader? { framing with headerTried := true } h

theorem finish_of_reliable (reliable : Reliable holds grow copies) (framing : Framing)
    (h : holds s a) :
    ∃ t, framing.finish s = (.ok (), (framing.afterHeader copies).afterFooter copies, t) ∧
      holds t (grow (grow a framing.pendingHeader) framing.footerLine) := by
  obtain ⟨t, ht, hold⟩ := writeLine?_of_reliable reliable framing.dueHeader?
    { framing with headerTried := true } h
  rw [finish_eq, ht]
  exact writeLine?_of_reliable reliable framing.footerLine? (framing.afterHeader copies) hold

/-! ## What lines keep -/

variable {kept : κ × World → Prop}
  (keeps : ∀ line s, kept s → kept (ByteChannel.writeAll line s).2)

include keeps

theorem writeLine?_keeps (line? : Option Bytes) (framing : Framing) (hs : kept s) :
    kept (framing.writeLine? line? s).2.2 := by
  cases line? with
  | none => exact hs
  | some line =>
    have h := keeps line s hs
    rcases hw : ByteChannel.writeAll line s with ⟨fault | _, t⟩ <;> rw [hw] at h <;>
      simp only [writeLine?, hw] <;> exact h

theorem ensureHeader_keeps (framing : Framing) (hs : kept s) :
    kept (framing.ensureHeader s).2.2 := by
  rw [ensureHeader_eq]
  exact writeLine?_keeps keeps _ _ hs

theorem finish_keeps (framing : Framing) (hs : kept s) : kept (framing.finish s).2.2 := by
  have h := writeLine?_keeps keeps framing.dueHeader? { framing with headerTried := true } hs
  rw [finish_eq]
  split <;> rename_i next t hw <;> rw [hw] at h
  · exact h
  · exact writeLine?_keeps keeps _ _ h

end Writing

end Framing

end ShardedLines
