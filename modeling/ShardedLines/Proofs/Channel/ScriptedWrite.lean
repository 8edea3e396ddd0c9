import Mathlib.Algebra.Ring.Nat
import ShardedLines.Channel.Scripted
import ShardedLines.Proofs.Channel.FullWrite

/-!
Full writes against a script.

A full write takes turns with the script: it makes an offer, and the next line answers. `Course` says
which turns these are, whatever the lines say: every offer is what the turns before have left of the
buffer, and no turn comes after one that ends the write. Success is to have taken the whole buffer
(`exists_course`). Interruptions cost a turn and nothing else, so there is at most one turn more than
there are lines.
-/

namespace ShardedLines

namespace ScriptLine

/-- How many bytes the line takes of an offer of so many, whatever it claims to take. -/
def taken (offered : Nat) : ScriptLine → Nat
  | take count => min count offered
  | fail _ => 0

/-- The fault that a full write ends with at this line, if it ends there. -/
def final? : ScriptLine → Option Fault
  | take 0 => some .nothingAccepted
  | take (_ + 1) => none
  | fail fault => if fault.isInterruption then none else some fault

theorem taken_le (offered : Nat) (line : ScriptLine) : line.taken offered ≤ offered := by
  cases line with
  | take count => exact Nat.min_le_right ..
  | fail fault => exact Nat.zero_le _

end ScriptLine

/-- An offer of a full write, and the line that answers it. -/
structure Turn where
  offer : Bytes
  line : ScriptLine

namespace Turn

/-- How many bytes of the offer are taken. -/
def count (turn : Turn) : Nat := turn.line.taken turn.offer.length

/-- The bytes that are taken. -/
def piece (turn : Turn) : Bytes := turn.offer.take turn.count

/-- How many bytes some turns take. -/
def total (turns : List Turn) : Nat := (turns.map count).sum

/-- The bytes that some turns take, in order. -/
def joined (turns : List Turn) : Bytes := turns.flatMap piece

@[simp] theorem total_nil : total [] = 0 := rfl

@[simp] theorem total_cons (turn : Turn) (rest : List Turn) :
    total (turn :: rest) = turn.count + total rest := by
  simp [total]

@[simp] theorem joined_nil : joined [] = [] := rfl

@[simp] theorem joined_cons (turn : Turn) (rest : List Turn) :
    joined (turn :: rest) = turn.piece ++ joined rest := rfl

end Turn

/-- The turns that a full write of a buffer takes with a script, and its answer. -/
structure Course (script : List ScriptLine) (buffer : Bytes) (turns : List Turn)
    (answer : Except Fault Unit) : Prop where
  length_le : turns.length ≤ script.length + 1
  /-- The lines answer in order, and behind the last of them all is taken that is offered. -/
  line_eq : ∀ k (h : k < turns.length),
    turns[k].line = script.getD k (.take turns[k].offer.length)
  /-- Every offer is what the turns before have left of the buffer. -/
  offer_eq : ∀ k (h : k < turns.length), turns[k].offer = buffer.drop (Turn.total (turns.take k))
  /-- The turns before have left something. -/
  total_lt : ∀ k < turns.length, Turn.total (turns.take k) < buffer.length
  /-- No more is taken than there is. -/
  total_le : Turn.total turns ≤ buffer.length
  /-- At every point, the pieces that were taken make up the start of the buffer. -/
  joined_eq : ∀ k, Turn.joined (turns.take k) = buffer.take (Turn.total (turns.take k))
  /-- No turn comes after one that ends the write. -/
  goes_on : ∀ k (h : k + 1 < turns.length), turns[k].line.final? = none
  ok_iff : answer = .ok () ↔ Turn.joined turns = buffer
  error_iff : ∀ fault, answer = .error fault ↔
    ∃ turn ∈ turns.getLast?, turn.line.final? = some fault

namespace Course

variable {script : List ScriptLine} {buffer : Bytes} {line : ScriptLine}

/-- No turn is taken where there is nothing to write. -/
theorem nil (script : List ScriptLine) : Course script [] [] (.ok ()) where
  length_le := Nat.zero_le _
  line_eq _ h := nomatch h
  offer_eq _ h := nomatch h
  total_lt _ h := nomatch h
  total_le := Nat.le_refl 0
  joined_eq _ := by simp
  goes_on _ h := nomatch h
  ok_iff := by simp
  error_iff := by simp

theorem single {answer : Except Fault Unit} (hb : buffer ≠ [])
    (hline : line = script.getD 0 (.take buffer.length))
    (hok : answer = .ok () ↔ Turn.piece ⟨buffer, line⟩ = buffer)
    (herror : ∀ fault, answer = .error fault ↔ line.final? = some fault) :
    Course script buffer [⟨buffer, line⟩] answer where
  length_le := Nat.succ_le_succ (Nat.zero_le _)
  line_eq k h := by
    obtain rfl := Nat.lt_one_iff.mp h
    exact hline
  offer_eq k h := by
    obtain rfl := Nat.lt_one_iff.mp h
    rfl
  total_lt k h := by
    obtain rfl := Nat.lt_one_iff.mp h
    exact List.length_pos_iff.mpr hb
  total_le := by
    have hcount : Turn.count ⟨buffer, line⟩ ≤ buffer.length := line.taken_le buffer.length
    simpa using hcount
  joined_eq k := by
    cases k with
    | zero => rfl
    | succ k => simp [Turn.piece]
  goes_on k h := absurd h (by simp)
  ok_iff := by simpa using hok
  error_iff := by simpa using herror

/-- The first turn ends the write. -/
theorem last {fault : Fault} (hb : buffer ≠ []) (hline : line.final? = some fault) :
    Course (line :: script) buffer [⟨buffer, line⟩] (.error fault) := by
  have hcount : Turn.count ⟨buffer, line⟩ = 0 := by
    match line, hline with
    | .take 0, _ => exact Nat.zero_min _
    | .fail _, _ => rfl
  refine single hb rfl ?_ (by simp [hline])
  simp [Turn.piece, hcount, Ne.symm hb]

/-- Behind the script, one turn takes everything. -/
theorem whole (hb : buffer ≠ []) :
    Course [] buffer [⟨buffer, .take buffer.length⟩] (.ok ()) := by
  have hcount : Turn.count ⟨buffer, .take buffer.length⟩ = buffer.length := Nat.min_self _
  have hfinal : (ScriptLine.take buffer.length).final? = none := by
    obtain ⟨first, rest, rfl⟩ := List.exists_cons_of_ne_nil hb
    rfl
  refine single hb rfl ?_ (by simp [hfinal])
  simp [Turn.piece, hcount]

/-- A first turn that does not end the write, and then the turns with what it leaves. -/
theorem cons {turns : List Turn} {answer : Except Fault Unit} (hb : buffer ≠ [])
    (hline : line.final? = none)
    (h : Course script (buffer.drop (line.taken buffer.length)) turns answer) :
    Course (line :: script) buffer (⟨buffer, line⟩ :: turns) answer := by
  generalize hn : line.taken buffer.length = count at h
  have hle : count ≤ buffer.length := hn ▸ line.taken_le buffer.length
  have hcount : Turn.count ⟨buffer, line⟩ = count := hn
  have hpiece : Turn.piece ⟨buffer, line⟩ = buffer.take count := by rw [Turn.piece, hcount]
  have hlength : (buffer.drop count).length = buffer.length - count := List.length_drop
  -- what is said of a later turn is said of it among the rest, where it comes one earlier
  refine {
    length_le := Nat.succ_le_succ h.length_le
    line_eq := fun k hk => ?_
    offer_eq := fun k hk => ?_
    total_lt := fun k hk => ?_
    total_le := ?_
    joined_eq := fun k => ?_
    goes_on := fun k hk => ?_
    ok_iff := ?_
    error_iff := fun fault => ?_ }
  · cases k with
    | zero => rfl
    | succ k => exact h.line_eq k (Nat.lt_of_succ_lt_succ hk)
  · cases k with
    | zero => rfl
    | succ k =>
      have hoffer := h.offer_eq k (Nat.lt_of_succ_lt_succ hk)
      rwa [List.drop_drop, ← hcount] at hoffer
  · cases k with
    | zero => exact List.length_pos_iff.mpr hb
    | succ k =>
      have hlt := h.total_lt k (Nat.lt_of_succ_lt_succ hk)
      simp only [List.take_succ_cons, Turn.total_cons, hcount]
      omega
  · have hrest := h.total_le
    simp only [Turn.total_cons, hcount]
    omega
  · cases k with
    | zero => rfl
    | succ k =>
      simp only [List.take_succ_cons, Turn.joined_cons, Turn.total_cons, hcount, hpiece,
        h.joined_eq k, List.take_add]
  · cases k with
    | zero => exact hline
    | succ k => exact h.goes_on k (Nat.lt_of_succ_lt_succ hk)
  · have happend : buffer.take count ++ buffer.drop count = buffer := List.take_append_drop ..
    rw [h.ok_iff, Turn.joined_cons, hpiece]
    constructor
    · intro hj
      rw [hj, happend]
    · intro hj
      exact List.append_cancel_left (hj.trans happend.symm)
  · rw [h.error_iff]
    cases turns with
    | nil => simp [hline]
    | cons next rest => simp

end Course

/-! ## Writes -/

/-- What a write answers that takes the line. -/
def ScriptLine.answer : ScriptLine → Except Fault Nat
  | take count => .ok count
  | fail fault => .error fault

namespace ScriptedChannel

/-- The offer of a turn, as the channel notes it. -/
def noted (turn : Turn) : Offer := ⟨none, turn.offer⟩

/-- How many lines may still interrupt a write. -/
def linesLeft (_ : Bytes) (channel : ScriptedChannel) : Nat := channel.script.length

section Turns

variable {buffer : Bytes} {channel : ScriptedChannel} {line : ScriptLine} {rest : List ScriptLine}

theorem exists_offer_eq (buffer : Bytes) (channel : ScriptedChannel) :
    ∃ next, channel.offer none buffer =
        ((nextLine buffer.length channel.script).1.answer, next) ∧
      next.script = channel.script.tail ∧ next.offers = channel.offers ++ [⟨none, buffer⟩] := by
  unfold offer keep
  rcases channel.script with _ | ⟨_ | _, _⟩ <;> exact ⟨_, rfl, rfl, rfl⟩

/-- A line that ends the write. -/
theorem writeFully_of_final {fault : Fault} (hb : buffer ≠ []) (hs : channel.script = line :: rest)
    (hline : line.final? = some fault) :
    ∃ next, ShardedLines.writeFully (offer none) linesLeft buffer channel = (.error fault, next) ∧
      next.offers = channel.offers ++ [⟨none, buffer⟩] := by
  obtain ⟨next, hoffer, -, hnoted⟩ := exists_offer_eq buffer channel
  rw [hs] at hoffer
  refine ⟨next, ?_, hnoted⟩
  match line, hline with
  | .take 0, h =>
    cases h
    exact writeFully_of_nothing hb hoffer
  | .fail other, h =>
    obtain ⟨hf, rfl⟩ : other.isInterruption = false ∧ other = fault := by
      simpa [ScriptLine.final?] using h
    exact writeFully_of_error hb hoffer hf

/-- A line after which the write goes on with the rest of the buffer. -/
theorem writeFully_of_not_final (hb : buffer ≠ []) (hs : channel.script = line :: rest)
    (hline : line.final? = none) :
    ∃ next, ShardedLines.writeFully (offer none) linesLeft buffer channel =
        ShardedLines.writeFully (offer none) linesLeft
          (buffer.drop (line.taken buffer.length)) next ∧
      next.script = rest ∧ next.offers = channel.offers ++ [⟨none, buffer⟩] := by
  obtain ⟨next, hoffer, hrest, hnoted⟩ := exists_offer_eq buffer channel
  rw [hs] at hoffer hrest
  refine ⟨next, ?_, hrest, hnoted⟩
  match line, hline with
  | .take (count + 1), _ =>
    -- a claim beyond the offer leaves as little as the whole offer does
    have hdrop : buffer.drop (min (count + 1) buffer.length) = buffer.drop (count + 1) := by
      rcases Nat.le_total (count + 1) buffer.length with h | h
      · rw [Nat.min_eq_left h]
      · rw [Nat.min_eq_right h, List.drop_length, List.drop_eq_nil_of_le h]
    rw [writeFully_of_taken hb (Nat.succ_pos count) hoffer]
    exact congrArg (ShardedLines.writeFully (offer none) linesLeft · next) hdrop.symm
  | .fail other, h =>
    have hf : other.isInterruption = true := by simpa [ScriptLine.final?] using h
    refine writeFully_of_interruption hb hoffer hf ?_
    rw [linesLeft, linesLeft, hs, hrest]
    exact Nat.lt_succ_self _

end Turns

/-- A full write goes as the script has it, and the channel notes the offers. -/
theorem exists_turns (buffer : Bytes) (channel : ScriptedChannel) :
    ∃ turns answer next,
      ShardedLines.writeFully (offer none) linesLeft buffer channel = (answer, next) ∧
      next.offers = channel.offers ++ turns.map noted ∧
      Course channel.script buffer turns answer := by
  -- each turn takes a line off the script, so the induction is on the lines that are left
  generalize hscript : channel.script = script
  induction script generalizing buffer channel with
  | nil =>
    by_cases hb : buffer = []
    · subst hb
      exact ⟨[], .ok (), channel, writeFully_nil .., by simp, .nil []⟩
    · obtain ⟨next, hoffer, -, hnoted⟩ := exists_offer_eq buffer channel
      rw [hscript] at hoffer
      exact ⟨[⟨buffer, .take buffer.length⟩], .ok (), next, writeFully_of_whole hb hoffer, hnoted,
        .whole hb⟩
  | cons line rest ih =>
    by_cases hb : buffer = []
    · subst hb
      exact ⟨[], .ok (), channel, writeFully_nil .., by simp, .nil _⟩
    cases hline : line.final? with
    | some fault =>
      obtain ⟨next, hwrite, hnoted⟩ := writeFully_of_final hb hscript hline
      exact ⟨[⟨buffer, line⟩], .error fault, next, hwrite, hnoted, .last hb hline⟩
    | none =>
      obtain ⟨next, hwrite, hrest, hnoted⟩ := writeFully_of_not_final hb hscript hline
      obtain ⟨turns, answer, final, hrun, hoffers, hcourse⟩ :=
        ih (buffer.drop (line.taken buffer.length)) next hrest
      refine ⟨⟨buffer, line⟩ :: turns, answer, final, hwrite.trans hrun, ?_,
        .cons hb hline hcourse⟩
      rw [hoffers, hnoted]
      simp [noted]

end ScriptedChannel

/-- A full write of any buffer against any script makes the offers that its course has, and answers
as its course does. -/
theorem exists_course (script : List ScriptLine) (buffer : Bytes) :
    ∃ turns, (ScriptedChannel.writeFully script buffer).2 = turns.map ScriptedChannel.noted ∧
      Course script buffer turns (ScriptedChannel.writeFully script buffer).1 := by
  obtain ⟨turns, answer, next, hwrite, hoffers, hcourse⟩ :=
    ScriptedChannel.exists_turns buffer { shards := [], script := script }
  have hanswer : ScriptedChannel.writeFully script buffer = (answer, next.offers) :=
    congrArg (fun outcome => (outcome.1, outcome.2.offers)) hwrite
  rw [hanswer]
  exact ⟨turns, hoffers, hcourse⟩

end ShardedLines
