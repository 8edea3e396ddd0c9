import Mathlib.Data.Nat.Find
import ShardedLines.Channel.Basic

/-!
Full writes.

A full write is a loop over single writes, and what it does follows from what each of them does.
`WriteLaw` says this of single writes: a record is read off the state, an accepted write has it
grow by the part of the offer that was taken, and a failed one leaves it alone. A full write then
adds the whole buffer, or fails with a strict prefix of it added (`WriteLaw.fullWrite`). Where no
write fails or takes nothing (`Steady`), it adds the whole buffer.

Interruptions are bounded by a patience that each of them lowers. Every channel that is only
interrupted finitely often in a row has one (`exists_patience`).
-/

namespace ShardedLines

variable {σ ρ : Type}

/-- What single writes do to a record that is read off the state. -/
structure WriteLaw (write : Bytes → σ → Outcome σ Nat) (patience : Bytes → σ → Nat)
    (holds : σ → ρ → Prop) (grow : ρ → Bytes → ρ) : Prop where
  grow_nil : ∀ a, grow a [] = a
  grow_append : ∀ a first second, grow a (first ++ second) = grow (grow a first) second
  accepted : ∀ {s t a buffer count}, holds s a → buffer ≠ [] →
    write buffer s = (.ok count, t) → holds t (grow a (buffer.take count))
  refused : ∀ {s t a buffer fault}, holds s a → buffer ≠ [] →
    write buffer s = (.error fault, t) →
      holds t a ∧ (fault.isInterruption → patience buffer t < patience buffer s)

/-- Every write takes something, unless it is interrupted. -/
def Steady (write : Bytes → σ → Outcome σ Nat) (valid : σ → Prop) : Prop :=
  ∀ {s buffer}, valid s → buffer ≠ [] →
    match (write buffer s).1 with
    | .ok count => 0 < count
    | .error fault => fault.isInterruption

/-- The ways in which a full write ends. -/
inductive FullWrite (holds : σ → ρ → Prop) (grow : ρ → Bytes → ρ) (a : ρ) (buffer : Bytes) :
    Outcome σ Unit → Prop where
  | whole {t} : holds t (grow a buffer) → FullWrite holds grow a buffer (.ok (), t)
  | torn {t fault taken} : taken <+: buffer → taken ≠ buffer → holds t (grow a taken) →
      fault.isInterruption = false → FullWrite holds grow a buffer (.error fault, t)

section Ends

variable {write : Bytes → σ → Outcome σ Nat} {patience : Bytes → σ → Nat} {buffer : Bytes} {s t : σ}

theorem writeFully_of_nothing (hb : buffer ≠ []) (hw : write buffer s = (.ok 0, t)) :
    writeFully write patience buffer s = (.error .nothingAccepted, t) := by
  obtain ⟨first, rest, rfl⟩ := List.exists_cons_of_ne_nil hb
  rw [writeFully, hw]

theorem writeFully_of_error {fault : Fault} (hb : buffer ≠ [])
    (hw : write buffer s = (.error fault, t)) (hf : fault.isInterruption = false) :
    writeFully write patience buffer s = (.error fault, t) := by
  obtain ⟨first, rest, rfl⟩ := List.exists_cons_of_ne_nil hb
  rw [writeFully, hw]
  simp [hf]

/-- An interruption is final, too, where the patience is at its end. -/
theorem writeFully_of_spent {fault : Fault} (hb : buffer ≠ [])
    (hw : write buffer s = (.error fault, t)) (hp : patience buffer s ≤ patience buffer t) :
    writeFully write patience buffer s = (.error fault, t) := by
  obtain ⟨first, rest, rfl⟩ := List.exists_cons_of_ne_nil hb
  rw [writeFully, hw]
  simp [Nat.not_lt_of_le hp]

theorem writeFully_of_whole (hb : buffer ≠ []) (hw : write buffer s = (.ok buffer.length, t)) :
    writeFully write patience buffer s = (.ok (), t) := by
  obtain ⟨first, rest, rfl⟩ := List.exists_cons_of_ne_nil hb
  rw [writeFully, hw]
  simp

/-- A write that takes everything or fails for good is the only one. -/
theorem writeFully_of_last {answer : Except Fault Nat} (hb : buffer ≠ [])
    (hw : write buffer s = (answer, t)) (taken : ∀ count, answer = .ok count → count = buffer.length)
    (failed : ∀ fault, answer = .error fault → fault.isInterruption = false) :
    writeFully write patience buffer s = (answer.map fun _ => (), t) := by
  cases answer with
  | ok count => exact writeFully_of_whole hb (taken count rfl ▸ hw)
  | error fault => exact writeFully_of_error hb hw (failed fault rfl)

/-- A write that takes something is followed by a full write of the rest. -/
theorem writeFully_of_taken {count : Nat} (hb : buffer ≠ []) (hc : 0 < count)
    (hw : write buffer s = (.ok count, t)) :
    writeFully write patience buffer s = writeFully write patience (buffer.drop count) t := by
  obtain ⟨first, rest, rfl⟩ := List.exists_cons_of_ne_nil hb
  obtain ⟨more, rfl⟩ := Nat.exists_eq_succ_of_ne_zero (Nat.ne_of_gt hc)
  rw [writeFully, hw, List.drop_succ_cons]

/-- A write that is interrupted is made again. -/
theorem writeFully_of_interruption {fault : Fault} (hb : buffer ≠ [])
    (hw : write buffer s = (.error fault, t)) (hf : fault.isInterruption)
    (hp : patience buffer t < patience buffer s) :
    writeFully write patience buffer s = writeFully write patience buffer t := by
  obtain ⟨first, rest, rfl⟩ := List.exists_cons_of_ne_nil hb
  rw [writeFully, hw]
  simp [hf, hp]

end Ends

/-- What every write keeps, a full write keeps. -/
theorem writeFully_keeps {write : Bytes → σ → Outcome σ Nat} {patience : Bytes → σ → Nat}
    {kept : σ → Prop} (keeps : ∀ buffer s, kept s → kept (write buffer s).2) (buffer : Bytes) {s : σ}
    (hs : kept s) : kept (writeFully write patience buffer s).2 := by
  fun_induction writeFully write patience buffer s with
  | case1 s => exact hs
  | case2 s first rest t hw => simpa only [hw] using keeps (first :: rest) s hs
  | case3 s first rest count t hw ih => exact ih (by simpa only [hw] using keeps (first :: rest) s hs)
  | case4 s first rest fault t hw hr ih => exact ih (by simpa only [hw] using keeps (first :: rest) s hs)
  | case5 s first rest fault t hw hr => simpa only [hw] using keeps (first :: rest) s hs

/-- A full write has no faults of its own, but for the write that takes nothing. -/
theorem writeFully_fault {write : Bytes → σ → Outcome σ Nat} {patience : Bytes → σ → Nat}
    (kept : σ → Prop) (keeps : ∀ buffer s, kept s → kept (write buffer s).2) (known : Fault → Prop)
    (single : ∀ buffer s fault, kept s → (write buffer s).1 = .error fault → known fault)
    (nothing : known .nothingAccepted) (buffer : Bytes) {s : σ} (hs : kept s) {fault : Fault}
    (h : (writeFully write patience buffer s).1 = .error fault) : known fault := by
  fun_induction writeFully write patience buffer s with
  | case1 s => cases h
  | case2 s first rest t hw =>
    cases h
    exact nothing
  | case3 s first rest count t hw ih =>
    exact ih (by simpa only [hw] using keeps (first :: rest) s hs) h
  | case4 s first rest fault' t hw hr ih =>
    exact ih (by simpa only [hw] using keeps (first :: rest) s hs) h
  | case5 s first rest fault' t hw hr =>
    cases h
    exact single (first :: rest) s fault hs (congrArg Prod.fst hw)

/-- Writes to a part of a state are full writes of that part. -/
theorem writeFully_embed {τ : Type} {write : Bytes → σ → Outcome σ Nat}
    {patience : Bytes → σ → Nat} {write' : Bytes → τ → Outcome τ Nat} {patience' : Bytes → τ → Nat}
    {embed : σ → τ} (writes : ∀ buffer s,
      write' buffer (embed s) = ((write buffer s).1, embed (write buffer s).2))
    (waits : ∀ buffer s, patience' buffer (embed s) = patience buffer s) (buffer : Bytes) (s : σ) :
    writeFully write' patience' buffer (embed s) =
      ((writeFully write patience buffer s).1, embed (writeFully write patience buffer s).2) := by
  -- both loops take the same branch at each turn, as they get the same answer
  fun_induction writeFully write patience buffer s with
  | case1 s => rw [writeFully_nil]
  | case2 s first rest t hw =>
    rw [writeFully, writes, hw]
  | case3 s first rest count t hw ih =>
    rw [writeFully, writes, hw]
    exact ih
  | case4 s first rest fault t hw hr ih =>
    rw [writeFully, writes, hw]
    simp only [waits]
    rw [if_pos hr]
    exact ih
  | case5 s first rest fault t hw hr =>
    rw [writeFully, writes, hw]
    simp only [waits]
    rw [if_neg hr]

namespace WriteLaw

variable {write : Bytes → σ → Outcome σ Nat} {patience : Bytes → σ → Nat}
  {holds : σ → ρ → Prop} {grow : ρ → Bytes → ρ}

/-- A full write that fails with nothing added. -/
theorem torn_at_once (law : WriteLaw write patience holds grow) {t : σ} {a : ρ} {fault : Fault}
    {buffer : Bytes} (ht : holds t a) (hb : buffer ≠ []) (hf : fault.isInterruption = false) :
    FullWrite holds grow a buffer (.error fault, t) :=
  .torn (List.nil_prefix) (Ne.symm hb) ((law.grow_nil a).symm ▸ ht) hf

/-- What is written after a part of the buffer has been taken completes that part. -/
theorem fullWrite_append (law : WriteLaw write patience holds grow) {a : ρ} {first rest : Bytes}
    {outcome : Outcome σ Unit} (h : FullWrite holds grow (grow a first) rest outcome) :
    FullWrite holds grow a (first ++ rest) outcome := by
  cases h with
  | whole ht => exact .whole (law.grow_append .. ▸ ht)
  | torn hp hne ht hf =>
    refine .torn ((List.prefix_append_right_inj first).mpr hp) ?_ (law.grow_append .. ▸ ht) hf
    exact fun h => hne (List.append_cancel_left h)

theorem fullWrite (law : WriteLaw write patience holds grow) (buffer : Bytes) {s : σ} {a : ρ}
    (hs : holds s a) :
    FullWrite holds grow a buffer (writeFully write patience buffer s) := by
  fun_induction writeFully write patience buffer s generalizing a with
  | case1 s => exact .whole ((law.grow_nil a).symm ▸ hs)
  | case2 s first rest t hw =>
    have ht := law.accepted hs (by simp) hw
    rw [List.take_zero, law.grow_nil] at ht
    exact law.torn_at_once ht (by simp) rfl
  | case3 s first rest count t hw ih =>
    have ht := law.accepted hs (by simp) hw
    have h := law.fullWrite_append (ih ht)
    rwa [List.take_succ_cons, List.cons_append, List.take_append_drop] at h
  | case4 s first rest fault t hw hr ih => exact ih (law.refused hs (by simp) hw).1
  | case5 s first rest fault t hw hr =>
    obtain ⟨ht, hp⟩ := law.refused hs (by simp) hw
    -- an interruption would have lowered the patience, and been tried again
    have hf : fault.isInterruption = false :=
      Bool.eq_false_iff.mpr fun h => hr ⟨h, hp h⟩
    exact law.torn_at_once ht (by simp) hf

/-- Writes that always take something end with the whole buffer written. -/
theorem fullWrite_of_steady (law : WriteLaw write patience holds grow)
    (steady : ∀ a, Steady write (holds · a)) (buffer : Bytes) {s : σ} {a : ρ} (hs : holds s a) :
    ∃ t, writeFully write patience buffer s = (.ok (), t) ∧ holds t (grow a buffer) := by
  fun_induction writeFully write patience buffer s generalizing a with
  | case1 s => exact ⟨s, rfl, (law.grow_nil a).symm ▸ hs⟩
  | case2 s first rest t hw =>
    have h := steady a hs (List.cons_ne_nil first rest)
    simp [hw] at h
  | case3 s first rest count t hw ih =>
    obtain ⟨u, hu, h⟩ := ih (law.accepted hs (by simp) hw)
    refine ⟨u, hu, ?_⟩
    rwa [← law.grow_append, List.take_succ_cons, List.cons_append, List.take_append_drop] at h
  | case4 s first rest fault t hw hr ih => exact ih (law.refused hs (by simp) hw).1
  | case5 s first rest fault t hw hr =>
    have h := steady a hs (List.cons_ne_nil first rest)
    rw [hw] at h
    exact absurd ⟨h, (law.refused hs (by simp) hw).2 h⟩ hr

end WriteLaw

/-! ## Patience -/

section Patience

variable (write : Bytes → σ → Outcome σ Nat) (buffer : Bytes)

/-- The state after so many offers of the same buffer. -/
def afterOffers : Nat → σ → σ
  | 0, s => s
  | count + 1, s => afterOffers count (write buffer s).2

/-- The offer is answered by an interruption. -/
def Interrupts (s : σ) : Prop :=
  ∃ fault, (write buffer s).1 = .error fault ∧ fault.isInterruption

end Patience

/-- Interruptions that end bound themselves: the patience is the number of those still to come. -/
theorem exists_patience (write : Bytes → σ → Outcome σ Nat)
    (ends : ∀ buffer s, ∃ count, ¬ Interrupts write buffer (afterOffers write buffer count s)) :
    ∃ patience : Bytes → σ → Nat, ∀ buffer s, Interrupts write buffer s →
      patience buffer (write buffer s).2 < patience buffer s := by
  classical
  refine ⟨fun buffer s => Nat.find (ends buffer s), fun buffer s hs => ?_⟩
  change Nat.find (ends buffer (write buffer s).2) < Nat.find (ends buffer s)
  have h := Nat.find_spec (ends buffer s)
  cases hn : Nat.find (ends buffer s) with
  | zero =>
    rw [hn] at h
    exact absurd hs h
  | succ count =>
    rw [hn] at h
    exact Nat.lt_succ_of_le (Nat.find_min' (ends buffer (write buffer s).2) h)

end ShardedLines
