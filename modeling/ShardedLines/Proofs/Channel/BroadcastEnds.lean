import ShardedLines.Proofs.Channel.Broadcast

/-!
How a write to all shards ends.

One write either brings its bytes to every shard, or ends at one of them with a fault that is no
interruption (`ShardView.broadcastEnds`). A full write tries nothing again but interruptions, so it
makes one write and hands over what that answers (`BroadcastEnds.writeFully`): bytes that have come
to some shards already are not sent again.
-/

namespace ShardedLines

variable {κ : Type} [ByteChannel κ] [Located κ] {view : ShardView κ} {s : ShardSet κ × World}
  {contents : List Bytes} {buffer : Bytes}

/-- The ways in which one write to an open set ends. -/
inductive BroadcastEnds (view : ShardView κ) (s : ShardSet κ × World) (contents : List Bytes)
    (buffer : Bytes) : Outcome (ShardSet κ × World) Nat → Prop where
  | whole {t} : view.Holds t (contents.map (· ++ buffer)) →
      BroadcastEnds view s contents buffer (.ok buffer.length, t)
  /-- The shards in front of one of them got the whole buffer, this one a strict part, and those
  behind it were not written to: others may stand in their place. -/
  | torn {fault shard taken next later} : fault.isInterruption = false →
      shard < s.1.shards.length → taken <+: buffer → taken ≠ buffer →
      view.Holds ({ s.1 with shards := next ++ s.1.shards.drop (shard + 1) }, later)
        (spread buffer taken shard contents) →
      next.length = shard + 1 →
      (∀ others,
        ByteChannel.write buffer
            ({ s.1 with shards := s.1.shards.take (shard + 1) ++ others }, s.2) =
          (.error fault, { s.1 with shards := next ++ others }, later)) →
      BroadcastEnds view s contents buffer
        (.error fault, { s.1 with shards := next ++ s.1.shards.drop (shard + 1) }, later)

theorem spread_of_length_le {line taken : Bytes} {count : Nat} {contents : List Bytes}
    (h : contents.length ≤ count) : spread line taken count contents = contents.map (· ++ line) := by
  induction contents generalizing count with
  | nil => cases count <;> rfl
  | cons first rest ih =>
    cases count with
    | zero => exact absurd h (Nat.not_succ_le_zero _)
    | succ count => rw [spread, ih (Nat.le_of_succ_le_succ h), List.map_cons]

theorem ShardSet.write_of_broadcast {shards next : List κ} {world later : World}
    {answer : Except Fault Unit} (h : broadcast buffer shards world = (answer, next, later)) :
    ByteChannel.write buffer (({ shards := shards }, world) : ShardSet κ × World) =
      (answer.map fun _ => buffer.length, { shards := next }, later) := by
  change ShardSet.write buffer { shards := shards } world = _
  rcases answer with fault | _ <;> simp [ShardSet.write, h] <;> rfl

theorem ShardView.broadcastEnds (h : view.Holds s contents) (buffer : Bytes) :
    BroadcastEnds view s contents buffer (ByteChannel.write buffer s) := by
  obtain ⟨⟨shards, isOpen⟩, world⟩ := s
  obtain rfl : isOpen = true := h.isOpen
  obtain ⟨taken, torn, hnext, -, hfault⟩ := broadcast_spread buffer h.each
  -- the write stops at the shard that it has reached, unless it has passed them all
  by_cases hlt : ShardSet.reached buffer shards world < shards.length
  · obtain ⟨fault, next, later, hlast, hothers⟩ := ShardSet.broadcast_stops hlt
    have hbroadcast := hothers (shards.drop (ShardSet.reached buffer shards world + 1))
    rw [List.take_append_drop] at hbroadcast
    simp only [hbroadcast] at hnext hfault
    obtain ⟨hp, hne⟩ := torn hlt
    rw [ShardSet.write_of_broadcast hbroadcast]
    exact .torn (hfault fault rfl) hlt hp hne ⟨rfl, hnext⟩ hlast
      fun others => ShardSet.write_of_broadcast (hothers others)
  · have heq := Nat.le_antisymm (ShardSet.reached_le buffer shards world) (Nat.le_of_not_lt hlt)
    have hok := (ShardSet.reached_eq_length_iff buffer shards world).mp heq
    rcases hb : ShardSet.broadcast buffer shards world with ⟨answer, next, later⟩
    rw [hb] at hok
    obtain rfl : answer = .ok () := hok
    simp only [hb, heq] at hnext
    rw [spread_of_length_le (Nat.le_of_eq h.each.length_eq.symm)] at hnext
    rw [ShardSet.write_of_broadcast hb]
    exact .whole ⟨rfl, hnext⟩

/-! ## Full writes -/

/-- A write that notes what it is offered. -/
def noting {σ : Type} (write : Bytes → σ → Outcome σ Nat) (buffer : Bytes) (s : σ × List Bytes) :
    Outcome (σ × List Bytes) Nat :=
  ((write buffer s.1).1, (write buffer s.1).2, s.2 ++ [buffer])

namespace BroadcastEnds

variable {outcome : Outcome (ShardSet κ × World) Nat}

theorem taken (h : BroadcastEnds view s contents buffer outcome) :
    ∀ count, outcome.1 = .ok count → count = buffer.length := by
  intro count hc
  cases h with
  | whole => exact (Except.ok.inj hc).symm
  | torn => cases hc

theorem failed (h : BroadcastEnds view s contents buffer outcome) :
    ∀ fault, outcome.1 = .error fault → fault.isInterruption = false := by
  intro fault hf
  cases h with
  | whole => cases hf
  | torn hfault => exact Except.error.inj hf ▸ hfault

/-- A full write makes one write to a set, with whatever patience. -/
theorem writeFully (hb : buffer ≠ [])
    (h : BroadcastEnds view s contents buffer (ByteChannel.write buffer s))
    (patience : Bytes → (ShardSet κ × World) × List Bytes → Nat) (offers : List Bytes) :
    ShardedLines.writeFully (noting ByteChannel.write) patience buffer (s, offers) =
      ((ByteChannel.write buffer s).1.map fun _ => (), (ByteChannel.write buffer s).2,
        offers ++ [buffer]) :=
  writeFully_of_last hb rfl h.taken h.failed

/-- A line is written by one write, if it has any bytes. -/
theorem writeAll (hb : buffer ≠ [])
    (h : BroadcastEnds view s contents buffer (ByteChannel.write buffer s)) :
    ByteChannel.writeAll buffer s =
      ((ByteChannel.write buffer s).1.map fun _ => (), (ByteChannel.write buffer s).2) :=
  writeFully_of_last hb rfl h.taken h.failed

end BroadcastEnds

end ShardedLines
