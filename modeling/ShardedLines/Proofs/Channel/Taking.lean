import ShardedLines.Proofs.Channel.Memory
import ShardedLines.Proofs.Channel.Shards

/-!
Channels that take what they are offered.

A write takes at least one byte, or it is interrupted for the moment, and the channel stays as fit as
it was (`Takes`). Then every line is written in full. Open memory channels are such channels, and sets
of shards are if their shards are (`MemoryChannel.takesOnShards`, `ShardView.takesOnShards`).
-/

namespace ShardedLines

/-- In these states, which writes do not leave, each write takes something, unless it is one of so
many interruptions in a row. -/
structure Takes {σ : Type} (write : Bytes → σ → Outcome σ Nat) (patience : Bytes → σ → Nat)
    (valid : σ → Prop) : Prop where
  steady : Steady write valid
  keeps : ∀ {s buffer}, valid s → buffer ≠ [] → valid (write buffer s).2
  waits : ∀ {s buffer fault}, valid s → buffer ≠ [] → (write buffer s).1 = .error fault →
    patience buffer (write buffer s).2 < patience buffer s

theorem Takes.writeFully {σ : Type} {write : Bytes → σ → Outcome σ Nat} {patience : Bytes → σ → Nat}
    {valid : σ → Prop} (takes : Takes write patience valid) (buffer : Bytes) {s : σ} (hs : valid s) :
    ∃ t, writeFully write patience buffer s = (.ok (), t) ∧ valid t := by
  have law : WriteLaw write patience (fun s (_ : Unit) => valid s) fun a _ => a := by
    refine ⟨fun _ => rfl, fun _ _ _ => rfl, ?_, ?_⟩
    · intro s t _ buffer count hs hb hw
      simpa only [hw] using takes.keeps hs hb
    · intro s t _ buffer fault hs hb hw
      have hkeeps := takes.keeps hs hb
      have hwaits := takes.waits hs hb (congrArg Prod.fst hw)
      rw [hw] at hkeeps hwaits
      exact ⟨hkeeps, fun _ => hwaits⟩
  exact law.fullWrite_of_steady (fun _ _ _ hs hb => takes.steady hs hb) buffer (a := ()) hs

/-- The single stream and all of so many shards take what they are offered. -/
structure TakesOnShards {κ : Type} [ShardingChannel κ] (shards : Nat) (valid : κ × World → Prop) :
    Prop where
  shards_eq : ∀ {s}, valid s → ShardingChannel.shards s.1 = shards
  stream : Takes (ByteChannel.write (κ := κ)) ByteChannel.patience valid
  shard : ∀ {shard}, shard < shards →
    Takes (ShardingChannel.writeToShard (κ := κ) shard) (ShardingChannel.shardPatience shard) valid

theorem StreamView.Steady.takes {κ : Type} [ByteChannel κ] {view : StreamView κ}
    (steady : view.Steady) : Takes (ByteChannel.write (κ := κ)) ByteChannel.patience view.valid where
  steady := steady
  keeps {s buffer} hs hb := by
    rcases hw : ByteChannel.write buffer s with ⟨fault | count, t⟩
    · exact (view.refused hs hb hw).1
    · exact (view.accepted hs hb hw).1
  waits {s buffer fault} hs hb hw := by
    have hi := steady hs hb
    rw [hw] at hi
    exact (view.refused hs hb (Prod.ext hw rfl)).2.2 hi

/-! ## Memory channels -/

theorem MemoryChannel.Takes.writeToShard {channel : MemoryChannel} (h : channel.Takes) {shard : Nat}
    (hs : shard < channel.shards.length) (buffer : Bytes) :
    channel.writeToShard shard buffer =
      (.ok (channel.allowance buffer.length), { channel with
        shards := channel.shards.set shard
          (channel.shards[shard] ++ buffer.take (channel.allowance buffer.length)) }) := by
  have hget : channel.shards[shard]? = some channel.shards[shard] := List.getElem?_eq_getElem hs
  have hlength : (buffer.take (channel.allowance buffer.length)).length =
      channel.allowance buffer.length :=
    List.length_take_of_le (channel.allowance_le buffer.length)
  simp only [MemoryChannel.writeToShard, h.1, hget, hlength]

theorem MemoryChannel.takesOnShards (shards : Nat) :
    TakesOnShards shards fun s : MemoryChannel × World => s.1.Takes ∧ s.1.shards.length = shards where
  shards_eq h := h.2
  stream := by
    refine ⟨?_, ?_, ?_⟩
    · intro s buffer ⟨h, _⟩ hb
      rw [write_eq, h.write]
      exact h.allowance_pos (List.length_pos_iff.mpr hb)
    · intro s buffer ⟨h, hlength⟩ _
      rw [write_eq, h.write]
      exact ⟨h, hlength⟩
    · intro s buffer fault ⟨h, _⟩ _ hw
      rw [write_eq, h.write] at hw
      cases hw
  shard {shard} hlt := by
    have hwrite : ∀ buffer (s : MemoryChannel × World), ShardingChannel.writeToShard shard buffer s =
        ((s.1.writeToShard shard buffer).1, (s.1.writeToShard shard buffer).2, s.2) := fun _ _ => rfl
    refine ⟨?_, ?_, ?_⟩
    · intro s buffer ⟨h, hlength⟩ hb
      rw [hwrite, h.writeToShard (hlength ▸ hlt)]
      exact h.allowance_pos (List.length_pos_iff.mpr hb)
    · intro s buffer ⟨h, hlength⟩ _
      rw [hwrite, h.writeToShard (hlength ▸ hlt)]
      exact ⟨h, List.length_set.trans hlength⟩
    · intro s buffer fault ⟨h, hlength⟩ _ hw
      rw [hwrite, h.writeToShard (hlength ▸ hlt)] at hw
      cases hw

/-! ## Sets of shards -/

namespace ShardView

variable {κ : Type} [ByteChannel κ] [Located κ] {view : ShardView κ}

/-- A write to one shard goes as a write to its channel, and the set goes on holding each shard. -/
theorem writeToShard_set {s : ShardSet κ × World} {contents : List Bytes} (h : view.Holds s contents)
    {index : Nat} (hi : index < s.1.shards.length) {buffer : Bytes} (hb : buffer ≠ []) :
    let channel := (s.1.shards[index], s.2)
    let next := (ShardingChannel.writeToShard index buffer s).2
    (ShardingChannel.writeToShard index buffer s).1 = (ByteChannel.write buffer channel).1 ∧
      ShardingChannel.shardPatience index buffer s = ByteChannel.patience buffer channel ∧
      ShardingChannel.shardPatience index buffer next =
        ByteChannel.patience buffer (ByteChannel.write buffer channel).2 ∧
      ∃ taken, view.Holds next (contents.modify index (· ++ taken)) := by
  obtain ⟨⟨shards, isOpen⟩, world⟩ := s
  obtain rfl : isOpen = true := h.isOpen
  intro channel next
  have hget : shards[index]? = some shards[index] := List.getElem?_eq_getElem hi
  have hvalid : view.valid channel := h.each.valid _ (List.getElem_mem hi)
  have hwrite := ShardSet.writeToShard_eq hi buffer world
  rcases hw : ByteChannel.write buffer channel with ⟨answer, t⟩
  have hnext : next = (⟨shards.set index t.1, true⟩, t.2) := by
    simp only [next, hwrite, channel, hw]
  have spares : view.Spares channel t := fun _ => view.spares hvalid hb hw
  refine ⟨?_, ShardSet.shardPatience_eq hi true buffer world, ?_, ?_⟩
  · rw [hwrite, hw]
  · rw [hnext, ShardSet.shardPatience_eq (by rwa [List.length_set]), List.getElem_set_self]
  · rw [hnext]
    cases answer with
    | error fault =>
      obtain ⟨ht, hstream, _⟩ := view.refused hvalid hb hw
      exact ⟨[], rfl, h.each.set hget ⟨ht, hstream.trans (List.append_nil _).symm⟩ spares⟩
    | ok count =>
      exact ⟨buffer.take count, rfl, h.each.set hget (view.accepted hvalid hb hw) spares⟩

theorem takesOnShards (steady : view.Steady) (shards : Nat) :
    TakesOnShards shards fun s : ShardSet κ × World =>
      ∃ contents, view.Holds s contents ∧ contents.length = shards where
  shards_eq := by
    rintro s ⟨contents, h, hlength⟩
    exact h.each.length_eq.trans hlength
  stream := by
    refine ⟨?_, ?_, ?_⟩
    · rintro s buffer ⟨contents, h, hlength⟩ hb
      obtain ⟨t, hw, _⟩ := write_set steady buffer h
      rw [hw]
      exact List.length_pos_iff.mpr hb
    · rintro s buffer ⟨contents, h, hlength⟩ _
      obtain ⟨t, hw, hold⟩ := write_set steady buffer h
      rw [hw]
      exact ⟨_, hold, List.length_map _ |>.trans hlength⟩
    · rintro s buffer fault ⟨contents, h, hlength⟩ _ hfault
      obtain ⟨t, hw, _⟩ := write_set steady buffer h
      rw [hw] at hfault
      cases hfault
  shard {shard} hlt := by
    have hi : ∀ {s : ShardSet κ × World} {contents : List Bytes}, view.Holds s contents →
        contents.length = shards → shard < s.1.shards.length :=
      fun h hlength => h.each.length_eq.trans hlength ▸ hlt
    refine ⟨?_, ?_, ?_⟩
    · rintro s buffer ⟨contents, h, hlength⟩ hb
      rw [(writeToShard_set h (hi h hlength) hb).1]
      exact steady (h.each.valid _ (List.getElem_mem (hi h hlength))) hb
    · rintro s buffer ⟨contents, h, hlength⟩ hb
      obtain ⟨_, _, _, taken, hold⟩ := writeToShard_set h (hi h hlength) hb
      exact ⟨_, hold, (List.length_modify ..).trans hlength⟩
    · rintro s buffer fault ⟨contents, h, hlength⟩ hb hfault
      obtain ⟨hanswer, hbefore, hafter, _⟩ := writeToShard_set h (hi h hlength) hb
      rw [hbefore, hafter]
      exact steady.takes.waits (h.each.valid _ (List.getElem_mem (hi h hlength))) hb
        (hanswer.symm.trans hfault)

end ShardView

end ShardedLines
