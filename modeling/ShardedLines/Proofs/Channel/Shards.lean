import ShardedLines.Channel.ShardSet
import ShardedLines.Proofs.Channel.Stream

/-!
Sets of shards.

The shards of a set share the world, so a write to one of them could disturb another. A `ShardView`
says which channels do not disturb each other. What the shards of a set have received is then a list
of bytes, and a write to one shard adds to one element of it, while what is broadcast is added to
all of them.
-/

namespace ShardedLines

namespace ShardSet

section Shard

variable {κ : Type} [ByteChannel κ] [Located κ] {shards : List κ} {index : Nat}

/-- A write to one shard of an open set is a write to its channel, which is put back into the set. -/
theorem writeToShard_eq (hi : index < shards.length) (buffer : Bytes) (world : World) :
    ShardingChannel.writeToShard index buffer ((⟨shards, true⟩, world) : ShardSet κ × World) =
      ((ByteChannel.write buffer (shards[index], world)).1,
        ⟨shards.set index (ByteChannel.write buffer (shards[index], world)).2.1, true⟩,
        (ByteChannel.write buffer (shards[index], world)).2.2) := by
  have hget : shards[index]? = some shards[index] := List.getElem?_eq_getElem hi
  change ShardSet.writeToShard index buffer ⟨shards, true⟩ world = _
  simp [ShardSet.writeToShard, hget]

theorem shardPatience_eq (hi : index < shards.length) (isOpen : Bool) (buffer : Bytes)
    (world : World) :
    ShardingChannel.shardPatience index buffer ((⟨shards, isOpen⟩, world) : ShardSet κ × World) =
      ByteChannel.patience buffer (shards[index], world) := by
  have hget : shards[index]? = some shards[index] := List.getElem?_eq_getElem hi
  change ShardSet.shardPatience index buffer ⟨shards, isOpen⟩ world = _
  rw [ShardSet.shardPatience, hget]

/-- A line that is written to one shard is written to its channel. -/
theorem writeAllToShard_eq (hi : index < shards.length) (line : Bytes) (world : World) :
    ShardingChannel.writeAllToShard index line ((⟨shards, true⟩, world) : ShardSet κ × World) =
      ((ByteChannel.writeAll line (shards[index], world)).1,
        ⟨shards.set index (ByteChannel.writeAll line (shards[index], world)).2.1, true⟩,
        (ByteChannel.writeAll line (shards[index], world)).2.2) := by
  let embed : κ × World → ShardSet κ × World :=
    fun (shard, world) => (⟨shards.set index shard, true⟩, world)
  have hembed : ((⟨shards, true⟩, world) : ShardSet κ × World) = embed (shards[index], world) := by
    simp only [embed, List.set_getElem_self]
  have hset : ∀ shard : κ, index < (shards.set index shard).length := fun _ => by
    rwa [List.length_set]
  have hwrites : ∀ buffer s, ShardingChannel.writeToShard index buffer (embed s) =
      ((ByteChannel.write buffer s).1, embed (ByteChannel.write buffer s).2) := by
    rintro buffer ⟨shard, world⟩
    refine (writeToShard_eq (hset shard) buffer world).trans ?_
    simp only [List.getElem_set_self, List.set_set, embed]
  have hwaits : ∀ buffer s, ShardingChannel.shardPatience index buffer (embed s) =
      ByteChannel.patience buffer s := by
    rintro buffer ⟨shard, world⟩
    refine (shardPatience_eq (hset shard) true buffer world).trans ?_
    rw [List.getElem_set_self]
  rw [hembed]
  exact writeFully_embed hwrites hwaits line (shards[index], world)

end Shard

end ShardSet

/-- A view of channels that can be the shards of a set. -/
structure ShardView (κ : Type) [ByteChannel κ] extends StreamView κ where
  /-- What is written to one of the channels does not go where the other writes. -/
  apart : κ → κ → Prop
  apart_symm : ∀ {first second}, apart first second → apart second first
  spares : ∀ {s t : κ × World} {buffer answer other}, valid s → buffer ≠ [] →
    ByteChannel.write buffer s = (answer, t) → apart s.1 other → valid (other, s.2) →
      apart t.1 other ∧ valid (other, t.2) ∧ stream (other, t.2) = stream (other, s.2)

namespace ShardView

variable {κ : Type} [ByteChannel κ] (view : ShardView κ)

/-- From one state to another, no channel was disturbed that is apart from this one. -/
def Spares (s t : κ × World) : Prop :=
  ∀ other, view.apart s.1 other → view.valid (other, s.2) →
    view.apart t.1 other ∧ view.valid (other, t.2) ∧
      view.stream (other, t.2) = view.stream (other, s.2)

/-- From one state to another, no channel was disturbed that is apart from all of these. -/
def SparesAll (shards : List κ) (world : World) (next : List κ) (later : World) : Prop :=
  ∀ other, (∀ shard ∈ shards, view.apart shard other) → view.valid (other, world) →
    (∀ shard ∈ next, view.apart shard other) ∧ view.valid (other, later) ∧
      view.stream (other, later) = view.stream (other, world)

/-- The channels are apart from each other, and have received these bytes. -/
structure HoldsEach (shards : List κ) (world : World) (contents : List Bytes) : Prop where
  valid : ∀ shard ∈ shards, view.valid (shard, world)
  apart : shards.Pairwise view.apart
  contents : shards.map (fun shard => view.stream (shard, world)) = contents

/-- The shards of an open set have received these bytes. -/
structure Holds (s : ShardSet κ × World) (contents : List Bytes) : Prop where
  isOpen : s.1.isOpen
  each : view.HoldsEach s.1.shards s.2 contents

/-- The view of the channels that have a further property, which writes keep for the channel itself
and for those that are apart from it. -/
def narrow (live : κ × World → Prop)
    (kept : ∀ {s t buffer answer}, live s → ByteChannel.write buffer s = (answer, t) → live t)
    (spared : ∀ {s t : κ × World} {buffer answer other}, live s →
      ByteChannel.write buffer s = (answer, t) → view.apart s.1 other → live (other, s.2) →
        live (other, t.2)) : ShardView κ where
  toStreamView := view.toStreamView.narrow live kept
  apart := view.apart
  apart_symm := view.apart_symm
  spares := fun ⟨hs, hl⟩ hb hw ha ⟨hv, hother⟩ =>
    have h := view.spares hs hb hw ha hv
    ⟨h.1, ⟨h.2.1, spared hl hw ha hother⟩, h.2.2⟩

variable {view}

theorem HoldsEach.length_eq {shards : List κ} {world : World} {contents : List Bytes}
    (h : view.HoldsEach shards world contents) : shards.length = contents.length := by
  rw [← h.contents, List.length_map]

theorem Spares.trans {s t u : κ × World} (h : view.Spares s t) (h' : view.Spares t u) :
    view.Spares s u := by
  intro other ha hv
  obtain ⟨ha, hv, hs⟩ := h other ha hv
  obtain ⟨ha, hv, hs'⟩ := h' other ha hv
  exact ⟨ha, hv, hs'.trans hs⟩

/-! ## One shard -/

theorem shardLaw (s : κ × World) :
    WriteLaw (ByteChannel.write (κ := κ)) ByteChannel.patience
      (fun t bytes => view.Shows t bytes ∧ view.Spares s t) (· ++ ·) where
  grow_nil := List.append_nil
  grow_append _ _ _ := (List.append_assoc ..).symm
  accepted := fun ⟨hs, hsp⟩ hb hw =>
    ⟨view.writeLaw.accepted hs hb hw, hsp.trans fun _ => view.spares hs.1 hb hw⟩
  refused := fun ⟨hs, hsp⟩ hb hw =>
    have h := view.writeLaw.refused hs hb hw
    ⟨⟨h.1, hsp.trans fun _ => view.spares hs.1 hb hw⟩, h.2⟩

/-- A line is added to what one channel has received, and others are left alone. -/
theorem writeAll_of_steady (steady : view.Steady) (line : Bytes) {s : κ × World}
    (valid : view.valid s) :
    ∃ t, ByteChannel.writeAll line s = (.ok (), t) ∧
      view.Shows t (view.stream s ++ line) ∧ view.Spares s t :=
  (view.shardLaw s).fullWrite_of_steady (fun _ _ _ hs => steady hs.1.1) line
    ⟨⟨valid, rfl⟩, fun _ ha hv => ⟨ha, hv, rfl⟩⟩

/-! ## All shards -/

theorem HoldsEach.head {shard : κ} {rest : List κ} {world : World} {contents : List Bytes}
    (h : view.HoldsEach (shard :: rest) world contents) : view.valid (shard, world) :=
  h.valid shard List.mem_cons_self

theorem HoldsEach.tail {shard : κ} {rest : List κ} {world : World} {first : Bytes}
    {others : List Bytes} (h : view.HoldsEach (shard :: rest) world (first :: others)) :
    view.HoldsEach rest world others where
  valid other ho := h.valid other (List.mem_cons_of_mem _ ho)
  apart := h.apart.tail
  contents := (List.cons.inj h.contents).2

/-- Channels apart from one that was written to hold what they held before. -/
theorem HoldsEach.of_spares {shards : List κ} {s t : κ × World} {contents : List Bytes}
    (h : view.HoldsEach shards s.2 contents) (spares : view.Spares s t)
    (apart : ∀ shard ∈ shards, view.apart s.1 shard) :
    view.HoldsEach shards t.2 contents where
  valid shard hs := (spares shard (apart shard hs) (h.valid shard hs)).2.1
  apart := h.apart
  contents := by
    rw [← h.contents]
    exact List.map_congr_left fun shard hs =>
      (spares shard (apart shard hs) (h.valid shard hs)).2.2

theorem SparesAll.refl (shards : List κ) (world : World) :
    view.SparesAll shards world shards world :=
  fun _ ha hv => ⟨ha, hv, rfl⟩

/-- The first of some shards was written to, and then the others, without disturbing it. -/
theorem HoldsEach.next {shard : κ} {rest : List κ} {world : World} {contents : List Bytes}
    (h : view.HoldsEach (shard :: rest) world contents) {t : κ × World} {received : Bytes}
    (shows : view.Shows t received) (spares : view.Spares (shard, world) t) {next : List κ}
    {later : World} {others : List Bytes} (hnext : view.HoldsEach next later others)
    (all : view.SparesAll rest t.2 next later) :
    view.HoldsEach (t.1 :: next) later (received :: others) ∧
      view.SparesAll (shard :: rest) world (t.1 :: next) later := by
  have hapart : ∀ other ∈ rest, view.apart shard other := (List.pairwise_cons.mp h.apart).1
  have hvalid : ∀ other ∈ rest, view.valid (other, world) :=
    fun other ho => h.valid other (List.mem_cons_of_mem _ ho)
  -- the shards that follow leave this one alone
  obtain ⟨hapart', hvalid', hstream⟩ := all t.1
    (fun other ho => view.apart_symm (spares other (hapart other ho) (hvalid other ho)).1) shows.1
  refine ⟨⟨?_, ?_, ?_⟩, ?_⟩
  · exact List.forall_mem_cons.mpr ⟨hvalid', hnext.valid⟩
  · exact List.pairwise_cons.mpr ⟨fun other ho => view.apart_symm (hapart' other ho), hnext.apart⟩
  · rw [List.map_cons, hstream, shows.2, hnext.contents]
  · intro other ha hv
    obtain ⟨hs, hrest⟩ := List.forall_mem_cons.mp ha
    obtain ⟨ha', hv', hsame⟩ := spares other hs hv
    obtain ⟨hnext', hv'', hsame'⟩ := all other hrest hv'
    exact ⟨List.forall_mem_cons.mpr ⟨ha', hnext'⟩, hv'', hsame'.trans hsame⟩

/-- What is broadcast is added to each shard. -/
theorem broadcast_of_steady (steady : view.Steady) (line : Bytes) {shards : List κ}
    {world : World} {contents : List Bytes} (h : view.HoldsEach shards world contents) :
    ∃ next later, ShardSet.broadcast line shards world = (.ok (), next, later) ∧
      view.HoldsEach next later (contents.map (· ++ line)) ∧
      view.SparesAll shards world next later := by
  induction shards generalizing world contents with
  | nil =>
    obtain rfl := h.contents
    exact ⟨[], world, rfl, h, .refl [] world⟩
  | cons shard rest ih =>
    obtain ⟨first, others, rfl⟩ : ∃ first others, contents = first :: others :=
      ⟨_, _, h.contents.symm⟩
    have hfirst : view.stream (shard, world) = first := (List.cons.inj h.contents).1
    have hapart : ∀ other ∈ rest, view.apart shard other := (List.pairwise_cons.mp h.apart).1
    obtain ⟨⟨shard', world'⟩, hw, shows, spares⟩ := view.writeAll_of_steady steady line h.head
    obtain ⟨next, later, hb, hnext, hall⟩ := ih (h.tail.of_spares spares hapart)
    refine ⟨shard' :: next, later, ?_, ?_⟩
    · simp only [ShardSet.broadcast, hw, hb]
    · exact h.next (hfirst ▸ shows) spares hnext hall

/-- What is written to one shard is added to it. -/
theorem HoldsEach.set {shards : List κ} {world : World} {contents : List Bytes}
    (h : view.HoldsEach shards world contents) {index : Nat} {shard : κ}
    (hi : shards[index]? = some shard) {line : Bytes} {t : κ × World}
    (shows : view.Shows t (view.stream (shard, world) ++ line))
    (spares : view.Spares (shard, world) t) :
    view.HoldsEach (shards.set index t.1) t.2 (contents.modify index (· ++ line)) := by
  have hlt : index < shards.length := (List.getElem?_eq_some_iff.mp hi).1
  have hget : shards[index] = shard := (List.getElem?_eq_some_iff.mp hi).2
  -- the others are apart from this shard, whichever side they stand on
  have hapart : ∀ j (hj : j < shards.length), j ≠ index → view.apart shard shards[j] := by
    intro j hj hne
    rcases Nat.lt_or_gt_of_ne hne with hlt' | hgt
    · exact hget ▸ view.apart_symm (List.pairwise_iff_getElem.mp h.apart j index hj hlt hlt')
    · exact hget ▸ List.pairwise_iff_getElem.mp h.apart index j hlt hj hgt
  have hspared : ∀ j (hj : j < shards.length), j ≠ index →
      view.apart t.1 shards[j] ∧ view.valid (shards[j], t.2) ∧
        view.stream (shards[j], t.2) = view.stream (shards[j], world) :=
    fun j hj hne => spares _ (hapart j hj hne) (h.valid _ (List.getElem_mem hj))
  refine ⟨?_, ?_, ?_⟩
  · intro other ho
    obtain ⟨j, hj, rfl⟩ := List.mem_iff_getElem.mp ho
    rw [List.length_set] at hj
    rw [List.getElem_set]
    split
    · exact shows.1
    · rename_i hne
      exact (hspared j hj (Ne.symm hne)).2.1
  · rw [List.pairwise_iff_getElem]
    intro j k hj hk hjk
    rw [List.length_set] at hj hk
    rw [List.getElem_set, List.getElem_set]
    split
    · rw [if_neg (by omega)]
      exact (hspared k hk (by omega)).1
    · split
      · exact view.apart_symm (hspared j hj (by omega)).1
      · exact List.pairwise_iff_getElem.mp h.apart j k hj hk hjk
  · rw [← h.contents]
    refine List.ext_getElem (by simp) fun j hj _ => ?_
    simp only [List.length_map, List.length_set] at hj
    simp only [List.getElem_map, List.getElem_set, List.getElem_modify]
    split
    · rename_i heq
      subst heq
      rw [shows.2, hget]
    · rename_i hne
      exact (hspared j hj (Ne.symm hne)).2.2

/-! ## Sets -/

section Sets

variable [Located κ]

theorem write_set (steady : view.Steady) (buffer : Bytes) {s : ShardSet κ × World}
    {contents : List Bytes} (h : view.Holds s contents) :
    ∃ t, ByteChannel.write buffer s = (.ok buffer.length, t) ∧
      view.Holds t (contents.map (· ++ buffer)) := by
  obtain ⟨next, later, hb, hnext, _⟩ := broadcast_of_steady steady buffer h.each
  refine ⟨({ s.1 with shards := next }, later), ?_, h.isOpen, hnext⟩
  change s.1.write buffer s.2 = _
  simp only [ShardSet.write, h.isOpen, hb]
  rfl

theorem writeAll_set (steady : view.Steady) (line : Bytes) {s : ShardSet κ × World}
    {contents : List Bytes} (h : view.Holds s contents) :
    ∃ t, ByteChannel.writeAll line s = (.ok (), t) ∧ view.Holds t (contents.map (· ++ line)) := by
  by_cases hl : line = []
  · subst hl
    refine ⟨s, writeFully_nil .., ?_⟩
    simpa using h
  · obtain ⟨t, hw, hold⟩ := write_set steady line h
    exact ⟨t, writeFully_of_whole hl hw, hold⟩

theorem writeAllToShard_set (steady : view.Steady) (line : Bytes) {s : ShardSet κ × World}
    {contents : List Bytes} (h : view.Holds s contents) {index : Nat}
    (hi : index < s.1.shards.length) :
    ∃ t, ShardingChannel.writeAllToShard index line s = (.ok (), t) ∧
      view.Holds t (contents.modify index (· ++ line)) := by
  obtain ⟨⟨shards, isOpen⟩, world⟩ := s
  obtain rfl : isOpen = true := h.isOpen
  have hget : shards[index]? = some shards[index] := List.getElem?_eq_getElem hi
  obtain ⟨t, hw, shows, spares⟩ :=
    view.writeAll_of_steady steady line (h.each.valid _ (List.getElem_mem hi))
  refine ⟨(⟨shards.set index t.1, true⟩, t.2), ?_, rfl, h.each.set hget shows spares⟩
  rw [ShardSet.writeAllToShard_eq hi, hw]

end Sets

end ShardView

/-! ## Scripted channels as shards -/

/-- Scripted channels are not found at any place. -/
instance : Located ScriptedChannel where
  path _ := ""

/-- Scripted channels do not share anything. -/
def ScriptedChannel.shardView : ShardView ScriptedChannel where
  toStreamView := steadyView 1
  apart _ _ := True
  apart_symm h := h
  spares := fun _ _ _ h hv => ⟨h, hv, rfl⟩

/-- Scripted channels whose writes may end in any way. -/
def ScriptedChannel.faultyView : ShardView ScriptedChannel where
  toStreamView := view 1
  apart _ _ := True
  apart_symm h := h
  spares := fun _ _ _ h hv => ⟨h, hv, rfl⟩

end ShardedLines
