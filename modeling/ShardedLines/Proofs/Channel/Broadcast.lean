import ShardedLines.Proofs.Channel.Shards

/-!
Broadcasts that may fail.

A broadcast goes through the shards in turn and stops at the first that fails. So it brings the
whole line to some first shards (`ShardSet.reached`), a strict part of it to the one that fails, and
nothing to those behind it (`spread`). A set that is written to does not lose or gain a shard.
-/

namespace ShardedLines

/-! ## Shards that are reached -/

namespace ShardSet

variable {κ : Type} [ByteChannel κ]

/-- How many shards a broadcast brings the whole line to. -/
def reached (line : Bytes) : List κ → World → Nat
  | [], _ => 0
  | shard :: rest, world =>
    match ByteChannel.writeAll line (shard, world) with
    | (.error _, _, _) => 0
    | (.ok (), _, world) => reached line rest world + 1

/-- What is read off a shard and kept by its writes is kept by a broadcast for all shards. -/
theorem map_broadcast {β : Type} {read : κ → β}
    (keeps : ∀ buffer (s : κ × World), read (ByteChannel.write buffer s).2.1 = read s.1)
    (line : Bytes) (shards : List κ) (world : World) :
    (broadcast line shards world).2.1.map read = shards.map read := by
  induction shards generalizing world with
  | nil => rfl
  | cons shard rest ih =>
    let kept (t : κ × World) : Prop := read t.1 = read shard
    have hkept : ∀ buffer t, kept t → kept (ByteChannel.write buffer t).2 :=
      fun buffer t ht => (keeps buffer t).trans ht
    have hread : read (ByteChannel.writeAll line (shard, world)).2.1 = read shard :=
      writeFully_keeps hkept line rfl
    rcases hw : ByteChannel.writeAll line (shard, world) with ⟨fault | _, next, later⟩
    · rw [hw] at hread
      simp only [broadcast, hw, List.map_cons]
      exact congrArg (· :: rest.map read) hread
    · rw [hw] at hread
      simp only [broadcast, hw, List.map_cons]
      exact congrArg₂ List.cons hread (ih later)

theorem map_write {β : Type} {read : κ → β}
    (keeps : ∀ buffer (s : κ × World), read (ByteChannel.write buffer s).2.1 = read s.1)
    (buffer : Bytes) (set : ShardSet κ) (world : World) :
    (set.write buffer world).2.1.shards.map read = set.shards.map read := by
  have h := map_broadcast keeps buffer set.shards world
  rw [write]
  split
  · rfl
  · rcases hb : broadcast buffer set.shards world with ⟨fault | _, next, later⟩
    · rw [hb] at h
      exact h
    · rw [hb] at h
      exact h

theorem map_writeToShard {β : Type} {read : κ → β}
    (keeps : ∀ buffer (s : κ × World), read (ByteChannel.write buffer s).2.1 = read s.1)
    (shard : Nat) (buffer : Bytes) (set : ShardSet κ) (world : World) :
    (set.writeToShard shard buffer world).2.1.shards.map read = set.shards.map read := by
  rw [writeToShard]
  split
  · rfl
  · split
    · rfl
    · rename_i channel hget
      obtain ⟨hlt, rfl⟩ := List.getElem?_eq_some_iff.mp hget
      have hlength : shard < (set.shards.map read).length := by simpa using hlt
      have hmap : (set.shards.map read)[shard] = read set.shards[shard] := List.getElem_map ..
      change (set.shards.set shard _).map read = _
      rw [List.map_set, keeps, ← hmap, List.set_getElem_self]

theorem isOpen_write (buffer : Bytes) (set : ShardSet κ) (world : World) :
    (set.write buffer world).2.1.isOpen = set.isOpen := by
  rw [write]
  split
  · rfl
  · rcases broadcast buffer set.shards world with ⟨fault | _, next, later⟩ <;> rfl

theorem isOpen_writeToShard (shard : Nat) (buffer : Bytes) (set : ShardSet κ) (world : World) :
    (set.writeToShard shard buffer world).2.1.isOpen = set.isOpen := by
  rw [writeToShard]
  split
  · rfl
  · split <;> rfl

theorem length_broadcast (line : Bytes) (shards : List κ) (world : World) :
    (broadcast line shards world).2.1.length = shards.length := by
  have h : (broadcast line shards world).2.1.map (fun _ => ()) = shards.map fun _ => () :=
    map_broadcast (fun _ _ => rfl) line shards world
  simpa using congrArg List.length h

theorem reached_le (line : Bytes) (shards : List κ) (world : World) :
    reached line shards world ≤ shards.length := by
  induction shards generalizing world with
  | nil => exact Nat.le_refl _
  | cons shard rest ih =>
    rcases hw : ByteChannel.writeAll line (shard, world) with ⟨fault | _, next, later⟩
    · simp only [reached, hw]
      exact Nat.zero_le _
    · simp only [reached, hw]
      exact Nat.succ_le_succ (ih later)

/-- A broadcast succeeds if it reaches all shards. -/
theorem reached_eq_length_iff (line : Bytes) (shards : List κ) (world : World) :
    reached line shards world = shards.length ↔ (broadcast line shards world).1 = .ok () := by
  induction shards generalizing world with
  | nil => exact ⟨fun _ => rfl, fun _ => rfl⟩
  | cons shard rest ih =>
    rcases hw : ByteChannel.writeAll line (shard, world) with ⟨fault | _, next, later⟩
    · simp [reached, broadcast, hw]
    · simp only [reached, broadcast, hw, List.length_cons, Nat.succ.injEq]
      exact ih later

/-- The shards behind the one that fails are not written to: whatever stands in their place stays as
it is, and the outcome is the same. -/
theorem broadcast_stops {line : Bytes} {shards : List κ} {world : World}
    (h : reached line shards world < shards.length) :
    ∃ fault next later, next.length = reached line shards world + 1 ∧
      ∀ others, broadcast line (shards.take (reached line shards world + 1) ++ others) world =
        (.error fault, next ++ others, later) := by
  induction shards generalizing world with
  | nil => exact absurd h (Nat.not_lt_zero _)
  | cons shard rest ih =>
    rcases hw : ByteChannel.writeAll line (shard, world) with ⟨fault | _, shard', world'⟩
    · simp only [reached, hw]
      refine ⟨fault, [shard'], world', rfl, fun others => ?_⟩
      simp [broadcast, hw]
    · simp only [reached, hw, List.length_cons] at h ⊢
      obtain ⟨fault, next, later, hlength, hothers⟩ := ih (Nat.lt_of_succ_lt_succ h)
      refine ⟨fault, shard' :: next, later, congrArg (· + 1) hlength, fun others => ?_⟩
      simp only [List.take_succ_cons, List.cons_append, broadcast, hw, hothers]

theorem broadcast_nil (shards : List κ) (world : World) :
    broadcast [] shards world = (.ok (), shards, world) := by
  induction shards with
  | nil => rfl
  | cons shard rest ih =>
    have hw : ByteChannel.writeAll [] (shard, world) = (.ok (), shard, world) := writeFully_nil ..
    simp only [broadcast, hw, ih]

/-! ## Sets -/

/-- How many shards of a set the writing of a line brings all of it to. -/
def copies (line : Bytes) (s : ShardSet κ × World) : Nat :=
  if s.1.isOpen || line.isEmpty then reached line s.1.shards s.2 else 0

section Sets

variable [Located κ]

/-- A line is written to a set by one broadcast, unless the set is closed. An empty line asks
nothing of the set. -/
theorem writeAll_eq (line : Bytes) (s : ShardSet κ × World) :
    ByteChannel.writeAll line s =
      if s.1.isOpen || line.isEmpty then
        ((broadcast line s.1.shards s.2).1,
          { s.1 with shards := (broadcast line s.1.shards s.2).2.1 },
          (broadcast line s.1.shards s.2).2.2)
      else (.error .channelClosed, s) := by
  obtain ⟨set, world⟩ := s
  have hwrite : ByteChannel.write line (set, world) = set.write line world := rfl
  by_cases hl : line = []
  · subst hl
    simp only [broadcast_nil, List.isEmpty_nil, Bool.or_true, if_true]
    exact writeFully_nil ..
  · have hempty : line.isEmpty = false := by simpa using hl
    simp only [hempty, Bool.or_false]
    rcases hb : broadcast line set.shards world with ⟨answer, next, later⟩
    cases ho : set.isOpen with
    | false =>
      have hw : ByteChannel.write line (set, world) = (.error .channelClosed, set, world) := by
        simp [hwrite, ShardSet.write, ho]
      exact writeFully_of_error hl hw rfl
    | true =>
      cases answer with
      | ok _ =>
        refine writeFully_of_whole hl ?_
        simp [hwrite, ShardSet.write, ho, hb]
      | error fault =>
        -- a set has no patience, so its faults are final
        refine writeFully_of_spent hl ?_ (Nat.le_refl 0)
        simp [hwrite, ShardSet.write, ho, hb]

/-- A line that is written comes to all shards. -/
theorem copies_of_ok {line : Bytes} {s : ShardSet κ × World}
    (h : (ByteChannel.writeAll line s).1 = .ok ()) : copies line s = s.1.shards.length := by
  rw [writeAll_eq] at h
  rw [copies]
  split at h
  next hc =>
    rw [if_pos hc]
    exact (reached_eq_length_iff ..).mpr h
  next => cases h

/-- A line that fails does not come to all shards, if there are any. -/
theorem copies_lt_of_error {line : Bytes} {s : ShardSet κ × World} {fault : Fault}
    (h : (ByteChannel.writeAll line s).1 = .error fault) (hs : 0 < s.1.shards.length) :
    copies line s < s.1.shards.length := by
  rw [writeAll_eq] at h
  rw [copies]
  split at h
  next hc =>
    rw [if_pos hc]
    refine Nat.lt_of_le_of_ne (reached_le ..) fun heq => ?_
    rw [(reached_eq_length_iff ..).mp heq] at h
    cases h
  next hc =>
    rw [if_neg hc]
    exact hs

theorem length_writeAll (line : Bytes) (s : ShardSet κ × World) :
    (ByteChannel.writeAll line s).2.1.shards.length = s.1.shards.length := by
  rw [writeAll_eq]
  split
  · exact length_broadcast ..
  · rfl

theorem length_writeToShard (shard : Nat) (buffer : Bytes) (s : ShardSet κ × World) :
    (ShardingChannel.writeToShard shard buffer s).2.1.shards.length = s.1.shards.length := by
  have hmap : (s.1.writeToShard shard buffer s.2).2.1.shards.map (fun _ => ()) =
      s.1.shards.map fun _ => () := map_writeToShard (fun _ _ => rfl) shard buffer s.1 s.2
  have hlength := congrArg List.length hmap
  rwa [List.length_map, List.length_map] at hlength

theorem length_writeAllToShard (shard : Nat) (line : Bytes) (s : ShardSet κ × World) :
    (ShardingChannel.writeAllToShard shard line s).2.1.shards.length = s.1.shards.length := by
  let kept (t : ShardSet κ × World) : Prop := t.1.shards.length = s.1.shards.length
  have keeps : ∀ buffer t, kept t → kept (ShardingChannel.writeToShard shard buffer t).2 :=
    fun buffer t ht => (length_writeToShard shard buffer t).trans ht
  exact writeFully_keeps keeps line rfl

end Sets

end ShardSet

/-! ## What the shards receive -/

/-- The contents of shards of which some first ones received the whole line, and the next one what
it took. -/
def spread (line taken : Bytes) : Nat → List Bytes → List Bytes
  | _, [] => []
  | 0, first :: rest => (first ++ taken) :: rest
  | count + 1, first :: rest => (first ++ line) :: spread line taken count rest

/-- How many shards have grown by the whole line, and by nothing else. -/
def grownBy (line : Bytes) (before after : List Bytes) : Nat :=
  (before.zip after).countP fun (old, new) => new = old ++ line

theorem grownBy_cons (line first next : Bytes) (before after : List Bytes) :
    grownBy line (first :: before) (next :: after) =
      grownBy line before after + if next = first ++ line then 1 else 0 := by
  simp [grownBy, List.countP_cons]

theorem grownBy_self {line : Bytes} (hl : line ≠ []) (contents : List Bytes) :
    grownBy line contents contents = 0 := by
  induction contents with
  | nil => rfl
  | cons first rest ih =>
    have hne : first ≠ first ++ line := fun h => hl (List.self_eq_append_right.mp h)
    rw [grownBy_cons, ih, if_neg hne]

theorem grownBy_spread {line taken : Bytes} {contents : List Bytes} {count : Nat}
    (hc : count ≤ contents.length)
    (torn : count < contents.length → taken <+: line ∧ taken ≠ line) :
    grownBy line contents (spread line taken count contents) = count := by
  induction contents generalizing count with
  | nil => exact (Nat.le_zero.mp hc).symm
  | cons first rest ih =>
    cases count with
    | zero =>
      obtain ⟨hp, hne⟩ := torn (Nat.zero_lt_succ _)
      have hl : line ≠ [] := by
        rintro rfl
        exact hne (List.prefix_nil.mp hp)
      have hfirst : first ++ taken ≠ first ++ line := fun h => hne (List.append_cancel_left h)
      rw [spread, grownBy_cons, grownBy_self hl, if_neg hfirst]
    | succ count =>
      have hrest := ih (Nat.le_of_succ_le_succ hc) fun h => torn (Nat.succ_lt_succ h)
      rw [spread, grownBy_cons, hrest, if_pos rfl]

namespace ShardView

variable {κ : Type} [ByteChannel κ] {view : ShardView κ}

/-- A line is added to what one channel has received, whole or in a strict part, and others are
left alone. -/
theorem writeAll_spares (line : Bytes) {s : κ × World} (valid : view.valid s) :
    FullWrite (fun t bytes => view.Shows t bytes ∧ view.Spares s t) (· ++ ·) (view.stream s) line
      (ByteChannel.writeAll line s) :=
  (view.shardLaw s).fullWrite line ⟨⟨valid, rfl⟩, fun _ ha hv => ⟨ha, hv, rfl⟩⟩

/-- What is broadcast comes whole to the shards that are reached, in a strict part to the next one,
and not to any other. The answer is never an interruption, as the shards were written to until they
ended otherwise. -/
theorem broadcast_spread (line : Bytes) {shards : List κ} {world : World} {contents : List Bytes}
    (h : view.HoldsEach shards world contents) :
    ∃ taken,
      (ShardSet.reached line shards world < shards.length → taken <+: line ∧ taken ≠ line) ∧
      view.HoldsEach (ShardSet.broadcast line shards world).2.1
        (ShardSet.broadcast line shards world).2.2
        (spread line taken (ShardSet.reached line shards world) contents) ∧
      view.SparesAll shards world (ShardSet.broadcast line shards world).2.1
        (ShardSet.broadcast line shards world).2.2 ∧
      ∀ fault, (ShardSet.broadcast line shards world).1 = .error fault →
        fault.isInterruption = false := by
  induction shards generalizing world contents with
  | nil =>
    obtain rfl := h.contents
    exact ⟨[], fun hlt => absurd hlt (Nat.lt_irrefl 0), h, .refl [] world, fun _ hf => nomatch hf⟩
  | cons shard rest ih =>
    obtain ⟨first, others, rfl⟩ : ∃ first others, contents = first :: others :=
      ⟨_, _, h.contents.symm⟩
    have hfirst : view.stream (shard, world) = first := (List.cons.inj h.contents).1
    have hapart : ∀ other ∈ rest, view.apart shard other := (List.pairwise_cons.mp h.apart).1
    have hwrite := view.writeAll_spares line h.head
    rw [hfirst] at hwrite
    rcases hw : ByteChannel.writeAll line (shard, world) with ⟨answer, shard', world'⟩
    rw [hw] at hwrite
    cases hwrite with
    | @torn _ fault taken hp hne hshows hfault =>
      obtain ⟨shows, spares⟩ := hshows
      simp only [ShardSet.reached, ShardSet.broadcast, hw]
      obtain ⟨hnext, hall⟩ :=
        h.next shows spares (h.tail.of_spares spares hapart) (.refl rest world')
      refine ⟨taken, fun _ => ⟨hp, hne⟩, hnext, hall, fun other ho => ?_⟩
      cases ho
      exact hfault
    | whole hshows =>
      obtain ⟨shows, spares⟩ := hshows
      obtain ⟨taken, torn, hnext, hall, hfault⟩ := ih (h.tail.of_spares spares hapart)
      obtain ⟨hnext, hall⟩ := h.next shows spares hnext hall
      simp only [ShardSet.reached, ShardSet.broadcast, hw]
      exact ⟨taken, fun hlt => torn (Nat.lt_of_succ_lt_succ hlt), hnext, hall, hfault⟩

/-- The copies of a line are the shards that grow by it. -/
theorem grownBy_writeAll [Located κ] (line : Bytes) {s : ShardSet κ × World} {contents : List Bytes}
    (h : view.HoldsEach s.1.shards s.2 contents) :
    ∃ next, view.HoldsEach (ByteChannel.writeAll line s).2.1.shards
        (ByteChannel.writeAll line s).2.2 next ∧
      grownBy line contents next = ShardSet.copies line s := by
  rw [ShardSet.writeAll_eq, ShardSet.copies]
  split
  next =>
    obtain ⟨taken, torn, hnext, _, _⟩ := broadcast_spread line h
    refine ⟨_, hnext, grownBy_spread ?_ ?_⟩
    · exact h.length_eq ▸ ShardSet.reached_le line s.1.shards s.2
    · rwa [← h.length_eq]
  next hc =>
    have hl : line ≠ [] := by
      rintro rfl
      simp at hc
    exact ⟨contents, h, grownBy_self hl contents⟩

end ShardView

end ShardedLines
