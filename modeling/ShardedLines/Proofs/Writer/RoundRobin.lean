import Mathlib.Data.Int.CardIntervalMod
import ShardedLines.Proofs.Writer.InRange

/-!
Shards in turn.

A round-robin router keeps no count of its picks, but one number that stands for them up to the number
of shards (`Router.HasPicked`). Only calls that leave the choice to the router move it on, and they do
so before anything can fail. So whatever else happens on a run, its choices are the shards in turn
(`chosen_eq`), and any stretch of them has each shard as often as any other, up to one
(`count_turns`).
-/

namespace ShardedLines

/-! ## The router -/

namespace Router

variable {start shards picks : Nat} {router : Router}

/-- The router has picked so many of the shards in turn, starting at a given one. -/
def HasPicked (start shards picks : Nat) (router : Router) : Prop :=
  ∃ next, router = .startingAt next ∧ next % shards = (start + picks) % shards ∧
    (next = start ∨ next ≤ shards)

theorem hasPicked_startingAt (start shards : Nat) : HasPicked start shards 0 (.startingAt start) :=
  ⟨start, rfl, rfl, .inl rfl⟩

theorem HasPicked.pick_eq (h : HasPicked start shards picks router) :
    router.pick shards =
      ((start + picks) % shards, .startingAt ((start + picks) % shards + 1)) := by
  obtain ⟨next, rfl, hnext, -⟩ := h
  rw [pick_startingAt, hnext]

theorem HasPicked.pick (h : HasPicked start shards picks router) (hpos : 0 < shards) :
    HasPicked start shards (picks + 1) (router.pick shards).2 := by
  have hlt : (start + picks) % shards < shards := Nat.mod_lt _ hpos
  rw [h.pick_eq]
  refine ⟨_, rfl, ?_, .inr hlt⟩
  rw [Nat.mod_add_mod, Nat.add_assoc]

/-- In machine words, neither the number that is kept nor the next one is too large. -/
theorem HasPicked.fits (h : HasPicked start shards picks router) (hpos : 0 < shards)
    (hstart : start < 2 ^ 64) (hshards : shards < 2 ^ 64) :
    ∃ next, router = .startingAt next ∧ next < 2 ^ 64 ∧ next % shards + 1 < 2 ^ 64 := by
  obtain ⟨next, hrouter, -, hnext⟩ := h
  have hlt : next % shards < shards := Nat.mod_lt _ hpos
  refine ⟨next, hrouter, ?_, ?_⟩
  · omega
  · omega

end Router

/-! ## Counting -/

/-- The shards in turn, from the pick of a number on. -/
def turns (start shards first picks : Nat) : List Nat :=
  (List.range' first picks).map fun pick => (start + pick) % shards

theorem turns_succ (start shards first picks : Nat) :
    turns start shards first (picks + 1) =
      (start + first) % shards :: turns start shards (first + 1) picks := by
  rw [turns, List.range'_succ, List.map_cons, turns]

theorem turns_of_append {start shards first picks : Nat} {earlier window later : List Nat}
    (h : turns start shards first picks = earlier ++ window ++ later) :
    window = turns start shards (first + earlier.length) window.length := by
  obtain ⟨front, _, hfront, hwindow, -⟩ := List.map_eq_append_iff.mp h
  obtain ⟨before, stretch, rfl, rfl, rfl⟩ := List.map_eq_append_iff.mp hwindow
  obtain ⟨size, _, hsize, -⟩ := List.range'_eq_append_iff.mp hfront
  obtain ⟨skipped, hskipped, rfl, rfl⟩ := List.range'_eq_append_iff.mp hsize.symm
  simp [turns]

theorem count_turns_add {shard shards : Nat} (hlt : shard < shards) (start first picks : Nat) :
    (turns start shards first picks).count shard +
        Nat.count (· ≡ shard [MOD shards]) (start + first) =
      Nat.count (· ≡ shard [MOD shards]) (start + first + picks) := by
  induction picks with
  | zero => simp [turns]
  | succ picks ih =>
    have hmod : start + first + picks ≡ shard [MOD shards] ↔
        (start + (first + picks)) % shards = shard := by
      rw [Nat.ModEq, Nat.mod_eq_of_lt hlt, Nat.add_assoc]
    rw [turns, List.range'_1_concat, List.map_append, List.count_append, ← Nat.add_assoc,
      Nat.count_succ, ← ih, turns]
    simp only [hmod, List.map_singleton, List.count_singleton, beq_iff_eq]
    omega

/-- Among some picks in turn each shard comes as often as any other, up to one. -/
theorem count_turns {shard shards : Nat} (hlt : shard < shards) (start first picks : Nat) :
    (turns start shards first picks).count shard = picks / shards ∨
      (turns start shards first picks).count shard = (picks + shards - 1) / shards := by
  have hpos : 0 < shards := Nat.zero_lt_of_lt hlt
  have hcount := count_turns_add hlt start first picks
  rw [Nat.count_modEq_card _ hpos, Nat.count_modEq_card _ hpos, Nat.mod_eq_of_lt hlt] at hcount
  have hdiv : (start + first + picks) / shards = (start + first) / shards + picks / shards +
      if shards ≤ (start + first) % shards + picks % shards then 1 else 0 := Nat.add_div hpos
  have hmod : (start + first + picks) % shards =
      if shards ≤ (start + first) % shards + picks % shards then
        (start + first) % shards + picks % shards - shards
      else (start + first) % shards + picks % shards := Nat.add_mod_eq_ite
  have hceil : (picks + shards - 1) / shards =
      picks / shards + if picks % shards = 0 then 0 else 1 := by
    have hlast : shards - 1 < shards := by omega
    rw [Nat.add_sub_assoc hpos, Nat.add_div hpos, Nat.div_eq_of_lt hlast, Nat.mod_eq_of_lt hlast]
    split_ifs <;> omega
  have hfirst : (start + first) % shards < shards := Nat.mod_lt _ hpos
  have hpicks : picks % shards < shards := Nat.mod_lt _ hpos
  rw [hdiv, hmod] at hcount
  rw [hceil]
  -- what is left over of the picks brings the shard at most one more turn
  by_cases hcarry : shards ≤ (start + first) % shards + picks % shards
  · rw [if_pos hcarry, if_pos hcarry] at hcount
    split_ifs at hcount ⊢ <;> omega
  · rw [if_neg hcarry, if_neg hcarry] at hcount
    split_ifs at hcount ⊢ <;> omega

/-! ## Runs -/

section Steps

variable {α κ : Type}

/-- The step is a call that leaves the shard to the router. -/
def ShardStep.isAdd : ShardStep α κ → Bool
  | .call (.add _) => true
  | _ => false

/-- How many of some steps leave the shard to the router. -/
def ShardStep.adds (steps : List (ShardStep α κ)) : Nat :=
  steps.countP isAdd

end Steps

namespace ShardingWriter

open ShardStep (adds)

variable {α κ : Type} [ShardingChannel κ] {start shards picks : Nat}

/-- The shards that the router chooses on a run. -/
def chosen (writer : ShardingWriter α) (s : κ × World) : List (ShardStep α κ) → List Nat
  | [] => []
  | .meanwhile change :: rest => chosen writer (change s) rest
  | .call (.add record) :: rest =>
    match writer.add record s with
    | (_, next, t) =>
      (writer.router.pick (ShardingChannel.shards s.1)).1 :: chosen next t rest
  | .call (.addToShard shard record) :: rest =>
    match writer.addToShard shard record s with
    | (_, next, t) => chosen next t rest

/-- The router has picked so many of the shards in turn, and the channel still has all of them. -/
structure Rotates (start shards picks : Nat) (s : ShardingWriter α × κ × World) : Prop where
  picked : s.1.router.HasPicked start shards picks
  shards_eq : ShardingChannel.shards s.2.1 = shards

theorem router_addToShard (writer : ShardingWriter α) (shard : Nat) (record : α) (s : κ × World) :
    (writer.addToShard shard record s).2.1.router = writer.router := by
  by_cases hlt : shard < ShardingChannel.shards s.1
  · rw [writer.addToShard_eq record hlt]
  · rw [writer.addToShard_of_le rfl (Nat.le_of_not_lt hlt)]

namespace Rotates

variable {writer : ShardingWriter α} {s : κ × World}

/-- The next record that is left to the router goes to the next shard in turn. -/
theorem add_eq (h : Rotates start shards picks (writer, s)) (hpos : 0 < shards) (record : α) :
    writer.add record s =
      { writer with router := .startingAt ((start + picks) % shards + 1) }.addToShard
        ((start + picks) % shards) record s := by
  have hcall := writer.call_eq (.add record) h.shards_eq
  rw [ShardCall.target, if_neg (Nat.ne_of_gt hpos), h.picked.pick_eq] at hcall
  exact hcall

theorem add (h : Rotates start shards picks (writer, s)) (hpos : 0 < shards)
    (channel : OfShards κ shards) (record : α) :
    Rotates start shards (picks + 1) (writer.add record s).2 where
  picked := by
    rw [h.add_eq hpos, router_addToShard]
    have hpicked := h.picked.pick hpos
    rwa [h.picked.pick_eq] at hpicked
  shards_eq := channel.kept.call writer (.add record) h.shards_eq

theorem addToShard (h : Rotates start shards picks (writer, s)) (channel : OfShards κ shards)
    (shard : Nat) (record : α) :
    Rotates start shards picks (writer.addToShard shard record s).2 where
  picked := by
    rw [router_addToShard]
    exact h.picked
  shards_eq := channel.kept.call writer (.addToShard shard record) h.shards_eq

/-- On a whole run the router is moved on by the calls that ask it, and by nothing else. -/
theorem follow (h : Rotates start shards picks (writer, s)) (hpos : 0 < shards)
    (channel : OfShards κ shards) {steps : List (ShardStep α κ)}
    (changes : ∀ change, .meanwhile change ∈ steps → ∀ t : κ × World,
      ShardingChannel.shards t.1 = shards → ShardingChannel.shards (change t).1 = shards) :
    Rotates start shards (picks + adds steps) (writer.follow s steps).2 ∧
      writer.chosen s steps = turns start shards picks (adds steps) := by
  induction steps generalizing writer s picks with
  | nil => exact ⟨h, rfl⟩
  | cons step rest ih =>
    have hrest : ∀ change, .meanwhile change ∈ rest → ∀ t : κ × World,
        ShardingChannel.shards t.1 = shards → ShardingChannel.shards (change t).1 = shards :=
      fun change hm => changes change (List.mem_cons_of_mem _ hm)
    match step with
    | .meanwhile change =>
      exact ih ⟨h.picked, changes change List.mem_cons_self s h.shards_eq⟩ hrest
    | .call (.addToShard shard record) => exact ih (h.addToShard channel shard record) hrest
    | .call (.add record) =>
      obtain ⟨hrotates, hchosen⟩ := ih (h.add hpos channel record) hrest
      have hadds : adds (.call (.add record) :: rest) = adds rest + 1 :=
        List.countP_cons_of_pos rfl
      constructor
      · rw [hadds, Nat.add_comm (adds rest), ← Nat.add_assoc]
        exact hrotates
      · have hfirst := h.shards_eq
        simp only at hfirst
        rw [hadds, turns_succ, ← hchosen, chosen, hfirst, h.picked.pick_eq]

end Rotates

end ShardingWriter

open ShardStep (adds)

/-- With a router that takes the shards in turn, the calls that ask it are directed to the shards in
turn, whatever other calls come between them and whatever fails. None of them is out of range, and the
router neither divides by zero nor leaves its machine word. So any so many calls in a row bring each
shard their share, rounded up or down. -/
theorem router_takes_turns {α κ : Type} [ShardingChannel κ] {shards : Nat} (hpos : 0 < shards)
    (channel : OfShards κ shards) {writer : ShardingWriter α} {start : Nat}
    (routed : writer.router = .startingAt start) {s : κ × World}
    (hs : ShardingChannel.shards s.1 = shards) {steps : List (ShardStep α κ)}
    (changes : ∀ change, .meanwhile change ∈ steps → ∀ t : κ × World,
      ShardingChannel.shards t.1 = shards → ShardingChannel.shards (change t).1 = shards) :
    writer.chosen s steps = (List.range (adds steps)).map (fun pick => (start + pick) % shards) ∧
    (∀ before record after, steps = before ++ .call (.add record) :: after →
      let now := (writer.follow s before).2
      let shard := (start + adds before) % shards
      shard < shards ∧
      now.1.add record now.2 =
        { now.1 with router := .startingAt (shard + 1) }.addToShard shard record now.2 ∧
      (∀ fault, (now.1.add record now.2).1 = .error fault → fault.IsOutOfRange →
        now.1.coder.bytes? record = .error fault) ∧
      (start < 2 ^ 64 → shards < 2 ^ 64 →
        ∃ next, now.1.router = .startingAt next ∧ next < 2 ^ 64 ∧ next % shards + 1 < 2 ^ 64)) ∧
    ∀ earlier window later, writer.chosen s steps = earlier ++ window ++ later →
      ∀ shard < shards, window.count shard = window.length / shards ∨
        window.count shard = (window.length + shards - 1) / shards := by
  have hstart : ShardingWriter.Rotates start shards 0 (writer, s) :=
    ⟨routed ▸ Router.hasPicked_startingAt start shards, hs⟩
  have hchosen : writer.chosen s steps = turns start shards 0 (adds steps) :=
    (hstart.follow hpos channel changes).2
  refine ⟨?_, ?_, ?_⟩
  · rw [hchosen, turns, List.range_eq_range']
  · rintro before record after rfl now shard
    have hnow : ShardingWriter.Rotates start shards (0 + adds before) now :=
      (hstart.follow hpos channel fun change hm =>
        changes change (List.mem_append_left _ hm)).1
    rw [Nat.zero_add] at hnow
    have hlt : shard < shards := Nat.mod_lt _ hpos
    have hadd := hnow.add_eq hpos record
    refine ⟨hlt, hadd, ?_, hnow.picked.fits hpos⟩
    intro fault herror hfault
    rw [hadd] at herror
    exact channel.bytes?_of_isOutOfRange { now.1 with router := .startingAt (shard + 1) }
      hnow.shards_eq hlt herror hfault
  · intro earlier window later h shard hlt
    rw [hchosen] at h
    have hcount := count_turns hlt start (0 + earlier.length) window.length
    rwa [← turns_of_append h] at hcount

/-- The router starts near the end of its machine word. On memory the header fails under the first
call, and calls for shards of their own come between the others; the files are all closed. -/
theorem router_takes_turns_from_large_start :
    let sink : TextSink String Empty Empty := .create "out" true (some "h") none .text
    let writer := sink.shardingWriter (.startingAt (2 ^ 64 - 2))
    let three : MemoryChannel × World := (.sharded 3, ⟨Disk.fresh, []⟩)
    let broken : ShardStep String MemoryChannel :=
      .meanwhile fun (channel, world) => (channel.failWrites .storageFull "full", world)
    let mended : ShardStep String MemoryChannel :=
      .meanwhile fun (channel, world) => (channel.clearWriteFailure, world)
    let before : List (ShardStep String MemoryChannel) := [broken, .call (.add "a"), mended,
      .call (.addToShard 7 "b"), .call (.add "c"), .call (.addToShard 1 "d")]
    let steps := before ++ [.call (.add "e"), .call (.add "f")]
    let files : ShardSet FileChannel × World :=
      (⟨[⟨"a", none⟩, ⟨"b", none⟩], true⟩, ⟨Disk.fresh, []⟩)
    let calls : List (ShardStep String (ShardSet FileChannel)) :=
      [.call (.add "a"), .call (.add "b"), .call (.add "c")]
    writer.chosen three steps = [2, 0, 1, 2] ∧
    (∀ now, (writer.follow three before).2 = now →
      now.1.add "e" now.2 = { now.1 with router := .startingAt 2 }.addToShard 1 "e" now.2) ∧
    writer.chosen files calls = [0, 1, 0] := by
  intro sink writer three broken mended before steps files calls
  have changes : ∀ change, .meanwhile change ∈ steps → ∀ t : MemoryChannel × World,
      ShardingChannel.shards t.1 = 3 → ShardingChannel.shards (change t).1 = 3 := by
    intro change hm t ht
    simp only [steps, before, broken, mended, List.cons_append, List.nil_append, List.mem_cons,
      reduceCtorEq, ShardStep.meanwhile.injEq, List.not_mem_nil, or_false, false_or] at hm
    rcases hm with rfl | rfl
    · exact ht
    · exact ht
  have routed : writer.router = .startingAt (2 ^ 64 - 2) := rfl
  have hthree : ShardingChannel.shards three.1 = 3 := rfl
  obtain ⟨hchosen, hadds, -⟩ :=
    router_takes_turns (by decide) (MemoryChannel.ofShards 3) routed hthree changes
  have hturns : (List.range (ShardStep.adds steps)).map (fun pick => (2 ^ 64 - 2 + pick) % 3) =
      [2, 0, 1, 2] := by decide +kernel
  have hshard : (2 ^ 64 - 2 + ShardStep.adds before) % 3 = 1 := by decide +kernel
  obtain ⟨-, hdirected, -⟩ := hadds before "e" [.call (.add "f")] rfl
  rw [hshard] at hdirected
  have hfiles : ShardingChannel.shards files.1 = 2 := rfl
  have fixed : ∀ change, .meanwhile change ∈ calls → ∀ t : ShardSet FileChannel × World,
      ShardingChannel.shards t.1 = 2 → ShardingChannel.shards (change t).1 = 2 := by
    simp [calls]
  have halternate : (List.range (ShardStep.adds calls)).map
      (fun pick => (2 ^ 64 - 2 + pick) % 2) = [0, 1, 0] := by decide +kernel
  refine ⟨hchosen.trans hturns, ?_, ?_⟩
  · rintro now rfl
    exact hdirected
  · have hfollow := router_takes_turns (by decide) (FileChannel.ofShards 2) routed hfiles fixed
    exact hfollow.1.trans halternate

end ShardedLines
