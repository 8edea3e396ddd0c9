import ShardedLines.Proofs.Channel.BroadcastEnds
import ShardedLines.Proofs.Writer.LineWrites
import ShardedLines.Proofs.Writer.RecordParts

/-!
What came to each shard.

Writes may fail at any byte of any line. Each line then comes to each shard in some part, which is
whole, empty, or torn off in between. A header that is tried is not tried again, whatever came of
it, so in every run the bytes of a shard are at most one part of the header, a part of the line of
each record, and at most one part of the footer (`FramedOnce`).
-/

namespace ShardedLines

/-! ## Parts for all shards -/

/-- Adds a part to the contents of each shard. -/
def addParts (parts : Nat → Bytes) (contents : List Bytes) : List Bytes :=
  contents.mapIdx fun shard old => old ++ parts shard

theorem addParts_addParts (first second : Nat → Bytes) (contents : List Bytes) :
    addParts second (addParts first contents) =
      addParts (fun shard => first shard ++ second shard) contents := by
  simp [addParts, Function.comp_def]

theorem addParts_cons (parts : Nat → Bytes) (first : Bytes) (rest : List Bytes) :
    addParts parts (first :: rest) =
      (first ++ parts 0) :: addParts (fun shard => parts (shard + 1)) rest :=
  List.mapIdx_cons

theorem addParts_const (line : Bytes) (contents : List Bytes) :
    addParts (fun _ => line) contents = contents.map (· ++ line) := by
  induction contents with
  | nil => rfl
  | cons first rest ih => rw [addParts_cons, ih, List.map_cons]

theorem addParts_nil (contents : List Bytes) : addParts (fun _ => []) contents = contents := by
  simp [addParts_const]

@[simp] theorem length_addParts (parts : Nat → Bytes) (contents : List Bytes) :
    (addParts parts contents).length = contents.length :=
  List.length_mapIdx

/-- Parts of a line that was written to one shard, or to all. -/
structure PartsOf (shard? : Option Nat) (line : Bytes) (parts : Nat → Bytes) : Prop where
  isPrefix : ∀ shard, parts shard <+: line
  elsewhere : ∀ target ∈ shard?, ∀ shard, shard ≠ target → parts shard = []

theorem PartsOf.nothing (shard? : Option Nat) (line : Bytes) : PartsOf shard? line fun _ => [] where
  isPrefix _ := List.nil_prefix
  elsewhere _ _ _ _ := rfl

/-- A header that is not due comes in no part. -/
theorem PartsOf.eq_nil_of_not_due {framing : Framing} {parts : Nat → Bytes}
    (h : PartsOf none framing.pendingHeader parts) (due : framing.dueHeader? = none) :
    parts = fun _ => [] := by
  rw [Framing.pendingHeader, due, Option.getD_none] at h
  exact funext fun shard => List.prefix_nil.mp (h.isPrefix shard)

/-- The parts of a line that came whole to some first shards, and in one part to the next. -/
def share (line taken : Bytes) (count shard : Nat) : Bytes :=
  if shard < count then line else if shard = count then taken else []

theorem spread_eq_addParts (line taken : Bytes) (count : Nat) (contents : List Bytes) :
    spread line taken count contents = addParts (share line taken count) contents := by
  induction contents generalizing count with
  | nil => cases count <;> rfl
  | cons first rest ih =>
    rw [addParts_cons]
    cases count with
    | zero =>
      have hbehind : (fun shard => share line taken 0 (shard + 1)) = fun _ => [] := by
        funext shard
        simp [share]
      rw [hbehind, addParts_nil]
      rfl
    | succ count =>
      have hbehind : (fun shard => share line taken (count + 1) (shard + 1)) =
          share line taken count := by
        funext shard
        simp [share]
      rw [hbehind, ← ih]
      rfl

/-- A part for one shard alone. -/
def partFor (target : Nat) (part : Bytes) (shard : Nat) : Bytes :=
  if shard = target then part else []

theorem partFor_nil (target : Nat) : partFor target [] = fun _ => [] := by
  funext shard
  exact ite_self []

theorem modify_eq_addParts (target : Nat) (part : Bytes) (contents : List Bytes) :
    contents.modify target (· ++ part) = addParts (partFor target part) contents := by
  refine List.ext_getElem (by simp [addParts]) fun i _ _ => ?_
  simp only [addParts, List.getElem_modify, List.getElem_mapIdx, partFor]
  by_cases h : target = i
  · simp [h]
  · simp [h, Ne.symm h]

theorem partsOf_share {line taken : Bytes} (h : taken <+: line) (count : Nat) :
    PartsOf none line (share line taken count) where
  isPrefix shard := by
    unfold share
    split
    · exact List.prefix_refl line
    · split
      · exact h
      · exact List.nil_prefix
  elsewhere _ ht := nomatch ht

theorem partsOf_partFor {line part : Bytes} (h : part <+: line) (target : Nat) :
    PartsOf (some target) line (partFor target part) where
  isPrefix shard := by
    unfold partFor
    split
    · exact h
    · exact List.nil_prefix
  elsewhere other ho shard hne := by
    obtain rfl := Option.mem_some.mp ho
    exact if_neg hne

/-! ## Lines -/

section Lines

variable {κ : Type} [ByteChannel κ] [Located κ] {view : ShardView κ} {s : ShardSet κ × World}
  {contents : List Bytes}

theorem exists_parts_writeAll (h : view.Holds s contents) (line : Bytes) :
    ∃ parts, PartsOf none line parts ∧
      view.Holds (ByteChannel.writeAll line s).2 (addParts parts contents) := by
  by_cases hl : line = []
  · have hnothing : ByteChannel.writeAll [] s = (.ok (), s) := writeFully_nil ..
    refine ⟨fun _ => [], .nothing none line, ?_⟩
    rw [hl, hnothing, addParts_nil]
    exact h
  · have ends := view.broadcastEnds h line
    rw [ends.writeAll hl]
    generalize ByteChannel.write line s = outcome at ends
    cases ends with
    | whole holds =>
      refine ⟨fun _ => line, ⟨fun _ => List.prefix_refl line, fun _ ht => nomatch ht⟩, ?_⟩
      rw [addParts_const]
      exact holds
    | @torn fault shard taken next later _ _ hp _ holds =>
      refine ⟨share line taken shard, partsOf_share hp shard, ?_⟩
      rw [← spread_eq_addParts]
      exact holds

/-- A line for one shard is tried there, and nothing comes to any other. -/
theorem exists_attempt_writeAllToShard (h : view.Holds s contents) (line : Bytes) {target : Nat}
    (ht : target < contents.length) :
    ∃ attempt : Attempt, attempt.line = line ∧ attempt.Sound ∧
      (ShardingChannel.writeAllToShard target line s).1 = attempt.answer ∧
      view.Holds (ShardingChannel.writeAllToShard target line s).2
        (addParts (partFor target attempt.taken) contents) := by
  have hlength := h.each.length_eq
  obtain ⟨⟨shards, isOpen⟩, world⟩ := s
  obtain rfl : isOpen = true := h.isOpen
  have ht : target < shards.length := Nat.lt_of_lt_of_eq ht hlength.symm
  have hget : shards[target]? = some shards[target] := List.getElem?_eq_getElem ht
  have hwrite := view.writeAll_spares line (h.each.valid _ (List.getElem_mem ht))
  obtain ⟨attempt, rfl, sound, answer, shows, spares⟩ := hwrite.exists_attempt
  refine ⟨attempt, rfl, sound, ?_, ?_⟩
  · rw [ShardSet.writeAllToShard_eq ht]
    exact answer
  · rw [ShardSet.writeAllToShard_eq ht, ← modify_eq_addParts]
    exact ⟨rfl, h.each.set hget shows spares⟩

theorem LineWrite.exists_parts_ofLine? (h : view.Holds s contents) (line? : Option Bytes) :
    ∃ parts, PartsOf none (line?.getD []) parts ∧
      view.Holds (afterAll s (ofLine? line? s).toList) (addParts parts contents) := by
  cases line? with
  | none => exact ⟨fun _ => [], .nothing none [], (addParts_nil contents).symm ▸ h⟩
  | some line => exact exists_parts_writeAll h line

/-! ## Calls -/

namespace Framing

/-- The line of a record, without bytes if the record has none. -/
def lineOf {α : Type} (framing : Framing) (coder : Coder α) (record : α) : Bytes :=
  (framing.recordLine coder record).toOption.getD []

theorem exists_text_of_recordLine {α : Type} {framing : Framing} {coder : Coder α} {record : α}
    {line : Bytes} (h : framing.recordLine coder record = .ok line) :
    ∃ text, coder.bytes? record = .ok text ∧ line = text ++ framing.terminator := by
  rw [recordLine] at h
  cases hc : coder.bytes? record with
  | error fault =>
    rw [hc] at h
    cases h
  | ok text =>
    rw [hc] at h
    exact ⟨text, rfl, (Except.ok.inj h).symm⟩

/-- A call brings the header to the shards, if it is due, and then the line of the record, each in
some part. -/
theorem exists_parts_addWrites {α : Type} (h : view.Holds s contents) (framing : Framing)
    (coder : Coder α) (record : α) :
    ∃ heads body, PartsOf none framing.pendingHeader heads ∧
      PartsOf none (framing.lineOf coder record) body ∧
      view.Holds (LineWrite.afterAll s (framing.addWrites none coder record s).writes)
        (addParts (fun shard => heads shard ++ body shard) contents) := by
  obtain ⟨heads, hheads, hold⟩ := LineWrite.exists_parts_ofLine? h framing.dueHeader?
  -- the header is out by now; a record without a line adds nothing to it
  rcases framing.addWrites_cases none coder record s with ⟨fault, hw, _⟩ | ⟨line, hline, hw⟩
  · refine ⟨heads, fun _ => [], hheads, .nothing _ _, ?_⟩
    rw [hw]
    simpa [AddWrites.writes] using hold
  · obtain ⟨body, hbody, hold⟩ := exists_parts_writeAll hold line
    have hlineOf : framing.lineOf coder record = line := by
      rw [lineOf, hline]
      rfl
    refine ⟨heads, body, hheads, hlineOf ▸ hbody, ?_⟩
    rw [addParts_addParts] at hold
    rw [hw, AddWrites.writes, LineWrite.afterAll_append]
    exact hold

/-- A call that is directed to one shard brings it a part of the record, by what it answers. -/
theorem exists_part_addWrites {α : Type} (h : view.Holds s contents) (framing : Framing)
    {target : Nat} (ht : target < contents.length) (coder : Coder α) (record : α) :
    let told := framing.addWrites (some target) coder record s
    ∃ heads part, PartsOf none framing.pendingHeader heads ∧
      RecordPart coder framing.terminator (record, told.answer) part ∧
      view.Holds (LineWrite.afterAll s told.writes)
        (addParts (fun shard => heads shard ++ partFor target part shard) contents) := by
  intro told
  obtain ⟨heads, hheads, hold⟩ := LineWrite.exists_parts_ofLine? h framing.dueHeader?
  rcases framing.addWrites_cases (some target) coder record s with ⟨fault, hw, _⟩ | ⟨line, hline, hw⟩
  · refine ⟨heads, [], hheads, ?_, ?_⟩
    · rw [show told = _ from hw]
      exact .nothing
    · rw [show told = _ from hw, partFor_nil]
      simpa [AddWrites.writes] using hold
  · obtain ⟨attempt, rfl, sound, answer, hold⟩ :=
      exists_attempt_writeAllToShard hold line ((length_addParts ..).symm ▸ ht)
    obtain ⟨text, encoded, htext⟩ := exists_text_of_recordLine hline
    refine ⟨heads, attempt.taken, hheads, ?_, ?_⟩
    · have hpart := RecordPart.of_attempt sound encoded htext
      rw [← answer] at hpart
      rw [show told = _ from hw]
      exact hpart
    · rw [addParts_addParts] at hold
      rw [show told = _ from hw, AddWrites.writes, LineWrite.afterAll_append]
      exact hold

/-- The lines at the end come to all shards, each in some part. -/
theorem exists_parts_finishWrites (h : view.Holds s contents) (framing : Framing) :
    ∃ heads feet, PartsOf none framing.pendingHeader heads ∧ PartsOf none framing.footerLine feet ∧
      view.Holds (LineWrite.afterAll s (framing.finishWrites s).writes)
        (addParts (fun shard => heads shard ++ feet shard) contents) := by
  obtain ⟨heads, hheads, hold⟩ := LineWrite.exists_parts_ofLine? h framing.dueHeader?
  rw [finishWrites_eq, FinishWrites.writes, LineWrite.afterAll_append]
  dsimp only
  split
  · obtain ⟨feet, hfeet, hold⟩ := LineWrite.exists_parts_ofLine? hold framing.footerLine?
    rw [addParts_addParts] at hold
    exact ⟨heads, feet, hheads, hfeet, hold⟩
  · refine ⟨heads, fun _ => [], hheads, .nothing none _, ?_⟩
    simpa [LineWrite.afterAll] using hold

end Framing

/-! ## Runs -/

/-- What some calls brought to the shards: nothing, if none of them tried the header, or else parts
of the header and of the lines of their records. -/
inductive Delivered (view : ShardView κ) (framing : Framing) (contents : List Bytes) :
    List (Nat → Bytes) → Framing → ShardSet κ × World → Prop where
  | waiting {bodies next t} : next.footerLine = framing.footerLine →
      next.dueHeader? = framing.dueHeader? → (∀ shard, bodies.flatMap (· shard) = []) →
      view.Holds t contents → Delivered view framing contents bodies next t
  | begun {heads bodies next t} : next.footerLine = framing.footerLine →
      next.dueHeader? = none → PartsOf none framing.pendingHeader heads →
      view.Holds t (addParts (fun shard => heads shard ++ bodies.flatMap (· shard)) contents) →
      Delivered view framing contents bodies next t

namespace Delivered

variable {framing next : Framing} {bodies : List (Nat → Bytes)} {t : ShardSet κ × World}

omit [Located κ] in
/-- A call that is refused brings nothing. -/
theorem refused (h : Delivered view framing contents bodies next t) :
    Delivered view framing contents ((fun _ => []) :: bodies) next t := by
  cases h with
  | waiting footer due nothing hold => exact .waiting footer due (by simpa using nothing) hold
  | begun footer due hheads hold => exact .begun footer due hheads (by simpa using hold)

omit [Located κ] in
/-- A call that tries the header brings its parts in front of what the later calls bring. -/
theorem called {middle : Framing} {heads body : Nat → Bytes}
    (h : Delivered view middle (addParts (fun shard => heads shard ++ body shard) contents) bodies
      next t)
    (footer : middle.footerLine = framing.footerLine) (due : middle.dueHeader? = none)
    (hheads : PartsOf none framing.pendingHeader heads) :
    Delivered view framing contents (body :: bodies) next t := by
  cases h with
  | waiting footer' due' nothing hold =>
    refine .begun (footer'.trans footer) (due'.trans due) hheads ?_
    simpa [nothing] using hold
  | @begun later _ _ _ footer' due' hlater hold =>
    -- the header that the later calls tried was not due any more
    obtain rfl := hlater.eq_nil_of_not_due due
    refine .begun (footer'.trans footer) due' hheads ?_
    rw [addParts_addParts] at hold
    simpa using hold

end Delivered

/-- What a run of a sharding writer brings to the shards: a part of a record comes to the one that the
call is directed to, by what the call answers. -/
theorem ShardingWriter.run_parts {α : Type} (writer : ShardingWriter α) (calls : List (ShardCall α))
    (h : view.Holds s contents) :
    let outcome := writer.run s calls
    let directed := ShardCall.directed contents.length writer.router calls
    outcome.1.length = directed.length ∧
    ∃ parts, List.Forall₂ (fun entry => RecordPart writer.coder writer.framing.terminator
        (entry.1.2, entry.2)) (directed.zip outcome.1) parts ∧
      Delivered view writer.framing contents
        (List.zipWith (fun entry => partFor entry.1.1) (directed.zip outcome.1) parts)
        outcome.2.1.framing outcome.2.2 := by
  induction calls generalizing writer s contents with
  | nil => exact ⟨rfl, [], .nil, .waiting rfl rfl (fun _ => rfl) h⟩
  | cons call rest ih =>
    intro outcome
    have hlength : ShardingChannel.shards s.1 = contents.length := h.each.length_eq
    rcases htarget : call.target contents.length writer.router with ⟨target, router⟩
    simp only [ShardCall.directed, htarget]
    -- a call for a shard that is not there is refused before anything is written
    by_cases hlt : target < contents.length
    · obtain ⟨heads, part, hheads, hpart, hold⟩ :=
        writer.framing.exists_part_addWrites h hlt writer.coder call.record
      let told := writer.framing.addWrites (some target) writer.coder call.record s
      have hcall : writer.call s call = (told.answer,
          { writer with framing := writer.framing.told told, router },
          LineWrite.afterAll s told.writes) := by
        have := writer.call_of_lt call (s := s) (by rwa [hlength, htarget])
        rwa [hlength, htarget] at this
      obtain ⟨hanswers, parts, hall, later⟩ :=
        ih { writer with framing := writer.framing.told told, router } hold
      rw [length_addParts] at hanswers hall later
      simp only [outcome, run, hcall]
      exact ⟨congrArg (· + 1) hanswers, part :: parts, .cons hpart hall, later.called rfl rfl hheads⟩
    · have hcall : writer.call s call = (.error (.shardOutOfRange target contents.length),
          { writer with router }, s) := by
        have := writer.call_of_le call (s := s) (by rwa [hlength, htarget, ← Nat.not_lt])
        rwa [hlength, htarget] at this
      obtain ⟨hanswers, parts, hall, later⟩ := ih { writer with router } h
      simp only [outcome, run, hcall]
      refine ⟨congrArg (· + 1) hanswers, [] :: parts, .cons .nothing hall, ?_⟩
      rw [List.zip_cons_cons, List.zipWith_cons_cons, partFor_nil]
      exact later.refused

theorem RecordPart.isPrefix_lineOf {α : Type} {coder : Coder α} {framing : Framing} {record : α}
    {answer : Except Fault Nat} {part : Bytes}
    (h : RecordPart coder framing.terminator (record, answer) part) :
    part <+: framing.lineOf coder record := by
  have hline : ∀ {text}, coder.bytes? record = .ok text →
      framing.lineOf coder record = text ++ framing.terminator := by
    intro text encoded
    rw [Framing.lineOf, Framing.recordLine_of_encoded encoded]
    rfl
  cases h with
  | whole encoded => exact hline encoded ▸ List.prefix_refl _
  | torn encoded hprefix _ => exact hline encoded ▸ hprefix
  | nothing => exact List.nil_prefix

theorem forall₂_zipWith {β γ δ : Type} {R : β → γ → Prop} {S : β → δ → Prop} {f : β → γ → δ}
    (hf : ∀ x y, R x y → S x (f x y)) {xs : List β} {ys : List γ} (h : List.Forall₂ R xs ys) :
    List.Forall₂ S xs (List.zipWith f xs ys) := by
  induction h with
  | nil => exact .nil
  | cons hxy _ ih => exact .cons (hf _ _ hxy) ih

theorem ShardingWriter.run_delivered {α : Type} (writer : ShardingWriter α)
    (calls : List (ShardCall α)) (h : view.Holds s contents) :
    let outcome := writer.run s calls
    ∃ bodies, List.Forall₂ (fun entry => PartsOf (some entry.1)
        (writer.framing.lineOf writer.coder entry.2))
        (ShardCall.directed contents.length writer.router calls) bodies ∧
      Delivered view writer.framing contents bodies outcome.2.1.framing outcome.2.2 := by
  intro outcome
  obtain ⟨hanswers, parts, hall, delivered⟩ := writer.run_parts calls h
  refine ⟨_, ?_, delivered⟩
  rw [← List.map_fst_zip (Nat.le_of_eq hanswers.symm), List.forall₂_map_left_iff,
    List.map_fst_zip (Nat.le_of_eq hanswers.symm)]
  exact forall₂_zipWith (fun entry _ hpart => partsOf_partFor hpart.isPrefix_lineOf entry.1.1) hall

theorem TextWriter.run_delivered {α : Type} (writer : TextWriter α) (records : List α)
    (h : view.Holds s contents) :
    let outcome := writer.run s (records.map .add)
    ∃ bodies, List.Forall₂ (fun record => PartsOf none (writer.framing.lineOf writer.coder record))
        records bodies ∧
      Delivered view writer.framing contents bodies outcome.2.1.framing outcome.2.2 := by
  induction records generalizing writer s contents with
  | nil => exact ⟨[], .nil, .waiting rfl rfl (fun _ => rfl) h⟩
  | cons record rest ih =>
    intro outcome
    obtain ⟨heads, body, hheads, hbody, hold⟩ :=
      writer.framing.exists_parts_addWrites h writer.coder record
    let told := writer.framing.addWrites none writer.coder record s
    obtain ⟨bodies, hall, later⟩ := ih { writer with framing := writer.framing.told told } hold
    refine ⟨body :: bodies, .cons hbody hall, ?_⟩
    simp only [outcome, List.map_cons, run, add_eq]
    exact later.called rfl rfl hheads

/-- The shards got one part of the header, the parts of the records' lines, and one part of the
footer. The header stands in front of the records, and comes with the first of them, or at the end
if there is none. -/
def FramedOnce (view : ShardView κ) (framing : Framing) (contents : List Bytes)
    (bodies : List (Nat → Bytes)) (ran handed : ShardSet κ × World) : Prop :=
  ∃ heads early feet, PartsOf none framing.headerLine heads ∧
    PartsOf none framing.footerLine feet ∧ (early = heads ∨ early = fun _ => []) ∧
    view.Holds ran (addParts (fun shard => early shard ++ bodies.flatMap (· shard)) contents) ∧
    view.Holds handed
      (addParts (fun shard => heads shard ++ bodies.flatMap (· shard) ++ feet shard) contents)

theorem Delivered.finish {framing next : Framing} {bodies : List (Nat → Bytes)}
    {t : ShardSet κ × World} (hnew : framing.headerTried = false)
    (h : Delivered view framing contents bodies next t) :
    FramedOnce view framing contents bodies t
      (LineWrite.afterAll t (next.finishWrites t).writes) := by
  have hpending : framing.pendingHeader = framing.headerLine := by
    rw [Framing.pendingHeader, Framing.dueHeader?, hnew]
    rfl
  cases h with
  | waiting footer due nothing hold =>
    obtain ⟨heads, feet, hheads, hfeet, handed⟩ := next.exists_parts_finishWrites hold
    rw [Framing.pendingHeader, due, ← Framing.pendingHeader, hpending] at hheads
    refine ⟨heads, fun _ => [], feet, hheads, footer ▸ hfeet, .inr rfl, ?_, ?_⟩
    · simpa [nothing, addParts_nil] using hold
    · simpa [nothing] using handed
  | @begun heads _ _ _ footer due hheads hold =>
    obtain ⟨later, feet, hlater, hfeet, handed⟩ := next.exists_parts_finishWrites hold
    obtain rfl := hlater.eq_nil_of_not_due due
    rw [addParts_addParts] at handed
    refine ⟨heads, heads, feet, hpending ▸ hheads, footer ▸ hfeet, .inl rfl, hold, ?_⟩
    simpa using handed

end Lines

/-- A write to all shards brings its bytes to every shard, or ends for good at one of them, so a full
write makes one such write. In every run, of either writer, a shard gets no more than one part of
the header, a part of the line of each record, and one part of the footer. -/
theorem broadcast_not_repeated {α κ μ τ : Type} [ByteChannel κ] [Located κ] {view : ShardView κ}
    {s : ShardSet κ × World} {contents : List Bytes} (holds : view.Holds s contents) :
    (∀ buffer, BroadcastEnds view s contents buffer (ByteChannel.write buffer s)) ∧
    (∀ buffer patience, buffer ≠ [] →
      writeFully (noting ByteChannel.write) patience buffer (s, []) =
        ((ByteChannel.write buffer s).1.map fun _ => (), (ByteChannel.write buffer s).2, [buffer])) ∧
    (∀ (sink : TextSink α μ τ) (router : Router) (calls : List (ShardCall α)),
      let outcome := (sink.shardingWriter router).run s calls
      ∃ bodies framed handed closed,
        List.Forall₂ (fun entry => PartsOf (some entry.1) (sink.framing.lineOf sink.coder entry.2))
          (ShardCall.directed contents.length router calls) bodies ∧
        FramedOnce view sink.framing contents bodies outcome.2.2 handed ∧
        ClosedFrom framed handed closed (outcome.2.1.close outcome.2.2)) ∧
    ∀ (sink : TextSink α μ τ) (records : List α),
      let outcome := sink.textWriter.run s (records.map .add)
      ∃ bodies framed handed closed,
        List.Forall₂ (fun record => PartsOf none (sink.framing.lineOf sink.coder record))
          records bodies ∧
        FramedOnce view sink.framing contents bodies outcome.2.2 handed ∧
        ClosedFrom framed handed closed (outcome.2.1.close outcome.2.2) := by
  refine ⟨view.broadcastEnds holds, fun buffer patience hb =>
    (view.broadcastEnds holds buffer).writeFully hb patience [], fun sink router calls => ?_,
    fun sink records => ?_⟩
  · intro outcome
    obtain ⟨bodies, hall, delivered⟩ := (sink.shardingWriter router).run_delivered calls holds
    exact ⟨bodies, _, _, _, hall, delivered.finish rfl,
      outcome.2.1.closedFrom (Framing.finish_eq_writes ..)⟩
  · intro outcome
    obtain ⟨bodies, hall, delivered⟩ := sink.textWriter.run_delivered records holds
    exact ⟨bodies, _, _, _, hall, delivered.finish rfl,
      outcome.2.1.closedFrom (Framing.finish_eq_writes ..)⟩

/-- The second of three shards fails within the header, after an interruption at the first: the
header is not tried again, and the next record comes without it. Files end a write alike where one
is closed. -/
theorem broadcast_not_repeated_torn :
    let again := ScriptLine.fail (.reported .interrupted "again")
    let full := ScriptLine.fail (.system .storageFull)
    let scripted : ShardSet ScriptedChannel := ⟨[{ shards := [], script := [.take 1, again] },
      { shards := [], script := [.take 1, full] }, { shards := [] }], true⟩
    let files : ShardSet FileChannel := ⟨[⟨"a", some { location := ["a"] }⟩, ⟨"b", none⟩], true⟩
    let world : World := ⟨⟨[(["a"], .file [])], []⟩, []⟩
    let sink : TextSink String Empty Empty := .create "out" true (some "h") (some "f") .text
    let outcome :=
      (sink.shardingWriter .fromFirst).run (scripted, world) [.addToShard 2 "x", .addToShard 2 "y"]
    BroadcastEnds ScriptedChannel.faultyView (scripted, world) [[], [], []] (utf8 "h\n")
      (ByteChannel.write (utf8 "h\n") (scripted, world)) ∧
    outcome.1 = [.error (.system .storageFull), .ok 2] ∧
    outcome.2.2.1.shards.map ScriptedChannel.stream = [utf8 "h\n", utf8 "h", utf8 "y\n"] ∧
    (∃ bodies handed, FramedOnce ScriptedChannel.faultyView sink.framing [[], [], []] bodies
      outcome.2.2 handed) ∧
    BroadcastEnds FileChannel.faultyView (files, world) [[], []] (utf8 "h\n")
      (ByteChannel.write (utf8 "h\n") (files, world)) ∧
    (ByteChannel.write (utf8 "h\n") (files, world)).1 = .error .channelClosed := by
  intro again full scripted files world sink outcome
  have holds : ScriptedChannel.faultyView.Holds (scripted, world) [[], [], []] := by
    refine ⟨rfl, ?_, by simp [scripted, ScriptedChannel.faultyView], rfl⟩
    intro shard hs
    simp only [scripted, List.mem_cons, List.not_mem_nil, or_false] at hs
    rcases hs with rfl | rfl | rfl <;> rfl
  have holds' : FileChannel.faultyView.Holds (files, world) [[], []] := by
    refine ⟨rfl, List.forall_mem_cons.mpr ⟨?_, List.forall_mem_singleton.mpr ?_⟩, ?_, rfl⟩
    · intro handle hh
      cases hh
      exact .inl ⟨[], rfl, Nat.le_refl _⟩
    · intro handle hh
      cases hh
    · refine List.pairwise_pair.mpr fun handle _ other ho => ?_
      cases ho
  obtain ⟨ends, _, sharding, _⟩ := @broadcast_not_repeated String _ Empty Empty _ _ _ _ _ holds
  obtain ⟨ends', _⟩ := @broadcast_not_repeated String _ Empty Empty _ _ _ _ _ holds'
  obtain ⟨bodies, _, handed, _, _, framed, _⟩ :=
    sharding sink .fromFirst [.addToShard 2 "x", .addToShard 2 "y"]
  exact ⟨ends _, by cbv, by cbv, ⟨bodies, handed, framed⟩, ends' _, by cbv⟩

end ShardedLines
