import ShardedLines.Proofs.Json.Grammar
import ShardedLines.Proofs.Writer.RecordLines

/-!
Lines of integers.

Every integer has one decimal text (`isDecimal_iff`), and it is read as the integer again. Integers
of a type are words of so many bits, signed or not; what is written of them is read back line by line
(`integers_read_back`).
-/

namespace ShardedLines

/-! ## Decimal texts -/

/-- The text writes an integer: a minus sign where it is negative, and then its digits, without zeros
in front of others. -/
structure IsDecimal (n : Int) (text : String) : Prop where
  digits : ∃ digits, text.toList = Json.minusText (decide (n < 0)) ++ digits ∧
    Json.IsWhole digits ∧ Numeral.natValue digits = n.natAbs
  read : text.toInt? = some n

theorem isDecimal_intText (n : Int) : IsDecimal n (String.ofList (Json.intText n)) where
  digits := ⟨Json.natText n.natAbs, by rw [String.toList_ofList, Json.intText_eq],
    (Json.numeralText_natText n.natAbs).whole, Json.natValue_toDigits n.natAbs⟩
  read := by
    have hrepr : String.ofList (Json.intText n) = n.repr := by
      cases n with
      | ofNat n => rfl
      | negSucc n => exact (@String.ofList_append ['-'] _).trans rfl
    rw [hrepr, Int.toInt?_repr]

/-- An integer has no other decimal text. -/
theorem isDecimal_iff {n : Int} {text : String} :
    IsDecimal n text ↔ text = String.ofList (Json.intText n) := by
  constructor
  · intro h
    obtain ⟨digits, htext, hwhole, hvalue⟩ := h.digits
    rw [← @String.ofList_toList text, htext, hwhole.eq_toDigits, hvalue, Json.intText_eq]
    rfl
  · rintro rfl
    exact isDecimal_intText n

theorem IsDecimal.ne_empty {n : Int} {text : String} (h : IsDecimal n text) : text ≠ "" := by
  rintro rfl
  obtain ⟨digits, htext, hwhole, -⟩ := h.digits
  exact hwhole.1.1 (List.append_eq_nil_iff.mp htext.symm).2

/-- A decimal text is made of digits and a minus sign. -/
theorem IsDecimal.digit_or_minus {n : Int} {text : String} (h : IsDecimal n text) {c : Char}
    (hc : c ∈ text.toList) : c.isDigit ∨ c = '-' := by
  obtain ⟨digits, htext, hwhole, -⟩ := h.digits
  rw [htext] at hc
  rcases List.mem_append.mp hc with hc | hc
  · unfold Json.minusText at hc
    split at hc
    · exact .inr (List.mem_singleton.mp hc)
    · cases hc
  · exact .inl (hwhole.1.2 c hc)

theorem IsDecimal.fitsLine {n : Int} {text : String} (h : IsDecimal n text) : FitsLine text := by
  constructor
  · intro hm
    have hc := h.digit_or_minus hm
    revert hc
    decide
  · intro hl
    have hc := h.digit_or_minus (List.mem_of_getLast? hl)
    revert hc
    decide

/-! ## Words -/

/-- The word that a decimal text stands for, if the integer is one of the type. -/
def readWord? (signed : Bool) (bits : Nat) (text : String) : Option (BitVec bits) :=
  text.toInt?.bind fun n =>
    let word := BitVec.ofInt bits n
    if wordValue signed word = n then some word else none

section Words

variable {signed : Bool} {bits : Nat}

theorem ofInt_wordValue (word : BitVec bits) : BitVec.ofInt bits (wordValue signed word) = word := by
  unfold wordValue
  split
  · exact BitVec.ofInt_toInt
  · rw [BitVec.ofInt_natCast, BitVec.ofNat_toNat, BitVec.setWidth_eq]

/-- The text of a word. -/
def wordText (signed : Bool) (word : BitVec bits) : String :=
  String.ofList (Json.intText (wordValue signed word))

theorem isDecimal_wordText (word : BitVec bits) :
    IsDecimal (wordValue signed word) (wordText signed word) :=
  isDecimal_intText _

theorem readWord?_wordText (word : BitVec bits) :
    readWord? signed bits (wordText signed word) = some word := by
  rw [readWord?, (isDecimal_wordText word).read, Option.bind_some, ofInt_wordValue]
  exact if_pos rfl

theorem encode_word (word : BitVec bits) (buffer : Bytes) :
    (Coder.word signed bits).encode word buffer =
      (.ok (), buffer ++ utf8 (wordText signed word)) := rfl

theorem bytes?_word (word : BitVec bits) :
    (Coder.word signed bits).bytes? word = .ok (utf8 (wordText signed word)) := rfl

theorem Coder.staysOnLine_word : (Coder.word signed bits).StaysOnLine := by
  rintro word _ ⟨⟩
  exact ((fitsLine_iff _).mp (isDecimal_wordText word).fitsLine).1

/-- Where all calls are accepted, the words are read off the lines again. -/
theorem OnLines.exists_readBack {calls : List (BitVec bits × Except Fault Nat)} {texts : List Bytes}
    {body : Bytes} (h : OnLines (Coder.word signed bits) calls texts body)
    (accepted : ∀ call ∈ calls, call.2.isOk) :
    ∃ lines, readLines? body = some lines ∧
      lines.map (readWord? signed bits) = (calls.map Prod.fst).map some := by
  have htexts : texts = ((calls.map Prod.fst).map (wordText signed)).map utf8 := by
    have hall := h.accepted
    rw [List.filter_eq_self.mpr accepted] at hall
    clear h accepted
    induction hall with
    | nil => rfl
    | cons hcall _ ih =>
      rw [bytes?_word] at hcall
      rw [ih, ← Except.ok.inj hcall.1]
      rfl
  obtain ⟨lines, hlines, hiff⟩ := readLines?_written ((calls.map Prod.fst).map (wordText signed))
  have hfits : ∀ text ∈ (calls.map Prod.fst).map (wordText signed), FitsLine text := by
    rw [List.forall_mem_map]
    exact fun word _ => (isDecimal_wordText word).fitsLine
  rw [← htexts, ← h.unbroken fun call hc _ => accepted call hc] at hlines
  refine ⟨lines, hlines, ?_⟩
  rw [hiff.mpr hfits, List.map_map]
  exact List.map_congr_left fun word _ => readWord?_wordText word

end Words

/-! ## Runs -/

/-- On a channel that only delays what is written, every record is accepted. -/
theorem TextWriter.isOk_of_steady {α κ : Type} [ByteChannel κ] {view : StreamView κ} {copies : Nat}
    (steady : view.Steady) (width : view.HasWidth copies) (writer : TextWriter α)
    {encode : α → Bytes} (encodes : ∀ record, writer.coder.bytes? record = .ok (encode record))
    {steps : List (TextStep α κ)} (harmless : TextStep.Harmless view steps) {s : κ × World}
    (valid : view.valid s) : ∀ answer ∈ (writer.run s steps).1, answer.isOk := by
  obtain ⟨t, hrun, -⟩ := writer.run_of_steady steady width (fun record _ => encodes record) harmless
    (StreamView.shows_stream valid)
  rw [hrun, List.forall_mem_map]
  exact fun _ _ => rfl

theorem ShardingWriter.isOk_of_steady {α κ : Type} [ByteChannel κ] [Located κ] {view : ShardView κ}
    (steady : view.Steady) (writer : ShardingWriter α) {encode : α → Bytes}
    (encodes : ∀ record, writer.coder.bytes? record = .ok (encode record)) {s : ShardSet κ × World}
    {contents : List Bytes} (holds : view.Holds s contents) (calls : List (ShardCall α)) {shard : Nat}
    (hlt : shard < contents.length) :
    ∀ call ∈ answersAt shard ((ShardCall.directed contents.length writer.router calls).zip
      (writer.run s calls).1), call.2.isOk := by
  obtain ⟨next, t, hrun, -⟩ := writer.run_of_reliable
    (ShardView.reliableShards steady contents.length) (fun call _ => encodes call.record)
    ⟨holds, rfl⟩
  rw [hrun, answersAt_map, List.forall_mem_map]
  intro entry hentry
  obtain rfl : entry.1 = shard := by simpa using (List.mem_filter.mp hentry).2
  simp only [if_pos hlt]
  rfl

/-- An integer of a type is written as its one decimal text behind what stands in the buffer, and
distinct ones are written differently. Where they are accepted and nothing is written around them,
the lines of the stream, or of a shard, are read as the integers that were written there. On channels
that only delay what is written all are accepted. -/
theorem integers_read_back (signed : Bool) (bits : Nat) :
    (∀ (word : BitVec bits) (buffer : Bytes), ∃ text,
      (Coder.word signed bits).encode word buffer = (.ok (), buffer ++ utf8 text) ∧
      (∀ other, IsDecimal (wordValue signed word) other ↔ other = text) ∧
      readWord? signed bits text = some word ∧ text ≠ "" ∧ '\n' ∉ text.toList) ∧
    Function.Injective (Coder.word signed bits).bytes? ∧
    (∀ {κ μ τ : Type} [ByteChannel κ] {view : StreamView κ} {copies : Nat}
      {sink : TextSink (BitVec bits) μ τ} {steps : List (TextStep (BitVec bits) κ)} {s : κ × World},
      view.HasWidth copies → sink.coder = .word signed bits → sink.trailingNewlines = true →
      sink.header? = none → sink.footer? = none → TextStep.Harmless view steps → view.valid s →
      let outcome := sink.textWriter.run s steps
      ∃ brought framed handed closed,
        view.stream handed = view.stream s ++ brought ∧
        ClosedFrom framed handed closed (outcome.2.1.close outcome.2.2) ∧
        (view.Steady → ∀ answer ∈ outcome.1, answer.isOk) ∧
        ((∀ answer ∈ outcome.1, answer.isOk) → ∃ lines, readLines? brought = some lines ∧
          lines.map (readWord? signed bits) = (TextStep.records steps).map some)) ∧
    ∀ {κ μ τ : Type} [ByteChannel κ] [Located κ] {view : ShardView κ}
      {sink : TextSink (BitVec bits) μ τ} {s : ShardSet κ × World} {contents : List Bytes}
      (router : Router) (calls : List (ShardCall (BitVec bits))),
      sink.coder = .word signed bits → sink.trailingNewlines = true → sink.header? = none →
      sink.footer? = none → view.Holds s contents →
      let outcome := (sink.shardingWriter router).run s calls
      let directed := ShardCall.directed contents.length router calls
      ∃ brought framed handed closed,
        view.Holds handed (addParts brought contents) ∧
        ClosedFrom framed handed closed (outcome.2.1.close outcome.2.2) ∧
        ∀ shard < contents.length,
          (view.Steady → ∀ call ∈ answersAt shard (directed.zip outcome.1), call.2.isOk) ∧
          ((∀ call ∈ answersAt shard (directed.zip outcome.1), call.2.isOk) →
            ∃ lines, readLines? (brought shard) = some lines ∧
              lines.map (readWord? signed bits) =
                ((directed.filter (·.1 = shard)).map Prod.snd).map some) := by
  refine ⟨fun word buffer => ?_, fun first second h => ?_, ?_, ?_⟩
  · have hdecimal : IsDecimal (wordValue signed word) (wordText signed word) := isDecimal_wordText word
    exact ⟨_, encode_word word buffer, fun _ => isDecimal_iff, readWord?_wordText word,
      hdecimal.ne_empty, hdecimal.fitsLine.1⟩
  · rw [bytes?_word, bytes?_word] at h
    have htext := utf8_injective (Except.ok.inj h)
    have hread := congrArg (readWord? signed bits) htext
    rw [readWord?_wordText, readWord?_wordText] at hread
    exact Option.some.inj hread
  · intro κ μ τ _ view copies sink steps s width coded terminated header footer harmless valid outcome
    obtain ⟨hlength, brought, framed, handed, closed, hstream, hlines, -, hclosed⟩ :=
      TextSink.exists_framedLines width (coded ▸ Coder.staysOnLine_word) terminated harmless valid
    refine ⟨brought, framed, handed, closed, hstream, hclosed, fun steady => ?_, fun accepted => ?_⟩
    · exact sink.textWriter.isOk_of_steady steady width
        (fun word => (congrArg (Coder.bytes? · word) coded).trans (bytes?_word word)) harmless valid
    · obtain ⟨texts, onLines⟩ := hlines.exists_onLines header footer
      rw [coded] at onLines
      obtain ⟨lines, hread, hwords⟩ := onLines.exists_readBack fun call hc =>
        accepted call.2 (List.of_mem_zip hc).2
      rw [List.map_fst_zip (Nat.le_of_eq hlength.symm)] at hwords
      exact ⟨lines, hread, hwords⟩
  · intro κ μ τ _ _ view sink s contents router calls coded terminated header footer holds outcome
      directed
    obtain ⟨hlength, brought, framed, handed, closed, hhold, hlines, hclosed⟩ :=
      TextSink.exists_framedLines_at (coded ▸ Coder.staysOnLine_word) terminated holds router calls
    refine ⟨brought, framed, handed, closed, hhold, hclosed, fun shard hlt =>
      ⟨fun steady => ?_, fun accepted => ?_⟩⟩
    · exact (sink.shardingWriter router).isOk_of_steady steady
        (fun word => (congrArg (Coder.bytes? · word) coded).trans (bytes?_word word)) holds calls hlt
    · obtain ⟨texts, onLines⟩ := (hlines shard).exists_onLines header footer
      rw [coded] at onLines
      obtain ⟨lines, hread, hwords⟩ := onLines.exists_readBack accepted
      rw [map_fst_answersAt hlength] at hwords
      exact ⟨lines, hread, hwords⟩

/-- The least and the greatest signed words of 128 bits, and zero between them, on a channel that is
slow and interrupted, and in turn on two shards. -/
theorem integers_read_back_of_extremes :
    let again := ScriptLine.fail (.reported .interrupted "again")
    let channel : ScriptedChannel := { shards := [], script := [.take 1, again] }
    let shards : ShardSet ScriptedChannel := ⟨[channel, { shards := [] }], true⟩
    let world : World := ⟨Disk.fresh, []⟩
    let sink : TextSink (BitVec 128) Empty Empty := .create "out" true none none (.word true 128)
    let words : List (BitVec 128) := [.intMin 128, 0, .intMax 128]
    let answers : List (Except Fault Nat) := [.ok 41, .ok 2, .ok 40]
    (sink.textWriter.run (channel, world) (words.map .add)).1 = answers ∧
    ((sink.shardingWriter .fromFirst).run (shards, world) (words.map .add)).1 = answers ∧
    (∃ brought handed lines, (ScriptedChannel.steadyView 1).stream handed = [] ++ brought ∧
      readLines? brought = some lines ∧ lines.map (readWord? true 128) = words.map some) ∧
    ∃ brought handed first second,
      ScriptedChannel.shardView.Holds handed (addParts brought [[], []]) ∧
      readLines? (brought 0) = some first ∧
      first.map (readWord? true 128) = [some (.intMin 128), some (.intMax 128)] ∧
      readLines? (brought 1) = some second ∧ second.map (readWord? true 128) = [some 0] := by
  intro again channel shards world sink words answers
  have delays : channel.Delays := by
    simp [ScriptedChannel.Delays, channel, again, ScriptLine.Progresses, Fault.isInterruption,
      Fault.kind]
  have valid : (ScriptedChannel.steadyView 1).valid (channel, world) := ⟨rfl, delays⟩
  have harmless : TextStep.Harmless (ScriptedChannel.steadyView 1) (words.map .add) := by
    intro change hc
    simp [words] at hc
  have holds : ScriptedChannel.shardView.Holds (shards, world) [[], []] := by
    refine ⟨rfl, ?_, by simp [shards, ScriptedChannel.shardView], rfl⟩
    intro shard hs
    simp only [shards, List.mem_cons, List.not_mem_nil, or_false] at hs
    rcases hs with rfl | rfl
    · exact valid
    · exact ⟨rfl, List.forall_mem_nil _⟩
  obtain ⟨-, -, text, sharded⟩ := integers_read_back true 128
  obtain ⟨brought, -, handed, -, hstream, -, hok, hread⟩ := @text _ _ _ _ _ _ sink _ _
    (ScriptedChannel.steadyView_hasWidth 1) rfl rfl rfl rfl harmless valid
  obtain ⟨lines, hlines, hwords⟩ := hread (hok (ScriptedChannel.steadyView_steady 1))
  obtain ⟨brought', -, handed', -, hhold, -, hshards⟩ := @sharded _ _ _ _ _ _ sink _ _
    .fromFirst (words.map .add) rfl rfl rfl rfl holds
  obtain ⟨hok, hread⟩ := hshards 0 (by decide)
  obtain ⟨first, hfirst, hleast⟩ := hread (hok (ScriptedChannel.steadyView_steady 1))
  obtain ⟨hok, hread⟩ := hshards 1 (by decide)
  obtain ⟨second, hsecond, hzero⟩ := hread (hok (ScriptedChannel.steadyView_steady 1))
  exact ⟨by cbv, by cbv, ⟨brought, handed, lines, hstream, hlines, hwords⟩, brought', handed', first,
    second, hhold, hfirst, hleast, hsecond, hzero⟩

end ShardedLines
