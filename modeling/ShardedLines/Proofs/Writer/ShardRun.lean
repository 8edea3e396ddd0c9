import ShardedLines.Proofs.Channel.File
import ShardedLines.Proofs.Writer.Closing

/-!
Runs of a sharding writer.

Every call is directed to a shard, by the caller or by the router (`ShardCall.directed`). On shards
that only delay what is written, each of them comes to hold the header, the lines of the calls that
were directed to it, in order, and the footer (`shards_of_run`). A call that is directed to no
shard there is answers so and does nothing.
-/

namespace ShardedLines

/-- A call of a sharding writer. -/
inductive ShardCall (α : Type) where
  | add (record : α)
  | addToShard (shard : Nat) (record : α)

namespace ShardCall

variable {α : Type}

def record : ShardCall α → α
  | add record => record
  | addToShard _ record => record

/-- The shard that a call is directed to, and the router after it. The router is not asked where
there is no shard. -/
def target (shards : Nat) (router : Router) : ShardCall α → Nat × Router
  | add _ => if shards = 0 then (0, router) else router.pick shards
  | addToShard shard _ => (shard, router)

/-- The records of a run with the shards that they are directed to, in order. -/
def directed (shards : Nat) : Router → List (ShardCall α) → List (Nat × α)
  | _, [] => []
  | router, call :: rest =>
    ((call.target shards router).1, call.record) ::
      directed shards (call.target shards router).2 rest

end ShardCall

namespace ShardingWriter

variable {α κ : Type} [ShardingChannel κ]

def call (writer : ShardingWriter α) (s : κ × World) :
    ShardCall α → Except Fault Nat × ShardingWriter α × κ × World
  | .add record => writer.add record s
  | .addToShard shard record => writer.addToShard shard record s

/-- Goes through the calls of a run, and collects the answers. -/
def run (writer : ShardingWriter α) (s : κ × World) :
    List (ShardCall α) → List (Except Fault Nat) × ShardingWriter α × κ × World
  | [] => ([], writer, s)
  | call :: rest =>
    match writer.call s call with
    | (answer, writer, s) =>
      match run writer s rest with
      | (answers, final) => (answer :: answers, final)

variable {shards : Nat} {s : κ × World}

theorem addToShard_of_le (writer : ShardingWriter α) {shard : Nat}
    (hs : ShardingChannel.shards s.1 = shards) (h : shards ≤ shard) (record : α) :
    writer.addToShard shard record s = (.error (.shardOutOfRange shard shards), writer, s) := by
  subst hs
  rw [addToShard, if_pos h]

/-- Every call writes to the shard that it is directed to. -/
theorem call_eq (writer : ShardingWriter α) (call : ShardCall α)
    (hs : ShardingChannel.shards s.1 = shards) :
    writer.call s call =
      { writer with router := (call.target shards writer.router).2 }.addToShard
        (call.target shards writer.router).1 call.record s := by
  subst hs
  cases call with
  | addToShard shard record => rfl
  | add record =>
    change writer.add record s = _
    by_cases h0 : ShardingChannel.shards s.1 = 0
    · -- without shards the router is not asked, and the first shard is out of range
      simp only [add, ShardCall.target, h0, beq_self_eq_true, if_true]
      exact (addToShard_of_le writer h0 (Nat.zero_le 0) record).symm
    · simp only [add, ShardCall.target, if_neg h0, beq_iff_eq]
      rfl

end ShardingWriter

/-- Every line is written, also to the shards; `place` says what it adds there. -/
structure ReliableShards {κ ρ : Type} [ShardingChannel κ] (holds : κ × World → ρ → Prop)
    (grow : ρ → Bytes → ρ) (place : ρ → Nat × Bytes → ρ) (shards copies : Nat) : Prop
    extends Reliable holds grow copies where
  shards_eq : ∀ {s a}, holds s a → ShardingChannel.shards s.1 = shards
  writeAllToShard : ∀ shard line {s a}, shard < shards → holds s a →
    ∃ t, ShardingChannel.writeAllToShard shard line s = (.ok (), t) ∧
      holds t (place a (shard, line))

namespace ShardingWriter

variable {α κ ρ : Type} [ShardingChannel κ] {holds : κ × World → ρ → Prop} {grow : ρ → Bytes → ρ}
  {place : ρ → Nat × Bytes → ρ} {shards copies : Nat}

theorem addToShard_of_reliable (reliable : ReliableShards holds grow place shards copies)
    (writer : ShardingWriter α) {shard : Nat} (hlt : shard < shards) {record : α} {bytes : Bytes}
    (encoded : writer.coder.bytes? record = .ok bytes) {s : κ × World} {a : ρ} (h : holds s a) :
    ∃ t, writer.addToShard shard record s =
        (.ok (bytes ++ writer.framing.terminator).length, { writer with
          framing := writer.framing.afterRecord copies (bytes ++ writer.framing.terminator) }, t) ∧
      holds t (place (grow a writer.framing.pendingHeader)
        (shard, bytes ++ writer.framing.terminator)) := by
  obtain ⟨t, ht, hold⟩ := Framing.ensureHeader_of_reliable reliable.toReliable writer.framing h
  obtain ⟨u, hu, hold⟩ :=
    reliable.writeAllToShard shard (bytes ++ writer.framing.terminator) hlt hold
  refine ⟨u, ?_, hold⟩
  have hl : (writer.framing.afterHeader copies).recordLine writer.coder record =
      .ok (bytes ++ writer.framing.terminator) := Framing.recordLine_of_encoded encoded _
  have hn : ¬ ShardingChannel.shards s.1 ≤ shard := by
    rw [reliable.shards_eq h]
    exact Nat.not_le_of_lt hlt
  rw [addToShard, if_neg hn, ht]
  simp only [hl, hu, Framing.afterRecord]

/-- The lines of those records that are directed to a shard that is there. -/
def placed (shards : Nat) (line : α → Bytes) (directed : List (Nat × α)) : List (Nat × Bytes) :=
  (directed.filter (·.1 < shards)).map fun (shard, record) => (shard, line record)

/-- What a run leaves where every line is written. -/
theorem run_of_reliable (reliable : ReliableShards holds grow place shards copies)
    (writer : ShardingWriter α) {encode : α → Bytes} {calls : List (ShardCall α)}
    (encodes : ∀ call ∈ calls, writer.coder.bytes? call.record = .ok (encode call.record))
    {s : κ × World} {a : ρ} (h : holds s a) :
    let line (record : α) := encode record ++ writer.framing.terminator
    let directed := ShardCall.directed shards writer.router calls
    let lines := placed shards line directed
    ∃ router t,
      writer.run s calls =
        (directed.map fun (shard, record) =>
            if shard < shards then .ok (line record).length
            else .error (.shardOutOfRange shard shards),
          { writer with
            framing := writer.framing.afterRecords copies (lines.map Prod.snd), router }, t) ∧
      holds t (lines.foldl place (if lines = [] then a else grow a writer.framing.pendingHeader)) := by
  induction calls generalizing writer s a with
  | nil => exact ⟨writer.router, s, rfl, h⟩
  | cons call rest ih =>
    intro line directed lines
    have hcall := writer.call_eq call (reliable.shards_eq h)
    rcases ht : call.target shards writer.router with ⟨shard, router⟩
    rw [ht] at hcall
    have hdirected : directed = (shard, call.record) :: ShardCall.directed shards router rest := by
      simp only [directed, ShardCall.directed, ht]
    have hrest : ∀ call ∈ rest, writer.coder.bytes? call.record = .ok (encode call.record) :=
      fun call hc => encodes call (List.mem_cons_of_mem _ hc)
    by_cases hlt : shard < shards
    · -- the header is out of the way from here on
      obtain ⟨t, hadd, hold⟩ := addToShard_of_reliable reliable { writer with router } hlt
        (encodes call List.mem_cons_self) h
      let next : ShardingWriter α :=
        { writer with framing := writer.framing.afterRecord copies (line call.record), router }
      obtain ⟨final, u, hrun, hold⟩ := ih next hrest hold
      have hlines : lines = (shard, line call.record) ::
          placed shards line (ShardCall.directed shards router rest) := by
        simp only [lines, placed, hdirected, List.filter_cons, hlt, decide_true, if_true,
          List.map_cons]
      refine ⟨final, u, ?_, ?_⟩
      · simp only [run, hcall, hadd]
        rw [hrun, hdirected, hlines]
        simp only [List.map_cons, if_pos hlt]
        rfl
      · rw [hlines]
        simpa [next, reliable.grow_nil] using hold
    · have hle : shards ≤ shard := Nat.le_of_not_lt hlt
      obtain ⟨final, u, hrun, hold⟩ := ih { writer with router } hrest h
      have hlines : lines = placed shards line (ShardCall.directed shards router rest) := by
        simp only [lines, placed, hdirected, List.filter_cons, hlt, decide_false,
          Bool.false_eq_true, if_false]
      refine ⟨final, u, ?_, ?_⟩
      · simp only [run, hcall, addToShard_of_le _ (reliable.shards_eq h) hle]
        rw [hrun, hdirected, hlines]
        simp only [List.map_cons, if_neg hlt]
        rfl
      · rw [hlines]
        exact hold

end ShardingWriter

/-! ## Sets of shards -/

/-- Adds a line to the contents of one shard. -/
def placeLine (contents : List Bytes) (line : Nat × Bytes) : List Bytes :=
  contents.modify line.1 (· ++ line.2)

/-- The bytes of those lines that are directed to a shard, in order. -/
def bytesTo (shard : Nat) (lines : List (Nat × Bytes)) : Bytes :=
  (lines.filter (·.1 = shard)).flatMap Prod.snd

/-- The bytes of all shards together. -/
def totalLength (contents : List Bytes) : Nat := (contents.map List.length).sum

theorem ShardView.reliableShards {κ : Type} [ByteChannel κ] [Located κ] {view : ShardView κ}
    (steady : view.Steady) (shards : Nat) :
    ReliableShards (fun s contents => view.Holds s contents ∧ contents.length = shards)
      (fun contents line => contents.map (· ++ line)) placeLine shards shards where
  grow_nil contents := by simp
  writeAll line _ _ h := by
    obtain ⟨t, ht, hold⟩ := writeAll_set steady line h.1
    exact ⟨t, ht, hold, by rw [List.length_map, h.2]⟩
  width h := h.1.each.length_eq.trans h.2
  shards_eq h := h.1.each.length_eq.trans h.2
  writeAllToShard shard line _ _ hlt h := by
    obtain ⟨t, ht, hold⟩ := writeAllToShard_set steady line h.1
      (Nat.lt_of_lt_of_eq hlt (h.1.each.length_eq.trans h.2).symm)
    exact ⟨t, ht, hold, by rw [placeLine, List.length_modify, h.2]⟩

theorem foldl_placeLine (lines : List (Nat × Bytes)) (contents : List Bytes) :
    lines.foldl placeLine contents =
      contents.mapIdx fun shard old => old ++ bytesTo shard lines := by
  induction lines generalizing contents with
  | nil =>
    refine List.ext_getElem (by simp) fun i _ _ => ?_
    simp [bytesTo]
  | cons line rest ih =>
    rw [List.foldl_cons, ih]
    refine List.ext_getElem (by simp [placeLine]) fun i _ _ => ?_
    simp only [placeLine, List.getElem_mapIdx, List.getElem_modify, bytesTo, List.filter_cons]
    by_cases h : line.1 = i
    · simp [h]
    · simp [h]

theorem totalLength_map_append (contents : List Bytes) (line : Bytes) :
    totalLength (contents.map (· ++ line)) =
      totalLength contents + line.length * contents.length := by
  induction contents with
  | nil => rfl
  | cons first rest ih =>
    simp only [totalLength, List.map_cons, List.sum_cons, List.length_append, List.length_cons,
      Nat.mul_succ] at ih ⊢
    omega

theorem totalLength_placeLine {contents : List Bytes} {line : Nat × Bytes}
    (h : line.1 < contents.length) :
    totalLength (placeLine contents line) = totalLength contents + line.2.length := by
  obtain ⟨shard, bytes⟩ := line
  induction contents generalizing shard with
  | nil => cases h
  | cons first rest ih =>
    cases shard with
    | zero =>
      simp [placeLine, totalLength]
      omega
    | succ shard =>
      have h := ih shard (Nat.lt_of_succ_lt_succ h)
      simp [placeLine, totalLength] at h ⊢
      omega

theorem totalLength_foldl {lines : List (Nat × Bytes)} {contents : List Bytes}
    (h : ∀ line ∈ lines, line.1 < contents.length) :
    totalLength (lines.foldl placeLine contents) =
      totalLength contents + (lines.map (·.2.length)).sum := by
  induction lines generalizing contents with
  | nil => rfl
  | cons line rest ih =>
    have hrest : ∀ other ∈ rest, other.1 < (placeLine contents line).length := by
      intro other ho
      rw [placeLine, List.length_modify]
      exact h other (List.mem_cons_of_mem _ ho)
    rw [List.foldl_cons, ih hrest, totalLength_placeLine (h line List.mem_cons_self),
      List.map_cons, List.sum_cons, Nat.add_assoc]

/-- The header comes with the first line, or at the end if there is none. -/
theorem foldl_placeLine_header (lines : List (Nat × Bytes)) (contents : List Bytes)
    (header : Bytes) :
    (lines.foldl placeLine (if lines = [] then contents else contents.map (· ++ header))).map
        (· ++ if lines = [] then header else []) =
      lines.foldl placeLine (contents.map (· ++ header)) := by
  cases lines with
  | nil => rfl
  | cons line rest => simp

/-- The contents of shards that header, lines and footer were added to. -/
def framed (header footer : Bytes) (lines : List (Nat × Bytes)) (contents : List Bytes) :
    List Bytes :=
  contents.mapIdx fun shard old => old ++ header ++ bytesTo shard lines ++ footer

theorem map_foldl_placeLine (header footer : Bytes) (lines : List (Nat × Bytes))
    (contents : List Bytes) :
    (lines.foldl placeLine (contents.map (· ++ header))).map (· ++ footer) =
      framed header footer lines contents := by
  rw [foldl_placeLine]
  refine List.ext_getElem (by simp [framed]) fun i _ _ => ?_
  simp only [framed, List.getElem_map, List.getElem_mapIdx]

theorem totalLength_framed (header footer : Bytes) {lines : List (Nat × Bytes)}
    {contents : List Bytes} (h : ∀ line ∈ lines, line.1 < contents.length) :
    totalLength (framed header footer lines contents) = totalLength contents +
      (header.length * contents.length + (lines.map (·.2.length)).sum +
        footer.length * contents.length) := by
  have hmem : ∀ line ∈ lines, line.1 < (contents.map (· ++ header)).length := by
    intro line hl
    rw [List.length_map]
    exact h line hl
  have hfold : (lines.foldl placeLine (contents.map (· ++ header))).length = contents.length := by
    rw [foldl_placeLine, List.length_mapIdx, List.length_map]
  rw [← map_foldl_placeLine, totalLength_map_append, totalLength_foldl hmem,
    totalLength_map_append, hfold]
  omega

namespace ShardingWriter

variable {α : Type} {shards : Nat} {line : α → Bytes} {directed : List (Nat × α)}

theorem lt_of_mem_placed {entry : Nat × Bytes} (h : entry ∈ placed shards line directed) :
    entry.1 < shards := by
  obtain ⟨⟨shard, record⟩, hm, rfl⟩ := List.mem_map.mp h
  exact of_decide_eq_true (List.mem_filter.mp hm).2

theorem length_placed : (placed shards line directed).length = directed.countP (·.1 < shards) := by
  rw [placed, List.length_map, List.countP_eq_length_filter]

/-- A shard that is there gets the lines of all records that are directed to it. -/
theorem bytesTo_placed {shard : Nat} (h : shard < shards) :
    bytesTo shard (placed shards line directed) =
      (directed.filter (·.1 = shard)).flatMap (line ·.2) := by
  rw [bytesTo, placed, List.filter_map, List.flatMap_map, List.filter_filter]
  congr 1
  refine List.filter_congr fun entry _ => ?_
  by_cases he : entry.1 = shard
  · simp [he, h]
  · simp [he]

end ShardingWriter

/-- When the set is handed over to be closed, each shard has received the framed lines of the records
that are directed to it, in order, and the bytes that the writer counts are those that came to all
shards together. A record that is directed to a shard that is not there is invalid input. -/
theorem shards_of_run {α κ μ τ : Type} [ByteChannel κ] [Located κ] {view : ShardView κ}
    (steady : view.Steady) (sink : TextSink α μ τ) (router : Router) (encode : α → Bytes)
    {calls : List (ShardCall α)}
    (encodes : ∀ call ∈ calls, sink.coder.bytes? call.record = .ok (encode call.record))
    {s : ShardSet κ × World} {contents : List Bytes} (holds : view.Holds s contents) :
    let shards := s.1.shards.length
    let line (record : α) := encode record ++ sink.framing.terminator
    let directed := ShardCall.directed shards router calls
    let final := contents.mapIdx fun shard old => old ++ sink.framing.headerLine ++
      (directed.filter (·.1 = shard)).flatMap (line ·.2) ++ sink.framing.footerLine
    ∃ writer t u closed,
      (sink.shardingWriter router).run s calls =
        (directed.map fun (shard, record) =>
          if shard < shards then .ok (line record).length
          else .error (.shardOutOfRange shard shards), writer, t) ∧
      writer.records = directed.countP (·.1 < shards) ∧
      view.Holds u final ∧
      ClosedFrom (.ok ()) u closed (writer.close t) ∧
      closed.records = writer.records ∧
      totalLength contents + closed.bytes = totalLength final := by
  intro shards line directed final
  have hlength : contents.length = shards := holds.each.length_eq.symm
  have reliable := ShardView.reliableShards steady shards
  let lines := ShardingWriter.placed shards line directed
  -- what the shards hold is followed as a fold over the lines, and read off by shard at the end
  obtain ⟨router', t, hrun, hold⟩ := ShardingWriter.run_of_reliable reliable
    (sink.shardingWriter router) encodes ⟨holds, hlength⟩
  let writer : ShardingWriter α :=
    ⟨sink.coder, sink.framing.afterRecords shards (lines.map Prod.snd), router'⟩
  obtain ⟨u, hu, hold⟩ := Framing.finish_of_reliable reliable.toReliable writer.framing hold
  have hcount : (lines.map Prod.snd).length = directed.countP (·.1 < shards) :=
    (List.length_map _).trans ShardingWriter.length_placed
  have hfinal : framed sink.framing.headerLine sink.framing.footerLine lines contents = final := by
    refine List.ext_getElem (by simp [framed, final]) fun i hi _ => ?_
    have hlt : i < shards := by simpa [framed, hlength] using hi
    simp only [framed, final, List.getElem_mapIdx, lines, ShardingWriter.bytesTo_placed hlt]
  have hbytes : totalLength contents + (sink.framing.afterAll shards (lines.map Prod.snd)).bytes =
      totalLength final := by
    rw [← hfinal, totalLength_framed, Framing.bytes_afterAll, List.map_map, hlength]
    · change _ + (0 + sink.framing.headerLine.length * shards + _ + _) = _
      rw [Nat.zero_add]
      rfl
    · rw [hlength]
      exact fun entry he => ShardingWriter.lt_of_mem_placed he
  have hheld : view.Holds u final := by
    have h := hold.1
    simp only [writer, Framing.pendingHeader_afterRecords, Framing.footerLine_afterRecords,
      List.map_eq_nil_iff] at h
    rw [← hfinal, ← map_foldl_placeLine, ← foldl_placeLine_header]
    exact h
  refine ⟨writer, t, u, _, hrun, ?_, hheld, writer.closedFrom hu, rfl, hbytes⟩
  rw [← hcount]
  exact (Framing.records_afterRecords _).trans (Nat.zero_add _)

/-- A call that is directed nowhere among others, on slow shards and on files. -/
theorem shards_of_run_two :
    let again := ScriptLine.fail (.reported .interrupted "again")
    let slow : ShardSet ScriptedChannel :=
      ⟨[{ shards := [], script := [.take 1, again] }, { shards := [], script := [again] }], true⟩
    let files : ShardSet FileChannel :=
      ⟨[⟨"a", some { location := ["a"] }⟩, ⟨"b", some { location := ["b"] }⟩], true⟩
    let world : World := ⟨⟨[(["a"], .file []), (["b"], .file [])], []⟩, []⟩
    let sink : TextSink String Empty Empty := .create "out" true (some "h") (some "f") .text
    let calls : List (ShardCall String) := [.add "a", .addToShard 5 "b", .addToShard 1 "c", .add "d"]
    let answers := [.ok 2, .error (.shardOutOfRange 5 2), .ok 2, .ok 2]
    let final := [utf8 "h\na\nf\n", utf8 "h\nc\nd\nf\n"]
    (∃ writer t u, (sink.shardingWriter .fromFirst).run (slow, world) calls = (answers, writer, t) ∧
      writer.records = 3 ∧ ScriptedChannel.shardView.Holds u final) ∧
    (∃ writer t u, (sink.shardingWriter .fromFirst).run (files, world) calls = (answers, writer, t) ∧
      writer.records = 3 ∧ FileChannel.shardView.Holds u final) := by
  intro again slow files world sink calls answers final
  have hdirected : ShardCall.directed 2 .fromFirst calls = [(0, "a"), (5, "b"), (1, "c"), (1, "d")] :=
    rfl
  constructor
  · have holds : ScriptedChannel.shardView.Holds (slow, world) [[], []] := by
      refine ⟨rfl, List.forall_mem_cons.mpr ⟨⟨rfl, ?_⟩, List.forall_mem_singleton.mpr ⟨rfl, ?_⟩⟩,
        by simp [slow, ScriptedChannel.shardView], rfl⟩
      · exact List.forall_mem_cons.mpr ⟨Nat.one_pos, List.forall_mem_singleton.mpr rfl⟩
      · exact List.forall_mem_singleton.mpr rfl
    obtain ⟨writer, t, u, _, hrun, hrecords, hold, _⟩ := shards_of_run
      (ScriptedChannel.steadyView_steady 1) sink .fromFirst utf8 (fun _ _ => rfl) holds
    rw [show (slow, world).1.shards.length = 2 from rfl, hdirected] at hold
    exact ⟨writer, t, u, hrun, hrecords, hold⟩
  · have holds : FileChannel.shardView.Holds (files, world) [[], []] := by
      refine ⟨rfl, List.forall_mem_cons.mpr ⟨⟨_, rfl, [], rfl, Nat.le_refl _⟩,
        List.forall_mem_singleton.mpr ⟨_, rfl, [], rfl, Nat.le_refl _⟩⟩, ?_, rfl⟩
      refine List.pairwise_pair.mpr ?_
      intro handle hh other ho
      cases hh
      cases ho
      decide
    obtain ⟨writer, t, u, _, hrun, hrecords, hold, _⟩ := shards_of_run
      FileChannel.shardView_steady sink .fromFirst utf8 (fun _ _ => rfl) holds
    rw [show (files, world).1.shards.length = 2 from rfl, hdirected] at hold
    exact ⟨writer, t, u, hrun, hrecords, hold⟩

end ShardedLines
