import ShardedLines.Proofs.Channel.PlacedFiles
import ShardedLines.Proofs.Naming.Search
import ShardedLines.Proofs.Sink.Opening
import ShardedLines.Proofs.Writer.Kept
import ShardedLines.Proofs.Writer.ShardRun

/-!
Runs of a sharded sink of local files.

Where opening succeeds, each shard has a file of its own, at the place of its name. From then on
nothing fails: the run leaves in each of these files the framed lines of its shard, whatever was
there before, and all other files as they were, and the sink lists each of its files once
(`files_of_local_run`).
-/

namespace ShardedLines

/-! ## Reliable shards -/

section Reliable

variable {κ τ ρ : Type} [ShardingChannel κ] [ShardingChannel τ] {holds : κ × World → ρ → Prop}
  {grow : ρ → Bytes → ρ} {place : ρ → Nat × Bytes → ρ} {shards copies : Nat}

/-- What writes keep goes along with what they add. -/
theorem ReliableShards.keeping (reliable : ReliableShards holds grow place shards copies)
    {kept : κ × World → Prop} (keeps : KeptByWrites kept) :
    ReliableShards (fun s a => holds s a ∧ kept s) grow place shards copies where
  grow_nil := reliable.grow_nil
  width h := reliable.width h.1
  shards_eq h := reliable.shards_eq h.1
  writeAll line s a h := by
    obtain ⟨t, ht, hold⟩ := reliable.writeAll line h.1
    have hkept := keeps.writeAll line s h.2
    rw [ht] at hkept
    exact ⟨t, ht, hold, hkept⟩
  writeAllToShard shard line s a hlt h := by
    obtain ⟨t, ht, hold⟩ := reliable.writeAllToShard shard line hlt h.1
    have hkept := keeps.writeAllToShard shard line s h.2
    rw [ht] at hkept
    exact ⟨t, ht, hold, hkept⟩

theorem writeAllToShard_leftState (shard : Nat) (line : Bytes) (s : κ × World) :
    ShardingChannel.writeAllToShard shard line (leftState τ s) =
      ((ShardingChannel.writeAllToShard shard line s).1,
        leftState τ (ShardingChannel.writeAllToShard shard line s).2) :=
  writeFully_embed (fun _ _ => rfl) (fun _ _ => rfl) line s

/-- A writer is closed without a fault where its lines and its channel are. -/
theorem exists_close_left {α : Type} {writer : ShardingWriter α} {framing : Framing}
    {t : (κ ⊕ τ) × World} {s : κ × World} {closed : κ} {last : World}
    (hfinish : writer.framing.finish t = (.ok (), framing, leftState τ s))
    (hclose : ByteChannel.close s = (.ok (), closed, last)) :
    ∃ done left world, writer.close t = (.ok (), done, left, world) ∧ world.disk = last.disk :=
  ⟨_, (writer.closedFrom hfinish).exists_ok hclose⟩

theorem ReliableShards.left (reliable : ReliableShards holds grow place shards copies) :
    ReliableShards (fun (t : (κ ⊕ τ) × World) a => ∃ s, t = leftState τ s ∧ holds s a)
      grow place shards copies where
  toReliable := reliable.toReliable.left
  shards_eq := by
    rintro _ a ⟨s, rfl, h⟩
    exact reliable.shards_eq h
  writeAllToShard := by
    rintro shard line _ a hlt ⟨s, rfl, h⟩
    obtain ⟨t, ht, hold⟩ := reliable.writeAllToShard shard line hlt h
    refine ⟨leftState τ t, ?_, t, rfl, hold⟩
    rw [writeAllToShard_leftState, ht]

/-- What a run and the lines after it leave on shards that take every line. -/
theorem run_finish_of_reliable {α μ ν : Type} {holds : κ × World → List Bytes → Prop}
    (reliable : ReliableShards holds (fun contents line => contents.map (· ++ line)) placeLine
      shards shards)
    (sink : TextSink α μ ν) (router : Router) (encode : α → Bytes) {calls : List (ShardCall α)}
    (encodes : ∀ call ∈ calls, sink.coder.bytes? call.record = .ok (encode call.record))
    {s : κ × World} {contents : List Bytes} (h : holds s contents)
    (hlength : contents.length = shards) :
    let line (record : α) := encode record ++ sink.framing.terminator
    let directed := ShardCall.directed shards router calls
    ∃ writer t framing u,
      (sink.shardingWriter router).run s calls =
        (directed.map fun (shard, record) =>
          if shard < shards then .ok (line record).length
          else .error (.shardOutOfRange shard shards), writer, t) ∧
      writer.framing.finish t = (.ok (), framing, u) ∧
      holds u (contents.mapIdx fun shard old => old ++ sink.framing.headerLine ++
        (directed.filter (·.1 = shard)).flatMap (line ·.2) ++ sink.framing.footerLine) := by
  intro line directed
  let lines := ShardingWriter.placed shards line directed
  obtain ⟨router', t, hrun, hold⟩ :=
    ShardingWriter.run_of_reliable reliable (sink.shardingWriter router) encodes h
  let writer : ShardingWriter α :=
    ⟨sink.coder, sink.framing.afterRecords shards (lines.map Prod.snd), router'⟩
  obtain ⟨u, hu, hold⟩ := Framing.finish_of_reliable reliable.toReliable writer.framing hold
  refine ⟨writer, t, _, u, hrun, hu, ?_⟩
  simp only [writer, Framing.pendingHeader_afterRecords, Framing.footerLine_afterRecords,
    List.map_eq_nil_iff] at hold
  have hframed := map_foldl_placeLine sink.framing.headerLine sink.framing.footerLine lines contents
  rw [← foldl_placeLine_header] at hframed
  have hfinal : framed sink.framing.headerLine sink.framing.footerLine lines contents =
      contents.mapIdx fun shard old => old ++ sink.framing.headerLine ++
        (directed.filter (·.1 = shard)).flatMap (line ·.2) ++ sink.framing.footerLine := by
    refine List.ext_getElem (by simp [framed]) fun i hi _ => ?_
    have hlt : i < shards := by simpa [framed, hlength] using hi
    simp only [framed, List.getElem_mapIdx, lines, ShardingWriter.bytesTo_placed hlt]
  rw [← hfinal, ← hframed]
  exact hold

end Reliable

/-! ## Local files -/

section Local

variable {α κ τ : Type} {sink : TextSink α κ τ} {router : Router} {processors : Nat}
  {world opened : World} {writer : ShardingWriter α} {channel : ShardSet FileChannel ⊕ τ}

namespace TextSink

/-- The path of a shard's file, where there is one. -/
def shardPath (sink : TextSink α κ τ) (shards shard : Nat) : String :=
  Naming.shardFile sink.destination sink.shardTemplate shard shards

/-- The places of the files of all shards. -/
def shardPlaces (sink : TextSink α κ τ) (shards : Nat) (disk : Disk) (location : Location) : Prop :=
  ∃ shard < shards, location = disk.placeOf (sink.shardPath shards shard)

/-- The view of the shards' files at their places, opened on this disk. -/
def shardView (sink : TextSink α κ τ) (shards : Nat) (disk opened : Disk) : ShardView FileChannel :=
  FileChannel.placedView disk.placeOf (sink.shardPlaces shards disk) opened

/-- Different shards have their files at different places. -/
theorem placeOf_shardPath_inj (named : 'S' ∈ sink.shardTemplate.toList) {disk : Disk}
    {shards first second : Nat}
    (h : disk.placeOf (sink.shardPath shards first) = disk.placeOf (sink.shardPath shards second)) :
    first = second := by
  have hstart : Path.isAbsolute (sink.shardPath shards first) =
      Path.isAbsolute (sink.shardPath shards second) := by
    rw [shardPath, shardPath, Naming.isAbsolute_shardFile, Naming.isAbsolute_shardFile]
  exact Naming.shardFile_injective sink.destination named shards (Disk.placeOf_inj hstart h)

/-- A writer of local files comes with one file for each shard, and there is a shard. -/
theorem exists_openEach_eq (isLocal : sink.factory? = none)
    (h : sink.openShardingWriter router processors world = (some (.ok (writer, channel)), opened)) :
    ∃ channels later,
      LocalFiles.openEach (fun shard => some (sink.shardPath (sink.resolvedShards processors) shard))
        (List.range (sink.resolvedShards processors)) world = (some (.ok channels), later) ∧
      0 < sink.resolvedShards processors ∧ Naming.Formats sink.shardTemplate.toList ∧
      writer = sink.shardingWriter router ∧ channel = .inl ⟨channels, true⟩ ∧
      opened.disk = later.disk := by
  rcases hopen : LocalFiles.openShards sink.shardTemplate sink.destination
    (sink.resolvedShards processors) world with ⟨_ | fault | set, later⟩
  · rw [openShardingWriter_of_panic isLocal hopen] at h
    cases h
  · rw [openShardingWriter_of_error isLocal hopen] at h
    cases h
  · rw [openShardingWriter_of_ok isLocal hopen] at h
    cases h
    obtain ⟨hpos, hformats, channels, rfl, heach⟩ := LocalFiles.openEach_of_openShards_ok hopen
    exact ⟨channels, later, heach, hpos, hformats, rfl, rfl, rfl⟩

/-- The files that a sink opens are empty, and at their own places. -/
theorem exists_opened (isLocal : sink.factory? = none)
    (named : 'S' ∈ sink.shardTemplate.toList)
    (plain : Path.IsPlain (sink.destination ++ sink.shardTemplate)) (ordinary : world.disk.Ordinary)
    (h : sink.openShardingWriter router processors world = (some (.ok (writer, channel)), opened)) :
    let shards := sink.resolvedShards processors
    ∃ set, writer = sink.shardingWriter router ∧ channel = .inl set ∧ 0 < shards ∧
      Naming.Formats sink.shardTemplate.toList ∧
      (sink.shardView shards world.disk opened.disk).Holds (set, opened)
        (List.replicate shards []) ∧
      ShardSet.Settled ((List.range shards).map (sink.shardPath shards)) opened.log (set, opened) ∧
      Disk.Grows (sink.shardPlaces shards world.disk) world.disk opened.disk ∧
      ∀ shard < shards, opened.disk.Reaches (sink.shardPath shards shard) := by
  intro shards
  obtain ⟨channels, begun, hopen, hpos, hformats, rfl, rfl, hdisk⟩ := exists_openEach_eq isLocal h
  have hplain : ∀ shard, Path.IsPlain (sink.shardPath shards shard) :=
    fun shard => Naming.isPlain_shardFile _ _ _ _ plain
  obtain ⟨rfl, grows, hopened⟩ := LocalFiles.openEach_of_plain hplain ordinary hopen
  rw [← hdisk] at grows hopened
  simp only [List.mem_range] at grows hopened
  refine ⟨_, rfl, rfl, hpos, hformats, ⟨rfl, ?_⟩, ⟨rfl, ?_, rfl⟩, grows,
    fun shard hs => (hopened shard hs).1⟩
  · refine LocalFiles.holdsEach_openAt (fun _ _ _ _ => placeOf_shardPath_inj named) ?_
    exact fun shard hs => ⟨⟨shard, hs, rfl⟩, (hopened shard hs).2⟩
  · rw [List.map_map]
    rfl

variable {shards : Nat} {disk begun : Disk} {set : ShardSet FileChannel} {later : World}

/-- What was written since the files were opened went to these files. -/
theorem grows_of_holds {contents : List Bytes} (hne : contents ≠ [])
    (h : (sink.shardView shards disk begun).Holds (set, later) contents) :
    Disk.Grows (sink.shardPlaces shards disk) begun later.disk := by
  have hshards : set.shards ≠ [] := by
    intro he
    have hlength := h.each.length_eq
    rw [show (set, later).1.shards = [] from he, List.length_nil] at hlength
    exact hne (List.eq_nil_of_length_eq_zero hlength.symm)
  obtain ⟨first, rest, heq⟩ := List.exists_cons_of_ne_nil hshards
  have hvalid := h.each.valid first (heq ▸ List.mem_cons_self)
  exact hvalid.2.grows

/-- When the files are closed, each of them is left with what its shard has received. -/
theorem exists_closed {log : List Event} {content : Nat → Bytes}
    (h : (sink.shardView shards disk begun).Holds (set, later) ((List.range shards).map content))
    (settled : ShardSet.Settled ((List.range shards).map (sink.shardPath shards)) log (set, later)) :
    ∃ closed last, ByteChannel.close (set, later) = (.ok (), closed, last) ∧
      Disk.Grows (sink.shardPlaces shards disk) later.disk last.disk ∧
      ∀ shard < shards, last.disk.find? (disk.placeOf (sink.shardPath shards shard)) =
        some (.file (content shard)) := by
  obtain ⟨closed, last, hclose, hfiles, grows⟩ := FileChannel.close_set_placed h
  have hpaths : set.shards.map FileChannel.path = (List.range shards).map (sink.shardPath shards) :=
    settled.paths
  refine ⟨closed, last, hclose, grows.mono ?_, ?_⟩
  · rintro _ ⟨channel, hc, rfl⟩
    have hpath : channel.path ∈ (List.range shards).map (sink.shardPath shards) :=
      hpaths ▸ List.mem_map_of_mem hc
    obtain ⟨shard, hs, heq⟩ := List.mem_map.mp hpath
    exact ⟨shard, List.mem_range.mp hs, heq ▸ rfl⟩
  · have hfiles : List.Forall₂ (fun path bytes =>
        last.disk.find? (disk.placeOf path) = some (.file bytes))
        (set.shards.map FileChannel.path) ((List.range shards).map content) :=
      List.forall₂_map_left_iff.mpr hfiles
    rw [hpaths, List.forall₂_map_left_iff, List.forall₂_map_right_iff, List.forall₂_same] at hfiles
    exact fun shard hs => hfiles shard (List.mem_range.mpr hs)

end TextSink

/-- A run of local files leaves one file for each shard, with the framed lines of the shard and
nothing else, wherever its records come from and whatever was there before. All other files are as
they were when the run began, and the sink lists the files of its shards, each of them once. -/
theorem files_of_local_run [ShardingChannel τ] (isLocal : sink.factory? = none)
    (named : 'S' ∈ sink.shardTemplate.toList)
    (plain : Path.IsPlain (sink.destination ++ sink.shardTemplate)) (ordinary : world.disk.Ordinary)
    (h : sink.openShardingWriter router processors world = (some (.ok (writer, channel)), opened))
    (encode : α → Bytes) {calls : List (ShardCall α)}
    (encodes : ∀ call ∈ calls, sink.coder.bytes? call.record = .ok (encode call.record)) :
    let shards := sink.resolvedShards processors
    let line (record : α) := encode record ++ sink.framing.terminator
    let directed := ShardCall.directed shards router calls
    ∃ (path : Nat → String) (place : Nat → Location) (written : ShardingWriter α)
        (t : (ShardSet FileChannel ⊕ τ) × World) (closed : ShardingWriter α)
        (left : ShardSet FileChannel ⊕ τ) (last : World),
      (∀ shard, Naming.shardFile? sink.destination sink.shardTemplate shard shards =
        some (path shard)) ∧
      writer.run (channel, opened) calls =
        (directed.map fun (shard, record) =>
          if shard < shards then .ok (line record).length
          else .error (.shardOutOfRange shard shards), written, t) ∧
      written.close t = (.ok (), closed, left, last) ∧
      0 < shards ∧
      (∀ first < shards, ∀ second < shards, place first = place second → first = second) ∧
      (∀ shard < shards, last.disk.locate (path shard) = .ok (place shard) ∧
        last.disk.find? (place shard) = some (.file (sink.framing.headerLine ++
          (directed.filter (·.1 = shard)).flatMap (line ·.2) ++ sink.framing.footerLine))) ∧
      (∀ location, (∀ shard < shards, location ≠ place shard) → ∀ contents,
        last.disk.find? location = some (.file contents) ↔
          world.disk.find? location = some (.file contents)) ∧
      ∃ files, sink.shardFiles last.disk = .ok files ∧
        ∀ shard < shards, files.count (path shard) = 1 := by
  intro shards line directed
  obtain ⟨set, rfl, rfl, hpos, hformats, hheld, settled, hopened, hreaches⟩ :=
    TextSink.exists_opened isLocal named plain ordinary h
  let content (shard : Nat) : Bytes := sink.framing.headerLine ++
    (directed.filter (·.1 = shard)).flatMap (line ·.2) ++ sink.framing.footerLine
  -- the run keeps the files at their places while they take its lines
  have steady : (sink.shardView shards world.disk opened.disk).Steady :=
    FileChannel.placedView_steady
  have kept := FileChannel.quiet.keptByWrites ((List.range shards).map (sink.shardPath shards))
    opened.log
  have reliable := ((ShardView.reliableShards steady shards).keeping kept).left (τ := τ)
  obtain ⟨written, t, framing, _, hrun, hfinish, ⟨final, later⟩, rfl, ⟨hfinal, -⟩, hsettled⟩ :=
    run_finish_of_reliable reliable sink router encode encodes
      ⟨(set, opened), rfl, ⟨hheld, List.length_replicate⟩, settled⟩ List.length_replicate
  have hcontents : ((List.replicate shards []).mapIdx fun shard old =>
      old ++ sink.framing.headerLine ++ (directed.filter (·.1 = shard)).flatMap (line ·.2) ++
        sink.framing.footerLine) = (List.range shards).map content := by
    refine List.ext_getElem (by simp) fun shard _ _ => ?_
    simp [content]
  rw [hcontents] at hfinal
  obtain ⟨closed, last, hclose, hlast, hfiles⟩ := TextSink.exists_closed hfinal hsettled
  obtain ⟨done, left, ended, hwritten, hdisk⟩ := exists_close_left hfinish hclose
  have hgrown : Disk.Grows (sink.shardPlaces shards world.disk) opened.disk ended.disk :=
    hdisk ▸ (TextSink.grows_of_holds (by simpa using Nat.ne_of_gt hpos) hfinal).trans hlast
  rw [← hdisk] at hfiles
  have hplace (shard : Nat) := (hopened.trans hgrown).placeOf (sink.shardPath shards shard)
  have hreached : ∀ shard < shards, ended.disk.Reaches (sink.shardPath shards shard) :=
    fun shard hs => (hreaches shard hs).mono hgrown
  have hplain (shard : Nat) : Path.IsPlain (sink.shardPath shards shard) :=
    Naming.isPlain_shardFile _ _ _ _ plain
  refine ⟨sink.shardPath shards, fun shard => world.disk.placeOf (sink.shardPath shards shard),
    written, t, done, left, ended, fun shard => hformats.shardFile?_eq sink.destination shard shards,
    hrun, hwritten, hpos, ?_, ?_, ?_, ?_⟩
  · exact fun _ _ _ _ heq => TextSink.placeOf_shardPath_inj named heq
  · intro shard hs
    refine ⟨?_, hfiles shard hs⟩
    rw [(hreached shard hs).locate (hplain shard), hplace]
  · intro location hl contents
    refine (hopened.trans hgrown).file_iff ?_ contents
    rintro ⟨shard, hs, rfl⟩
    exact hl shard hs rfl
  · refine ⟨_, Naming.shardFiles_eq .., fun shard hs => ?_⟩
    have hordinary := (hopened.trans hgrown).ordinary ordinary
    exact Naming.count_shardFiles hordinary plain (hreached shard hs)
      ((hplace shard).symm ▸ hfiles shard hs) (Naming.shardFiles_eq ..)

end Local

/-- One of the two files was there before, and its old bytes are gone. -/
theorem files_of_local_run_over_old :
    let sink : TextSink String MemoryChannel MemoryChannel :=
      { TextSink.create "out/part" true (some "h") (some "f") .text with
        numShards? := some 2, shardTemplate := "-S.SN" }
    let disk : Disk := ⟨[(["work"], .directory), (["work", "out"], .directory),
      (["work", "out", "part-1.S2"], .file (utf8 "old and long"))], ["work"]⟩
    let calls : List (ShardCall String) := [.add "a", .add "b", .addToShard 0 "c"]
    'S' ∈ sink.shardTemplate.toList ∧ Path.IsPlain (sink.destination ++ sink.shardTemplate) ∧
      disk.Ordinary ∧
    ∃ writer channel opened written t closed left last files,
      sink.openShardingWriter .fromFirst 4 ⟨disk, []⟩ = (some (.ok (writer, channel)), opened) ∧
      writer.run (channel, opened) calls = ([.ok 2, .ok 2, .ok 2], written, t) ∧
      written.close t = (.ok (), closed, left, last) ∧
      last.disk.contentsOf "out/part-0.S2" = .ok (utf8 "h\na\nc\nf\n") ∧
      last.disk.contentsOf "out/part-1.S2" = .ok (utf8 "h\nb\nf\n") ∧
      sink.shardFiles last.disk = .ok files ∧
      files.count "out/part-0.S2" = 1 ∧ files.count "out/part-1.S2" = 1 := by
  intro sink disk calls
  have named : 'S' ∈ sink.shardTemplate.toList := by decide
  have plain : Path.IsPlain (sink.destination ++ sink.shardTemplate) := by decide
  have ordinary : disk.Ordinary := by decide
  have hok : ((sink.openShardingWriter .fromFirst 4 ⟨disk, []⟩).1.any (·.isOk)) = true := by
    decide +kernel
  rcases h : sink.openShardingWriter .fromFirst 4 ⟨disk, []⟩ with
    ⟨_ | fault | ⟨writer, channel⟩, opened⟩
  · rw [h] at hok
    cases hok
  · rw [h] at hok
    cases hok
  · have encodes : ∀ call ∈ calls, sink.coder.bytes? call.record = .ok (utf8 call.record) :=
      fun _ _ => rfl
    obtain ⟨path, place, written, t, closed, left, last, hnames, hrun, hclose, -, -, hfiles, -, files,
      hlist, hcount⟩ := files_of_local_run rfl named plain ordinary h utf8 encodes
    have hpath : ∀ {shard name}, Naming.shardFile? "out/part" "-S.SN" shard 2 = some name →
        path shard = name :=
      fun hname => Option.some.inj ((hnames _).symm.trans hname)
    have hfirst : path 0 = "out/part-0.S2" := hpath (by decide +kernel)
    have hsecond : path 1 = "out/part-1.S2" := hpath (by decide +kernel)
    have hcontents : ∀ {shard name}, path shard = name → shard < 2 →
        last.disk.contentsOf name = .ok (sink.framing.headerLine ++
          ((ShardCall.directed 2 .fromFirst calls).filter (·.1 = shard)).flatMap
            (fun entry => utf8 entry.2 ++ sink.framing.terminator) ++ sink.framing.footerLine) := by
      rintro shard _ rfl hs
      have hlocate : last.disk.locate (path shard) = .ok (place shard) :=
        (hfiles shard hs).1
      simp only [Disk.contentsOf, hlocate, (hfiles shard hs).2]
      rfl
    refine ⟨named, plain, ordinary, writer, channel, opened, written, t, closed, left, last, files,
      rfl, hrun, hclose, ?_, ?_, hlist, ?_, ?_⟩
    · exact hcontents hfirst (by decide)
    · exact hcontents hsecond (by decide)
    · exact hfirst ▸ hcount 0 (by decide)
    · exact hsecond ▸ hcount 1 (by decide)

end ShardedLines
