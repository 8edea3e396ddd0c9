import ShardedLines.Proofs.Channel.File
import ShardedLines.Proofs.Disk.Growth

/-!
Files that are opened, written and closed at the places of their paths.

A handle that was just opened is at the end of its file, and stays there whatever is written
(`Appended`); once it is closed, the file holds what came to the handle and nothing else
(`finish_atEnd`). The shards of a set are opened at the places where the names of their paths end
(`openEach_of_plain`), and writing and closing them touches no file elsewhere.
-/

namespace ShardedLines

namespace FileHandle

/-- The handle is at the end of a regular file. -/
def AtEnd (handle : FileHandle) (disk : Disk) : Prop :=
  ∃ contents, disk.find? handle.location = some (.file contents) ∧
    contents.length = handle.offset

variable {handle next third : FileHandle} {disk later last : Disk}

theorem AtEnd.fits (h : handle.AtEnd disk) : handle.Fits disk := by
  obtain ⟨contents, hf, ho⟩ := h
  exact ⟨contents, hf, Nat.le_of_eq ho.symm⟩

/-- What the handle has written out is the whole file. -/
theorem AtEnd.find?_eq (h : handle.AtEnd disk) :
    disk.find? handle.location = some (.file (handle.writtenOut disk)) := by
  obtain ⟨contents, hf, ho⟩ := h
  simp only [writtenOut, hf, ← ho, List.take_length]

/-- From one state to another the handle went on at the end of its file, and no other file
changed. -/
structure Appended (handle : FileHandle) (disk : Disk) (next : FileHandle) (later : Disk) :
    Prop where
  location : next.location = handle.location
  atEnd : next.AtEnd later
  grows : Disk.Grows (· = handle.location) disk later

theorem Appended.trans (h : Appended handle disk next later)
    (h' : Appended next later third last) : Appended handle disk third last where
  location := h'.location.trans h.location
  atEnd := h'.atEnd
  grows := h.grows.trans (h.location ▸ h'.grows)

/-- The handle may hold other bytes back. -/
theorem Appended.of_same (h : handle.AtEnd disk) (hl : next.location = handle.location)
    (ho : next.offset = handle.offset) : Appended handle disk next disk where
  location := hl
  atEnd := by
    rw [AtEnd, hl, ho]
    exact h
  grows := .refl _ _

theorem appended_writeOut (h : handle.AtEnd disk) (bytes : Bytes) :
    Appended handle disk (handle.writeOut bytes disk).2.1 (handle.writeOut bytes disk).2.2 := by
  obtain ⟨contents, hf, ho⟩ := h
  have hne : handle.location ≠ [] := by
    intro he
    rw [he] at hf
    cases hf
  have hlength : (Disk.overlay contents handle.offset bytes).length =
      handle.offset + bytes.length := by
    simp [Disk.overlay, List.rightpad, ho]
  simp only [writeOut, Disk.writeAt, hf]
  refine ⟨rfl, ⟨_, ?_, hlength⟩, ?_⟩
  · exact Disk.find?_put_self disk _ hne
  · refine .put hne (by simp [hf]) (.inl rfl) (fun ordinary => ?_) (by simp)
    exact ordinary.isName _ (Disk.mem_locations (Option.isSome_of_mem hf) hne)

theorem appended_flush (h : handle.AtEnd disk) :
    Appended handle disk (handle.flush disk).2.1 (handle.flush disk).2.2 := by
  have hout := appended_writeOut h handle.pending
  rw [flush]
  split
  · exact .of_same h rfl rfl
  · split
    · rename_i next later hw
      rw [hw] at hout
      exact hout.trans (.of_same hout.atEnd rfl rfl)
    · exact hout

theorem appended_add (h : handle.AtEnd disk) (bytes : Bytes) :
    Appended handle disk (handle.add bytes disk).2.1 (handle.add bytes disk).2.2 := by
  have hout := appended_writeOut h bytes
  rw [add]
  split
  · exact .of_same h rfl rfl
  · split <;> rename_i hw <;> rw [hw] at hout <;> exact hout

theorem appended_write (h : handle.AtEnd disk) (bytes : Bytes) :
    Appended handle disk (handle.write bytes disk).2.1 (handle.write bytes disk).2.2 := by
  have hflush := appended_flush h
  rw [write]
  split
  · exact appended_add h bytes
  · split <;> rename_i hf <;> rw [hf] at hflush
    · exact hflush.trans (appended_add hflush.atEnd bytes)
    · exact hflush

/-- A handle that is finished leaves behind what came to it. -/
theorem finish_atEnd (h : handle.AtEnd disk) :
    ∃ later, handle.finish disk = (.ok (), later) ∧
      later.find? handle.location = some (.file (handle.received disk)) ∧
      Disk.Grows (· = handle.location) disk later := by
  obtain ⟨next, later, hflush, hpending, took⟩ := flush_fits h.fits
  have appended := appended_flush h
  rw [hflush] at appended
  have hfile := appended.atEnd.find?_eq
  have hreceived : next.writtenOut later = handle.received disk := by
    have hreceived := took.received
    rwa [received, hpending, List.append_nil, List.append_nil] at hreceived
  refine ⟨later, ?_, ?_, appended.grows⟩
  · simp only [finish, hflush, Disk.sync, hfile]
  · rw [← hreceived, ← took.location]
    exact hfile

end FileHandle

namespace FileChannel

/-- The channel is open at the end of the file at the place of its path. Since the disk was as
`opened` has it, no file was written elsewhere than at these places. -/
structure Placed (place : String → Location) (places : Location → Prop) (opened : Disk)
    (s : FileChannel × World) : Prop where
  handle : ∃ handle, s.1.handle? = some handle ∧ handle.location = place s.1.path ∧
    places handle.location ∧ handle.AtEnd s.2.disk
  grows : Disk.Grows places opened s.2.disk

variable {place : String → Location} {places : Location → Prop} {opened : Disk}

theorem Placed.fits {s : FileChannel × World} (h : Placed place places opened s) : Fits s := by
  obtain ⟨handle, hh, -, -, hend⟩ := h.handle
  exact ⟨handle, hh, hend.fits⟩

/-- Channels of different files are at different places. -/
theorem Placed.place_ne {first second : FileChannel} {world : World}
    (h : Placed place places opened (first, world)) (h' : Placed place places opened (second, world))
    (apart : Apart first second) : place first.path ≠ place second.path := by
  obtain ⟨handle, hh, hplace, -, -⟩ := h.handle
  obtain ⟨other, ho, hother, -, -⟩ := h'.handle
  have hne := apart handle hh other ho
  rwa [hplace, hother] at hne

/-- Writing at the end of one file leaves a channel of another one as it was. -/
theorem Placed.of_grows {channel : FileChannel} {world : World} {later : Disk} {location : Location}
    (h : Placed place places opened (channel, world)) (hp : places location)
    (hne : ∀ handle ∈ channel.handle?, location ≠ handle.location)
    (grows : Disk.Grows (· = location) world.disk later) :
    Placed place places opened (channel, { world with disk := later }) ∧
      received (channel, { world with disk := later }) = received (channel, world) := by
  obtain ⟨handle, hh, hplace, hplaces, contents, hf, ho⟩ := h.handle
  have hsame : later.find? handle.location = some (.file contents) :=
    (grows.file_iff (Ne.symm (hne handle hh)) contents).mpr hf
  have hgrows : Disk.Grows places world.disk later := by
    refine grows.mono ?_
    rintro _ rfl
    exact hp
  refine ⟨⟨⟨handle, hh, hplace, hplaces, contents, hsame, ho⟩, h.grows.trans hgrows⟩, ?_⟩
  have hh : channel.handle? = some handle := hh
  have hf : world.disk.find? handle.location = some (.file contents) := hf
  simp only [received, hh, Option.elim_some, FileHandle.received, FileHandle.writtenOut, hf, hsame]

theorem appended_channel_write {s t : FileChannel × World} {buffer : Bytes}
    {answer : Except Fault Nat} {handle : FileHandle} (hh : s.1.handle? = some handle)
    (h : handle.AtEnd s.2.disk) (hw : ByteChannel.write buffer s = (answer, t)) :
    ∃ next later, t = ({ s.1 with handle? := some next }, { s.2 with disk := later }) ∧
      FileHandle.Appended handle s.2.disk next later := by
  obtain ⟨channel, world⟩ := s
  have hh : channel.handle? = some handle := hh
  have ht : t = (channel.write buffer world).2 := (congrArg Prod.snd hw).symm
  rw [write, hh] at ht
  exact ⟨_, _, ht, FileHandle.appended_write h buffer⟩

/-- Channels that are open at the places of their paths, as shards of one set. -/
def placedView (place : String → Location) (places : Location → Prop) (opened : Disk) :
    ShardView FileChannel :=
  shardView.narrow (Placed place places opened)
    (fun {s t buffer answer} h hw => by
      obtain ⟨handle, hh, hplace, hplaces, hend⟩ := h.handle
      obtain ⟨next, later, rfl, appended⟩ := appended_channel_write hh hend hw
      have hgrows : Disk.Grows places s.2.disk later := by
        refine appended.grows.mono ?_
        rintro _ rfl
        exact hplaces
      rw [← appended.location] at hplace hplaces
      exact ⟨⟨next, rfl, hplace, hplaces, appended.atEnd⟩, h.grows.trans hgrows⟩)
    (fun {s t buffer answer other} h hw ha hother => by
      obtain ⟨handle, hh, hplace, hplaces, hend⟩ := h.handle
      obtain ⟨next, later, rfl, appended⟩ := appended_channel_write hh hend hw
      exact (hother.of_grows hplaces (ha handle hh) appended.grows).1)

theorem placedView_steady : (placedView place places opened).Steady :=
  fun hs hb => shardView_steady hs.1 hb

/-! ## Closing -/

/-- The places of some channels. -/
def placesOf (place : String → Location) (channels : List FileChannel) (location : Location) : Prop :=
  ∃ channel ∈ channels, location = place channel.path

/-- A channel that is closed leaves behind what came to it. -/
theorem close_placed {channel : FileChannel} {world : World}
    (h : Placed place places opened (channel, world)) :
    ∃ closed later, ByteChannel.close (channel, world) =
        (.ok (), closed, { world with disk := later }) ∧
      later.find? (place channel.path) = some (.file (received (channel, world))) ∧
      Disk.Grows (· = place channel.path) world.disk later := by
  obtain ⟨handle, hh, hplace, -, hend⟩ := h.handle
  obtain ⟨later, hfinish, hfile, grows⟩ := FileHandle.finish_atEnd hend
  have hh : channel.handle? = some handle := hh
  have hplace : handle.location = place channel.path := hplace
  refine ⟨{ channel with handle? := none }, later, ?_, ?_, hplace ▸ grows⟩
  · change channel.close world = _
    simp only [close, hh, World.onDisk, hfinish]
  · rw [← hplace]
    simpa only [received, hh, Option.elim_some] using hfile

/-- Each of the channels that are closed leaves behind what came to it. -/
theorem closeEach_placed {channels : List FileChannel} {world : World} {contents : List Bytes}
    (h : (placedView place places opened).HoldsEach channels world contents) :
    ∃ closed later, ShardSet.closeEach channels world = (.ok (), closed, later) ∧
      List.Forall₂ (fun channel bytes =>
        later.disk.find? (place channel.path) = some (.file bytes)) channels contents ∧
      Disk.Grows (placesOf place channels) world.disk later.disk := by
  induction channels generalizing world contents with
  | nil =>
    obtain rfl := h.contents
    exact ⟨[], world, rfl, .nil, .refl _ _⟩
  | cons channel rest ih =>
    obtain ⟨bytes, others, rfl⟩ : ∃ bytes others, contents = bytes :: others :=
      ⟨_, _, h.contents.symm⟩
    have hbytes : received (channel, world) = bytes := (List.cons.inj h.contents).1
    have hapart := (List.pairwise_cons.mp h.apart).1
    have hplaced := h.head.2
    obtain ⟨closed, disk, hclose, hfile, grows⟩ := close_placed hplaced
    have spares : (placedView place places opened).Spares (channel, world)
        (channel, { world with disk }) := by
      intro other ha hv
      obtain ⟨handle, hh, hplace, hplaces, -⟩ := hplaced.handle
      have hne : ∀ spared ∈ other.handle?, place channel.path ≠ spared.location :=
        fun spared hs => hplace ▸ ha handle hh spared hs
      obtain ⟨hplaced', hsame⟩ := hv.2.of_grows (hplace ▸ hplaces) hne grows
      exact ⟨ha, ⟨hplaced'.fits, hplaced'⟩, hsame⟩
    obtain ⟨closedRest, later, hcloseRest, hfiles, growsRest⟩ :=
      ih (h.tail.of_spares spares hapart)
    -- the shards that are still to be closed stand elsewhere, so this file stays as it is left
    have hkept : ¬ placesOf place rest (place channel.path) := by
      rintro ⟨other, ho, heq⟩
      exact hplaced.place_ne (h.tail.valid other ho).2 (hapart other ho) heq
    have hlast := (growsRest.file_iff hkept bytes).mpr (hbytes ▸ hfile)
    refine ⟨closed :: closedRest, later, ?_, .cons hlast hfiles, ?_⟩
    · simp only [ShardSet.closeEach, hclose, hcloseRest]
    · refine (grows.mono ?_).trans (growsRest.mono ?_)
      · rintro _ rfl
        exact ⟨channel, List.mem_cons_self, rfl⟩
      · rintro _ ⟨other, ho, rfl⟩
        exact ⟨other, List.mem_cons_of_mem _ ho, rfl⟩

/-- A set that is closed leaves behind what came to each of its files. -/
theorem close_set_placed {s : ShardSet FileChannel × World} {contents : List Bytes}
    (h : (placedView place places opened).Holds s contents) :
    ∃ closed later, ByteChannel.close s = (.ok (), closed, later) ∧
      List.Forall₂ (fun channel bytes =>
        later.disk.find? (place channel.path) = some (.file bytes)) s.1.shards contents ∧
      Disk.Grows (placesOf place s.1.shards) s.2.disk later.disk := by
  obtain ⟨⟨channels, isOpen⟩, world⟩ := s
  obtain rfl : isOpen = true := h.isOpen
  obtain ⟨closed, later, hclose, hfiles, grows⟩ := closeEach_placed h.each
  refine ⟨⟨closed, false⟩, later, ?_, hfiles, grows⟩
  change ShardSet.close ⟨channels, true⟩ world = _
  simp only [ShardSet.close, hclose]
  rfl

end FileChannel

/-! ## Opening -/

namespace LocalFiles

/-- The channel of a file that was just opened. -/
def openAt (location : Location) (path : String) : FileChannel :=
  ⟨path, some { location := location }⟩

theorem create_of_plain {path : String} (plain : Path.IsPlain path) {world later : World}
    {channel : FileChannel} (ordinary : world.disk.Ordinary)
    (h : FileChannel.create path world = (.ok channel, later)) :
    channel = openAt (world.disk.placeOf path) path ∧
      later.disk.find? (world.disk.placeOf path) = some (.file []) ∧ later.disk.Reaches path ∧
      Disk.Grows (· = world.disk.placeOf path) world.disk later.disk := by
  obtain ⟨location, disk, hcreate, rfl, rfl⟩ := FileChannel.create_eq_ok.mp h
  obtain ⟨rfl, hfile, reaches, grows⟩ := Disk.createFileIn_of_plain ordinary plain hcreate
  exact ⟨rfl, hfile, reaches, grows⟩

/-- The files of shards are opened at the places of their paths, and empty. -/
theorem openEach_of_plain {path : Nat → String} (plain : ∀ shard, Path.IsPlain (path shard))
    {shards : List Nat} {world opened : World} {channels : List FileChannel}
    (ordinary : world.disk.Ordinary)
    (h : openEach (fun shard => some (path shard)) shards world = (some (.ok channels), opened)) :
    channels = shards.map (fun shard => openAt (world.disk.placeOf (path shard)) (path shard)) ∧
      Disk.Grows (fun location => ∃ shard ∈ shards, location = world.disk.placeOf (path shard))
        world.disk opened.disk ∧
      ∀ shard ∈ shards, opened.disk.Reaches (path shard) ∧
        opened.disk.find? (world.disk.placeOf (path shard)) = some (.file []) := by
  induction shards generalizing world channels with
  | nil =>
    cases h
    exact ⟨rfl, .refl _ _, fun _ hs => nomatch hs⟩
  | cons shard rest ih =>
    simp only [openEach] at h
    split at h
    · cases h
    · rename_i channel next hcreate
      have hordinary : (world.record (.openingShard (path shard) shard)).disk.Ordinary := ordinary
      obtain ⟨rfl, hfile, reaches, grows⟩ := create_of_plain (plain shard) hordinary hcreate
      split at h
      · rename_i later others hrest
        cases h
        obtain ⟨rfl, growsRest, hothers⟩ := ih (grows.ordinary ordinary) hrest
        have hplace : ∀ other, next.disk.placeOf (path other) = world.disk.placeOf (path other) :=
          fun other => grows.placeOf (path other)
        simp only [hplace] at growsRest hothers ⊢
        refine ⟨rfl, (grows.mono ?_).trans (growsRest.mono ?_), ?_⟩
        · rintro _ rfl
          exact ⟨shard, List.mem_cons_self, rfl⟩
        · rintro _ ⟨other, ho, rfl⟩
          exact ⟨other, List.mem_cons_of_mem _ ho, rfl⟩
        · refine List.forall_mem_cons.mpr ⟨⟨reaches.mono growsRest, ?_⟩, hothers⟩
          -- the place may be opened again, which leaves it empty
          by_cases hagain : ∃ other ∈ rest,
              world.disk.placeOf (path shard) = world.disk.placeOf (path other)
          · obtain ⟨other, ho, heq⟩ := hagain
            rw [heq]
            exact (hothers other ho).2
          · exact (growsRest.file_iff hagain []).mpr hfile
      · cases h
      · cases h

/-- Files that were just opened, at different places, have received nothing. -/
theorem holdsEach_openAt {path : Nat → String} {place : String → Location}
    {places : Location → Prop} {world : World} {shards : Nat}
    (distinct : ∀ first < shards, ∀ second < shards,
      place (path first) = place (path second) → first = second)
    (opened : ∀ shard < shards, places (place (path shard)) ∧
      world.disk.find? (place (path shard)) = some (.file [])) :
    (FileChannel.placedView place places world.disk).HoldsEach
      ((List.range shards).map fun shard => openAt (place (path shard)) (path shard)) world
      (List.replicate shards []) where
  valid channel hc := by
    obtain ⟨shard, hs, rfl⟩ := List.mem_map.mp hc
    obtain ⟨hplaces, hempty⟩ := opened shard (List.mem_range.mp hs)
    have hplaced : FileChannel.Placed place places world.disk
        (openAt (place (path shard)) (path shard), world) :=
      ⟨⟨_, rfl, rfl, hplaces, [], hempty, rfl⟩, .refl _ _⟩
    exact ⟨hplaced.fits, hplaced⟩
  apart := by
    rw [List.pairwise_map]
    refine List.pairwise_lt_range.imp_of_mem ?_
    intro first second hf hs hlt handle hh other ho heq
    cases hh
    cases ho
    have hsame := distinct first (List.mem_range.mp hf) second (List.mem_range.mp hs) heq
    omega
  contents := by
    rw [List.map_map, List.eq_replicate_iff]
    refine ⟨by simp, ?_⟩
    intro bytes hb
    obtain ⟨shard, hs, rfl⟩ := List.mem_map.mp hb
    obtain ⟨-, hempty⟩ := opened shard (List.mem_range.mp hs)
    change FileHandle.received _ world.disk = []
    simp [FileHandle.received, FileHandle.writtenOut, hempty]

end LocalFiles

end ShardedLines
