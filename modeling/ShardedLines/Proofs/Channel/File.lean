import ShardedLines.Channel.File
import ShardedLines.Proofs.Channel.Shards
import ShardedLines.Proofs.Naming.Scan

/-!
Files as shards.

The handle of a regular file has received the bytes of the file up to its place, and those in its
buffer. A write adds to them all that it is given, whether the bytes stay in the buffer, go to the
file with it, or pass it; and no other file changes. Channels of different files can therefore be
the shards of one set. Where some are closed, or on a device without room, a write may fail, and then
it takes nothing (`FileChannel.faultyView`).

The files of shards are opened by their names. Where these cannot be formatted, opening ends before
the first of them (`LocalFiles.openShards_of_not_formats`).
-/

namespace ShardedLines

namespace Disk

theorem le_length_overlay (contents : Bytes) (offset : Nat) (bytes : Bytes) :
    offset + bytes.length ≤ (overlay contents offset bytes).length := by
  simp [overlay]
  omega

/-- What comes before the end of the new bytes: the old ones up to the offset, and the new ones. -/
theorem take_overlay {contents : Bytes} {offset : Nat} (h : offset ≤ contents.length)
    (bytes : Bytes) :
    (overlay contents offset bytes).take (offset + bytes.length) =
      contents.take offset ++ bytes := by
  have hpad : (contents.rightpad offset 0).take offset = contents.take offset := by
    rw [List.rightpad, List.take_append_of_le_length h]
  have hlen : (contents.take offset ++ bytes).length = offset + bytes.length := by
    simp [h]
  rw [overlay, hpad, ← hlen, List.take_left]

/-- Nothing but the file at this place has changed. -/
def SameBeside (location : Location) (before after : Disk) : Prop :=
  ∀ other, other ≠ location → after.find? other = before.find? other

theorem SameBeside.trans {location : Location} {first second third : Disk}
    (h : SameBeside location first second) (h' : SameBeside location second third) :
    SameBeside location first third :=
  fun other ho => (h' other ho).trans (h other ho)

theorem writeAt_file {disk : Disk} {location : Location} {contents : Bytes}
    (hf : disk.find? location = some (.file contents)) (offset : Nat) (bytes : Bytes) :
    ∃ next, disk.writeAt location offset bytes = (.ok (), next) ∧
      next.find? location = some (.file (overlay contents offset bytes)) ∧
      SameBeside location disk next := by
  have hl : location ≠ [] := by
    rintro rfl
    cases hf
  refine ⟨disk.put location (.file (overlay contents offset bytes)), ?_, ?_, ?_⟩
  · simp only [writeAt, hf]
  · exact find?_put_self disk _ hl
  · intro other ho
    rw [find?_put disk _ _ hl, if_neg ho]

end Disk

namespace FileHandle

/-- The handle is at a place in a regular file, or at its end. -/
def Fits (handle : FileHandle) (disk : Disk) : Prop :=
  ∃ contents, disk.find? handle.location = some (.file contents) ∧
    handle.offset ≤ contents.length

/-- The bytes up to the handle's place. -/
def writtenOut (handle : FileHandle) (disk : Disk) : Bytes :=
  match disk.find? handle.location with
  | some (.file contents) => contents.take handle.offset
  | _ => []

/-- What has come to the handle. -/
def received (handle : FileHandle) (disk : Disk) : Bytes :=
  handle.writtenOut disk ++ handle.pending

/-- From one state to another the handle received these bytes, and no other file changed. -/
structure Took (bytes : Bytes) (handle : FileHandle) (disk : Disk) (next : FileHandle)
    (later : Disk) : Prop where
  location : next.location = handle.location
  fits : next.Fits later
  received : next.received later = handle.received disk ++ bytes
  beside : Disk.SameBeside handle.location disk later

variable {handle : FileHandle} {disk : Disk}

theorem Took.trans {first second : Bytes} {next third : FileHandle} {later last : Disk}
    (h : Took first handle disk next later) (h' : Took second next later third last) :
    Took (first ++ second) handle disk third last where
  location := h'.location.trans h.location
  fits := h'.fits
  received := by rw [h'.received, h.received, List.append_assoc]
  beside := h.beside.trans (h.location ▸ h'.beside)

theorem writeOut_fits (h : handle.Fits disk) (bytes : Bytes) :
    ∃ later, handle.writeOut bytes disk =
        (.ok (), { handle with offset := handle.offset + bytes.length }, later) ∧
      { handle with offset := handle.offset + bytes.length }.Fits later ∧
      { handle with offset := handle.offset + bytes.length }.writtenOut later =
        handle.writtenOut disk ++ bytes ∧
      Disk.SameBeside handle.location disk later := by
  obtain ⟨contents, hf, ho⟩ := h
  obtain ⟨later, hw, hlater, hbeside⟩ := Disk.writeAt_file hf handle.offset bytes
  refine ⟨later, ?_, ⟨_, hlater, Disk.le_length_overlay ..⟩, ?_, hbeside⟩
  · simp only [writeOut, hw]
  · simp only [writtenOut, hlater, hf, Disk.take_overlay ho]

theorem flush_fits (h : handle.Fits disk) :
    ∃ next later, handle.flush disk = (.ok (), next, later) ∧ next.pending = [] ∧
      Took [] handle disk next later := by
  by_cases hp : handle.pending = []
  · refine ⟨handle, disk, ?_, hp, rfl, h, (List.append_nil _).symm, fun _ _ => rfl⟩
    simp [flush, hp]
  · obtain ⟨later, hw, hfits, hout, hbeside⟩ := writeOut_fits h handle.pending
    refine ⟨{ handle with offset := handle.offset + handle.pending.length, pending := [] }, later,
      ?_, rfl, rfl, hfits, ?_, hbeside⟩
    · simp [flush, hp, hw]
    · rw [received, received, List.append_nil, List.append_nil]
      exact hout

/-- Bytes that are too many for the buffer may pass it only when it is empty. -/
theorem add_fits (h : handle.Fits disk) (bytes : Bytes)
    (room : bytes.length < capacity ∨ handle.pending = []) :
    ∃ next later, handle.add bytes disk = (.ok bytes.length, next, later) ∧
      Took bytes handle disk next later := by
  by_cases hlt : bytes.length < capacity
  · refine ⟨{ handle with pending := handle.pending ++ bytes }, disk, ?_, rfl, h, ?_,
      fun _ _ => rfl⟩
    · rw [add, if_pos hlt]
    · exact (List.append_assoc ..).symm
  · obtain ⟨later, hw, hfits, hout, hbeside⟩ := writeOut_fits h bytes
    have hp : handle.pending = [] := room.resolve_left hlt
    refine ⟨{ handle with offset := handle.offset + bytes.length }, later, ?_, rfl, hfits, ?_,
      hbeside⟩
    · rw [add, if_neg hlt, hw]
    · rw [received, received, hout]
      simp [hp]

theorem write_fits (h : handle.Fits disk) (bytes : Bytes) :
    ∃ next later, handle.write bytes disk = (.ok bytes.length, next, later) ∧
      Took bytes handle disk next later := by
  by_cases hr : handle.pending.length + bytes.length ≤ capacity
  · rw [write, if_pos hr]
    refine add_fits h bytes ?_
    -- bytes that fill the buffer alone have room only in an empty one
    by_cases hlt : bytes.length < capacity
    · exact .inl hlt
    · exact .inr (List.eq_nil_of_length_eq_zero (by omega))
  · obtain ⟨flushed, disk', hflush, hp, htook⟩ := flush_fits h
    obtain ⟨next, later, hadd, htook'⟩ := add_fits htook.fits bytes (.inr hp)
    rw [write, if_neg hr, hflush]
    exact ⟨next, later, hadd, htook.trans htook'⟩

end FileHandle

namespace FileChannel

/-- A file that is created is open at its beginning, with nothing in the buffer. -/
theorem create_eq_ok {path : String} {world opened : World} {channel : FileChannel} :
    create path world = (.ok channel, opened) ↔
      ∃ location disk, world.disk.createFileIn path = (.ok location, disk) ∧
        channel = ⟨path, some { location := location }⟩ ∧ opened = { world with disk := disk } := by
  rw [create, World.onDisk]
  rcases world.disk.createFileIn path with ⟨fault | location, disk⟩
  · simp
  · simp only [Prod.mk.injEq, Except.ok.injEq]
    constructor
    · rintro ⟨rfl, rfl⟩
      exact ⟨location, disk, ⟨rfl, rfl⟩, rfl, rfl⟩
    · rintro ⟨_, _, ⟨rfl, rfl⟩, rfl, rfl⟩
      exact ⟨rfl, rfl⟩

/-- The channel is open on a regular file. -/
def Fits (s : FileChannel × World) : Prop :=
  ∃ handle, s.1.handle? = some handle ∧ handle.Fits s.2.disk

/-- What has come to an open channel. -/
def received (s : FileChannel × World) : Bytes :=
  s.1.handle?.elim [] (·.received s.2.disk)

/-- The channels are not open on one file. -/
def Apart (first second : FileChannel) : Prop :=
  ∀ handle ∈ first.handle?, ∀ other ∈ second.handle?, handle.location ≠ other.location

/-- A write takes all that it is offered, and touches no other file. -/
theorem write_fits {s : FileChannel × World} (h : Fits s) (buffer : Bytes) :
    ∃ handle next later, s.1.handle? = some handle ∧
      ByteChannel.write buffer s =
        (.ok buffer.length, { s.1 with handle? := some next }, { s.2 with disk := later }) ∧
      FileHandle.Took buffer handle s.2.disk next later := by
  obtain ⟨handle, hh, hfits⟩ := h
  obtain ⟨next, later, hw, htook⟩ := FileHandle.write_fits hfits buffer
  refine ⟨handle, next, later, hh, ?_, htook⟩
  change s.1.write buffer s.2 = _
  simp only [write, hh, hw]

theorem stream_of_took {channel : FileChannel} {world : World} {bytes : Bytes}
    {handle next : FileHandle} {later : Disk} (hh : channel.handle? = some handle)
    (took : FileHandle.Took bytes handle world.disk next later) :
    received ({ channel with handle? := some next }, { world with disk := later }) =
      received (channel, world) ++ bytes := by
  simp only [received, hh, Option.elim_some]
  exact took.received

/-- Channels of regular files, as shards of one set. -/
def shardView : ShardView FileChannel where
  stream := received
  valid := Fits
  accepted {s t buffer count} hs _ hw := by
    obtain ⟨handle, next, later, hh, hwrite, took⟩ := write_fits hs buffer
    rw [hwrite] at hw
    cases hw
    refine ⟨⟨next, rfl, took.fits⟩, ?_⟩
    rw [List.take_length]
    exact stream_of_took hh took
  refused {s t buffer fault} hs _ hw := by
    obtain ⟨handle, next, later, hh, hwrite, took⟩ := write_fits hs buffer
    rw [hwrite] at hw
    cases hw
  apart := Apart
  apart_symm h handle hh other ho := Ne.symm (h other ho handle hh)
  spares {s t buffer answer other} hs _ hw ha hv := by
    obtain ⟨handle, next, later, hh, hwrite, took⟩ := write_fits hs buffer
    rw [hwrite] at hw
    cases hw
    -- the other channel reads its own file alone, and that has not changed
    obtain ⟨spared, (hspared : other.handle? = some spared), contents, hf, ho⟩ := hv
    have hne : handle.location ≠ spared.location := ha handle hh spared hspared
    have hsame : later.find? spared.location = s.2.disk.find? spared.location :=
      took.beside spared.location (Ne.symm hne)
    refine ⟨?_, ⟨spared, hspared, contents, hsame.trans hf, ho⟩, ?_⟩
    · intro writer hwriter reader hreader
      obtain rfl : next = writer := Option.some.inj hwriter
      rw [took.location]
      exact ha handle hh reader hreader
    · simp only [received, hspared, Option.elim_some, FileHandle.received,
        FileHandle.writtenOut, hsame]

theorem shardView_steady : shardView.Steady := by
  intro s buffer hs hb
  obtain ⟨handle, next, later, _, hwrite, _⟩ := write_fits hs buffer
  rw [hwrite]
  exact List.length_pos_iff.mpr hb

end FileChannel

/-! ## Files that may fail -/

namespace FileHandle

variable {handle : FileHandle} {disk : Disk}

/-- The handle is in a regular file, or on a device without room. -/
def Stands (handle : FileHandle) (disk : Disk) : Prop :=
  handle.Fits disk ∨ disk.find? handle.location = some .fullDevice

theorem received_device (h : disk.find? handle.location = some .fullDevice) :
    handle.received disk = handle.pending := by
  simp [received, writtenOut, h]

/-- A device takes into the buffer what fits there, and nothing else. -/
theorem write_device (h : disk.find? handle.location = some .fullDevice) (bytes : Bytes) :
    handle.write bytes disk =
        (.ok bytes.length, { handle with pending := handle.pending ++ bytes }, disk) ∨
      handle.write bytes disk = (.error (.system .storageFull), handle, disk) := by
  have hout : ∀ bytes,
      handle.writeOut bytes disk = (.error (.system .storageFull), handle, disk) := by
    intro bytes
    simp [writeOut, Disk.writeAt, h]
  have hadd : handle.add bytes disk =
        (.ok bytes.length, { handle with pending := handle.pending ++ bytes }, disk) ∨
      handle.add bytes disk = (.error (.system .storageFull), handle, disk) := by
    rw [add, hout]
    split
    · exact .inl rfl
    · exact .inr rfl
  by_cases hr : handle.pending.length + bytes.length ≤ capacity
  · rw [write, if_pos hr]
    exact hadd
  · by_cases hp : handle.pending.isEmpty
    · rw [write, if_neg hr, flush, if_pos hp]
      exact hadd
    · rw [write, if_neg hr, flush, if_neg hp, hout]
      exact .inr rfl

/-- On a device the buffer cannot be written out, and even an empty one is not stored. -/
theorem finish_device (h : disk.find? handle.location = some .fullDevice) :
    ∃ fault, handle.finish disk = (.error fault, disk) := by
  by_cases hp : handle.pending.isEmpty
  · refine ⟨.system .invalidInput, ?_⟩
    simp [finish, flush, hp, Disk.sync, h]
  · refine ⟨.system .storageFull, ?_⟩
    simp [finish, flush, hp, writeOut, Disk.writeAt, h]

/-- A write takes all that it is offered, or fails for good and takes nothing. -/
theorem write_stands (h : handle.Stands disk) (bytes : Bytes) :
    ∃ answer next later taken, handle.write bytes disk = (answer, next, later) ∧
      (answer = .ok bytes.length ∧ taken = bytes ∨
        ∃ fault, answer = .error fault ∧ fault.isInterruption = false ∧ taken = []) ∧
      next.location = handle.location ∧ next.Stands later ∧
      next.received later = handle.received disk ++ taken ∧
      Disk.SameBeside handle.location disk later := by
  rcases h with hfits | hdevice
  · obtain ⟨next, later, hw, took⟩ := write_fits hfits bytes
    exact ⟨_, next, later, bytes, hw, .inl ⟨rfl, rfl⟩, took.location, .inl took.fits,
      took.received, took.beside⟩
  · rcases write_device hdevice bytes with hw | hw
    · refine ⟨_, _, _, bytes, hw, .inl ⟨rfl, rfl⟩, rfl, .inr hdevice, ?_, fun _ _ => rfl⟩
      rw [received_device hdevice]
      exact received_device hdevice
    · exact ⟨_, _, _, [], hw, .inr ⟨_, rfl, rfl, rfl⟩, rfl, .inr hdevice,
        (List.append_nil _).symm, fun _ _ => rfl⟩

/-- What happens to other files is nothing to a handle. -/
theorem Stands.of_same {later : Disk}
    (h : handle.Stands disk) (same : later.find? handle.location = disk.find? handle.location) :
    handle.Stands later ∧ handle.received later = handle.received disk := by
  constructor
  · rwa [Stands, Fits, same]
  · rw [received, received, writtenOut, writtenOut, same]

end FileHandle

namespace FileChannel

/-- The channel is closed, or it is open on a regular file or on a device without room. -/
def Stands (s : FileChannel × World) : Prop :=
  ∀ handle ∈ s.1.handle?, handle.Stands s.2.disk

theorem write_stands {s : FileChannel × World} (h : Stands s) (buffer : Bytes) :
    ∃ answer t taken, ByteChannel.write buffer s = (answer, t) ∧
      (answer = .ok buffer.length ∧ taken = buffer ∨
        ∃ fault, answer = .error fault ∧ fault.isInterruption = false ∧ taken = []) ∧
      Stands t ∧ received t = received s ++ taken ∧
      ∀ other, Apart s.1 other → Stands (other, s.2) →
        Apart t.1 other ∧ Stands (other, t.2) ∧ received (other, t.2) = received (other, s.2) := by
  obtain ⟨⟨path, handle?⟩, world⟩ := s
  cases handle? with
  | none =>
    exact ⟨_, _, [], rfl, .inr ⟨.channelClosed, rfl, rfl, rfl⟩, h, (List.append_nil _).symm,
      fun _ ha hs => ⟨ha, hs, rfl⟩⟩
  | some handle =>
    obtain ⟨answer, next, later, taken, hw, hanswer, hlocation, stands, hreceived, hbeside⟩ :=
      FileHandle.write_stands (h handle rfl) buffer
    refine ⟨answer, (⟨path, some next⟩, { world with disk := later }), taken, ?_, hanswer, ?_,
      hreceived, ?_⟩
    · change write buffer ⟨path, some handle⟩ world = _
      simp only [write, hw]
    · intro written hwritten
      cases hwritten
      exact stands
    · intro other ha hs
      have hsame : ∀ spared ∈ other.handle?,
          later.find? spared.location = world.disk.find? spared.location :=
        fun spared hspared => hbeside _ (Ne.symm (ha handle rfl spared hspared))
      refine ⟨?_, fun spared hspared => ((hs spared hspared).of_same (hsame spared hspared)).1, ?_⟩
      · intro written hwritten spared hspared
        cases hwritten
        rw [hlocation]
        exact ha handle rfl spared hspared
      · rcases hh : other.handle? with _ | spared
        · simp [received, hh]
        · simp only [received, hh, Option.elim_some]
          exact ((hs spared hh).of_same (hsame spared hh)).2

/-- Channels that may be closed, or on devices without room, as shards of one set. -/
def faultyView : ShardView FileChannel where
  stream := received
  valid := Stands
  accepted {s t buffer count} hs _ hw := by
    obtain ⟨answer, next, taken, hwrite, hanswer, stands, hreceived, -⟩ := write_stands hs buffer
    rw [hwrite] at hw
    cases hw
    rcases hanswer with ⟨hcount, rfl⟩ | ⟨fault, hfault, -⟩
    · cases hcount
      rw [List.take_length]
      exact ⟨stands, hreceived⟩
    · cases hfault
  refused {s t buffer fault} hs _ hw := by
    obtain ⟨answer, next, taken, hwrite, hanswer, stands, hreceived, -⟩ := write_stands hs buffer
    rw [hwrite] at hw
    cases hw
    rcases hanswer with ⟨hcount, -⟩ | ⟨other, hother, hfinal, rfl⟩
    · cases hcount
    · cases hother
      refine ⟨stands, hreceived.trans (List.append_nil _), fun hi => ?_⟩
      rw [hfinal] at hi
      cases hi
  apart := Apart
  apart_symm h handle hh other ho := Ne.symm (h other ho handle hh)
  spares {s t buffer answer other} hs _ hw ha hv := by
    obtain ⟨_, next, taken, hwrite, -, -, -, hspared⟩ := write_stands hs buffer
    rw [hwrite] at hw
    cases hw
    exact hspared other ha hv

/-! ## Devices alone -/

/-- The channel is open on a device without room. -/
def OnDevice (s : FileChannel × World) : Prop :=
  ∃ handle, s.1.handle? = some handle ∧ s.2.disk.find? handle.location = some .fullDevice

theorem onDevice_write (buffer : Bytes) {s : FileChannel × World} (h : OnDevice s) :
    OnDevice (ByteChannel.write buffer s).2 := by
  obtain ⟨⟨path, handle?⟩, world⟩ := s
  obtain ⟨handle, hh, hdevice⟩ := h
  obtain rfl : handle? = some handle := hh
  rcases FileHandle.write_device hdevice buffer with hw | hw
  · exact ⟨{ handle with pending := handle.pending ++ buffer }, by simp [ByteChannel.write, write, hw],
      by simpa [ByteChannel.write, write, hw] using hdevice⟩
  · exact ⟨handle, by simp [ByteChannel.write, write, hw],
      by simpa [ByteChannel.write, write, hw] using hdevice⟩

theorem onDevice_close {s : FileChannel × World} (h : OnDevice s) :
    ∃ fault, (ByteChannel.close s).1 = .error fault := by
  obtain ⟨⟨path, handle?⟩, world⟩ := s
  obtain ⟨handle, hh, hdevice⟩ := h
  obtain rfl : handle? = some handle := hh
  obtain ⟨fault, hfinish⟩ := FileHandle.finish_device hdevice
  exact ⟨fault, by simp [ByteChannel.close, close, World.onDisk, hfinish]⟩

end FileChannel

/-! ## Opening shards -/

namespace LocalFiles

variable {template destination : String} {shards : Nat} {world : World}

theorem openShards_of_not_formats (hpos : 0 < shards) (h : ¬ Naming.Formats template.toList) :
    openShards template destination shards world = (none, world) := by
  obtain ⟨more, rfl⟩ := Nat.exists_eq_add_of_le' hpos
  have hname : Naming.shardFile? destination template 0 (more + 1) = none :=
    Naming.shardFile?_eq_none_iff.mpr h
  simp [openShards, List.range_succ_eq_map, openEach, hname]

/-- Where shards have names, the files of these names are opened. -/
theorem openShards_of_names (hpos : 0 < shards) {path : Nat → String}
    (names : ∀ shard, Naming.shardFile? destination template shard shards = some (path shard)) :
    openShards template destination shards world =
      let opened := openEach (fun shard => some (path shard)) (List.range shards) world
      (opened.1.map (·.map fun channels => { shards := channels }), opened.2) := by
  have hsome : (shards == 0) = false := beq_false_of_ne (Nat.ne_of_gt hpos)
  simp only [openShards, hsome, names]
  rfl

/-- A set that was opened has a file for each shard, opened by its name. -/
theorem openEach_of_openShards_ok {set : ShardSet FileChannel} {later : World}
    (h : openShards template destination shards world = (some (.ok set), later)) :
    0 < shards ∧ Naming.Formats template.toList ∧ ∃ channels, set = { shards := channels } ∧
      openEach (fun shard => some (Naming.shardFile destination template shard shards))
        (List.range shards) world = (some (.ok channels), later) := by
  obtain rfl | hpos := Nat.eq_zero_or_pos shards
  · cases h
  by_cases hformats : Naming.Formats template.toList
  · refine ⟨hpos, hformats, ?_⟩
    rw [openShards_of_names hpos fun shard => hformats.shardFile?_eq destination shard shards] at h
    rcases hopen : openEach (fun shard => some (Naming.shardFile destination template shard shards))
      (List.range shards) world with ⟨_ | fault | channels, opened⟩
    all_goals
      rw [hopen] at h
      cases h
    exact ⟨channels, rfl, rfl⟩
  · rw [openShards_of_not_formats hpos hformats] at h
    cases h

end LocalFiles

end ShardedLines
