import ShardedLines.Proofs.Channel.File
import ShardedLines.Proofs.Disk.Creation
import ShardedLines.Sink.Open

/-!
Opening the files of shards, up to the first that cannot be created.

Files are created one after the other (`Created`), each with the directories above it. So far as
they could be, their paths lead to empty files, and no other file has changed (`Emptied`), also where
a later path needs what an earlier one made, or runs through a file that an earlier one left. A path
whose file cannot be created may leave directories behind, and nothing else
(`grows_of_createFileIn_error`). Where the names cannot be formatted no file is tried, and opening
panics (`openShards_eq_none_iff`).
-/

namespace ShardedLines

namespace Disk

variable {places : Location → Prop} {disk first second after : Disk}

/-! ## One file -/

/-- A disk of directories and regular files. -/
def Regular (disk : Disk) : Prop :=
  ∀ location, disk.find? location ≠ some .fullDevice

/-- New directories are no devices. -/
theorem Regular.of_grows (h : first.Regular) (grows : Grows (fun _ => False) first second) :
    second.Regular := by
  intro location hdevice
  rcases grows.beside location id with hsame | ⟨-, hdir⟩
  · exact h location (hsame ▸ hdevice)
  · rw [hdir] at hdevice
    cases hdevice

/-- A file that cannot be created leaves the disk as it is. -/
theorem createFile_error {path : String} {fault : Fault}
    (h : disk.createFile path = (.error fault, after)) : after = disk := by
  unfold createFile at h
  split at h
  · cases h
    rfl
  · split at h
    · split at h
      · cases h
        rfl
      · split at h
        · cases h
          rfl
        · split at h <;> cases h
          rfl
    · split at h
      · cases h
        rfl
      · split at h <;> cases h <;> rfl
    · split at h <;> cases h <;> rfl

theorem grows_of_createFileIn_error {path : String} {fault : Fault}
    (h : disk.createFileIn path = (.error fault, after)) : Grows (fun _ => False) disk after := by
  have hmake : Grows (fun _ => False) disk
      (disk.makeDirectoryIn (Path.stages path).dropLast.reverse).2 :=
    grows_makeDirectoryIn disk _
  rw [createFileIn] at h
  split at h
  · rename_i made hmade
    rw [hmade] at hmake
    cases h
    exact hmake
  · rename_i made hmade
    rw [hmade] at hmake
    exact createFile_error h ▸ hmake

/-- The path leads to an empty file at this place. -/
structure IsEmptyFile (disk : Disk) (path : String) (location : Location) : Prop where
  entry : disk.EntryAt path location
  ending : Path.ending path = .plain
  empty : disk.find? location = some (.file [])

theorem IsEmptyFile.locate_eq {path : String} {location : Location}
    (h : disk.IsEmptyFile path location) : disk.locate path = .ok location :=
  h.entry.locate_eq_ok h.ending (Option.isSome_of_mem h.empty)

theorem IsEmptyFile.contentsOf_eq {path : String} {location : Location}
    (h : disk.IsEmptyFile path location) : disk.contentsOf path = .ok [] := by
  simp only [contentsOf, h.locate_eq, h.empty]

theorem createFileIn_of_regular (regular : disk.Regular) {path : String} {location : Location}
    (h : disk.createFileIn path = (.ok location, after)) :
    after.Regular ∧ after.IsEmptyFile path location ∧ Grows (· = location) disk after := by
  have hmake : ∀ {places}, Grows places disk
      (disk.makeDirectoryIn (Path.stages path).dropLast.reverse).2 :=
    fun {_} => grows_makeDirectoryIn disk _
  obtain ⟨hentry, hending, -⟩ := entryAt_of_createFileIn h
  rw [createFileIn] at h
  split at h
  · cases h
  · rename_i made hmade
    rw [hmade] at hmake
    have hregular : made.Regular := regular.of_grows hmake
    have grows := grows_createFile h
    obtain ⟨-, -, -, rfl⟩ := createFile_eq_ok.mp h
    have hput : made.emptied location = made.put location (.file []) := by
      rw [emptied, if_neg (hregular location)]
    rw [hput] at hentry grows ⊢
    refine ⟨?_, ⟨hentry, hending, find?_put_self made _ hentry.ne_nil⟩, hmake.trans grows⟩
    intro other
    rw [find?_put made _ other hentry.ne_nil]
    split
    · simp
    · exact hregular other

/-! ## One file after the other -/

/-- The files of some shards can be created in turn, which leads from one disk to another. -/
inductive Created (path : Nat → String) : List Nat → Disk → Disk → Prop where
  | nil {disk : Disk} : Created path [] disk disk
  | cons {shard : Nat} {rest : List Nat} {disk next last : Disk} {location : Location} :
      disk.createFileIn (path shard) = (.ok location, next) → Created path rest next last →
      Created path (shard :: rest) disk last

/-- The file of a shard is the first that cannot be created. -/
structure FirstFailure (path : Nat → String) (shards : Nat) (disk : Disk) (shard : Nat)
    (fault : Fault) (left : Disk) : Prop where
  lt : shard < shards
  failed : ∃ middle, Created path (List.range shard) disk middle ∧
    middle.createFileIn (path shard) = (.error fault, left)

/-- The paths of the shards lead to empty files, and no file changed elsewhere. -/
structure Emptied (path : Nat → String) (shards : List Nat) (before after : Disk) : Prop where
  regular : after.Regular
  empty : ∀ shard ∈ shards, ∃ location, after.IsEmptyFile (path shard) location
  grows : Grows (fun location => ∃ shard ∈ shards, after.locate (path shard) = .ok location)
    before after

variable {path : Nat → String} {shards : List Nat}

theorem Created.emptied {last : Disk} (h : Created path shards disk last) (regular : disk.Regular) :
    Emptied path shards disk last := by
  induction h with
  | nil => exact ⟨regular, fun _ hs => absurd hs List.not_mem_nil, .refl _ _⟩
  | @cons shard rest disk next last location hcreate _ ih =>
    obtain ⟨hregular, hfile, grows⟩ := createFileIn_of_regular regular hcreate
    have hrest := ih hregular
    have hentry := hfile.entry.mono hrest.grows
    -- a later path may lead to the same file, which it then leaves empty, too
    have hempty : last.find? location = some (.file []) := by
      by_cases h : ∃ later ∈ rest, last.locate (path later) = .ok location
      · obtain ⟨later, hmem, hlocate⟩ := h
        obtain ⟨place, hplace⟩ := hrest.empty later hmem
        obtain rfl := Except.ok.inj (hplace.locate_eq.symm.trans hlocate)
        exact hplace.empty
      · exact (hrest.grows.file_iff h []).mpr hfile.empty
    have hlast : last.IsEmptyFile (path shard) location := ⟨hentry, hfile.ending, hempty⟩
    refine ⟨hrest.regular, List.forall_mem_cons.mpr ⟨⟨location, hlast⟩, hrest.empty⟩, ?_⟩
    refine (grows.mono ?_).trans (hrest.grows.mono ?_)
    · rintro _ rfl
      exact ⟨shard, List.mem_cons_self, hlast.locate_eq⟩
    · intro place ⟨later, hmem, hlocate⟩
      exact ⟨later, List.mem_cons_of_mem _ hmem, hlocate⟩

theorem IsEmptyFile.of_grows {path : String} {location : Location}
    (h : first.IsEmptyFile path location) (grows : Grows (fun _ => False) first second) :
    second.IsEmptyFile path location :=
  ⟨h.entry.mono grows, h.ending, (grows.file_iff id []).mpr h.empty⟩

/-- What cannot be created adds no more than directories to what was. -/
theorem Emptied.of_grows (h : Emptied path shards disk first)
    (grows : Grows (fun _ => False) first second) : Emptied path shards disk second := by
  refine ⟨h.regular.of_grows grows, ?_, (h.grows.mono ?_).trans (grows.mono fun _ => False.elim)⟩
  · intro shard hs
    obtain ⟨location, hfile⟩ := h.empty shard hs
    exact ⟨location, hfile.of_grows grows⟩
  · intro location ⟨shard, hs, hlocate⟩
    obtain ⟨place, hfile⟩ := h.empty shard hs
    obtain rfl := Except.ok.inj (hfile.locate_eq.symm.trans hlocate)
    exact ⟨shard, hs, (hfile.of_grows grows).locate_eq⟩

theorem FirstFailure.emptied {shards shard : Nat} {fault : Fault} {left : Disk}
    (h : FirstFailure path shards disk shard fault left) (regular : disk.Regular) :
    Emptied path (List.range shard) disk left := by
  obtain ⟨middle, hcreated, hfailed⟩ := h.failed
  exact (hcreated.emptied regular).of_grows (grows_of_createFileIn_error hfailed)

/-- All files can be created, or there is a first that cannot. -/
theorem created_or_failed (path : Nat → String) (shards : List Nat) (disk : Disk) :
    (∃ last, Created path shards disk last) ∨
      ∃ done shard rest middle fault left, shards = done ++ shard :: rest ∧
        Created path done disk middle ∧
        middle.createFileIn (path shard) = (.error fault, left) := by
  induction shards generalizing disk with
  | nil => exact .inl ⟨disk, .nil⟩
  | cons shard rest ih =>
    rcases hcreate : disk.createFileIn (path shard) with ⟨fault | location, next⟩
    · exact .inr ⟨[], shard, rest, disk, fault, next, rfl, .nil, hcreate⟩
    · rcases ih next with ⟨last, hlast⟩ | ⟨done, failed, behind, middle, fault, left, hrest, hdone,
        hfailed⟩
      · exact .inl ⟨last, .cons hcreate hlast⟩
      · exact .inr ⟨shard :: done, failed, behind, middle, fault, left,
          congrArg (shard :: ·) hrest, .cons hcreate hdone, hfailed⟩

theorem created_or_firstFailure (path : Nat → String) (shards : Nat) (disk : Disk) :
    (∃ last, Created path (List.range shards) disk last) ∨
      ∃ shard fault left, FirstFailure path shards disk shard fault left := by
  rcases created_or_failed path (List.range shards) disk with hall | ⟨done, shard, rest, middle,
    fault, left, hrange, hdone, hfailed⟩
  · exact .inl hall
  · have hlength := congrArg List.length hrange
    simp only [List.length_range, List.length_append, List.length_cons] at hlength
    have hlt : done.length < shards := by omega
    have hshard : shard = done.length := by
      have hget := congrArg (·[done.length]?) hrange
      simpa [hlt] using hget.symm
    have hdone_eq : done = List.range shard := by
      have htake := congrArg (List.take done.length) hrange
      rw [List.take_left, List.take_range, Nat.min_eq_left (Nat.le_of_lt hlt)] at htake
      rw [hshard, htake]
    exact .inr ⟨shard, fault, left, hshard ▸ hlt, middle, hdone_eq ▸ hdone, hfailed⟩

end Disk

/-! ## Opening -/

namespace LocalFiles

open Disk (Created FirstFailure)

variable {path : Nat → String} {shards : List Nat} {world : World}

/-- What is logged as some shards are opened. -/
def openings (path : Nat → String) (shards : List Nat) : List Event :=
  shards.map fun shard => .openingShard (path shard) shard

theorem openEach_cons_of_ok {shard : Nat} {location : Location} {next : Disk}
    (h : world.disk.createFileIn (path shard) = (.ok location, next)) {rest : List Nat}
    {answer : Except Fault (List FileChannel)} {later : World}
    (hrest : openEach (fun shard => some (path shard)) rest
      ⟨next, world.log ++ openings path [shard]⟩ = (some answer, later)) :
    openEach (fun shard => some (path shard)) (shard :: rest) world =
      (some (answer.map (⟨path shard, some { location }⟩ :: ·)), later) := by
  have hcreate : FileChannel.create (path shard) (world.record (.openingShard (path shard) shard)) =
      (.ok ⟨path shard, some { location }⟩, ⟨next, world.log ++ openings path [shard]⟩) :=
    FileChannel.create_eq_ok.mpr ⟨location, next, h, rfl, rfl⟩
  simp only [openEach, hcreate, hrest]
  cases answer <;> rfl

theorem openEach_cons_of_error {shard : Nat} {fault : Fault} {left : Disk}
    (h : world.disk.createFileIn (path shard) = (.error fault, left)) (rest : List Nat) :
    openEach (fun shard => some (path shard)) (shard :: rest) world =
      (some (.error fault), ⟨left, world.log ++ openings path [shard]⟩) := by
  have hdisk : (world.record (.openingShard (path shard) shard)).disk.createFileIn (path shard) =
      (.error fault, left) := h
  simp only [openEach, FileChannel.create, World.onDisk, hdisk]
  rfl

theorem openEach_of_created {last : Disk} (h : Created path shards world.disk last) :
    ∃ channels, openEach (fun shard => some (path shard)) shards world =
      (some (.ok channels), ⟨last, world.log ++ openings path shards⟩) := by
  generalize hdisk : world.disk = disk at h
  induction h generalizing world with
  | nil =>
    subst hdisk
    exact ⟨[], by simp [openEach, openings]⟩
  | @cons shard rest disk next last location hcreate _ ih =>
    subst hdisk
    obtain ⟨channels, hrest⟩ := @ih ⟨next, world.log ++ openings path [shard]⟩ rfl
    refine ⟨⟨path shard, some { location }⟩ :: channels, ?_⟩
    rw [openEach_cons_of_ok hcreate hrest, List.append_assoc]
    rfl

theorem openEach_of_failed {done : List Nat} {middle : Disk}
    (h : Created path done world.disk middle) {shard : Nat} {fault : Fault} {left : Disk}
    (hfailed : middle.createFileIn (path shard) = (.error fault, left)) (rest : List Nat) :
    openEach (fun shard => some (path shard)) (done ++ shard :: rest) world =
      (some (.error fault), ⟨left, world.log ++ openings path (done ++ [shard])⟩) := by
  generalize hdisk : world.disk = disk at h
  induction h generalizing world with
  | nil =>
    subst hdisk
    exact openEach_cons_of_error hfailed rest
  | @cons shard rest disk next last location hcreate _ ih =>
    subst hdisk
    have hrest := @ih ⟨next, world.log ++ openings path [shard]⟩ hfailed rfl
    rw [List.cons_append, openEach_cons_of_ok hcreate hrest, List.append_assoc]
    rfl

variable {template destination : String} {shards : Nat}

section Names

variable (hpos : 0 < shards)
  (names : ∀ shard, Naming.shardFile? destination template shard shards = some (path shard))

include hpos names

theorem openShards_of_created {last : Disk}
    (h : Created path (List.range shards) world.disk last) :
    ∃ set later, openShards template destination shards world = (some (.ok set), later) := by
  obtain ⟨channels, hopen⟩ := openEach_of_created h
  rw [openShards_of_names hpos names, hopen]
  exact ⟨_, _, rfl⟩

theorem openShards_of_firstFailure {shard : Nat} {fault : Fault} {left : Disk}
    (h : FirstFailure path shards world.disk shard fault left) :
    openShards template destination shards world = (some (.error fault),
      ⟨left, world.log ++ openings path (List.range (shard + 1))⟩) := by
  obtain ⟨middle, hcreated, hfailed⟩ := h.failed
  have hrange : List.range shards = List.range shard ++ shard ::
      (List.range (shards - (shard + 1))).map (shard + 1 + ·) := by
    have hsum : shards = shard + 1 + (shards - (shard + 1)) := by
      have hlt := h.lt
      omega
    rw [hsum, List.range_add, List.range_succ, List.append_assoc, Nat.add_sub_cancel_left]
    rfl
  have hopen := openEach_of_failed hcreated hfailed
    ((List.range (shards - (shard + 1))).map (shard + 1 + ·))
  rw [← hrange, ← List.range_succ] at hopen
  rw [openShards_of_names hpos names, hopen]
  rfl

/-- All files are created and the set is the answer, or the first failure is. -/
theorem openShards_cases (world : World) :
    (∃ last set later, Created path (List.range shards) world.disk last ∧
      openShards template destination shards world = (some (.ok set), later)) ∨
    ∃ shard fault left later, FirstFailure path shards world.disk shard fault left ∧
      openShards template destination shards world = (some (.error fault), later) := by
  rcases Disk.created_or_firstFailure path shards world.disk with
    ⟨last, hall⟩ | ⟨shard, fault, left, hfailure⟩
  · obtain ⟨set, later, hok⟩ := openShards_of_created hpos names hall
    exact .inl ⟨last, set, later, hall, hok⟩
  · exact .inr ⟨shard, fault, left, _, hfailure, openShards_of_firstFailure hpos names hfailure⟩

theorem openShards_ok_iff :
    (∃ set later, openShards template destination shards world = (some (.ok set), later)) ↔
      ∃ last, Created path (List.range shards) world.disk last := by
  constructor
  · rintro ⟨set, later, hok⟩
    rcases openShards_cases hpos names world with
      ⟨last, _, _, hall, -⟩ | ⟨_, _, _, _, -, herror⟩
    · exact ⟨last, hall⟩
    · cases hok.symm.trans herror
  · rintro ⟨last, hall⟩
    exact openShards_of_created hpos names hall

theorem firstFailure_of_openShards {fault : Fault} {later : World}
    (h : openShards template destination shards world = (some (.error fault), later)) :
    ∃ shard left, FirstFailure path shards world.disk shard fault left := by
  rcases openShards_cases hpos names world with
    ⟨_, _, _, -, hok⟩ | ⟨shard, _, left, _, hfailure, herror⟩
  · cases h.symm.trans hok
  · cases h.symm.trans herror
    exact ⟨shard, left, hfailure⟩

end Names

/-- Opening panics exactly where there are shards to be named and a number cannot be formatted. -/
theorem openShards_eq_none_iff :
    (openShards template destination shards world).1 = none ↔
      0 < shards ∧ ¬ Naming.Formats template.toList := by
  constructor
  · intro h
    obtain rfl | hpos := Nat.eq_zero_or_pos shards
    · cases h
    · refine ⟨hpos, fun hformats => ?_⟩
      have names := fun shard => hformats.shardFile?_eq destination shard shards
      rcases openShards_cases hpos names world with ⟨_, _, _, -, hok⟩ | ⟨_, _, _, _, -, herror⟩
      · rw [hok] at h
        cases h
      · rw [herror] at h
        cases h
  · intro ⟨hpos, hformats⟩
    rw [openShards_of_not_formats hpos hformats]

end LocalFiles

namespace TextSink

variable {α κ τ : Type} {sink : TextSink α κ τ}

variable {processors : Nat} {world later : World}

section Local

variable (hlocal : sink.factory? = none)

include hlocal

theorem openShardingWriter_of_ok {set : ShardSet FileChannel}
    (h : LocalFiles.openShards sink.shardTemplate sink.destination (sink.resolvedShards processors)
      world = (some (.ok set), later)) (router : Router) :
    sink.openShardingWriter router processors world =
      (some (.ok (sink.shardingWriter router, .inl set)),
        later.record (.shardingWriterOpened sink.destination (sink.resolvedShards processors))) := by
  simp only [openShardingWriter, openShards, hlocal, LocalFiles.factory, h]
  rfl

theorem openShardingWriter_of_error {fault : Fault}
    (h : LocalFiles.openShards sink.shardTemplate sink.destination (sink.resolvedShards processors)
      world = (some (.error fault), later)) (router : Router) :
    sink.openShardingWriter router processors world =
      (some (.error ⟨sink.destination, some (sink.resolvedShards processors), fault⟩), later) := by
  simp only [openShardingWriter, openShards, hlocal, LocalFiles.factory, h]
  rfl

theorem openShardingWriter_of_panic
    (h : LocalFiles.openShards sink.shardTemplate sink.destination (sink.resolvedShards processors)
      world = (none, later)) (router : Router) :
    sink.openShardingWriter router processors world = (none, later) := by
  simp only [openShardingWriter, openShards, hlocal, LocalFiles.factory, h]
  rfl

end Local

theorem openWriter_of_sharded (hsharded : sink.sharded = true)
    {answer? : Option (Except OpenFault (ShardingWriter α × (ShardSet FileChannel ⊕ τ)))}
    (h : sink.openShardingWriter .fromFirst processors world = (answer?, later)) :
    sink.openWriter processors world =
      (answer?.map (·.map fun writer => .sharding writer.1 writer.2), later) := by
  rw [openWriter, if_pos hsharded, h]

end TextSink

/-- Local files need a shard. Where the numbers cannot be formatted, opening panics before the first
file. Otherwise the shards have paths: they are opened if the files of all shards can be created in
turn, and if not, the first failure is the answer: nothing is tried behind it, the paths in front of
it lead to empty files, and no file changed or came that is not at one of these paths. A sink that
cannot open its files has no writer to give, and hands the fault on with what was tried. -/
theorem openShards_upto_first_failure (template destination : String) (shards : Nat) {world : World}
    (regular : world.disk.Regular) :
    let opened := LocalFiles.openShards template destination shards world
    (shards = 0 → opened = (some (.error .noShards), world) ∧ Fault.noShards.kind = .invalidInput) ∧
    (opened.1 = none ↔ 0 < shards ∧ ¬ Naming.Formats template.toList) ∧
    (opened.1 = none → opened.2 = world) ∧
    (∀ path : Nat → String,
      (∀ shard, Naming.shardFile? destination template shard shards = some (path shard)) →
      (0 < shards → ((∃ set later, opened = (some (.ok set), later)) ↔
        ∃ last, Disk.Created path (List.range shards) world.disk last)) ∧
      (∀ shard fault left, Disk.FirstFailure path shards world.disk shard fault left →
        opened = (some (.error fault),
          ⟨left, world.log ++ LocalFiles.openings path (List.range (shard + 1))⟩) ∧
        (∀ earlier < shard, left.contentsOf (path earlier) = .ok []) ∧
        ∀ location, (∀ earlier < shard, left.locate (path earlier) ≠ .ok location) → ∀ contents,
          (left.find? location = some (.file contents) ↔
            world.disk.find? location = some (.file contents))) ∧
      ∀ fault later, opened = (some (.error fault), later) → 0 < shards →
        ∃ shard left, Disk.FirstFailure path shards world.disk shard fault left) ∧
    ∀ (α κ τ : Type) (sink : TextSink α κ τ) (processors : Nat), sink.factory? = none →
      sink.destination = destination → sink.shardTemplate = template →
      sink.resolvedShards processors = shards →
      (∀ fault later, opened = (some (.error fault), later) →
        (∀ router, sink.openShardingWriter router processors world =
          (some (.error ⟨destination, some shards, fault⟩), later)) ∧
        (sink.sharded = true → sink.openWriter processors world =
          (some (.error ⟨destination, some shards, fault⟩), later))) ∧
      (opened.1 = none →
        (∀ router, sink.openShardingWriter router processors world = (none, world)) ∧
        (sink.sharded = true → sink.openWriter processors world = (none, world))) := by
  intro opened
  have hpanic : opened.1 = none → opened.2 = world := by
    intro h
    obtain ⟨hpos, hformats⟩ := LocalFiles.openShards_eq_none_iff.mp h
    exact congrArg Prod.snd (LocalFiles.openShards_of_not_formats hpos hformats)
  refine ⟨?_, LocalFiles.openShards_eq_none_iff, hpanic, ?_, ?_⟩
  · rintro rfl
    exact ⟨rfl, rfl⟩
  · intro path names
    refine ⟨fun hpos => LocalFiles.openShards_ok_iff hpos names, ?_, fun fault later herror hpos =>
      LocalFiles.firstFailure_of_openShards hpos names herror⟩
    intro shard fault left h
    have hpos : 0 < shards := Nat.zero_lt_of_lt h.lt
    have emptied := h.emptied regular
    refine ⟨LocalFiles.openShards_of_firstFailure hpos names h, ?_, ?_⟩
    · intro earlier hlt
      obtain ⟨location, hfile⟩ := emptied.empty earlier (List.mem_range.mpr hlt)
      exact hfile.contentsOf_eq
    · intro location hother contents
      refine emptied.grows.file_iff ?_ contents
      rintro ⟨earlier, hmem, hlocate⟩
      exact hother earlier (List.mem_range.mp hmem) hlocate
  · rintro α κ τ sink processors hlocal rfl rfl rfl
    constructor
    · intro fault later herror
      have hwriter := TextSink.openShardingWriter_of_error hlocal herror
      exact ⟨hwriter, fun hsharded => TextSink.openWriter_of_sharded hsharded (hwriter .fromFirst)⟩
    · intro h
      have hwriter := TextSink.openShardingWriter_of_panic hlocal (Prod.ext h (hpanic h))
      exact ⟨hwriter, fun hsharded => TextSink.openWriter_of_sharded hsharded (hwriter .fromFirst)⟩

/-- The file of the first shard, which was there before, stands in the way of the second. -/
theorem openShards_upto_first_failure_through_file :
    let sink : TextSink String Empty Empty :=
      { TextSink.create "out/" true none none .text with
        numShards? := some 2, shardTemplate := "S/../1" }
    let disk : Disk := ⟨[(["work"], .directory), (["work", "out"], .directory),
      (["work", "out", "1"], .file (utf8 "b")), (["work", "a"], .file (utf8 "a"))], ["work"]⟩
    disk.Regular ∧ ∃ later,
      sink.openWriter 4 ⟨disk, []⟩ =
        (some (.error ⟨"out/", some 2, .system .notADirectory⟩), later) ∧
      later.disk.contentsOf "out/0/../1" = .ok [] ∧
      later.disk.find? ["work", "a"] = some (.file (utf8 "a")) := by
  intro sink disk
  have regular : disk.Regular := Disk.ne_fullDevice (by decide)
  have hformats : Naming.Formats "S/../1".toList := by decide
  let path (shard : Nat) := Naming.shardFile "out/" "S/../1" shard 2
  have names : ∀ shard, Naming.shardFile? "out/" "S/../1" shard 2 = some (path shard) :=
    fun shard => hformats.shardFile?_eq "out/" shard 2
  have hfirst : path 0 = "out/0/../1" := by decide +kernel
  have hsecond : path 1 = "out/1/../1" := by decide +kernel
  let made : Disk := ⟨[(["work"], .directory), (["work", "out"], .directory),
    (["work", "out", "1"], .file []), (["work", "a"], .file (utf8 "a")),
    (["work", "out", "0"], .directory)], ["work"]⟩
  have hmade : disk.createFileIn "out/0/../1" = (.ok ["work", "out", "1"], made) := rfl
  have hstopped : made.createFileIn "out/1/../1" = (.error (.system .notADirectory), made) := rfl
  have hfailure : Disk.FirstFailure path 2 disk 1 (.system .notADirectory) made :=
    ⟨by decide, made, .cons (by rwa [hfirst]) .nil, by rwa [hsecond]⟩
  obtain ⟨-, -, -, hpaths, hsinks⟩ :=
    @openShards_upto_first_failure "S/../1" "out/" 2 ⟨disk, []⟩ regular
  obtain ⟨hopened, hempty, hkept⟩ := (hpaths path names).2.1 1 _ made hfailure
  have hemptied : made.contentsOf (path 0) = .ok [] := hempty 0 (by decide)
  have hwriter := (hsinks _ _ _ sink 4 rfl rfl rfl rfl).1 _ _ hopened
  have hother : ∀ earlier < 1, made.locate (path earlier) ≠ .ok ["work", "a"] := by
    intro earlier hlt
    obtain rfl : earlier = 0 := by omega
    have hlocate : made.locate "out/0/../1" = .ok ["work", "out", "1"] := rfl
    rw [hfirst, hlocate]
    decide
  exact ⟨regular, _, hwriter.2 rfl, hfirst ▸ hemptied, (hkept _ hother (utf8 "a")).mpr rfl⟩

/-- Where the run is too long, neither the files nor the sink's writer are opened, and there is no
fault that says so. -/
theorem no_answer_to_open_of_overlong_run :
    let sink : TextSink String Empty Empty :=
      { TextSink.create "out" true none none .text with
        numShards? := some 1, shardTemplate := Naming.overlong }
    LocalFiles.openShards Naming.overlong "out" 1 ⟨.fresh, []⟩ = (none, ⟨.fresh, []⟩) ∧
      sink.openWriter 1 ⟨.fresh, []⟩ = (none, ⟨.fresh, []⟩) := by
  intro sink
  have hopened : LocalFiles.openShards sink.shardTemplate sink.destination (sink.resolvedShards 1)
      ⟨.fresh, []⟩ = (none, ⟨.fresh, []⟩) :=
    LocalFiles.openShards_of_not_formats Nat.one_pos Naming.not_formats_overlong
  exact ⟨hopened, TextSink.openWriter_of_sharded rfl
    (TextSink.openShardingWriter_of_panic rfl hopened .fromFirst)⟩

end ShardedLines
