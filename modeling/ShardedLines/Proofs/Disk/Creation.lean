import ShardedLines.Proofs.Disk.Growth

/-!
Files that are created again.

A file that can be created can be created again: the directories above it are there
(`isDirectory_of_makeDirectoryIn`), so they are not made again, and an empty file or a device is left
as it is (`createFileIn_again`).
-/

namespace ShardedLines.Disk

variable {places : Location → Prop} {disk first second after : Disk}

/-! ## Directories that are there -/

/-- A path stands for a directory where its steps lead to one. -/
theorem isDirectory_iff {path : String} :
    disk.isDirectory path ↔ refusal? path = none ∧
      ∃ location, disk.walk disk.here (Path.components path) = .ok location ∧
        disk.isDirectoryAt location := by
  rw [isDirectory, nodeAt?, locate, beq_iff_eq]
  cases refusal? path with
  | some fault => simp
  | none =>
    cases disk.walk disk.here (Path.components path) with
    | error fault => simp
    | ok location =>
      by_cases hd : disk.isDirectoryAt location
      · simp [hd, isDirectoryAt_iff.mp hd]
      · have hne : disk.find? location ≠ some .directory := mt isDirectoryAt_iff.mpr hd
        cases hp : Path.ending path == .plain <;> simp [hd, hne]

theorem isDirectory_mono (h : Grows places first second) {path : String}
    (hd : first.isDirectory path) : second.isDirectory path := by
  obtain ⟨accepted, location, hwalk, hdir⟩ := isDirectory_iff.mp hd
  refine isDirectory_iff.mpr ⟨accepted, location, ?_, isDirectoryAt_mono h hdir⟩
  rw [h.here]
  exact walk_mono h hwalk

theorem isDirectory_of_makeDirectory {path : String}
    (h : disk.makeDirectory path = (.ok (), after)) : after.isDirectory path := by
  have grows : Grows (fun _ => False) disk (disk.makeDirectory path).2 :=
    grows_makeDirectory disk path
  rcases makeDirectory_cases disk path with ⟨fault, hmade⟩ | ⟨entry, hentry, -, hmade⟩
  · rw [hmade] at h
    cases h
  · rw [hmade] at h grows
    cases h
    have hfound := find?_put_self disk .directory hentry.ne_nil
    exact isDirectory_iff.mpr ⟨hentry.accepted, entry,
      (hentry.mono grows).walk_eq_ok (Option.isSome_of_mem hfound), isDirectoryAt_iff.mpr hfound⟩

theorem isDirectory_of_settleDirectory {path : String} {outcome : Outcome Disk Unit}
    (hmade : ∀ disk, outcome = (.ok (), disk) → disk.isDirectory path)
    (h : settleDirectory path outcome = (.ok (), after)) : after.isDirectory path := by
  obtain ⟨fault | _, disk⟩ := outcome
  · rw [settleDirectory] at h
    split at h
    · rename_i hd
      cases h
      exact hd
    · cases h
  · cases h
    exact hmade after rfl

theorem isDirectory_of_makeDirectoryIn {path : String} {above : List String}
    (h : disk.makeDirectoryIn (path :: above) = (.ok (), after)) : after.isDirectory path := by
  have hmade : ∀ {first second}, makeDirectory first path = (.ok (), second) →
      second.isDirectory path := isDirectory_of_makeDirectory
  rw [makeDirectoryIn] at h
  split at h
  · split at h
    · exact isDirectory_of_settleDirectory (fun _ => hmade) h
    · rename_i hfailed
      exact absurd h (hfailed after)
  · exact isDirectory_of_settleDirectory (fun _ => hmade) h

/-- A directory that is there is not made again. -/
theorem makeDirectoryIn_of_isDirectory {path : String} (h : disk.isDirectory path)
    (above : List String) : disk.makeDirectoryIn (path :: above) = (.ok (), disk) := by
  obtain ⟨accepted, location, hwalk, hdir⟩ := isDirectory_iff.mp h
  -- the steps lead there, so no directory above is missing
  obtain ⟨fault, hrefused, hfault⟩ : ∃ fault, disk.makeDirectory path = (.error fault, disk) ∧
      fault ≠ .system .notFound := by
    rw [makeDirectory, accepted]
    cases hlast : (Path.components path).getLast? with
    | none =>
      rw [List.getLast?_eq_none_iff.mp hlast]
      by_cases hhere : disk.isDirectoryAt disk.here <;> simp [walk, hhere]
    | some last =>
      rw [← List.dropLast_append_getLast? _ hlast] at hwalk
      obtain ⟨parent, hparent, henter⟩ := walk_append_eq_ok.mp hwalk
      cases last with
      | name name =>
        obtain ⟨⟨hentry, hpresent, -⟩, -⟩ := walk_name_eq_ok.mp henter
        simp [hparent, hentry, hpresent]
      | root | here | up =>
        by_cases hd : disk.isDirectoryAt parent <;> simp [hparent, hd]
  rw [makeDirectoryIn, hrefused]
  split
  · rename_i hmissing
    cases hmissing
    exact absurd rfl hfault
  · rw [settleDirectory, if_pos h]

/-! ## Files that are there -/

theorem put_put (location : Location) (node : Node) :
    (disk.put location node).put location node = disk.put location node := by
  have hentries : ∀ entries, putEntry location node (putEntry location node entries) =
      putEntry location node entries := by
    intro entries
    induction entries with
    | nil => simp [putEntry]
    | cons entry rest ih =>
      rw [putEntry]
      split
      · simp [putEntry]
      · rename_i hne
        rw [putEntry, if_neg hne, ih]
  change Disk.mk (putEntry _ _ (putEntry _ _ _)) disk.here = _
  rw [hentries]
  rfl

theorem createFile_again {path : String} {location : Location}
    (h : disk.createFile path = (.ok location, after)) :
    after.createFile path = (.ok location, after) := by
  have grows := grows_createFile h
  obtain ⟨hentry, hending, hold, rfl⟩ := createFile_eq_ok.mp h
  refine createFile_eq_ok.mpr ⟨hentry.mono grows, hending, ?_⟩
  by_cases hdevice : disk.find? location = some .fullDevice
  · simp [emptied, hdevice]
  · simp [emptied, hdevice, find?_put_self disk _ hentry.ne_nil, put_put]

/-- A file that was just created is created again at the same place, and nothing changes. -/
theorem createFileIn_again {path : String} {location : Location}
    (h : disk.createFileIn path = (.ok location, after)) :
    after.createFileIn path = (.ok location, after) := by
  rw [createFileIn] at h ⊢
  split at h
  · cases h
  · rename_i made hmade
    have grows := grows_createFile h
    have hthere : after.makeDirectoryIn (Path.stages path).dropLast.reverse = (.ok (), after) := by
      cases hstages : (Path.stages path).dropLast.reverse with
      | nil => rfl
      | cons directory above =>
        rw [hstages] at hmade
        exact makeDirectoryIn_of_isDirectory
          (isDirectory_mono grows (isDirectory_of_makeDirectoryIn hmade)) above
    rw [hthere]
    exact createFile_again h

/-- What was just created is at the place of its path, an empty file or a device. -/
theorem entryAt_of_createFileIn {path : String} {location : Location}
    (h : disk.createFileIn path = (.ok location, after)) :
    after.EntryAt path location ∧ Path.ending path = .plain ∧
      (after.find? location = some (.file []) ∨ after.find? location = some .fullDevice) := by
  rw [createFileIn] at h
  split at h
  · cases h
  · obtain ⟨hentry, hending, -, hsame⟩ := createFile_eq_ok.mp (createFile_again h)
    refine ⟨hentry, hending, ?_⟩
    by_cases hdevice : after.find? location = some .fullDevice
    · exact .inr hdevice
    · left
      rw [hsame, emptied, if_neg hdevice, find?_put_self _ _ hentry.ne_nil]

end ShardedLines.Disk
