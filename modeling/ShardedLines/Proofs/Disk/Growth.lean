import ShardedLines.Disk.Create
import ShardedLines.Proofs.Disk.Path

/-!
How a disk grows.

Nothing is ever taken off a disk (`Grows`): directories stay, what is somewhere stays there in some
form, and apart from some places that may be written to, files keep their bytes. So a path that led
somewhere goes on leading there (`walk_mono`). Directories and files are made at the places that
their paths have (`EntryAt`). A file that is created stands where the names of its path end, and is
empty (`createFileIn_of_plain`).
-/

namespace ShardedLines.Disk

open ShardedLines.Path (IsName ofNames)

/-- Where something stands, the top apart. -/
def locations (disk : Disk) : List Location :=
  disk.entries.map Prod.fst

/-- A disk of directories and regular files, each of them in one place and under a name. -/
structure Ordinary (disk : Disk) : Prop where
  nodup : disk.locations.Nodup
  isName : ∀ location ∈ disk.locations, ∀ name ∈ location.getLast?, IsName name
  noDevice : ∀ entry ∈ disk.entries, entry.2 ≠ .fullDevice

instance (disk : Disk) : Decidable disk.Ordinary :=
  decidable_of_iff (disk.locations.Nodup ∧
      (∀ location ∈ disk.locations, ∀ name ∈ location.getLast?, IsName name) ∧
        ∀ entry ∈ disk.entries, entry.2 ≠ .fullDevice)
    ⟨fun ⟨hnodup, hname, hdevice⟩ => ⟨hnodup, hname, hdevice⟩,
      fun h => ⟨h.nodup, h.isName, h.noDevice⟩⟩

/-- A disk of anything, each thing in one place and under a name. -/
structure Proper (disk : Disk) : Prop where
  nodup : disk.locations.Nodup
  isName : ∀ location ∈ disk.locations, ∀ name ∈ location.getLast?, IsName name

instance (disk : Disk) : Decidable disk.Proper :=
  decidable_of_iff (disk.locations.Nodup ∧
      ∀ location ∈ disk.locations, ∀ name ∈ location.getLast?, IsName name)
    ⟨fun ⟨hnodup, hname⟩ => ⟨hnodup, hname⟩, fun h => ⟨h.nodup, h.isName⟩⟩

theorem Ordinary.proper {disk : Disk} (h : disk.Ordinary) : disk.Proper :=
  ⟨h.nodup, h.isName⟩

/-- From one disk to another nothing was lost; files were written at these places alone, and
elsewhere no more than new directories came in. -/
structure Grows (places : Location → Prop) (before after : Disk) : Prop where
  here : after.here = before.here
  beside : ∀ location, ¬ places location →
    after.find? location = before.find? location ∨
      before.find? location = none ∧ after.find? location = some .directory
  directory : ∀ location, before.find? location = some .directory →
    after.find? location = some .directory
  present : ∀ location, (before.find? location).isSome → (after.find? location).isSome
  ordinary : before.Ordinary → after.Ordinary

variable {places : Location → Prop} {disk first second third : Disk}

/-! ## Putting nodes -/

theorem mem_locations {location : Location} (h : (disk.find? location).isSome) (hne : location ≠ []) :
    location ∈ disk.locations := by
  rw [find?, if_neg (by simpa using hne), List.lookup_isSome_iff] at h
  obtain ⟨entry, he, heq⟩ := h
  rw [eq_of_beq heq]
  exact List.mem_map_of_mem he

theorem ne_fullDevice (h : disk.Ordinary) (location : Location) :
    disk.find? location ≠ some .fullDevice := by
  rw [find?]
  split
  · simp
  · intro hfind
    obtain ⟨before, after, heq, _⟩ := List.lookup_eq_some_iff.mp hfind
    exact h.noDevice (location, .fullDevice) (by simp [heq]) rfl

theorem locations_put (location : Location) (node : Node) :
    (disk.put location node).locations =
      if location ∈ disk.locations then disk.locations else disk.locations ++ [location] := by
  change (putEntry location node disk.entries).map Prod.fst = _
  rw [locations]
  induction disk.entries with
  | nil => rfl
  | cons entry rest ih =>
    rw [putEntry]
    by_cases h : entry.1 = location
    · simp [h]
    · have hne : location ≠ entry.1 := Ne.symm h
      simp only [beq_iff_eq, h, if_false, List.map_cons, ih, List.mem_cons, hne, false_or]
      split <;> rfl

theorem mem_putEntry {location : Location} {node : Node} {entries : List (Location × Node)}
    {entry : Location × Node} (h : entry ∈ putEntry location node entries) :
    entry.2 = node ∨ entry ∈ entries := by
  induction entries with
  | nil =>
    rw [putEntry, List.mem_singleton] at h
    exact .inl (congrArg Prod.snd h)
  | cons other rest ih =>
    rw [putEntry] at h
    split at h
    · rcases List.mem_cons.mp h with rfl | h
      · exact .inl rfl
      · exact .inr (List.mem_cons_of_mem _ h)
    · rcases List.mem_cons.mp h with rfl | h
      · exact .inr List.mem_cons_self
      · exact (ih h).imp_right (List.mem_cons_of_mem _)

theorem Ordinary.put (h : disk.Ordinary) {location : Location} {node : Node}
    (hname : ∀ name ∈ location.getLast?, IsName name) (hnode : node ≠ .fullDevice) :
    (disk.put location node).Ordinary where
  nodup := by
    rw [locations_put]
    split
    · exact h.nodup
    · rename_i hn
      exact List.nodup_append.mpr ⟨h.nodup, by simp, by
        rintro other ho _ hs rfl
        exact hn (List.mem_singleton.mp hs ▸ ho)⟩
  isName other ho := by
    rw [locations_put] at ho
    split at ho
    · exact h.isName other ho
    · rcases List.mem_append.mp ho with ho | ho
      · exact h.isName other ho
      · exact List.mem_singleton.mp ho ▸ hname
  noDevice entry he := by
    rcases mem_putEntry he with hn | he
    · rwa [hn]
    · exact h.noDevice entry he

/-! ## Growth -/

theorem Grows.refl (places : Location → Prop) (disk : Disk) : Grows places disk disk where
  here := rfl
  beside _ _ := .inl rfl
  directory _ := id
  present _ := id
  ordinary := id

theorem Grows.trans (h : Grows places first second) (h' : Grows places second third) :
    Grows places first third where
  here := h'.here.trans h.here
  directory location hd := h'.directory location (h.directory location hd)
  present location hp := h'.present location (h.present location hp)
  ordinary ho := h'.ordinary (h.ordinary ho)
  beside location hl := by
    rcases h.beside location hl with hsame | ⟨hnone, hdir⟩
    · rcases h'.beside location hl with hsame' | ⟨hnone', hdir'⟩
      · exact .inl (hsame'.trans hsame)
      · exact .inr ⟨hsame ▸ hnone', hdir'⟩
    · exact .inr ⟨hnone, h'.directory location hdir⟩

theorem Grows.mono {more : Location → Prop} (h : Grows places first second)
    (hsub : ∀ location, places location → more location) : Grows more first second where
  here := h.here
  beside location hl := h.beside location fun hp => hl (hsub location hp)
  directory := h.directory
  present := h.present
  ordinary := h.ordinary

/-- No file outside of the places changes, comes or goes. -/
theorem Grows.file_iff (h : Grows places first second) {location : Location}
    (hl : ¬ places location) (contents : Bytes) :
    second.find? location = some (.file contents) ↔ first.find? location = some (.file contents) := by
  rcases h.beside location hl with hsame | ⟨hnone, hdir⟩
  · rw [hsame]
  · simp [hnone, hdir]

/-- A node may be put where no directory is: anything at one of the places, and a directory where
nothing is. The name may be an old one of an ordinary disk. -/
theorem Grows.put {location : Location} {node : Node} (hne : location ≠ [])
    (hold : disk.find? location ≠ some .directory)
    (allowed : places location ∨ disk.find? location = none ∧ node = .directory)
    (hname : disk.Ordinary → ∀ name ∈ location.getLast?, IsName name)
    (hnode : node ≠ .fullDevice) : Grows places disk (disk.put location node) where
  here := rfl
  ordinary h := h.put (hname h) hnode
  directory other hd := by
    have hother : other ≠ location := by
      rintro rfl
      exact hold hd
    rwa [find?_put disk node other hne, if_neg hother]
  present other hp := by
    rw [find?_put disk node other hne]
    split
    · rfl
    · exact hp
  beside other ho := by
    rw [find?_put disk node other hne]
    by_cases heq : other = location
    · subst heq
      obtain ⟨hnone, rfl⟩ := allowed.resolve_left ho
      exact .inr ⟨hnone, if_pos rfl⟩
    · exact .inl (if_neg heq)

theorem entryFor_eq_ok {directory entry : Location} {name : String}
    (h : disk.entryFor directory name = .ok entry) :
    entry = directory ++ [name] ∧ disk.find? directory = some .directory := by
  unfold entryFor at h
  split at h
  · cases h
  · split at h
    · cases h
    · rename_i hdir _
      cases h
      exact ⟨rfl, by simpa [isDirectoryAt] using hdir⟩

theorem entryFor_mono (h : Grows places first second) {directory entry : Location} {name : String}
    (he : first.entryFor directory name = .ok entry) : second.entryFor directory name = .ok entry := by
  obtain ⟨rfl, hdir⟩ := entryFor_eq_ok he
  have hdir' := h.directory directory hdir
  unfold entryFor isDirectoryAt at he ⊢
  rw [hdir] at he
  rw [hdir']
  exact he

/-! ## Where names lead -/

/-- From a location on, each name leads into the next directory, and the last to anything. -/
def Leads (disk : Disk) : Location → List String → Prop
  | _, [] => True
  | location, name :: rest =>
    disk.entryFor location name = .ok (location ++ [name]) ∧
      (disk.find? (location ++ [name])).isSome ∧ disk.Leads (location ++ [name]) rest

theorem leads_append {location : Location} {names more : List String} :
    disk.Leads location (names ++ more) ↔
      disk.Leads location names ∧ disk.Leads (location ++ names) more := by
  induction names generalizing location with
  | nil => simp [Leads]
  | cons name rest ih => simp [Leads, ih, and_assoc]

theorem leads_cons {location : Location} {name : String} {rest : List String} :
    disk.Leads location (name :: rest) ↔
      disk.Leads location [name] ∧ disk.Leads (location ++ [name]) rest := by
  simp [Leads, and_assoc]

theorem Leads.mono {location : Location} {names : List String} (h : first.Leads location names)
    (hg : Grows places first second) : second.Leads location names := by
  induction names generalizing location with
  | nil => trivial
  | cons name rest ih =>
    obtain ⟨hentry, hpresent, hrest⟩ := h
    exact ⟨entryFor_mono hg hentry, hg.present _ hpresent, ih hrest⟩

theorem enter_name_eq_ok {location next : Location} {name : String} :
    disk.enter location (.name name) = .ok next ↔
      disk.Leads location [name] ∧ next = location ++ [name] := by
  simp only [enter, Leads, and_true]
  constructor
  · intro h
    split at h
    · cases h
    · rename_i entry he
      obtain ⟨rfl, _⟩ := entryFor_eq_ok he
      split at h
      · rename_i hs
        cases h
        exact ⟨⟨he, hs⟩, rfl⟩
      · cases h
  · rintro ⟨⟨he, hs⟩, rfl⟩
    simp only [he, hs, if_true]

theorem walk_cons_eq_ok {location target : Location} {step : Component} {rest : List Component} :
    disk.walk location (step :: rest) = .ok target ↔
      ∃ next, disk.enter location step = .ok next ∧ disk.walk next rest = .ok target := by
  rw [walk]
  cases disk.enter location step <;> simp

theorem walk_append_eq_ok {location target : Location} {steps more : List Component} :
    disk.walk location (steps ++ more) = .ok target ↔
      ∃ next, disk.walk location steps = .ok next ∧ disk.walk next more = .ok target := by
  induction steps generalizing location with
  | nil => simp [walk]
  | cons step rest ih =>
    simp only [List.cons_append, walk_cons_eq_ok, ih]
    constructor
    · rintro ⟨middle, hstep, next, hrest, hmore⟩
      exact ⟨next, ⟨middle, hstep, hrest⟩, hmore⟩
    · rintro ⟨next, ⟨middle, hstep, hrest⟩, hmore⟩
      exact ⟨middle, hstep, next, hrest, hmore⟩

theorem walk_names_eq_ok {location target : Location} {names : List String} :
    disk.walk location (names.map .name) = .ok target ↔
      disk.Leads location names ∧ target = location ++ names := by
  induction names generalizing location with
  | nil => simp [walk, Leads, eq_comm]
  | cons name rest ih =>
    rw [List.map_cons, walk_cons_eq_ok, leads_cons]
    simp only [enter_name_eq_ok, ih]
    constructor
    · rintro ⟨next, ⟨hone, rfl⟩, hrest, rfl⟩
      exact ⟨⟨hone, hrest⟩, by simp⟩
    · rintro ⟨⟨hone, hrest⟩, rfl⟩
      exact ⟨_, ⟨hone, rfl⟩, hrest, by simp⟩

theorem walk_name_eq_ok {location target : Location} {name : String} :
    disk.walk location [.name name] = .ok target ↔
      disk.Leads location [name] ∧ target = location ++ [name] := by
  simpa using @walk_names_eq_ok disk location target [name]

/-! ## Where paths lead -/

theorem isDirectoryAt_iff {location : Location} :
    disk.isDirectoryAt location ↔ disk.find? location = some .directory := by
  rw [isDirectoryAt, beq_iff_eq]

theorem isDirectoryAt_mono (h : Grows places first second) {location : Location}
    (hd : first.isDirectoryAt location) : second.isDirectoryAt location :=
  isDirectoryAt_iff.mpr (h.directory location (isDirectoryAt_iff.mp hd))

theorem enter_mono (h : Grows places first second) {location next : Location} {step : Component}
    (hstep : first.enter location step = .ok next) : second.enter location step = .ok next := by
  cases step with
  | root | here => exact hstep
  | up =>
    rw [enter] at hstep ⊢
    split at hstep
    · rename_i hd
      rwa [if_pos (isDirectoryAt_mono h hd)]
    · cases hstep
  | name name =>
    rw [enter_name_eq_ok] at hstep ⊢
    exact ⟨hstep.1.mono h, hstep.2⟩

theorem walk_mono (h : Grows places first second) {location target : Location}
    {steps : List Component} (hwalk : first.walk location steps = .ok target) :
    second.walk location steps = .ok target := by
  induction steps generalizing location with
  | nil => exact hwalk
  | cons step rest ih =>
    obtain ⟨next, hstep, hrest⟩ := walk_cons_eq_ok.mp hwalk
    exact walk_cons_eq_ok.mpr ⟨next, enter_mono h hstep, ih hrest⟩

/-- Where a path starts. -/
def start (disk : Disk) (absolute : Bool) : Location :=
  if absolute then [] else disk.here

theorem Grows.start (h : Grows places first second) (absolute : Bool) :
    second.start absolute = first.start absolute := by
  rw [Disk.start, Disk.start, h.here]

variable {absolute : Bool} {names : List String}

theorem walk_start (steps : List Component) :
    disk.walk disk.here ((if absolute then [.root] else []) ++ steps) =
      disk.walk (disk.start absolute) steps := by
  cases absolute <;> rfl

theorem locate_ofNames (hne : names ≠ []) (h : ∀ name ∈ names, IsName name)
    (hrefusal : refusal? (ofNames absolute names) = none)
    (leads : disk.Leads (disk.start absolute) names) :
    disk.locate (ofNames absolute names) = .ok (disk.start absolute ++ names) := by
  have hwalk := walk_names_eq_ok.mpr ⟨leads, rfl⟩
  rw [locate, hrefusal, Path.components_ofNames hne h, walk_start, hwalk, Path.ending_ofNames hne h]
  rfl

/-! ## Creating -/

/-- The path ends with a name, and this is its place in the directory that the steps in front of
the name lead to. -/
structure EntryAt (disk : Disk) (path : String) (entry : Location) : Prop where
  accepted : refusal? path = none
  held : ∃ parent name, (Path.components path).getLast? = some (.name name) ∧
    disk.walk disk.here (Path.components path).dropLast = .ok parent ∧
      disk.entryFor parent name = .ok entry

namespace EntryAt

variable {path : String} {entry : Location}

theorem ne_nil (h : disk.EntryAt path entry) : entry ≠ [] := by
  obtain ⟨parent, name, -, -, hentry⟩ := h.held
  simp [(entryFor_eq_ok hentry).1]

theorem mono (h : first.EntryAt path entry) (hg : Grows places first second) :
    second.EntryAt path entry where
  accepted := h.accepted
  held := by
    obtain ⟨parent, name, hlast, hparent, hentry⟩ := h.held
    rw [hg.here]
    exact ⟨parent, name, hlast, walk_mono hg hparent, entryFor_mono hg hentry⟩

/-- The whole path leads to what is there. -/
theorem walk_eq_ok (h : disk.EntryAt path entry) (present : (disk.find? entry).isSome) :
    disk.walk disk.here (Path.components path) = .ok entry := by
  obtain ⟨parent, name, hlast, hparent, hentry⟩ := h.held
  obtain ⟨rfl, -⟩ := entryFor_eq_ok hentry
  rw [← List.dropLast_append_getLast? _ hlast, walk_append_eq_ok]
  exact ⟨parent, hparent, walk_name_eq_ok.mpr ⟨⟨hentry, present, trivial⟩, rfl⟩⟩

theorem locate_eq_ok (h : disk.EntryAt path entry) (hending : Path.ending path = .plain)
    (present : (disk.find? entry).isSome) : disk.locate path = .ok entry := by
  rw [locate, h.accepted, h.walk_eq_ok present]
  simp [hending]

theorem grows_put {node : Node} (h : disk.EntryAt path entry)
    (hold : disk.find? entry ≠ some .directory)
    (allowed : places entry ∨ disk.find? entry = none ∧ node = .directory)
    (hnode : node ≠ .fullDevice) : Grows places disk (disk.put entry node) := by
  refine .put h.ne_nil hold allowed (fun _ other ho => ?_) hnode
  obtain ⟨parent, name, hlast, -, hentry⟩ := h.held
  obtain ⟨rfl, -⟩ := entryFor_eq_ok hentry
  obtain rfl : name = other := by simpa using ho
  exact Path.isName_of_mem_components (List.mem_of_getLast? hlast)

end EntryAt

/-- A directory is made at a free place, or nothing changes. -/
theorem makeDirectory_cases (disk : Disk) (path : String) :
    (∃ fault, disk.makeDirectory path = (.error fault, disk)) ∨
      ∃ entry, disk.EntryAt path entry ∧ disk.find? entry = none ∧
        disk.makeDirectory path = (.ok (), disk.put entry .directory) := by
  unfold makeDirectory
  split
  · exact .inl ⟨_, rfl⟩
  · rename_i accepted
    split
    · exact .inl ⟨_, rfl⟩
    · rename_i parent hparent
      split
      · rename_i name hlast
        split
        · exact .inl ⟨_, rfl⟩
        · rename_i entry hentry
          split
          · exact .inl ⟨_, rfl⟩
          · rename_i hnone
            have hplace : disk.EntryAt path entry :=
              ⟨accepted, parent, name, hlast, hparent, hentry⟩
            exact .inr ⟨entry, hplace, by simpa using hnone, rfl⟩
      · split <;> exact .inl ⟨_, rfl⟩

theorem grows_makeDirectory (disk : Disk) (path : String) :
    Grows places disk (disk.makeDirectory path).2 := by
  rcases makeDirectory_cases disk path with ⟨fault, hmade⟩ | ⟨entry, hentry, hnone, hmade⟩
  · rw [hmade]
    exact .refl _ _
  · rw [hmade]
    exact hentry.grows_put (by simp [hnone]) (.inr ⟨hnone, rfl⟩) (by simp)

theorem disk_settleDirectory (path : String) (outcome : Outcome Disk Unit) :
    (settleDirectory path outcome).2 = outcome.2 := by
  obtain ⟨fault | _, disk⟩ := outcome
  · rw [settleDirectory]
    split <;> rfl
  · rfl

theorem grows_makeDirectoryIn (disk : Disk) (paths : List String) :
    Grows places disk (disk.makeDirectoryIn paths).2 := by
  induction paths generalizing disk with
  | nil => exact .refl _ _
  | cons path above ih =>
    have hmake : Grows places disk (disk.makeDirectory path).2 := grows_makeDirectory disk path
    rw [makeDirectoryIn]
    split
    · rename_i missing hmissing
      rw [hmissing] at hmake
      have habove := ih missing
      split
      · rename_i made hmade
        rw [hmade] at habove
        rw [disk_settleDirectory]
        exact (hmake.trans habove).trans (grows_makeDirectory made path)
      · exact hmake.trans habove
    · rw [disk_settleDirectory]
      exact hmake

/-- What opening a file for writing leaves at its place. -/
def emptied (disk : Disk) (location : Location) : Disk :=
  if disk.find? location = some .fullDevice then disk else disk.put location (.file [])

/-- A file is created at the place that its path has, unless a directory is there. -/
theorem createFile_eq_ok {path : String} {location : Location} {after : Disk} :
    disk.createFile path = (.ok location, after) ↔
      disk.EntryAt path location ∧ Path.ending path = .plain ∧
        disk.find? location ≠ some .directory ∧ after = disk.emptied location := by
  constructor
  · intro h
    unfold createFile at h
    split at h
    · cases h
    · rename_i accepted
      split at h
      · rename_i name hlast hending
        split at h
        · cases h
        · rename_i parent hparent
          split at h
          · cases h
          · rename_i entry hentry
            have hplace : disk.EntryAt path entry :=
              ⟨accepted, parent, name, hlast, hparent, hentry⟩
            split at h <;> rename_i hnode <;> cases h <;>
              exact ⟨hplace, hending, by simp [hnode], by simp [emptied, hnode]⟩
      · split at h
        · cases h
        · split at h <;> cases h
      · split at h <;> cases h
  · rintro ⟨⟨accepted, parent, name, hlast, hparent, hentry⟩, hending, hold, rfl⟩
    simp only [createFile, accepted, hlast, hending, hparent, hentry]
    rcases hnode : disk.find? location with _ | (_ | contents | _)
    · simp [emptied, hnode]
    · exact absurd hnode hold
    · simp [emptied, hnode]
    · simp [emptied, hnode]

theorem grows_createFile {path : String} {location : Location} {after : Disk}
    (h : disk.createFile path = (.ok location, after)) : Grows (· = location) disk after := by
  obtain ⟨hentry, -, hold, rfl⟩ := createFile_eq_ok.mp h
  rw [emptied]
  split
  · exact .refl _ _
  · exact hentry.grows_put hold (.inl rfl) (by simp)

/-- A file that was created stands where the names of its path lead, and is empty. -/
theorem createFile_ofNames (ordinary : disk.Ordinary) (hne : names ≠ [])
    (h : ∀ name ∈ names, IsName name) {location : Location} {after : Disk}
    (hcreate : disk.createFile (ofNames absolute names) = (.ok location, after)) :
    refusal? (ofNames absolute names) = none ∧ location = disk.start absolute ++ names ∧
      after.find? location = some (.file []) ∧ after.Leads (disk.start absolute) names ∧
      Grows (· = location) disk after := by
  have grows := grows_createFile hcreate
  obtain ⟨hentry, -, -, rfl⟩ := createFile_eq_ok.mp hcreate
  have hfound : (disk.emptied location).find? location = some (.file []) := by
    rw [emptied, if_neg (ne_fullDevice ordinary location), find?_put_self disk _ hentry.ne_nil]
  have hwalk := (hentry.mono grows).walk_eq_ok (Option.isSome_of_mem hfound)
  rw [Path.components_ofNames hne h, walk_start, walk_names_eq_ok, grows.start] at hwalk
  exact ⟨hentry.accepted, hwalk.2, hfound, hwalk.1, grows⟩

/-! ## Plain paths -/

/-- Where the names of a path end. -/
def placeOf (disk : Disk) (path : String) : Location :=
  disk.start (Path.isAbsolute path) ++ Path.names path

/-- The names of the path lead to something. -/
structure Reaches (disk : Disk) (path : String) : Prop where
  accepted : refusal? path = none
  leads : disk.Leads (disk.start (Path.isAbsolute path)) (Path.names path)

/-- Paths that start alike end at different places. -/
theorem placeOf_inj {path other : String} (hstart : Path.isAbsolute path = Path.isAbsolute other)
    (h : disk.placeOf path = disk.placeOf other) : path = other := by
  rw [placeOf, placeOf, hstart, List.append_cancel_left_eq] at h
  rw [← Path.ofNames_names path, hstart, h, Path.ofNames_names]

theorem Grows.placeOf (h : Grows places first second) (path : String) :
    second.placeOf path = first.placeOf path := by
  rw [Disk.placeOf, Disk.placeOf, h.start]

theorem Reaches.mono {path : String} (h : first.Reaches path) (hg : Grows places first second) :
    second.Reaches path where
  accepted := h.accepted
  leads := by
    rw [hg.start]
    exact h.leads.mono hg

theorem Reaches.locate_of_straight {path : String} (h : disk.Reaches path)
    (straight : Path.IsStraight path) : disk.locate path = .ok (disk.placeOf path) := by
  have hlocate := locate_ofNames (Path.names_ne_nil path) straight
    ((Path.ofNames_names path).symm ▸ h.accepted) h.leads
  rwa [Path.ofNames_names] at hlocate

theorem Reaches.locate {path : String} (h : disk.Reaches path) (plain : Path.IsPlain path) :
    disk.locate path = .ok (disk.placeOf path) :=
  h.locate_of_straight plain.isStraight

theorem reaches_of_isFile {path : String} (straight : Path.IsStraight path)
    (h : disk.isFile path = true) : disk.Reaches path := by
  rw [isFile, nodeAt?, Disk.locate] at h
  cases hrefusal : refusal? path with
  | some fault =>
    rw [hrefusal] at h
    cases h
  | none =>
    cases hwalk : disk.walk disk.here (Path.components path) with
    | error fault =>
      rw [hrefusal, hwalk] at h
      cases h
    | ok location =>
      rw [straight.components_eq, walk_start, walk_names_eq_ok] at hwalk
      exact ⟨hrefusal, hwalk.1⟩

/-- A file that is created with the directories above it stands where the names of its path end,
and is empty. -/
theorem createFileIn_of_plain (ordinary : disk.Ordinary) {path : String} (plain : Path.IsPlain path)
    {location : Location} {after : Disk}
    (hcreate : disk.createFileIn path = (.ok location, after)) :
    location = disk.placeOf path ∧ after.find? location = some (.file []) ∧ after.Reaches path ∧
      Grows (· = location) disk after := by
  -- the directories that are made first are no files, and lead nowhere else than before
  have hmake : Grows (· = location) disk
      (disk.makeDirectoryIn (Path.stages path).dropLast.reverse).2 :=
    grows_makeDirectoryIn disk _
  rw [createFileIn] at hcreate
  split at hcreate
  · cases hcreate
  · rename_i made hmade
    rw [hmade] at hmake
    rw [← Path.ofNames_names path] at hcreate
    obtain ⟨hrefusal, hlocation, hfile, leads, grows⟩ :=
      createFile_ofNames (hmake.ordinary ordinary) (Path.names_ne_nil path)
        plain.isStraight hcreate
    rw [Path.ofNames_names] at hrefusal
    have hstart := (hmake.trans grows).start (Path.isAbsolute path)
    rw [hmake.start] at hlocation leads
    exact ⟨hlocation, hfile, ⟨hrefusal, hstart.symm ▸ leads⟩, hmake.trans grows⟩

end ShardedLines.Disk
