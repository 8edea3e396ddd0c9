import ShardedLines.Proofs.Channel.File
import ShardedLines.Proofs.Disk.Creation
import ShardedLines.Proofs.Disk.Listing
import ShardedLines.Proofs.Naming.Template

/-!
What the names of shards are good for.

Padding makes the order of the numbers that of the names, as long as it brings all numbers to one
width: up to `10 ^ width` shards are listed in order, and one more is listed in front of others
(`listed_in_order_iff`). Any number of shards have different names where the template has the letter
`S`. Where it has not, they have all one name, and one file is opened again and again
(`names_differ_iff`). All this is said of the names that there are: where a run is too long for a
number, no shard has one.
-/

namespace ShardedLines

namespace Naming

variable {stem template : String} {before after : List Char} {width : Nat}

/-! ## The listing order -/

/-- Where the paths of two shards are compared, the padded numbers decide. -/
theorem compare_shardFile_eq_lt (stem : String) (hS : 'S' ∈ template.toList) {first second : Nat}
    (hlt : ∀ x y, padded (firstWidth 'S' template.toList) first ++ x <
      padded (firstWidth 'S' template.toList) second ++ y) (shards : Nat) :
    Path.compare (shardFile stem template first shards)
      (shardFile stem template second shards) = .lt := by
  obtain ⟨front, back, hfill⟩ := exists_fill_eq (some shards) hS
  have hname : ∀ shard, shardFile stem template shard shards = String.ofList
      ((stem.toList ++ front) ++ padded (firstWidth 'S' template.toList) shard ++ back) := by
    intro shard
    rw [← String.toList_inj, toList_shardFile, hfill, String.toList_ofList]
    simp only [List.append_assoc]
  rw [hname, hname]
  exact Path.compare_eq_lt_of_digits (padded_ne_nil _ _) (fun _ => isDigit_of_mem_padded)
    (padded_ne_nil _ _) (fun _ => isDigit_of_mem_padded) hlt _ _

/-- A shard has a path exactly if both numbers can be formatted. Shards are then listed in their order
exactly if no number is wider than the padding. Paths are compared component by component, and names
by their bytes. -/
theorem listed_in_order_iff (stem : String)
    (htemplate : template.toList = before ++ List.replicate width 'S' ++ after)
    (hbefore : 'S' ∉ before) (hafter : after.head? ≠ some 'S') (hw : 1 ≤ width) (shards : Nat) :
    (∀ shard, (∃ path, shardFile? stem template shard shards = some path) ↔
      width ≤ maxWidth ∧ firstWidth 'N' template.toList ≤ maxWidth) ∧
    (∀ path : Nat → String,
      (∀ shard, shardFile? stem template shard shards = some (path shard)) →
        ((∀ first second, first < second → second < shards →
          Path.compare (path first) (path second) = .lt) ↔ shards ≤ 10 ^ width)) ∧
    ∀ p q, Path.compare p q = .lt ↔
      List.Lex Component.Before (Path.components p) (Path.components q) := by
  have hS : 'S' ∈ template.toList := by
    rw [htemplate]
    simp [Nat.ne_of_gt hw]
  have hwidth : firstWidth 'S' template.toList = width := by
    rw [htemplate, List.append_assoc, firstWidth_of_run hbefore hafter hw]
  refine ⟨fun shard => ?_, fun path names => ?_, Path.compare_eq_lt_iff⟩
  · rw [← hwidth]
    exact exists_shardFile?_iff
  · obtain ⟨-, rfl⟩ := eq_shardFile_of_names names
    have hlisted := @compare_shardFile_eq_lt template stem hS
    rw [hwidth] at hlisted
    constructor
    · intro hall
      by_contra hmore
      -- the first number that is too wide is listed in front of the last one that is not
      have hpos : 0 < 10 ^ width := Nat.pow_pos (by decide)
      have hback := hlisted (padded_pow_lt hw) shards
      exact Path.compare_ne_lt_of_lt hback (hall _ _ (by omega) (by omega))
    · intro hle first second hlt hsecond
      exact hlisted (padded_lt hw hlt (by omega)) shards

/-- Five digits order a hundred thousand shards, and not one more. -/
theorem listed_in_order_by_default :
    defaultTemplate.toList = ['-'] ++ List.replicate 5 'S' ++ "-of-NNNNN".toList ∧
      ∃ path more : Nat → String,
        (∀ shard, shardFile? "out" defaultTemplate shard 100000 = some (path shard)) ∧
        (∀ shard, shardFile? "out" defaultTemplate shard 100001 = some (more shard)) ∧
        (∀ first second, first < second → second < 100000 →
          Path.compare (path first) (path second) = .lt) ∧
        ¬ ∀ first second, first < second → second < 100001 →
          Path.compare (more first) (more second) = .lt := by
  have htemplate : defaultTemplate.toList = ['-'] ++ List.replicate 5 'S' ++ "-of-NNNNN".toList := by
    decide
  have hnumbers : 5 ≤ maxWidth ∧ firstWidth 'N' defaultTemplate.toList ≤ maxWidth := by decide
  have hlisted := listed_in_order_iff "out" htemplate (by decide) (by decide) (by decide)
  choose path hpath using fun shard => ((hlisted 100000).1 shard).mpr hnumbers
  choose more hmore using fun shard => ((hlisted 100001).1 shard).mpr hnumbers
  exact ⟨htemplate, path, more, hpath, hmore, ((hlisted 100000).2.1 path hpath).mpr (by decide),
    mt ((hlisted 100001).2.1 more hmore).mp (by decide)⟩

/-- A run of 65536 letters would order that many digits of shards, of which none has a path. -/
theorem no_path_to_list_of_overlong_run :
    overlong.toList = [] ++ List.replicate 65536 'S' ++ [] ∧
      ∀ shard, shardFile? "out" overlong shard 2 = none := by
  refine ⟨?_, fun shard => shardFile?_eq_none_iff.mpr not_formats_overlong⟩
  rw [overlong, String.toList_ofList, List.nil_append, List.append_nil, maxWidth]

/-! ## Names of different shards -/

theorem fill_of_notMem (shard? shards? : Option Nat) {template : List Char} (h : 'S' ∉ template) :
    fill shard? shards? template = fill none shards? template := by
  fun_induction fill shard? shards? template with
  | case1 => rw [fill]
  | case2 shards? c rest hS | case3 shards? c rest hS =>
    obtain rfl := eq_of_beq hS
    exact absurd List.mem_cons_self h
  | case4 shard? c rest hS hN shards ih =>
    have hrest : 'S' ∉ afterRun 'N' rest := fun hm =>
      h (List.mem_cons_of_mem c ((List.dropWhile_suffix _).mem hm))
    rw [ih hrest, fill, if_neg hS, if_pos hN]
  | case5 shard? c rest hS hN ih =>
    rw [ih (mt (List.mem_cons_of_mem c) h), fill, if_neg hS, if_pos hN]
  | case6 shard? shards? c rest hS hN ih =>
    rw [ih (mt (List.mem_cons_of_mem c) h), fill_other none _ hS hN]

/-- Without the letter the name says nothing of the shard. -/
theorem shardFile_of_notMem (stem : String) (h : 'S' ∉ template.toList) (first second shards : Nat) :
    shardFile stem template first shards = shardFile stem template second shards := by
  rw [shardFile, shardFile, fill_of_notMem (some first) _ h, fill_of_notMem (some second) _ h]

end Naming

/-! ## One name for all shards -/

namespace LocalFiles

/-- A file that was just created is created again as the same one, whatever is logged between. -/
theorem create_again {path : String} {world opened : World} {channel : FileChannel}
    (h : FileChannel.create path world = (.ok channel, opened)) (log : List Event) :
    FileChannel.create path { opened with log := log } = (.ok channel, { opened with log := log }) := by
  obtain ⟨location, disk, hcreate, rfl, rfl⟩ := FileChannel.create_eq_ok.mp h
  exact FileChannel.create_eq_ok.mpr ⟨location, disk, Disk.createFileIn_again hcreate, rfl, rfl⟩

theorem openEach_again {path : String} {world : World} {channel : FileChannel}
    (h : ∀ log, FileChannel.create path { world with log := log } =
      (.ok channel, { world with log := log })) (shards : List Nat) (log : List Event) :
    openEach (fun _ => some path) shards { world with log := log } =
      (some (.ok (List.replicate shards.length channel)),
        { world with log := log ++ shards.map (.openingShard path) }) := by
  induction shards generalizing log with
  | nil => simp [openEach]
  | cons shard rest ih =>
    simp only [openEach, World.record, h, ih]
    simp [List.replicate_succ]

/-- Where all shards have one name, its file is opened once for each of them, unless the first time
fails. -/
theorem openShards_of_same {template destination name : String} {shards : Nat} (h : 0 < shards)
    (hname : ∀ shard, Naming.shardFile? destination template shard shards = some name)
    (world : World) :
    (∀ channel opened,
      FileChannel.create name (world.record (.openingShard name 0)) = (.ok channel, opened) →
      openShards template destination shards world =
        (some (.ok { shards := List.replicate shards channel }),
          { opened with log := world.log ++ (List.range shards).map (.openingShard name) })) ∧
      ∀ fault left,
        FileChannel.create name (world.record (.openingShard name 0)) = (.error fault, left) →
        openShards template destination shards world = (some (.error fault), left) := by
  have hopen := @openShards_of_names template destination shards world h _ hname
  obtain ⟨more, rfl⟩ := Nat.exists_eq_add_of_le' h
  rw [hopen]
  refine ⟨fun channel opened hcreate => ?_, fun fault left hcreate => ?_⟩
  · obtain ⟨location, disk, -, -, rfl⟩ := FileChannel.create_eq_ok.mp hcreate
    have hrest := openEach_again (create_again hcreate) ((List.range more).map Nat.succ)
      (world.record (.openingShard name 0)).log
    simp only [List.range_succ_eq_map, openEach, hcreate]
    rw [hrest]
    simp [World.record, List.replicate_succ, Except.map]
  · simp only [List.range_succ_eq_map, openEach, hcreate]
    rfl

end LocalFiles

/-- Where the numbers cannot be formatted no shard has a name, and opening is a panic. Otherwise all
shards have names, which are different exactly if the template has the letter `S`. If it has not, all
have one name, and the file of this name is opened once for each of them, or not at all. -/
theorem names_differ_iff (stem template : String) {shards : Nat} (h : 2 ≤ shards) :
    (¬ Naming.Formats template.toList →
      (∀ shard, Naming.shardFile? stem template shard shards = none) ∧
        ∀ world, LocalFiles.openShards template stem shards world = (none, world)) ∧
    (Naming.Formats template.toList → ∃ name : Nat → String,
      (∀ shard, Naming.shardFile? stem template shard shards = some (name shard)) ∧
      ((∀ first < shards, ∀ second < shards, first ≠ second → name first ≠ name second) ↔
        'S' ∈ template.toList) ∧
      ('S' ∉ template.toList → (∀ shard, name shard = name 0) ∧
        ∀ world,
          (∀ channel opened,
            FileChannel.create (name 0) (world.record (.openingShard (name 0) 0)) =
              (.ok channel, opened) →
            LocalFiles.openShards template stem shards world =
              (some (.ok { shards := List.replicate shards channel }),
                { opened with
                  log := world.log ++ (List.range shards).map (.openingShard (name 0)) })) ∧
          ∀ fault left,
            FileChannel.create (name 0) (world.record (.openingShard (name 0) 0)) =
              (.error fault, left) →
            LocalFiles.openShards template stem shards world = (some (.error fault), left))) := by
  have hpos : 0 < shards := by omega
  constructor
  · intro hformats
    exact ⟨fun shard => Naming.shardFile?_eq_none_iff.mpr hformats,
      fun world => LocalFiles.openShards_of_not_formats hpos hformats⟩
  · intro hformats
    refine ⟨fun shard => Naming.shardFile stem template shard shards,
      fun shard => hformats.shardFile?_eq stem shard shards, ⟨fun hall => ?_, ?_⟩, fun hS => ?_⟩
    · by_contra hS
      exact hall 0 (by omega) 1 (by omega) Nat.zero_ne_one (Naming.shardFile_of_notMem stem hS ..)
    · intro hS first _ second _ hne heq
      exact hne (Naming.shardFile_injective stem hS shards heq)
    · have hname := fun shard => Naming.shardFile_of_notMem stem hS shard 0 shards
      refine ⟨hname, LocalFiles.openShards_of_same hpos fun shard => ?_⟩
      rw [hformats.shardFile?_eq, hname shard]

/-- Without the letter three shards are three handles of one file, and with it they are apart. -/
theorem names_differ_iff_of_three :
    2 ≤ 3 ∧ Naming.Formats "-of-N".toList ∧ 'S' ∉ "-of-N".toList ∧
      Naming.Formats "-S".toList ∧ 'S' ∈ "-S".toList ∧
      (∃ name : Nat → String,
        (∀ shard, Naming.shardFile? "out" "-S" shard 3 = some (name shard)) ∧
          ∀ first < 3, ∀ second < 3, first ≠ second → name first ≠ name second) ∧
      ∃ opened, LocalFiles.openShards "-of-N" "out" 3 ⟨.fresh, []⟩ =
        (some (.ok { shards :=
          List.replicate 3 ⟨"out-of-3", some { location := ["work", "out-of-3"] }⟩ }), opened) := by
  have hformats : Naming.Formats "-of-N".toList ∧ Naming.Formats "-S".toList := by decide
  have hnamed : 'S' ∈ "-S".toList := by decide
  have hunnamed : 'S' ∉ "-of-N".toList := by decide
  obtain ⟨name, hname, -, hsame⟩ :=
    (names_differ_iff "out" "-of-N" (by decide : 2 ≤ 3)).2 hformats.1
  obtain ⟨names, hnames, hdiffer, -⟩ :=
    (names_differ_iff "out" "-S" (by decide : 2 ≤ 3)).2 hformats.2
  have hfirst : name 0 = "out-of-3" := by
    have hcomputed : Naming.shardFile? "out" "-of-N" 0 3 = some "out-of-3" := by decide +kernel
    exact Option.some.inj ((hname 0).symm.trans hcomputed)
  have hopen := (hsame hunnamed).2 ⟨.fresh, []⟩
  rw [hfirst] at hopen
  obtain ⟨opened, hcreate⟩ : ∃ opened, FileChannel.create "out-of-3"
      (World.record ⟨.fresh, []⟩ (.openingShard "out-of-3" 0)) =
        (.ok ⟨"out-of-3", some { location := ["work", "out-of-3"] }⟩, opened) :=
    ⟨_, Prod.ext (by rfl) rfl⟩
  exact ⟨by decide, hformats.1, hunnamed, hformats.2, hnamed, ⟨names, hnames, hdiffer.mpr hnamed⟩, _,
    hopen.1 _ opened hcreate⟩

/-- The template has the letter, 65536 times in a row, and two shards have no names to differ. -/
theorem no_names_to_differ_of_overlong_run :
    'S' ∈ Naming.overlong.toList ∧ (∀ shard, Naming.shardFile? "out" Naming.overlong shard 2 = none) ∧
      LocalFiles.openShards Naming.overlong "out" 2 ⟨.fresh, []⟩ = (none, ⟨.fresh, []⟩) := by
  refine ⟨?_, fun shard => Naming.shardFile?_eq_none_iff.mpr Naming.not_formats_overlong,
    LocalFiles.openShards_of_not_formats (by decide) Naming.not_formats_overlong⟩
  rw [Naming.overlong, String.toList_ofList, List.mem_replicate]
  exact ⟨Nat.succ_ne_zero _, rfl⟩

end ShardedLines
