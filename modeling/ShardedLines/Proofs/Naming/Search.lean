import ShardedLines.Proofs.Disk.Expand
import ShardedLines.Proofs.Disk.Listing
import ShardedLines.Proofs.Naming.Template

/-!
Finding the files of shards.

The search for shard files uses the pattern of a stem and a template. A template is one of the texts
that its pattern stands for (`standsFor_self`), so where stem and template are plain, so is each
segment of the pattern, and the search finds the regular files of the pattern's form, and nothing
else, in one strict order (`shardFiles_exact`).
-/

namespace ShardedLines

namespace Naming

theorem bracketed_slash_notMem_shardTokens (stem template : String) :
    .bracketed '/' ∉ shardTokens stem template := by
  have htoken : ∀ c, .bracketed '/' ≠ Pattern.token c := by
    intro c
    unfold Pattern.token
    split
    · rintro ⟨⟩
      contradiction
    · simp
  have htemplate : ∀ starred text, .bracketed '/' ∉ templateTokens starred text := by
    intro starred text
    induction text generalizing starred with
    | nil => simp [templateTokens]
    | cons c rest ih =>
      by_cases hc : IsLetter c
      · rw [templateTokens_letter hc]
        cases starred <;> simp [ih]
      · rw [templateTokens_kept hc]
        simp [htoken, ih]
  rw [shardTokens, List.mem_append, List.mem_map]
  rintro (⟨c, -, hc⟩ | hm)
  · exact htoken c hc.symm
  · exact htemplate false template.toList hm

theorem isAbsolute_shardTokens (stem template : String) :
    Pattern.isAbsolute (shardTokens stem template) = Path.isAbsolute (stem ++ template) := by
  have htoken : ∀ c, Pattern.token c = .plain '/' ↔ c = '/' := by
    intro c
    unfold Pattern.token
    split
    · rename_i hs
      simp only [reduceCtorEq, false_iff]
      rintro rfl
      exact absurd hs (by decide)
    · simp
  rw [Pattern.isAbsolute, Path.isAbsolute, String.toList_append, Bool.eq_iff_iff, beq_iff_eq,
    beq_iff_eq, shardTokens]
  cases stem.toList with
  | cons c rest => simp [htoken]
  | nil =>
    rw [List.map_nil, List.nil_append, List.nil_append]
    cases template.toList with
    | nil => simp [templateTokens]
    | cons c rest =>
      by_cases hc : IsLetter c
      · have hslash : c ≠ '/' := by
          rintro rfl
          simp [IsLetter] at hc
        rw [templateTokens_letter hc]
        simp [hslash]
      · rw [templateTokens_kept hc]
        simp [htoken]

/-- A template is one of the texts that its pattern stands for. -/
theorem standsFor_self (stem template : String) :
    Pattern.StandsFor (shardTokens stem template) (stem ++ template).toList := by
  have h := (standsFor_fill none none template.toList).1
  rw [fill_none] at h
  rw [String.toList_append]
  exact (Pattern.standsFor_map_token_iff _).mpr ⟨_, rfl, h⟩

theorem ofPaths_shardTokens {stem template : String} (plain : Path.IsPlain (stem ++ template)) :
    Disk.OfPaths (shardTokens stem template) :=
  .of_standsFor (standsFor_self stem template) (bracketed_slash_notMem_shardTokens _ _)
    (isAbsolute_shardTokens _ _).symm plain

/-- The file of a shard is listed once. -/
theorem count_shardFiles {disk : Disk} (ordinary : disk.Ordinary) {stem template : String}
    (plain : Path.IsPlain (stem ++ template)) {shard shards : Nat} {contents : Bytes}
    (reaches : disk.Reaches (shardFile stem template shard shards))
    (hfile : disk.find? (disk.placeOf (shardFile stem template shard shards)) = some (.file contents))
    {files : List String} (hfiles : shardFiles disk stem template = .ok files) :
    files.count (shardFile stem template shard shards) = 1 := by
  rw [shardFiles_eq] at hfiles
  obtain rfl := Except.ok.inj hfiles
  have hplain := isPlain_shardFile stem template shard shards plain
  have hof := ofPaths_shardTokens plain
  have hisFile : disk.isFile (shardFile stem template shard shards) = true := by
    rw [Disk.isFile, Disk.nodeAt?, reaches.locate hplain]
    simp [hfile]
  rw [(Path.sorted_perm _).count_eq, List.count_filter hisFile]
  refine List.count_eq_one_of_mem (Disk.nodup_expand ordinary.proper hof) ?_
  refine Disk.mem_expand hof (standsFor_shardFile ..) ?_ hplain.isStraight reaches
  rw [isAbsolute_shardFile, isAbsolute_shardTokens]

/-- The pattern of a stem and a template stands for exactly the texts that start with the stem and
go on as the template allows. On every disk the search lists exactly the regular files whose paths
are such texts, each of them once and the next one always behind it. A file's path is taken as the
search goes: name by name, from the place where stem and template start. -/
theorem shardFiles_exact (stem template : String) :
    (∃ pattern, Pattern.tokens? (patternText stem template).toList = some pattern ∧
      ∀ text, (Pattern.StandsFor pattern text ↔ HasForm stem.toList template.toList text) ∧
        (Pattern.covers pattern text = true ↔ HasForm stem.toList template.toList text)) ∧
      (Path.IsPlain (stem ++ template) → ∀ disk : Disk, disk.Proper →
        ∃ files, shardFiles disk stem template = .ok files ∧
          (∀ path, path ∈ files ↔ disk.isFile path = true ∧ Path.IsStraight path ∧
            Path.isAbsolute path = Path.isAbsolute (stem ++ template) ∧
              HasForm stem.toList template.toList path.toList) ∧
          files.Pairwise fun p q =>
            List.Lex Component.Before (Path.components p) (Path.components q)) := by
  have hform := standsFor_shardTokens_iff stem template
  constructor
  · refine ⟨shardTokens stem template, tokens?_patternText stem template, fun text => ?_⟩
    rw [Pattern.covers_eq_accepts, Pattern.accepts_iff]
    exact ⟨hform text, hform text⟩
  · intro plain disk proper
    have hof := ofPaths_shardTokens plain
    have habsolute := isAbsolute_shardTokens stem template
    refine ⟨_, shardFiles_eq disk stem template, ?_, ?_⟩
    · intro path
      rw [(Path.sorted_perm _).mem_iff, List.mem_filter, ← hform, ← habsolute]
      constructor
      · intro ⟨hfound, hfile⟩
        exact ⟨hfile, Disk.form_of_mem_expand proper hof hfound⟩
      · intro ⟨hfile, hstraight, hstart, hstands⟩
        have hreaches := Disk.reaches_of_isFile hstraight hfile
        exact ⟨Disk.mem_expand hof hstands hstart hstraight hreaches, hfile⟩
    · apply Path.pairwise_sorted ((Disk.nodup_expand proper hof).filter _)
      intro p hp q hq heq
      obtain ⟨hp, hps, -⟩ := Disk.form_of_mem_expand proper hof (List.mem_filter.mp hp).1
      obtain ⟨hq, hqs, -⟩ := Disk.form_of_mem_expand proper hof (List.mem_filter.mp hq).1
      exact hp.eq_of_components hq (hps.trans hqs.symm) heq

/-- Beside the files of two shards of `out/a[1]` there are a file whose numbers are empty, which is
listed too, a file of another stem, a directory that has the form as well, and the device. -/
theorem shardFiles_exact_of_brackets :
    let disk : Disk := { Disk.fresh with entries := Disk.fresh.entries ++
      [(["work", "out"], .directory), (["work", "out", "a[1]-1-of-2"], .file []),
        (["work", "out", "a[1]-0-of-2"], .file []), (["work", "out", "a1-0-of-2"], .file []),
        (["work", "out", "a[1]--of-"], .file []), (["work", "out", "a[1]-x-of-y"], .directory)] }
    disk.Proper ∧ Path.IsPlain ("out/a[1]" ++ defaultTemplate) ∧
      ∃ files, shardFiles disk "out/a[1]" defaultTemplate = .ok files ∧
        (∀ path ∈ ["out/a[1]-0-of-2", "out/a[1]-1-of-2", "out/a[1]--of-"], path ∈ files) ∧
        "out/a1-0-of-2" ∉ files ∧ "out/a[1]-x-of-y" ∉ files ∧
        files.Pairwise fun p q =>
          List.Lex Component.Before (Path.components p) (Path.components q) := by
  intro disk
  have proper : disk.Proper := by decide
  have plain : Path.IsPlain ("out/a[1]" ++ defaultTemplate) := by decide
  obtain ⟨⟨pattern, hpattern, hforms⟩, hsearch⟩ := shardFiles_exact "out/a[1]" defaultTemplate
  obtain ⟨files, hfiles, hmem, hsorted⟩ := hsearch plain disk proper
  obtain rfl : pattern = shardTokens "out/a[1]" defaultTemplate :=
    Option.some.inj (hpattern.symm.trans (tokens?_patternText _ _))
  have hcovered : ∀ path ∈ ["out/a[1]-0-of-2", "out/a[1]-1-of-2", "out/a[1]--of-"],
      disk.isFile path = true ∧ Path.IsStraight path ∧ Path.isAbsolute path = false ∧
        Pattern.covers (shardTokens "out/a[1]" defaultTemplate) path.toList = true := by
    decide +kernel
  refine ⟨proper, plain, files, hfiles, fun path hpath => ?_, fun hfound => ?_, fun hfound => ?_,
    hsorted⟩
  · obtain ⟨hfile, hstraight, hstart, hcovers⟩ := hcovered path hpath
    exact (hmem path).mpr ⟨hfile, hstraight, hstart, (hforms _).2.mp hcovers⟩
  · have hcovers := (hforms _).2.mpr ((hmem _).mp hfound).2.2.2
    exact absurd hcovers (by decide +kernel)
  · exact absurd ((hmem _).mp hfound).1 (by decide +kernel)

end Naming

end ShardedLines
