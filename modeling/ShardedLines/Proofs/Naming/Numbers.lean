import ShardedLines.Proofs.Naming.Template

/-!
Reading the numbers back from a name.

Padding is a least width, so both numbers of a name may take more characters than their runs have
(`FirstRuns.fill_eq`), and a name has no fixed places where they are found. Digits end at the first
character that is no digit, so the numbers can be told apart as soon as there is such a character
between the runs (`append_inj_of_digits`). Where there is none, shards of different numbers may
share a name.
-/

namespace ShardedLines.Naming

/-! ## The first runs of both letters -/

/-- A template cut at the first runs of both letters, in the order in which they stand. -/
structure FirstRuns (template : List Char) where
  first : Char
  second : Char
  letters : first = 'S' ∧ second = 'N' ∨ first = 'N' ∧ second = 'S'
  before : List Char
  between : List Char
  after : List Char
  firstWidth : Nat
  secondWidth : Nat
  one_le_firstWidth : 1 ≤ firstWidth
  one_le_secondWidth : 1 ≤ secondWidth
  eq : template = before ++ (List.replicate firstWidth first ++
    (between ++ (List.replicate secondWidth second ++ after)))
  /-- The runs are the first ones of their letters. -/
  first_notMem : first ∉ before
  second_notMem_before : second ∉ before
  second_notMem_between : second ∉ between
  /-- Neither run goes on behind its end. -/
  first_ends : between.head? ≠ some first
  second_ends : after.head? ≠ some second

/-- A letter that occurs has a first run. -/
theorem exists_first_run {c : Char} {template : List Char} (h : c ∈ template) :
    ∃ before width after, template = before ++ (List.replicate width c ++ after) ∧ 1 ≤ width ∧
      c ∉ before ∧ after.head? ≠ some c := by
  obtain ⟨before, rest, rfl, hbefore⟩ := List.eq_append_cons_of_mem h
  refine ⟨before, 1 + runLength c rest, afterRun c rest, ?_, Nat.le_add_right _ _, hbefore, ?_⟩
  · have hrun : rest.takeWhile (· == c) = List.replicate (runLength c rest) c := by
      rw [List.eq_replicate_iff]
      refine ⟨rfl, fun x hx => ?_⟩
      exact eq_of_beq (List.all_eq_true.mp List.all_takeWhile x hx)
    rw [Nat.add_comm, List.replicate_succ, List.cons_append, ← hrun, afterRun,
      List.takeWhile_append_dropWhile]
  · intro hhead
    have hstop := List.head?_dropWhile_not (· == c) rest
    rw [afterRun] at hhead
    rw [hhead] at hstop
    simp at hstop

theorem exists_firstRuns {template : List Char} (hS : 'S' ∈ template) (hN : 'N' ∈ template) :
    Nonempty (FirstRuns template) := by
  obtain ⟨before, width, after, rfl, hw, hbefore, hafter⟩ := exists_first_run hS
  by_cases h : 'N' ∈ before
  · -- the run of `N` stands in front of the one of `S`
    obtain ⟨front, frontWidth, between, rfl, hfw, hfront, hends⟩ := exists_first_run h
    simp only [List.mem_append, not_or] at hbefore
    exact ⟨{
      first := 'N', second := 'S', letters := .inr ⟨rfl, rfl⟩
      before := front, between := between, after := after
      firstWidth := frontWidth, secondWidth := width
      one_le_firstWidth := hfw, one_le_secondWidth := hw
      eq := by simp only [List.append_assoc]
      first_notMem := hfront
      second_notMem_before := hbefore.1
      second_notMem_between := hbefore.2.2
      first_ends := hends, second_ends := hafter }⟩
  · have hmem : 'N' ∈ after := by
      simpa [h] using hN
    obtain ⟨between, backWidth, back, rfl, hbw, hbetween, hends⟩ := exists_first_run hmem
    exact ⟨{
      first := 'S', second := 'N', letters := .inl ⟨rfl, rfl⟩
      before := before, between := between, after := back
      firstWidth := width, secondWidth := backWidth
      one_le_firstWidth := hw, one_le_secondWidth := hbw
      eq := rfl
      first_notMem := hbefore
      second_notMem_before := h
      second_notMem_between := hbetween
      first_ends := by
        cases between with
        | nil => simp
        | cons c between => exact hafter
      second_ends := hends }⟩

namespace FirstRuns

variable {template : List Char} (runs : FirstRuns template)

/-- The numbers in the order of their runs. -/
def numbers (shard shards : Nat) : Nat × Nat :=
  if runs.first = 'S' then (shard, shards) else (shards, shard)

theorem numbers_inj {shard shards shard' shards' : Nat}
    (h : runs.numbers shard shards = runs.numbers shard' shards') :
    shard = shard' ∧ shards = shards' := by
  unfold numbers at h
  split at h
  · exact Prod.mk.inj h
  · exact (Prod.mk.inj h).symm

include runs in
theorem letters_mem : 'S' ∈ template ∧ 'N' ∈ template := by
  obtain ⟨first, second, hletters, before, between, after, firstWidth, secondWidth, hfw, hsw, rfl,
    -⟩ := runs
  have hfirst : firstWidth ≠ 0 := Nat.ne_of_gt hfw
  have hsecond : secondWidth ≠ 0 := Nat.ne_of_gt hsw
  rcases hletters with ⟨rfl, rfl⟩ | ⟨rfl, rfl⟩
  · simp [hfirst, hsecond]
  · simp [hfirst, hsecond]

theorem first_ne_second : runs.first ≠ runs.second := by
  rcases runs.letters with ⟨hfirst, hsecond⟩ | ⟨hfirst, hsecond⟩
  · rw [hfirst, hsecond]
    decide
  · rw [hfirst, hsecond]
    decide

/-- The first run does not go on behind its end, also where the second one follows at once. -/
theorem head?_behind_first :
    (runs.between ++ (List.replicate runs.secondWidth runs.second ++ runs.after)).head? ≠
      some runs.first := by
  obtain ⟨more, hmore⟩ := Nat.exists_eq_add_of_le' runs.one_le_secondWidth
  have hends := runs.first_ends
  cases hbetween : runs.between with
  | nil => simpa [hmore, List.replicate_succ] using runs.first_ne_second.symm
  | cons c between =>
    rw [hbetween] at hends
    exact hends

theorem firstWidth_eq :
    Naming.firstWidth runs.first template = runs.firstWidth ∧
      Naming.firstWidth runs.second template = runs.secondWidth := by
  have hsecond : runs.second ∉ runs.before ++ List.replicate runs.firstWidth runs.first ++
      runs.between := by
    simp [runs.second_notMem_before, runs.second_notMem_between, runs.first_ne_second.symm]
  have hcut := firstWidth_of_run hsecond runs.second_ends runs.one_le_secondWidth
  rw [List.append_assoc, List.append_assoc, ← runs.eq] at hcut
  have hwidth := firstWidth_of_run runs.first_notMem runs.head?_behind_first runs.one_le_firstWidth
  rw [← runs.eq] at hwidth
  exact ⟨hwidth, hcut⟩

/-- Both numbers can be formatted exactly if neither run is too long. -/
theorem formats_iff :
    Formats template ↔ runs.firstWidth ≤ maxWidth ∧ runs.secondWidth ≤ maxWidth := by
  obtain ⟨hfirst, hsecond⟩ := runs.firstWidth_eq
  rw [← hfirst, ← hsecond, Formats]
  rcases runs.letters with ⟨hS, hN⟩ | ⟨hN, hS⟩
  · rw [hS, hN]
  · rw [hS, hN, and_comm]

/-- A filled template has the numbers in place of the runs, and all else as it stands. -/
theorem fill_eq (shard shards : Nat) :
    fill (some shard) (some shards) template =
      runs.before ++ (padded runs.firstWidth (runs.numbers shard shards).1 ++
        (runs.between ++ (padded runs.secondWidth (runs.numbers shard shards).2 ++
          runs.after))) := by
  have hbehind := runs.head?_behind_first
  obtain ⟨first, second, hletters, before, between, after, firstWidth, secondWidth, hfw, hsw, rfl,
    hfirst, hsecond, hbetween, _, hends'⟩ := runs
  rcases hletters with ⟨rfl, rfl⟩ | ⟨rfl, rfl⟩
  · rw [fill_append (fun h => absurd h hfirst) (fun h => absurd h hsecond),
      fill_run_S hfw hbehind, fill_append (fun _ => rfl) (fun h => absurd h hbetween),
      fill_run_N hsw hends', fill_none]
    rfl
  · rw [fill_append (fun h => absurd h hsecond) (fun h => absurd h hfirst),
      fill_run_N hfw hbehind, fill_append (fun h => absurd h hbetween) (fun _ => rfl),
      fill_run_S hsw hends', fill_none]
    rfl

end FirstRuns

/-! ## Where digits end -/

/-- Two texts of digits that are followed by the same text are the same, if that text does not
consist of digits. -/
theorem append_inj_of_digits {first second between u v : List Char}
    (hfirst : ∀ c ∈ first, c.isDigit = true) (hsecond : ∀ c ∈ second, c.isDigit = true)
    (hbetween : ∃ c ∈ between, c.isDigit = false)
    (h : first ++ (between ++ u) = second ++ (between ++ v)) : first = second ∧ u = v := by
  -- the digits that a text starts with end within what is between
  have hstop : ∀ rest,
      (between ++ rest).takeWhile Char.isDigit = between.takeWhile Char.isDigit := by
    intro rest
    rw [List.takeWhile_append, if_neg]
    intro hall
    obtain ⟨c, hc, hdigit⟩ := hbetween
    rw [← (List.takeWhile_prefix _).eq_of_length hall] at hc
    rw [List.all_eq_true.mp List.all_takeWhile c hc] at hdigit
    cases hdigit
  have hdigits := congrArg (List.takeWhile Char.isDigit) h
  rw [List.takeWhile_append_of_pos hfirst, List.takeWhile_append_of_pos hsecond, hstop, hstop]
    at hdigits
  obtain rfl := List.append_cancel_right hdigits
  exact ⟨rfl, List.append_cancel_left (List.append_cancel_left h)⟩

/-! ## Both numbers of a name -/

/-- A template with both letters is cut at their first runs. There are names exactly if neither run is
too long for a number, and if the text between the runs has a character that is no digit, then a name
tells both numbers, the shard and the number of shards. -/
theorem numbers_eq_of_name_eq (stem template : String) :
    (Nonempty (FirstRuns template.toList) ↔ 'S' ∈ template.toList ∧ 'N' ∈ template.toList) ∧
      ∀ runs : FirstRuns template.toList,
        (∀ shard shards, (∃ name, shardFile? stem template shard shards = some name) ↔
          runs.firstWidth ≤ maxWidth ∧ runs.secondWidth ≤ maxWidth) ∧
        ((∃ c ∈ runs.between, c.isDigit = false) →
          ∀ shard shards shard' shards' name,
            shardFile? stem template shard shards = some name →
              shardFile? stem template shard' shards' = some name →
                shard = shard' ∧ shards = shards') := by
  constructor
  · constructor
    · intro ⟨runs⟩
      exact runs.letters_mem
    · intro ⟨hS, hN⟩
      exact exists_firstRuns hS hN
  · intro runs
    refine ⟨fun shard shards => exists_shardFile?_iff.trans runs.formats_iff, ?_⟩
    intro hbetween shard shards shard' shards' name hname hname'
    have h := (shardFile?_eq_some_iff.mp hname).2.symm.trans (shardFile?_eq_some_iff.mp hname').2
    have htexts := congrArg String.toList h
    simp only [toList_shardFile, runs.fill_eq] at htexts
    obtain ⟨hfirst, hrest⟩ := append_inj_of_digits (fun _ => isDigit_of_mem_padded)
      (fun _ => isDigit_of_mem_padded) hbetween
      (List.append_cancel_left (List.append_cancel_left htexts))
    have hsecond := List.append_cancel_right hrest
    exact runs.numbers_inj
      (Prod.ext (padded_injective _ hfirst) (padded_injective _ hsecond))

/-- The default template has `-of-` between its runs. In `N.S` the runs stand the other way round,
and both numbers may be wider than their runs. -/
theorem numbers_eq_of_name_eq_by_default :
    (∀ shard shards shard' shards' name,
        shardFile? "out" defaultTemplate shard shards = some name →
          shardFile? "out" defaultTemplate shard' shards' = some name →
            shard = shard' ∧ shards = shards') ∧
      (∀ shard shards shard' shards' name,
        shardFile? "out" "N.S" shard shards = some name →
          shardFile? "out" "N.S" shard' shards' = some name →
            shard = shard' ∧ shards = shards') ∧
      shardFile? "out" "N.S" 7 120 = some "out120.7" :=
  ⟨((numbers_eq_of_name_eq "out" defaultTemplate).2
      { first := 'S', second := 'N', letters := .inl ⟨rfl, rfl⟩
        before := ['-'], between := "-of-".toList, after := []
        firstWidth := 5, secondWidth := 5
        one_le_firstWidth := by decide, one_le_secondWidth := by decide
        eq := by decide
        first_notMem := by decide, second_notMem_before := by decide
        second_notMem_between := by decide, first_ends := by decide, second_ends := by decide }).2
      ⟨'-', by decide, rfl⟩,
    ((numbers_eq_of_name_eq "out" "N.S").2
      { first := 'N', second := 'S', letters := .inr ⟨rfl, rfl⟩
        before := [], between := ['.'], after := []
        firstWidth := 1, secondWidth := 1
        one_le_firstWidth := by decide, one_le_secondWidth := by decide
        eq := by decide
        first_notMem := by decide, second_notMem_before := by decide
        second_notMem_between := by decide, first_ends := by decide, second_ends := by decide }).2
      ⟨'.', by decide, rfl⟩,
    by decide +kernel⟩

/-- Digits alone between the runs do not keep the numbers apart. -/
example : shardFile? "out" "S1N" 1 11 = shardFile? "out" "S1N" 11 1 := by decide +kernel

end ShardedLines.Naming
