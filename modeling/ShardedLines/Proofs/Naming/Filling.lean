import ShardedLines.Proofs.Naming.Numbers

/-!
What filling makes of a template.

`Filled` says it without a scan: the first run of each letter is cut out of the template, whichever
of them comes first, and its number is put there, with zeros in front up to the length of the run.
There is one such text for each template, and it is what `fill` has (`filled_iff`). So a number
stands behind all that is made of the text in front of its run (`Filled.number_stands`). The scan has
no answer exactly if a first run is longer than a number can be padded (`not_formats_iff`).
-/

namespace ShardedLines.Naming

/-! ## First runs -/

/-- A template cut at the first run of a letter. -/
structure FirstRun (letter : Char) (template before : List Char) (width : Nat)
    (after : List Char) : Prop where
  eq : template = before ++ (List.replicate width letter ++ after)
  notMem : letter ∉ before
  one_le : 1 ≤ width
  /-- The run does not go on behind its end. -/
  ends : after.head? ≠ some letter

namespace FirstRun

variable {letter other : Char} {template before after : List Char} {width : Nat}

theorem mem (h : FirstRun letter template before width after) : letter ∈ template := by
  have hwidth : width ≠ 0 := Nat.ne_of_gt h.one_le
  rw [h.eq]
  simp [hwidth]

/-- The first of some letters that occurs begins its own first run. -/
theorem exists_of_mem {letters : List Char} (h : ∃ letter ∈ letters, letter ∈ template) :
    ∃ letter ∈ letters, ∃ before width after, FirstRun letter template before width after ∧
      ∀ other ∈ letters, other ∉ before := by
  obtain ⟨letter, hletter, hmem⟩ := h
  obtain ⟨first, hfirst⟩ : ∃ first, template.find? (· ∈ letters) = some first := by
    rw [← Option.isSome_iff_exists, List.find?_isSome]
    exact ⟨letter, hmem, decide_eq_true hletter⟩
  have hletters : first ∈ letters := by
    simpa using List.find?_some hfirst
  obtain ⟨-, before, rest, rfl, hbefore⟩ := List.find?_eq_some_iff_append.mp hfirst
  have hnone : ∀ other ∈ letters, other ∉ before := by
    intro other hother hmem
    simpa [hother] using hbefore other hmem
  obtain ⟨front, width, after, hrun, hwidth, hfront, hends⟩ :=
    exists_first_run (List.mem_cons_self (a := first) (l := rest))
  have hempty : front = [] := by
    cases front with
    | nil => rfl
    | cons c front =>
      obtain ⟨rfl, -⟩ := List.cons.inj hrun
      exact absurd List.mem_cons_self hfront
  subst hempty
  refine ⟨first, hletters, before, width, after, ⟨?_, hnone first hletters, hwidth, hends⟩, hnone⟩
  rw [hrun, List.nil_append]

theorem takeWhile_eq (h : FirstRun letter template before width after) :
    template.takeWhile (· != letter) = before := by
  obtain ⟨more, hmore⟩ := Nat.exists_eq_add_of_le' h.one_le
  have hall : ∀ c ∈ before, (c != letter) = true := by
    intro c hc
    rw [bne_iff_ne]
    rintro rfl
    exact h.notMem hc
  rw [h.eq, hmore, List.takeWhile_append_of_pos hall, List.replicate_succ, List.cons_append,
    List.takeWhile_cons_of_neg (by simp), List.append_nil]

theorem firstWidth_eq (h : FirstRun letter template before width after) :
    firstWidth letter template = width := by
  rw [h.eq]
  exact firstWidth_of_run h.notMem h.ends h.one_le

/-- A letter has no other first run. -/
theorem unique {before' after' : List Char} {width' : Nat}
    (h : FirstRun letter template before width after)
    (h' : FirstRun letter template before' width' after') :
    before = before' ∧ width = width' :=
  ⟨h.takeWhile_eq.symm.trans h'.takeWhile_eq, h.firstWidth_eq.symm.trans h'.firstWidth_eq⟩

/-- A run that ends before the first run of a letter comes is a run of the text in front of that,
and the letter has the same first run behind it. -/
theorem split (h : FirstRun letter template before width after) {front rest : List Char}
    {size : Nat} (h' : FirstRun other template front size rest) (hne : other ≠ letter)
    (hfront : letter ∉ front) :
    ∃ between, FirstRun other before front size between ∧
      FirstRun letter rest between width after := by
  have hall : ∀ c ∈ front ++ List.replicate size other, (c != letter) = true := by
    intro c hc
    rw [bne_iff_ne]
    rintro rfl
    rcases List.mem_append.mp hc with hc | hc
    · exact hfront hc
    · exact hne (List.eq_of_mem_replicate hc).symm
  have htemplate := h'.eq
  rw [← List.append_assoc] at htemplate
  have hbefore := h.takeWhile_eq
  rw [htemplate, List.takeWhile_append_of_pos hall] at hbefore
  have hrest := h.eq
  rw [htemplate, ← hbefore, List.append_assoc (front ++ _)] at hrest
  have hrest := List.append_cancel_left hrest
  rw [List.append_assoc] at hbefore
  generalize rest.takeWhile (· != letter) = between at hbefore hrest
  refine ⟨between, ⟨hbefore.symm, h'.notMem, h'.one_le, ?_⟩, ⟨hrest, ?_, h.one_le, h.ends⟩⟩
  · have hends := h'.ends
    rw [hrest] at hends
    cases between with
    | nil => simp
    | cons c between => exact hends
  · intro hmem
    exact h.notMem (hbefore ▸ by simp [hmem])

/-- A run of the text in front of another letter's run is a run of the template. -/
theorem of_before (h : FirstRun letter template before width after) {front between : List Char}
    {size : Nat} (h' : FirstRun other before front size between) :
    FirstRun other template front size
      (between ++ (List.replicate width letter ++ after)) := by
  have hne : letter ≠ other := by
    rintro rfl
    exact h.notMem h'.mem
  refine ⟨?_, h'.notMem, h'.one_le, ?_⟩
  · rw [h.eq, h'.eq, List.append_assoc, List.append_assoc]
  · cases between with
    | nil =>
      obtain ⟨more, rfl⟩ := Nat.exists_eq_add_of_le' h.one_le
      simpa [List.replicate_succ] using hne
    | cons c between => exact h'.ends

/-- A run of the text behind another letter's run is a run of the template. -/
theorem of_after (h : FirstRun letter template before width after) {front between : List Char}
    {size : Nat} (h' : FirstRun other after front size between) (hne : other ≠ letter)
    (hbefore : other ∉ before) :
    FirstRun other template (before ++ (List.replicate width letter ++ front)) size between := by
  refine ⟨?_, ?_, h'.one_le, h'.ends⟩
  · rw [h.eq, h'.eq]
    simp only [List.append_assoc]
  · simp [hbefore, hne, h'.notMem]

end FirstRun

/-! ## Filled templates -/

/-- The numbers of the letters have no more digits than the first runs of the letters are long. -/
def Fits (number : Char → Nat) (letters template : List Char) : Prop :=
  ∀ letter ∈ letters, ∀ before width after, FirstRun letter template before width after →
    (Nat.toDigits 10 (number letter)).length ≤ width

theorem Fits.before {number : Char → Nat} {letters template before after : List Char}
    {letter : Char} {width : Nat} (h : Fits number letters template)
    (hrun : FirstRun letter template before width after) : Fits number letters before := by
  intro other hother front size between hfront
  exact h other hother _ _ _ (hrun.of_before hfront)

/-- What comes of a template when the numbers of some letters are placed, each of them in decimal at
the first run of its letter. -/
inductive Filled (number : Char → Nat) : (letters template filled : List Char) → Prop where
  | plain {letters text : List Char} : (∀ letter ∈ letters, letter ∉ text) →
      Filled number letters text text
  | run {letters template before after filled : List Char} {letter : Char} {width : Nat} :
      FirstRun letter template before width after → letter ∈ letters →
      (∀ other ∈ letters, other ∉ before) → Filled number (letters.erase letter) after filled →
      Filled number letters template (before ++
        (List.replicate (width - (Nat.toDigits 10 (number letter)).length) '0' ++
          Nat.toDigits 10 (number letter) ++ filled))

namespace Filled

variable {number : Char → Nat} {letters template before after filled : List Char} {letter : Char}
  {width : Nat}

theorem of_run (hrun : FirstRun letter template before width after) (hletter : letter ∈ letters)
    (hbefore : ∀ other ∈ letters, other ∉ before)
    (h : Filled number (letters.erase letter) after filled) :
    Filled number letters template (before ++ (padded width (number letter) ++ filled)) :=
  .run hrun hletter hbefore h

theorem exists_filled (number : Char → Nat) (letters template : List Char) :
    ∃ filled, Filled number letters template filled := by
  induction hcount : letters.length generalizing letters template with
  | zero =>
    rw [List.length_eq_zero_iff] at hcount
    exact ⟨template, .plain (by simp [hcount])⟩
  | succ count ih =>
    by_cases h : ∃ letter ∈ letters, letter ∈ template
    · obtain ⟨letter, hletter, before, width, after, hrun, hbefore⟩ := FirstRun.exists_of_mem h
      have hless : (letters.erase letter).length = count := by
        rw [List.length_erase_of_mem hletter, hcount, Nat.add_sub_cancel]
      obtain ⟨filled, hfilled⟩ := ih (letters.erase letter) after hless
      exact ⟨_, of_run hrun hletter hbefore hfilled⟩
    · exact ⟨template, .plain fun letter hletter hmem => h ⟨letter, hletter, hmem⟩⟩

theorem length_le (h : Filled number letters template filled) :
    template.length ≤ filled.length := by
  induction h with
  | plain => exact Nat.le_refl _
  | run hrun _ _ _ ih =>
    rw [hrun.eq]
    simp only [List.length_append, List.length_replicate]
    omega

/-- Where no number is too long for its run, all else keeps its place. -/
theorem length_eq (h : Filled number letters template filled) (hnodup : letters.Nodup)
    (hfits : Fits number letters template) : filled.length = template.length := by
  induction h with
  | plain => rfl
  | @run letters template before after filled letter width hrun hletter hbefore _ ih =>
    have hwidth := hfits letter hletter before width after hrun
    have hafter : Fits number (letters.erase letter) after := by
      intro other hother front size between hfront
      obtain ⟨hne, hmem⟩ := hnodup.mem_erase_iff.mp hother
      exact hfits other hmem _ _ _ (hrun.of_after hfront hne (hbefore other hmem))
    have hlength := ih (hnodup.erase letter) hafter
    rw [hrun.eq]
    simp only [List.length_append, List.length_replicate]
    omega

/-- The number of a letter stands behind what is made of the text in front of its run. -/
theorem number_stands (h : Filled number letters template filled) (hletter : letter ∈ letters)
    (hrun : FirstRun letter template before width after) :
    ∃ front back, Filled number letters before front ∧
      filled = front ++ (padded width (number letter) ++ back) := by
  induction h generalizing before with
  | plain hplain => exact absurd hrun.mem (hplain letter hletter)
  | @run letters template start rest filled other size hother hmem hstart _ ih =>
    by_cases heq : other = letter
    · subst heq
      obtain ⟨rfl, rfl⟩ := hother.unique hrun
      exact ⟨start, filled, .plain hstart, rfl⟩
    · obtain ⟨between, hfront, hbehind⟩ := hrun.split hother heq (hstart letter hletter)
      have hstill : letter ∈ letters.erase other :=
        (List.mem_erase_of_ne (Ne.symm heq)).mpr hletter
      obtain ⟨front, back, hfilled, rfl⟩ := ih hstill hbehind
      refine ⟨_, back, of_run hfront hmem hstart hfilled, ?_⟩
      simp only [padded, List.leftpad, List.append_assoc]

/-- The number of a letter, while it is still to be placed. -/
def toPlace (number : Char → Nat) (letters : List Char) (letter : Char) : Option Nat :=
  if letter ∈ letters then some (number letter) else none

theorem toPlace_of_mem (h : letter ∈ letters) :
    toPlace number letters letter = some (number letter) :=
  if_pos h

theorem toPlace_of_notMem (h : letter ∉ letters) : toPlace number letters letter = none :=
  if_neg h

theorem toPlace_erase {other : Char} (h : letter ≠ other) :
    toPlace number (letters.erase other) letter = toPlace number letters letter := by
  simp only [toPlace, List.mem_erase_of_ne h]

theorem eq_fill (h : Filled number letters template filled) (hnodup : letters.Nodup)
    (hletters : letters ⊆ ['S', 'N']) :
    filled = fill (toPlace number letters 'S') (toPlace number letters 'N') template := by
  have hnone : ∀ letter {letters text : List Char}, (∀ letter ∈ letters, letter ∉ text) →
      letter ∈ text → toPlace number letters letter = none :=
    fun letter _ _ hplain hmem => toPlace_of_notMem fun hletter => hplain letter hletter hmem
  induction h with
  | @plain letters text hplain =>
    have hkept := fill_append (hnone 'S' hplain) (hnone 'N' hplain) []
    rw [List.append_nil] at hkept
    rw [hkept, fill, List.append_nil]
  | @run letters template before after filled letter width hrun hletter hbefore _ ih =>
    have hafter := ih (hnodup.erase letter) fun _ h => hletters (List.mem_of_mem_erase h)
    have hgone : toPlace number (letters.erase letter) letter = none :=
      toPlace_of_notMem hnodup.not_mem_erase
    rw [hrun.eq, fill_append (hnone 'S' hbefore) (hnone 'N' hbefore)]
    have hS_or_N : letter = 'S' ∨ letter = 'N' := by
      simpa using hletters hletter
    obtain rfl | rfl := hS_or_N
    · rw [toPlace_of_mem hletter, fill_run_S hrun.one_le hrun.ends, hafter, hgone,
        toPlace_erase (by decide)]
      rfl
    · rw [toPlace_of_mem hletter, fill_run_N hrun.one_le hrun.ends, hafter, hgone,
        toPlace_erase (by decide)]
      rfl

end Filled

/-- The numbers of both letters. -/
def numberOf (shard shards : Nat) (letter : Char) : Nat :=
  if letter = 'S' then shard else shards

theorem filled_iff {template : List Char} {shard shards : Nat} {text : List Char} :
    Filled (numberOf shard shards) ['S', 'N'] template text ↔
      text = fill (some shard) (some shards) template := by
  have hfill : ∀ {text}, Filled (numberOf shard shards) ['S', 'N'] template text →
      text = fill (some shard) (some shards) template :=
    fun h => h.eq_fill (by decide) (List.Subset.refl _)
  constructor
  · exact hfill
  · rintro rfl
    obtain ⟨text, h⟩ := Filled.exists_filled (numberOf shard shards) ['S', 'N'] template
    rwa [← hfill h]

/-! ## Runs that are too long -/

/-- Some number cannot be formatted exactly if the first run of its letter is too long. -/
theorem not_formats_iff {template : List Char} :
    ¬ Formats template ↔ ∃ letter ∈ ['S', 'N'], ∃ before width after,
      FirstRun letter template before width after ∧ maxWidth < width := by
  constructor
  · intro h
    obtain ⟨letter, hletter, hwide⟩ : ∃ letter ∈ ['S', 'N'], maxWidth < firstWidth letter template := by
      rw [Formats, not_and_or, Nat.not_le, Nat.not_le] at h
      simpa using h
    have hmem := mem_of_firstWidth_pos (Nat.zero_lt_of_lt hwide)
    obtain ⟨before, width, after, heq, hw, hbefore, hends⟩ := exists_first_run hmem
    have hrun : FirstRun letter template before width after := ⟨heq, hbefore, hw, hends⟩
    exact ⟨letter, hletter, before, width, after, hrun, hrun.firstWidth_eq ▸ hwide⟩
  · rintro ⟨letter, hletter, before, width, after, hrun, hwide⟩ ⟨hS, hN⟩
    rw [← hrun.firstWidth_eq] at hwide
    have hS_or_N : letter = 'S' ∨ letter = 'N' := by
      simpa using hletter
    obtain rfl | rfl := hS_or_N
    · exact Nat.not_le_of_lt hwide hS
    · exact Nat.not_le_of_lt hwide hN

/-- What stands in front of a run has no longer runs than the template. -/
theorem Formats.before {letter : Char} {template before after : List Char} {width : Nat}
    (h : Formats template) (hrun : FirstRun letter template before width after) : Formats before := by
  by_contra hbefore
  obtain ⟨other, hother, front, size, between, hfront, hwide⟩ := not_formats_iff.mp hbefore
  exact not_formats_iff.mpr ⟨other, hother, _, _, _, hrun.of_before hfront, hwide⟩ h

/-! ## Filling -/

/-- Filling ends in a panic exactly if the first run of a letter is too long for a number. Otherwise
it puts the number of the shard at the first run of `S` and the number of shards at the first run of
`N`, and keeps all else. Each number reads back from where it stands, which is behind what is made of
the text in front of its run. Where both numbers fit into their runs this is the place of the run
itself, and the filled template is as long as the template; it is never shorter. -/
theorem filling_by_first_runs (template : List Char) (shard shards : Nat) :
    (fill? (some shard) (some shards) template = none ↔
      ∃ letter ∈ ['S', 'N'], ∃ before width after,
        FirstRun letter template before width after ∧ maxWidth < width) ∧
    ∀ filled, fill? (some shard) (some shards) template = some filled →
      (∀ text, Filled (numberOf shard shards) ['S', 'N'] template text ↔ text = filled) ∧
      (∀ letter ∈ ['S', 'N'], ∀ before width after, FirstRun letter template before width after →
        let number := numberOf shard shards letter
        let length := max width (Nat.toDigits 10 number).length
        (∃ front, fill? (some shard) (some shards) before = some front ∧
          Nat.ofDigitChars 10 ((filled.drop front.length).take length) 0 = number) ∧
        (Fits (numberOf shard shards) ['S', 'N'] template →
          Nat.ofDigitChars 10 ((filled.drop before.length).take width) 0 = number)) ∧
      (Fits (numberOf shard shards) ['S', 'N'] template → filled.length = template.length) ∧
      template.length ≤ filled.length := by
  refine ⟨fill?_eq_none_iff.trans not_formats_iff, ?_⟩
  intro filled hsome
  obtain ⟨hformats, rfl⟩ := fill?_eq_some_iff.mp hsome
  have hfilled : ∀ text, Filled (numberOf shard shards) ['S', 'N'] text
      (fill (some shard) (some shards) text) := fun _ => filled_iff.mpr rfl
  have hlength : ∀ text, Fits (numberOf shard shards) ['S', 'N'] text →
      (fill (some shard) (some shards) text).length = text.length :=
    fun text => (hfilled text).length_eq (by decide)
  refine ⟨fun text => filled_iff, ?_, hlength template, (hfilled template).length_le⟩
  intro letter hletter before width after hrun number length
  let filled := fill (some shard) (some shards) template
  let front := fill (some shard) (some shards) before
  have hread : Nat.ofDigitChars 10 ((filled.drop front.length).take length) 0 = number := by
    obtain ⟨front, back, hfront, htemplate⟩ := (hfilled template).number_stands hletter hrun
    obtain rfl := filled_iff.mp hfront
    have hfilled : filled = fill (some shard) (some shards) before ++
        (padded width number ++ back) := htemplate
    have hpadded : length = (padded width number).length := (length_padded _ _).symm
    rw [hfilled, List.drop_left, hpadded, List.take_left, ofDigitChars_padded]
  refine ⟨⟨front, fill?_eq_some_iff.mpr ⟨hformats.before hrun, rfl⟩, hread⟩, ?_⟩
  intro hfits
  have hstart : front.length = before.length := hlength before (hfits.before hrun)
  have hwidth : length = width := Nat.max_eq_left (hfits letter hletter _ _ _ hrun)
  rwa [hstart, hwidth] at hread

/-- Both numbers are longer than their runs, and a later run of `S` stays. -/
theorem filling_by_first_runs_of_long_numbers :
    ∃ filled front, fill? (some 123) (some 4000) "a-NN.S-of-SS".toList = some filled ∧
      filled = "a-4000.123-of-SS".toList ∧
      fill? (some 123) (some 4000) "a-NN.".toList = some front ∧
      Nat.ofDigitChars 10 ((filled.drop front.length).take 3) 0 = 123 := by
  have hrun : FirstRun 'S' "a-NN.S-of-SS".toList "a-NN.".toList 1 "-of-SS".toList :=
    ⟨by decide, by decide, by decide, by decide⟩
  have hfilled : fill? (some 123) (some 4000) "a-NN.S-of-SS".toList =
      some "a-4000.123-of-SS".toList := by
    decide +kernel
  obtain ⟨-, hplaces, -⟩ := (filling_by_first_runs "a-NN.S-of-SS".toList 123 4000).2 _ hfilled
  obtain ⟨front, hfront, hread⟩ := (hplaces 'S' (by decide) _ _ _ hrun).1
  exact ⟨_, front, hfilled, rfl, hfront, hread⟩

/-- A run of one letter more than a number can be padded has no filled text. -/
theorem fill?_overlong_eq_none : fill? (some 0) (some 1) overlong.toList = none :=
  fill?_eq_none_iff.mpr not_formats_overlong

end ShardedLines.Naming
