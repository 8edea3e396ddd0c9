import ShardedLines.Naming.Template

/-!
The scan of a template.

`fill` is what the scan makes of a template whose runs may be of any length. Numbers are only
formatted up to a largest width, so there is such a text exactly if the first run of each number
that is to be placed is short enough (`isSome_fill?`), whatever the numbers are, and then it is the
text that `fill` has (`fill_of_fill?`). For the name of a shard both numbers are to be placed
(`shardFile?_eq_some_iff`).
-/

namespace ShardedLines.Naming

/-! ## Runs of any length -/

/-- The filled template, whatever the length of its runs. -/
def fill : (shard? shards? : Option Nat) → List Char → List Char
  | _, _, [] => []
  | shard?, shards?, c :: rest =>
    if c == 'S' then
      match shard? with
      | some shard =>
        padded (1 + runLength 'S' rest) shard ++ fill none shards? (afterRun 'S' rest)
      | none => c :: fill none shards? rest
    else if c == 'N' then
      match shards? with
      | some shards =>
        padded (1 + runLength 'N' rest) shards ++ fill shard? none (afterRun 'N' rest)
      | none => c :: fill shard? none rest
    else c :: fill shard? shards? rest
termination_by _ _ template => template.length
decreasing_by
  all_goals simp only [List.length_cons]
  · have := afterRun_length_le 'S' rest; omega
  · omega
  · have := afterRun_length_le 'N' rest; omega
  · omega
  · omega

theorem fill_shard (shards? : Option Nat) (shard : Nat) (rest : List Char) :
    fill (some shard) shards? ('S' :: rest) =
      padded (1 + runLength 'S' rest) shard ++ fill none shards? (afterRun 'S' rest) := by
  cases shards? <;> simp [fill]

theorem fill_shards (shard? : Option Nat) (shards : Nat) (rest : List Char) :
    fill shard? (some shards) ('N' :: rest) =
      padded (1 + runLength 'N' rest) shards ++ fill shard? none (afterRun 'N' rest) := by
  cases shard? <;> simp [fill]

/-- A letter whose number is placed stays like any other character. -/
theorem fill_kept {shard? shards? : Option Nat} {c : Char} (hS : c = 'S' → shard? = none)
    (hN : c = 'N' → shards? = none) (rest : List Char) :
    fill shard? shards? (c :: rest) = c :: fill shard? shards? rest := by
  by_cases hc : c = 'S'
  · subst hc
    obtain rfl := hS rfl
    cases shards? <;> simp [fill]
  · by_cases hc' : c = 'N'
    · subst hc'
      obtain rfl := hN rfl
      cases shard? <;> simp [fill]
    · cases shard? <;> cases shards? <;> simp [fill, hc, hc']

theorem fill_other (shard? shards? : Option Nat) {c : Char} (hS : ¬ (c == 'S') = true)
    (hN : ¬ (c == 'N') = true) (rest : List Char) :
    fill shard? shards? (c :: rest) = c :: fill shard? shards? rest :=
  fill_kept (fun h => absurd (beq_of_eq h) hS) (fun h => absurd (beq_of_eq h) hN) rest

theorem fill_append {shard? shards? : Option Nat} {before : List Char}
    (hS : 'S' ∈ before → shard? = none) (hN : 'N' ∈ before → shards? = none) (rest : List Char) :
    fill shard? shards? (before ++ rest) = before ++ fill shard? shards? rest := by
  induction before with
  | nil => rfl
  | cons c before ih =>
    rw [List.cons_append, fill_kept, ih, List.cons_append]
    · intro h
      exact hS (List.mem_cons_of_mem c h)
    · intro h
      exact hN (List.mem_cons_of_mem c h)
    · intro h
      exact hS (h ▸ List.mem_cons_self)
    · intro h
      exact hN (h ▸ List.mem_cons_self)

/-- A template with no number to place is its own name. -/
@[simp] theorem fill_none (template : List Char) : fill none none template = template := by
  induction template with
  | nil => simp [fill]
  | cons c rest ih => rw [fill_kept (fun _ => rfl) (fun _ => rfl), ih]

/-! ## Runs -/

theorem runLength_run {c : Char} {rest : List Char} (h : rest.head? ≠ some c) (width : Nat) :
    runLength c (List.replicate width c ++ rest) = width := by
  have hstop : rest.takeWhile (· == c) = [] := by
    cases rest with
    | nil => rfl
    | cons x rest => exact List.takeWhile_cons_of_neg (by simpa using h)
  rw [runLength, List.takeWhile_append_of_pos (by simp), hstop, List.append_nil,
    List.length_replicate]

theorem afterRun_run {c : Char} {rest : List Char} (h : rest.head? ≠ some c) (width : Nat) :
    afterRun c (List.replicate width c ++ rest) = rest := by
  have hstop : rest.dropWhile (· == c) = rest := by
    cases rest with
    | nil => rfl
    | cons x rest => exact List.dropWhile_cons_of_neg (by simpa using h)
  rw [afterRun, List.dropWhile_append_of_pos (by simp), hstop]

theorem mem_afterRun {c letter : Char} {template : List Char} (hc : c ≠ letter)
    (h : c ∈ template) : c ∈ afterRun letter template := by
  rw [← List.takeWhile_append_dropWhile (p := (· == letter)) (l := template), List.mem_append] at h
  rcases h with h | h
  · have hall := List.all_takeWhile (p := (· == letter)) (l := template)
    exact absurd (eq_of_beq (List.all_eq_true.mp hall c h)) hc
  · exact h

section

variable {rest : List Char} {width : Nat} (hw : 1 ≤ width)

include hw

theorem fill_run_S (h : rest.head? ≠ some 'S') (shard : Nat) (shards? : Option Nat) :
    fill (some shard) shards? (List.replicate width 'S' ++ rest) =
      padded width shard ++ fill none shards? rest := by
  obtain ⟨more, rfl⟩ := Nat.exists_eq_add_of_le' hw
  rw [List.replicate_succ, List.cons_append, fill_shard, runLength_run h, afterRun_run h,
    Nat.add_comm]

theorem fill_run_N (h : rest.head? ≠ some 'N') (shard? : Option Nat) (shards : Nat) :
    fill shard? (some shards) (List.replicate width 'N' ++ rest) =
      padded width shards ++ fill shard? none rest := by
  obtain ⟨more, rfl⟩ := Nat.exists_eq_add_of_le' hw
  rw [List.replicate_succ, List.cons_append, fill_shards, runLength_run h, afterRun_run h,
    Nat.add_comm]

end

/-! ## The first run of a letter -/

/-- The width of the first run of a letter, which is 0 where there is none. -/
def firstWidth (letter : Char) (template : List Char) : Nat :=
  runLength letter (template.dropWhile (· != letter))

@[simp] theorem firstWidth_nil (letter : Char) : firstWidth letter [] = 0 := rfl

@[simp] theorem firstWidth_self (letter : Char) (rest : List Char) :
    firstWidth letter (letter :: rest) = 1 + runLength letter rest := by
  simp [firstWidth, runLength, Nat.add_comm]

theorem firstWidth_cons {c letter : Char} (hc : c ≠ letter) (rest : List Char) :
    firstWidth letter (c :: rest) = firstWidth letter rest := by
  simp [firstWidth, hc]

/-- The run of another letter has no part in it. -/
theorem firstWidth_afterRun {letter other : Char} (hother : other ≠ letter)
    (template : List Char) :
    firstWidth letter (afterRun other template) = firstWidth letter template := by
  induction template with
  | nil => rfl
  | cons c rest ih =>
    rw [afterRun, List.dropWhile_cons]
    split
    · rename_i hc
      obtain rfl := eq_of_beq hc
      rw [firstWidth_cons hother]
      exact ih
    · rfl

theorem firstWidth_of_run {letter : Char} {before after : List Char} {width : Nat}
    (hbefore : letter ∉ before) (hafter : after.head? ≠ some letter) (hw : 1 ≤ width) :
    firstWidth letter (before ++ (List.replicate width letter ++ after)) = width := by
  induction before with
  | nil =>
    obtain ⟨more, rfl⟩ := Nat.exists_eq_add_of_le' hw
    rw [List.nil_append, List.replicate_succ, List.cons_append, firstWidth_self,
      runLength_run hafter, Nat.add_comm]
  | cons c before ih =>
    obtain ⟨hc, hbefore⟩ := not_or.mp (mt List.mem_cons.mpr hbefore)
    rw [List.cons_append, firstWidth_cons (Ne.symm hc), ih hbefore]

theorem firstWidth_replicate (letter : Char) (width : Nat) :
    firstWidth letter (List.replicate width letter) = width := by
  cases width with
  | zero => rfl
  | succ more => simp [List.replicate_succ, runLength, Nat.add_comm]

theorem mem_of_firstWidth_pos {letter : Char} {template : List Char}
    (h : 0 < firstWidth letter template) : letter ∈ template := by
  induction template with
  | nil => cases h
  | cons c rest ih =>
    by_cases hc : c = letter
    · exact hc ▸ List.mem_cons_self
    · rw [firstWidth_cons hc] at h
      exact List.mem_cons_of_mem c (ih h)

/-! ## Where numbers can be formatted -/

/-- Both numbers can be formatted: neither first run is too long. -/
def Formats (template : List Char) : Prop :=
  firstWidth 'S' template ≤ maxWidth ∧ firstWidth 'N' template ≤ maxWidth

instance (template : List Char) : Decidable (Formats template) :=
  inferInstanceAs (Decidable (_ ∧ _))

/-- A number is placed, and the scan goes on, exactly if its run is short enough. -/
theorem isSome_placed {width n : Nat} {rest? : Option (List Char)} :
    ((padded? width n).bind fun number => rest?.map (number ++ ·)).isSome ↔
      width ≤ maxWidth ∧ rest?.isSome := by
  unfold padded?
  split
  · rename_i h
    simp [h]
  · rename_i h
    simp [h]

/-- The scan comes to its end exactly if the first runs of the numbers that are to be placed are
short enough. -/
theorem isSome_fill? (shard? shards? : Option Nat) (template : List Char) :
    (fill? shard? shards? template).isSome ↔
      (shard?.isSome → firstWidth 'S' template ≤ maxWidth) ∧
        (shards?.isSome → firstWidth 'N' template ≤ maxWidth) := by
  have hSN : 'S' ≠ 'N' := by decide
  fun_induction fill? shard? shards? template with
  | case1 => simp
  | case2 shards? c rest hS shard ih =>
    obtain rfl := eq_of_beq hS
    simp only [isSome_placed, ih, firstWidth_afterRun hSN, firstWidth_cons hSN, firstWidth_self]
    simp
  | case3 shards? c rest hS ih =>
    obtain rfl := eq_of_beq hS
    simp only [Option.isSome_map, ih, firstWidth_cons hSN]
    simp
  | case4 shard? c rest hS hN shards ih =>
    obtain rfl := eq_of_beq hN
    simp only [isSome_placed, ih, firstWidth_afterRun hSN.symm, firstWidth_cons hSN.symm,
      firstWidth_self]
    simp [and_comm]
  | case5 shard? c rest hS hN ih =>
    obtain rfl := eq_of_beq hN
    simp only [Option.isSome_map, ih, firstWidth_cons hSN.symm]
    simp
  | case6 shard? shards? c rest hS hN ih =>
    have hcS : c ≠ 'S' := by simpa using hS
    have hcN : c ≠ 'N' := by simpa using hN
    simp only [Option.isSome_map, ih, firstWidth_cons hcS, firstWidth_cons hcN]

theorem eq_padded_of_padded? {width n : Nat} {number : List Char}
    (h : padded? width n = some number) : number = padded width n := by
  unfold padded? at h
  split at h
  · exact (Option.some.inj h).symm
  · cases h

/-- Where the scan comes to its end, it has the filled template. -/
theorem eq_fill_of_fill? {shard? shards? : Option Nat} {template filled : List Char}
    (h : fill? shard? shards? template = some filled) : filled = fill shard? shards? template := by
  fun_induction fill? shard? shards? template generalizing filled with
  | case1 => simpa [fill] using h.symm
  | case2 shards? c rest hS shard ih =>
    obtain rfl := eq_of_beq hS
    obtain ⟨number, hnumber, hrest⟩ := Option.bind_eq_some_iff.mp h
    obtain ⟨behind, hbehind, rfl⟩ := Option.map_eq_some_iff.mp hrest
    rw [fill_shard, eq_padded_of_padded? hnumber, ih hbehind]
  | case3 shards? c rest hS ih =>
    obtain rfl := eq_of_beq hS
    obtain ⟨behind, hbehind, rfl⟩ := Option.map_eq_some_iff.mp h
    rw [fill_kept (fun _ => rfl) (by simp), ih hbehind]
  | case4 shard? c rest hS hN shards ih =>
    obtain rfl := eq_of_beq hN
    obtain ⟨number, hnumber, hrest⟩ := Option.bind_eq_some_iff.mp h
    obtain ⟨behind, hbehind, rfl⟩ := Option.map_eq_some_iff.mp hrest
    rw [fill_shards, eq_padded_of_padded? hnumber, ih hbehind]
  | case5 shard? c rest hS hN ih =>
    obtain rfl := eq_of_beq hN
    obtain ⟨behind, hbehind, rfl⟩ := Option.map_eq_some_iff.mp h
    rw [fill_kept (by simp) (fun _ => rfl), ih hbehind]
  | case6 shard? shards? c rest hS hN ih =>
    obtain ⟨behind, hbehind, rfl⟩ := Option.map_eq_some_iff.mp h
    rw [fill_other _ _ hS hN, ih hbehind]

section

variable {template filled : List Char} {shard shards : Nat}

theorem isSome_fill?_iff_formats :
    (fill? (some shard) (some shards) template).isSome ↔ Formats template := by
  simp [isSome_fill?, Formats]

theorem fill?_eq_some_iff :
    fill? (some shard) (some shards) template = some filled ↔
      Formats template ∧ filled = fill (some shard) (some shards) template := by
  constructor
  · intro h
    exact ⟨isSome_fill?_iff_formats.mp (Option.isSome_of_mem h), eq_fill_of_fill? h⟩
  · rintro ⟨h, rfl⟩
    obtain ⟨filled, hfilled⟩ := Option.isSome_iff_exists.mp (isSome_fill?_iff_formats.mpr h)
    rw [hfilled, eq_fill_of_fill? hfilled]

theorem fill?_eq_none_iff :
    fill? (some shard) (some shards) template = none ↔ ¬ Formats template := by
  rw [← Option.not_isSome_iff_eq_none, isSome_fill?_iff_formats]

end

/-! ## Names -/

/-- The name of a shard, whatever the length of the runs. -/
def shardFile (stem template : String) (shard shards : Nat) : String :=
  stem ++ String.ofList (fill (some shard) (some shards) template.toList)

theorem toList_shardFile (stem template : String) (shard shards : Nat) :
    (shardFile stem template shard shards).toList =
      stem.toList ++ fill (some shard) (some shards) template.toList := by
  rw [shardFile, String.toList_append, String.toList_ofList]

section

variable {stem template name : String} {shard shards : Nat}

theorem shardFile?_eq_some_iff :
    shardFile? stem template shard shards = some name ↔
      Formats template.toList ∧ name = shardFile stem template shard shards := by
  simp only [shardFile?, shardFile, Option.map_eq_some_iff, fill?_eq_some_iff]
  constructor
  · rintro ⟨_, ⟨hformats, rfl⟩, rfl⟩
    exact ⟨hformats, rfl⟩
  · rintro ⟨hformats, rfl⟩
    exact ⟨_, ⟨hformats, rfl⟩, rfl⟩

/-- Where numbers can be formatted, every shard has its name. -/
theorem Formats.shardFile?_eq (h : Formats template.toList) (stem : String) (shard shards : Nat) :
    shardFile? stem template shard shards = some (shardFile stem template shard shards) :=
  shardFile?_eq_some_iff.mpr ⟨h, rfl⟩

theorem exists_shardFile?_iff :
    (∃ name, shardFile? stem template shard shards = some name) ↔ Formats template.toList := by
  constructor
  · intro ⟨name, hname⟩
    exact (shardFile?_eq_some_iff.mp hname).1
  · intro h
    exact ⟨_, h.shardFile?_eq stem shard shards⟩

/-- A template with too long a run has no name for any shard. -/
theorem shardFile?_eq_none_iff :
    shardFile? stem template shard shards = none ↔ ¬ Formats template.toList := by
  rw [shardFile?, Option.map_eq_none_iff, fill?_eq_none_iff]

/-- The names of all shards are those of the template whose runs may be of any length. -/
theorem eq_shardFile_of_names {path : Nat → String}
    (h : ∀ shard, shardFile? stem template shard shards = some (path shard)) :
    Formats template.toList ∧ path = fun shard => shardFile stem template shard shards :=
  ⟨(shardFile?_eq_some_iff.mp (h 0)).1, funext fun shard => (shardFile?_eq_some_iff.mp (h shard)).2⟩

end

/-- A template whose run is one letter too long. -/
def overlong : String :=
  String.ofList (List.replicate (maxWidth + 1) 'S')

theorem not_formats_overlong : ¬ Formats overlong.toList := by
  rw [overlong, String.toList_ofList]
  intro h
  have hwidth := h.1
  rw [firstWidth_replicate] at hwidth
  exact absurd hwidth (Nat.not_succ_le_self _)

end ShardedLines.Naming
