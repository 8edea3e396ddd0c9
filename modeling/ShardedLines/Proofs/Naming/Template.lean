import Mathlib.Algebra.Ring.Nat
import ShardedLines.Proofs.Disk.Path
import ShardedLines.Proofs.Naming.Pattern

/-!
The names of the shards of one template.

Where a template has the letter `S`, the names of different shards differ, as padding keeps the
number (`shardFile_injective`). Digits neither end a stretch of a path nor start it with a point, so
the names of shards are plain where stem and template are (`isPlain_shardFile`).
-/

namespace ShardedLines.Naming

/-! ## Padded numbers -/

theorem padded_ne_nil (width n : Nat) : padded width n ≠ [] := by
  have hdigits : 0 < (Nat.toDigits 10 n).length := Nat.length_toDigits_pos
  have hlength := length_padded width n
  intro h
  rw [h, List.length_nil] at hlength
  omega

theorem ofDigitChars_padded (width n : Nat) : Nat.ofDigitChars 10 (padded width n) 0 = n := by
  have hzeros : ∀ count, Nat.ofDigitChars 10 (List.replicate count '0') 0 = 0 := by
    intro count
    induction count with
    | zero => rfl
    | succ count ih => simpa [List.replicate_succ, Nat.ofDigitChars] using ih
  rw [padded, List.leftpad, Nat.ofDigitChars_append, hzeros]
  simp

/-- Padding loses nothing of a number, however wide. -/
theorem padded_injective (width : Nat) : Function.Injective (padded width) := by
  intro first second h
  rw [← ofDigitChars_padded width first, h, ofDigitChars_padded]

/-- The last digit stands behind the digits of the number without it. -/
theorem padded_succ {width : Nat} (hw : 1 ≤ width) (n : Nat) :
    padded (width + 1) n = padded width (n / 10) ++ [Nat.digitChar (n % 10)] := by
  obtain ⟨zeros, rfl⟩ := Nat.exists_eq_add_of_le' hw
  rw [padded, padded, List.leftpad, List.leftpad, Nat.toDigits_eq_if (by decide)]
  split
  · rename_i hn
    rw [Nat.div_eq_of_lt hn, Nat.mod_eq_of_lt hn, Nat.toDigits_zero]
    simp [List.replicate_succ']
  · rw [List.length_append, List.length_singleton, Nat.add_sub_add_right, List.append_assoc]

theorem digitChar_lt {m n : Nat} (h : m < n) (hn : n < 10) : Nat.digitChar m < Nat.digitChar n :=
  (by decide : ∀ n < 10, ∀ m < n, Nat.digitChar m < Nat.digitChar n) n hn m h

/-- Numbers that padding brings to one width come in the order of their digits, whatever follows
them. -/
theorem padded_lt {width m n : Nat} (hw : 1 ≤ width) (h : m < n) (hn : n < 10 ^ width)
    (x y : List Char) : padded width m ++ x < padded width n ++ y := by
  induction width, hw using Nat.le_induction generalizing m n x y with
  | base =>
    rw [pow_one] at hn
    have hone : ∀ k < 10, padded 1 k = [Nat.digitChar k] := by decide
    rw [hone m (by omega), hone n hn]
    exact List.cons_lt_cons_iff.mpr (.inl (digitChar_lt h hn))
  | succ width hw ih =>
    rw [padded_succ hw, padded_succ hw, List.append_assoc, List.append_assoc]
    by_cases hdiv : m / 10 < n / 10
    · refine ih hdiv ?_ _ _
      rw [pow_succ] at hn
      omega
    · -- the last digit decides where the others are the same
      rw [show n / 10 = m / 10 by omega]
      refine List.append_left_lt (List.cons_lt_cons_iff.mpr (.inl ?_))
      exact digitChar_lt (by omega) (by omega)

/-- The first number that is wider than the padding stands before the one in front of it. -/
theorem padded_pow_lt {width : Nat} (hw : 1 ≤ width) (x y : List Char) :
    padded width (10 ^ width) ++ x < padded width (10 ^ width - 1) ++ y := by
  induction width, hw using Nat.le_induction generalizing x y with
  | base => exact List.cons_lt_cons_iff.mpr (.inl (by decide))
  | succ width hw ih =>
    have hpos : 0 < 10 ^ width := Nat.pow_pos (by decide)
    rw [padded_succ hw, padded_succ hw, List.append_assoc, List.append_assoc, pow_succ,
      show 10 ^ width * 10 / 10 = 10 ^ width by omega,
      show (10 ^ width * 10 - 1) / 10 = 10 ^ width - 1 by omega]
    exact ih _ _

/-! ## The place of the shard -/

/-- The number of the shard stands between two texts that do not depend on it, as wide as the run
of its letter. -/
theorem exists_fill_eq (shards? : Option Nat) {template : List Char} (h : 'S' ∈ template) :
    ∃ before after, ∀ shard,
      fill (some shard) shards? template =
        before ++ padded (firstWidth 'S' template) shard ++ after := by
  -- the scan is the same for all numbers, so it is followed for one of them
  suffices hscan : ∀ shard? : Option Nat, shard?.isSome → ∃ before after, ∀ shard,
      fill (some shard) shards? template =
        before ++ padded (firstWidth 'S' template) shard ++ after from
    hscan (some 0) rfl
  intro shard? hsome
  have behind : ∀ {c : Char} {rest : List Char}, ¬ (c == 'S') = true → 'S' ∈ c :: rest →
      'S' ∈ rest := by
    intro c rest hc hm
    rcases List.mem_cons.mp hm with rfl | hm
    · exact absurd rfl hc
    · exact hm
  induction shard?, shards?, template using fill.induct with
  | case1 => cases h
  | case2 shards? c rest hS shard ih =>
    obtain rfl := eq_of_beq hS
    rw [firstWidth_self]
    exact ⟨[], _, fun shard => fill_shard shards? shard rest⟩
  | case3 => cases hsome
  | case4 shard? c rest hS hN shards ih =>
    obtain ⟨before, after, hfill⟩ := ih (mem_afterRun (by decide) (behind hS h)) hsome
    refine ⟨padded (1 + runLength 'N' rest) shards ++ before, after, ?_⟩
    intro shard
    rw [fill, if_neg hS, if_pos hN, firstWidth_cons (by simpa using hS)]
    simp only [hfill, firstWidth_afterRun (show 'N' ≠ 'S' by decide), List.append_assoc]
  | case5 shard? c rest hS hN ih =>
    obtain ⟨before, after, hfill⟩ := ih (behind hS h) hsome
    refine ⟨c :: before, after, ?_⟩
    intro shard
    rw [fill, if_neg hS, if_pos hN, firstWidth_cons (by simpa using hS)]
    simp only [hfill, List.cons_append]
  | case6 shard? shards? c rest hS hN ih =>
    obtain ⟨before, after, hfill⟩ := ih (behind hS h) hsome
    refine ⟨c :: before, after, ?_⟩
    intro shard
    rw [fill_other _ _ hS hN, hfill, firstWidth_cons (by simpa using hS)]
    rfl

/-- Shards that a template tells apart have different names. -/
theorem shardFile_injective (stem : String) {template : String} (h : 'S' ∈ template.toList)
    (shards : Nat) : Function.Injective fun shard => shardFile stem template shard shards := by
  intro first second heq
  obtain ⟨before, after, hfill⟩ := exists_fill_eq (some shards) h
  have htexts := congrArg String.toList heq
  simp only [toList_shardFile, hfill] at htexts
  exact padded_injective _
    (List.append_cancel_left (List.append_cancel_right (List.append_cancel_left htexts)))

/-! ## Names as paths -/

open ShardedLines.Path (CleanFrom)

theorem ne_slash_of_isDigit {c : Char} (h : c.isDigit = true) : c ≠ '/' := by
  rintro rfl
  exact absurd h (by decide)

theorem ne_point_of_isDigit {c : Char} (h : c.isDigit = true) : c ≠ '.' := by
  rintro rfl
  exact absurd h (by decide)

/-- Digits are read like any other characters of a name. -/
theorem cleanFrom_padded {start : Bool} {width n : Nat} {rest : List Char}
    (h : CleanFrom false rest) : CleanFrom start (padded width n ++ rest) := by
  have digits : ∀ {text : List Char}, (∀ c ∈ text, c.isDigit = true) →
      CleanFrom false (text ++ rest) := by
    intro text ht
    induction text with
    | nil => exact h
    | cons c text ih =>
      rw [List.forall_mem_cons] at ht
      rw [List.cons_append, CleanFrom, beq_false_of_ne (ne_slash_of_isDigit ht.1)]
      exact ⟨fun hstart => absurd hstart Bool.false_ne_true, ih ht.2⟩
  -- a stretch may start with the first digit, but with none of the others
  have hall : ∀ c ∈ padded width n, c.isDigit = true := fun c hc => isDigit_of_mem_padded hc
  obtain ⟨c, text, hc⟩ := List.exists_cons_of_ne_nil (padded_ne_nil width n)
  rw [hc, List.forall_mem_cons] at hall
  have hslash := ne_slash_of_isDigit hall.1
  rw [hc, List.cons_append, CleanFrom, beq_false_of_ne hslash]
  exact ⟨fun _ => ⟨hslash, ne_point_of_isDigit hall.1⟩, digits hall.2⟩

theorem cleanFrom_afterRun {letter : Char} (hl : letter ≠ '/') {template : List Char}
    (h : CleanFrom false template) : CleanFrom false (afterRun letter template) := by
  induction template with
  | nil => exact h
  | cons c rest ih =>
    rw [afterRun, List.dropWhile_cons]
    split
    · rename_i hc
      obtain rfl := eq_of_beq hc
      rw [CleanFrom, beq_false_of_ne hl] at h
      exact ih h.2
    · exact h

theorem cleanFrom_fill {start : Bool} (shard? shards? : Option Nat) {template : List Char}
    (h : CleanFrom start template) : CleanFrom start (fill shard? shards? template) := by
  fun_induction fill shard? shards? template generalizing start with
  | case1 => exact h
  | case2 shards? c rest hS shard ih =>
    obtain rfl := eq_of_beq hS
    exact cleanFrom_padded (ih (cleanFrom_afterRun (by decide) h.2))
  | case3 shards? c rest hS ih => exact ⟨h.1, ih h.2⟩
  | case4 shard? c rest hS hN shards ih =>
    obtain rfl := eq_of_beq hN
    exact cleanFrom_padded (ih (cleanFrom_afterRun (by decide) h.2))
  | case5 shard? c rest hS hN ih => exact ⟨h.1, ih h.2⟩
  | case6 shard? shards? c rest hS hN ih => exact ⟨h.1, ih h.2⟩

theorem head?_fill (shard? shards? : Option Nat) (template : List Char) :
    (fill shard? shards? template).head? = some '/' ↔ template.head? = some '/' := by
  have digits : ∀ width n (rest : List Char), (padded width n ++ rest).head? ≠ some '/' := by
    intro width n rest
    obtain ⟨c, text, hc⟩ := List.exists_cons_of_ne_nil (padded_ne_nil width n)
    rw [hc, List.cons_append, List.head?_cons, ne_eq, Option.some.injEq]
    rintro rfl
    exact slash_notMem_padded width n (hc ▸ List.mem_cons_self)
  fun_induction fill shard? shards? template with
  | case1 => rfl
  | case2 shards? c rest hS shard =>
    obtain rfl := eq_of_beq hS
    exact iff_of_false (digits _ _ _) (by simp)
  | case4 shard? c rest hS hN shards =>
    obtain rfl := eq_of_beq hN
    exact iff_of_false (digits _ _ _) (by simp)
  | case3 | case5 | case6 => rfl

variable (stem template : String) (shard shards : Nat)

theorem isAbsolute_shardFile :
    Path.isAbsolute (shardFile stem template shard shards) = Path.isAbsolute (stem ++ template) := by
  rw [Path.isAbsolute, Path.isAbsolute, toList_shardFile, String.toList_append]
  cases stem.toList with
  | nil =>
    rw [List.nil_append, List.nil_append, Bool.eq_iff_iff, beq_iff_eq, beq_iff_eq]
    exact head?_fill ..
  | cons c rest => rfl

theorem isPlain_shardFile (h : Path.IsPlain (stem ++ template)) :
    Path.IsPlain (shardFile stem template shard shards) := by
  rw [Path.isPlain_iff] at h ⊢
  rw [isAbsolute_shardFile, toList_shardFile]
  rw [String.toList_append] at h
  exact Path.cleanFrom_append (cleanFrom_fill _ _) h

end ShardedLines.Naming
