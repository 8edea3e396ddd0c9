import Mathlib.Algebra.Ring.Nat
import Mathlib.Data.List.Basic
import ShardedLines.Text.Utf8

/-!
UTF-8 read back.

The bytes of a text are cut into its characters again (`scan_encodeChars`), so both ways of reading
them give the text. A byte below 0x80 stands for its own character and is no part of any other. Texts
are in the order of their bytes (`utf8_lt_iff`).
-/

namespace ShardedLines

/-- The bytes of some characters. -/
def encodeChars (cs : List Char) : Bytes := cs.flatMap String.utf8EncodeChar

@[simp] theorem encodeChars_nil : encodeChars [] = [] := rfl

@[simp] theorem encodeChars_cons (c : Char) (cs : List Char) :
    encodeChars (c :: cs) = String.utf8EncodeChar c ++ encodeChars cs := rfl

@[simp] theorem encodeChars_append (cs ds : List Char) :
    encodeChars (cs ++ ds) = encodeChars cs ++ encodeChars ds := List.flatMap_append

@[simp] theorem utf8_ofList (cs : List Char) : utf8 (String.ofList cs) = encodeChars cs := by
  rw [utf8, String.toList_ofList, encodeChars]

namespace Utf8

/-! ## The bytes of one character -/

/-- The byte that carries the last six bits of a number inside a character. -/
def continuation (bits : Nat) : UInt8 := UInt8.ofNat (bits % 64 + 128)

theorem toNat_continuation (bits : Nat) : (continuation bits).toNat = bits % 64 + 128 :=
  UInt8.toNat_ofNat_of_lt' (show _ < 256 by omega)

theorem isContinuation_continuation (bits : Nat) : isContinuation (continuation bits) := by
  simp only [isContinuation, UInt8.le_iff_toNat_le, toNat_continuation, UInt8.reduceToNat,
    Bool.and_eq_true, decide_eq_true_eq]
  omega

theorem payload_continuation (bits : Nat) : payload (continuation bits) = bits % 64 := by
  rw [payload, toNat_continuation]
  omega

theorem maySecond_continuation {lead : UInt8} {bits : Nat}
    (overlong3 : lead.toNat = 0xE0 → 32 ≤ bits % 64)
    (surrogate : lead.toNat = 0xED → bits % 64 < 32)
    (overlong4 : lead.toNat = 0xF0 → 16 ≤ bits % 64) (beyond : lead.toNat = 0xF4 → bits % 64 < 16) :
    maySecond lead (continuation bits) := by
  simp only [maySecond, UInt8.le_iff_toNat_le, ← UInt8.toNat_inj, beq_iff_eq, toNat_continuation,
    UInt8.reduceToNat, Bool.and_eq_true, decide_eq_true_eq]
  constructor
  · repeat' split
    all_goals simp only [UInt8.reduceToNat]
    all_goals omega
  · repeat' split
    all_goals simp only [UInt8.reduceToNat]
    all_goals omega

section Next

variable {n : Nat} (rest : Bytes)

theorem next_one (h : n ≤ 0x7F) : next (UInt8.ofNat n) rest = (some (Char.ofNat n), rest) := by
  have hl : (UInt8.ofNat n).toNat = n := UInt8.toNat_ofNat_of_lt' (show _ < 256 by omega)
  unfold next
  simp only [UInt8.lt_iff_toNat_lt, hl, UInt8.reduceToNat]
  rw [if_pos (by omega)]

theorem next_two (h : 0x7F < n) (h' : n ≤ 0x7FF) :
    next (UInt8.ofNat (n / 64 % 32 + 192)) (continuation n :: rest) =
      (some (Char.ofNat n), rest) := by
  have hl : (UInt8.ofNat (n / 64 % 32 + 192)).toNat = n / 64 + 192 := by
    rw [UInt8.toNat_ofNat_of_lt' (show _ < 256 by omega)]
    omega
  have hn : (n / 64 + 192) % 32 * 64 + n % 64 = n := by omega
  unfold next
  simp only [UInt8.lt_iff_toNat_lt, UInt8.le_iff_toNat_le, hl, UInt8.reduceToNat, Bool.and_eq_true,
    decide_eq_true_eq, isContinuation_continuation, payload_continuation, if_true, hn]
  rw [if_neg (by omega), if_pos (by omega)]

theorem next_three (h : 0x7FF < n) (h' : n ≤ 0xFFFF) (scalar : n < 0xD800 ∨ 0xDFFF < n) :
    next (UInt8.ofNat (n / 4096 % 16 + 224)) (continuation (n / 64) :: continuation n :: rest) =
      (some (Char.ofNat n), rest) := by
  have hl : (UInt8.ofNat (n / 4096 % 16 + 224)).toNat = n / 4096 + 224 := by
    rw [UInt8.toNat_ofNat_of_lt' (show _ < 256 by omega)]
    omega
  have hm : maySecond (UInt8.ofNat (n / 4096 % 16 + 224)) (continuation (n / 64)) := by
    apply maySecond_continuation <;> omega
  have hn : ((n / 4096 + 224) % 16 * 64 + n / 64 % 64) * 64 + n % 64 = n := by omega
  unfold next
  simp only [UInt8.lt_iff_toNat_lt, UInt8.le_iff_toNat_le, hl, UInt8.reduceToNat, Bool.and_eq_true,
    decide_eq_true_eq, isContinuation_continuation, payload_continuation, hm, if_true, hn]
  rw [if_neg (by omega), if_neg (by omega), if_pos (by omega)]

theorem next_four (h : 0xFFFF < n) (h' : n < 0x110000) :
    next (UInt8.ofNat (n / 262144 % 8 + 240))
        (continuation (n / 4096) :: continuation (n / 64) :: continuation n :: rest) =
      (some (Char.ofNat n), rest) := by
  have hl : (UInt8.ofNat (n / 262144 % 8 + 240)).toNat = n / 262144 + 240 := by
    rw [UInt8.toNat_ofNat_of_lt' (show _ < 256 by omega)]
    omega
  have hm : maySecond (UInt8.ofNat (n / 262144 % 8 + 240)) (continuation (n / 4096)) := by
    apply maySecond_continuation <;> omega
  have hn :
      (((n / 262144 + 240) % 8 * 64 + n / 4096 % 64) * 64 + n / 64 % 64) * 64 + n % 64 = n := by
    omega
  unfold next
  simp only [UInt8.lt_iff_toNat_lt, UInt8.le_iff_toNat_le, hl, UInt8.reduceToNat, Bool.and_eq_true,
    decide_eq_true_eq, isContinuation_continuation, payload_continuation, hm, if_true, hn]
  rw [if_neg (by omega), if_neg (by omega), if_neg (by omega), if_pos (by omega)]

end Next

/-- A character is taken off the front of its bytes, whatever follows them. -/
theorem scan_encodeChar (c : Char) (rest : Bytes) :
    scan (String.utf8EncodeChar c ++ rest) = some c :: scan rest := by
  have hv : c.val.toNat < 0xD800 ∨ 0xDFFF < c.val.toNat ∧ c.val.toNat < 0x110000 := c.valid
  have hc : Char.ofNat c.val.toNat = c := Char.ofNat_toNat c
  rw [String.utf8EncodeChar]
  generalize c.val.toNat = n at hv hc
  -- one case for each number of bytes
  by_cases h1 : n ≤ 0x7F
  · rw [if_pos h1, List.singleton_append, scan, next_one rest h1, hc]
  rw [if_neg h1]
  by_cases h2 : n ≤ 0x7FF
  · rw [if_pos h2]
    change scan (_ :: continuation n :: rest) = _
    rw [scan, next_two rest (by omega) h2, hc]
  rw [if_neg h2]
  by_cases h3 : n ≤ 0xFFFF
  · rw [if_pos h3]
    change scan (_ :: continuation (n / 64) :: continuation n :: rest) = _
    rw [scan, next_three rest (by omega) h3 (by omega), hc]
  · rw [if_neg h3]
    change scan (_ :: continuation (n / 4096) :: continuation (n / 64) :: continuation n :: rest) = _
    rw [scan, next_four rest (by omega) (by omega), hc]

/-! ## Whole texts -/

theorem scan_encodeChars (cs : List Char) : scan (encodeChars cs) = cs.map some := by
  induction cs with
  | nil => rw [encodeChars_nil, scan, List.map_nil]
  | cons c cs ih => rw [encodeChars_cons, scan_encodeChar, ih, List.map_cons]

/-- The bytes are ill-formed nowhere, so nothing is refused. -/
theorem decode?_encodeChars (cs : List Char) :
    decode? (encodeChars cs) = some (String.ofList cs) := by
  have h : (cs.map some).mapM id = some cs := by
    induction cs with
    | nil => rfl
    | cons c cs ih => simp [ih]
  rw [decode?, scan_encodeChars, h, Option.map_some]

theorem decodeLossy_encodeChars (cs : List Char) :
    decodeLossy (encodeChars cs) = String.ofList cs := by
  rw [decodeLossy, scan_encodeChars, List.map_map]
  congr 1
  exact List.map_id cs

/-! ## Bytes below 0x80 -/

theorem encodeChar_of_le {c : Char} (h : c.toNat ≤ 0x7F) :
    String.utf8EncodeChar c = [UInt8.ofNat c.toNat] := by
  rw [String.utf8EncodeChar, Char.toNat_val, if_pos h]

/-- Only its own character holds a byte below 0x80. -/
theorem eq_of_mem_encodeChar {a c : Char} (ha : a.toNat ≤ 0x7F)
    (h : UInt8.ofNat a.toNat ∈ String.utf8EncodeChar c) : c = a := by
  have hl : (UInt8.ofNat a.toNat).toNat = a.toNat :=
    UInt8.toNat_ofNat_of_lt' (show _ < 256 by omega)
  have large : ∀ {n : Nat}, 0x80 ≤ n → n < 256 → UInt8.ofNat a.toNat ≠ UInt8.ofNat n := by
    intro n hn hn' he
    have := congrArg UInt8.toNat he
    rw [hl, UInt8.toNat_ofNat_of_lt' (show _ < 256 from hn')] at this
    omega
  by_cases hc : c.toNat ≤ 0x7F
  · rw [encodeChar_of_le hc, List.mem_singleton] at h
    have := congrArg UInt8.toNat h
    rw [hl, UInt8.toNat_ofNat_of_lt' (show _ < 256 by omega)] at this
    exact (Char.toNat_inj.mp this).symm
  · -- every byte of a longer character is at least 0x80
    rw [String.utf8EncodeChar, Char.toNat_val, if_neg hc] at h
    split at h
    · simp only [List.mem_cons, List.not_mem_nil, or_false] at h
      rcases h with h | h
      all_goals exact absurd h (large (by omega) (by omega))
    · split at h
      · simp only [List.mem_cons, List.not_mem_nil, or_false] at h
        rcases h with h | h | h
        all_goals exact absurd h (large (by omega) (by omega))
      · simp only [List.mem_cons, List.not_mem_nil, or_false] at h
        rcases h with h | h | h | h
        all_goals exact absurd h (large (by omega) (by omega))

theorem encodeChar_ne_nil (c : Char) : String.utf8EncodeChar c ≠ [] := by
  rw [String.utf8EncodeChar]
  repeat' split
  all_goals simp

theorem mem_encodeChars_iff {a : Char} (ha : a.toNat ≤ 0x7F) {cs : List Char} :
    UInt8.ofNat a.toNat ∈ encodeChars cs ↔ a ∈ cs := by
  rw [encodeChars, List.mem_flatMap]
  constructor
  · rintro ⟨c, hc, hm⟩
    exact eq_of_mem_encodeChar ha hm ▸ hc
  · intro h
    refine ⟨a, h, ?_⟩
    rw [encodeChar_of_le ha]
    exact List.mem_singleton_self _

theorem getLast?_encodeChars_iff {a : Char} (ha : a.toNat ≤ 0x7F) {cs : List Char} :
    (encodeChars cs).getLast? = some (UInt8.ofNat a.toNat) ↔ cs.getLast? = some a := by
  rcases List.eq_nil_or_concat' cs with rfl | ⟨start, c, rfl⟩
  · simp
  · rw [encodeChars_append, encodeChars_cons, encodeChars_nil, List.append_nil,
      List.getLast?_append_of_ne_nil _ (encodeChar_ne_nil c), List.getLast?_concat,
      Option.some.injEq]
    constructor
    · intro h
      exact eq_of_mem_encodeChar ha (List.mem_of_getLast? h)
    · rintro rfl
      rw [encodeChar_of_le ha]
      rfl

/-! ## The order of bytes -/

/-- Bytes that start with a smaller one come first. -/
theorem lead_lt {n m : Nat} (h : n < m) (hm : m < 256) (x y : Bytes) :
    UInt8.ofNat n :: x < UInt8.ofNat m :: y := by
  refine List.cons_lt_cons_iff.mpr (.inl ?_)
  rw [UInt8.lt_iff_toNat_lt, UInt8.toNat_ofNat_of_lt' (show _ < 256 by omega),
    UInt8.toNat_ofNat_of_lt' hm]
  exact h

/-- A number in a first byte that is marked, and so many bytes of six bits each. -/
def spelled (mark : Nat) : Nat → Nat → Bytes
  | 0, n => [UInt8.ofNat (n + mark)]
  | more + 1, n => spelled mark more (n / 64) ++ [continuation n]

theorem spelled_lt {mark more n m : Nat} (h : n < m) (hm : m / 64 ^ more + mark < 256)
    (x y : Bytes) : spelled mark more n ++ x < spelled mark more m ++ y := by
  induction more generalizing n m x y with
  | zero => exact lead_lt (by omega) (by simpa using hm) x y
  | succ more ih =>
    rw [spelled, spelled, List.append_assoc, List.append_assoc]
    by_cases hdiv : n / 64 < m / 64
    · refine ih hdiv ?_ _ _
      rwa [Nat.div_div_eq_div_mul, ← Nat.pow_succ']
    · -- the last six bits decide where the others are the same
      rw [show m / 64 = n / 64 by omega]
      exact List.append_left_lt (lead_lt (by omega) (by omega) x y)

/-- The bytes of a character, by the number of bytes. -/
theorem encodeChar_cases (c : Char) :
    let n := c.val.toNat
    n ≤ 0x7F ∧ String.utf8EncodeChar c = spelled 0 0 n ∨
    (0x7F < n ∧ n ≤ 0x7FF) ∧ String.utf8EncodeChar c = spelled 192 1 n ∨
    (0x7FF < n ∧ n ≤ 0xFFFF) ∧ String.utf8EncodeChar c = spelled 224 2 n ∨
    (0xFFFF < n ∧ n < 0x110000) ∧ String.utf8EncodeChar c = spelled 240 3 n := by
  intro n
  have hv : n < 0xD800 ∨ 0xDFFF < n ∧ n < 0x110000 := c.valid
  rw [String.utf8EncodeChar]
  by_cases h1 : n ≤ 0x7F
  · exact .inl ⟨h1, if_pos h1⟩
  rw [if_neg h1]
  by_cases h2 : n ≤ 0x7FF
  · rw [if_pos h2]
    refine .inr (.inl ⟨⟨by omega, h2⟩, ?_⟩)
    change [UInt8.ofNat (n / 64 % 32 + 192), continuation n] = [UInt8.ofNat (n / 64 + 192), _]
    rw [show n / 64 % 32 = n / 64 by omega]
  rw [if_neg h2]
  by_cases h3 : n ≤ 0xFFFF
  · rw [if_pos h3]
    refine .inr (.inr (.inl ⟨⟨by omega, h3⟩, ?_⟩))
    change [UInt8.ofNat (n / 4096 % 16 + 224), continuation (n / 64), continuation n] =
      [UInt8.ofNat (n / 64 / 64 + 224), _, _]
    rw [show n / 4096 % 16 = n / 64 / 64 by omega]
  · rw [if_neg h3]
    refine .inr (.inr (.inr ⟨⟨by omega, by omega⟩, ?_⟩))
    change [UInt8.ofNat (n / 262144 % 8 + 240), continuation (n / 4096), continuation (n / 64),
      continuation n] = [UInt8.ofNat (n / 64 / 64 / 64 + 240), continuation (n / 64 / 64), _, _]
    rw [show n / 262144 % 8 = n / 64 / 64 / 64 by omega, show n / 4096 = n / 64 / 64 by omega]

theorem encodeChar_append_lt {c d : Char} (h : c < d) (x y : Bytes) :
    String.utf8EncodeChar c ++ x < String.utf8EncodeChar d ++ y := by
  have hlt : c.val.toNat < d.val.toNat := h
  rcases encodeChar_cases c with ⟨hc, hc'⟩ | ⟨hc, hc'⟩ | ⟨hc, hc'⟩ | ⟨hc, hc'⟩ <;>
    rcases encodeChar_cases d with ⟨hd, hd'⟩ | ⟨hd, hd'⟩ | ⟨hd, hd'⟩ | ⟨hd, hd'⟩ <;>
    rw [hc', hd']
  · exact spelled_lt hlt (by omega) x y
  · exact lead_lt (by omega) (by omega) _ _
  · exact lead_lt (by omega) (by omega) _ _
  · exact lead_lt (by omega) (by omega) _ _
  · omega
  · exact spelled_lt hlt (by omega) x y
  · exact lead_lt (by omega) (by omega) _ _
  · exact lead_lt (by omega) (by omega) _ _
  · omega
  · omega
  · exact spelled_lt hlt (by omega) x y
  · exact lead_lt (by omega) (by omega) _ _
  · omega
  · omega
  · omega
  · exact spelled_lt hlt (by omega) x y

end Utf8

theorem encodeChars_lt {cs ds : List Char} (h : cs < ds) : encodeChars cs < encodeChars ds := by
  induction cs generalizing ds with
  | nil =>
    match ds, h with
    | d :: ds, _ =>
      obtain ⟨b, rest, hd⟩ := List.exists_cons_of_ne_nil (Utf8.encodeChar_ne_nil d)
      rw [encodeChars_nil, encodeChars_cons, hd]
      exact List.nil_lt_cons ..
  | cons c cs ih =>
    match ds, h with
    | d :: ds, h =>
      rcases List.cons_lt_cons_iff.mp h with hlt | ⟨rfl, hlt⟩
      · exact Utf8.encodeChar_append_lt hlt _ _
      · exact List.append_left_lt (ih hlt)

/-- The order of texts is that of their bytes. -/
theorem utf8_lt_iff (s t : String) : utf8 s < utf8 t ↔ s < t := by
  refine ⟨fun h => Decidable.byContradiction fun hn => ?_, encodeChars_lt⟩
  rcases List.le_iff_lt_or_eq.mp (List.not_lt.mp hn) with hlt | heq
  · exact List.lt_asymm h (encodeChars_lt hlt)
  · rw [utf8, utf8, heq] at h
    exact List.lt_irrefl _ h

end ShardedLines
