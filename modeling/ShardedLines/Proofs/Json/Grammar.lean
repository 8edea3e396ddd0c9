import Mathlib.Data.List.Forall2
import Mathlib.Data.List.Induction
import ShardedLines.Json.Reader.Basic

/-!
The grammar of JSON.

A value has many texts: blanks may stand around it and around the marks within it, a character may be
written by a letter or by its number, and a number may have a sign and an exponent in several forms.
The relations here say which texts stand for a string, a number, a list or an object, without regard
to how they are read, and `IsJson` which texts are values at all. The compact texts of `Json.quoted`,
`Json.arrayText` and `Json.objectText` are among them.
-/

namespace ShardedLines.Json

open Reader (isJsonBlank simpleEscape? hexValue? isHighSurrogate isLowSurrogate)

/-- Nothing but blanks. -/
def Blank (text : List Char) : Prop := ∀ c ∈ text, isJsonBlank c = true

theorem Blank.nil : Blank [] := by
  intro c hc
  cases hc

/-! ## Strings -/

/-- The code unit that four hexadecimal digits write. -/
def codeUnit? : List Char → Option Nat
  | [a, b, c, d] =>
    match hexValue? a, hexValue? b, hexValue? c, hexValue? d with
    | some a, some b, some c, some d => some (((a * 16 + b) * 16 + c) * 16 + d)
    | _, _, _, _ => none
  | _ => none

/-- The ways to write a character between quotes: as it is, by a letter, or by one or two code
units. -/
inductive Spelling (c : Char) : List Char → Prop where
  | plain : c ≠ '"' → c ≠ '\\' → 0x20 ≤ c.toNat → Spelling c [c]
  | letter {e : Char} : simpleEscape? e = some c → Spelling c ['\\', e]
  | unit {quad : List Char} : codeUnit? quad = some c.toNat → Spelling c ('\\' :: 'u' :: quad)
  | pair {high low : List Char} {first second : Nat} : codeUnit? high = some first →
      codeUnit? low = some second → isHighSurrogate first = true → isLowSurrogate second = true →
      c.toNat = 0x10000 + (first - 0xD800) * 0x400 + (second - 0xDC00) →
      Spelling c ('\\' :: 'u' :: high ++ '\\' :: 'u' :: low)

/-- A text between quotes spells some characters. -/
inductive Spells : List Char → List Char → Prop where
  | nil : Spells [] []
  | cons {c : Char} {cs text rest : List Char} : Spelling c text → Spells cs rest →
      Spells (c :: cs) (text ++ rest)

/-- The text is a string in quotes. -/
def Quotes (s : String) (text : List Char) : Prop :=
  ∃ body, Spells s.toList body ∧ text = '"' :: body ++ ['"']

/-- A text between quotes, of which nobody asks for the characters: the code units may be any. -/
inductive IsStringBody : List Char → Prop where
  | nil : IsStringBody []
  | plain {c : Char} {rest : List Char} : c ≠ '"' → c ≠ '\\' → 0x20 ≤ c.toNat →
      IsStringBody rest → IsStringBody (c :: rest)
  | letter {e : Char} {rest : List Char} : (simpleEscape? e).isSome → IsStringBody rest →
      IsStringBody ('\\' :: e :: rest)
  | unit {quad rest : List Char} : (codeUnit? quad).isSome → IsStringBody rest →
      IsStringBody ('\\' :: 'u' :: quad ++ rest)

/-- The text is some string in quotes. -/
def IsQuoted (text : List Char) : Prop :=
  ∃ body, IsStringBody body ∧ text = '"' :: body ++ ['"']

theorem Spells.isStringBody {cs text : List Char} (h : Spells cs text) : IsStringBody text := by
  induction h with
  | nil => exact .nil
  | cons hspelling _ ih =>
    cases hspelling with
    | plain hq hb hc => exact .plain hq hb hc ih
    | letter he => exact .letter (Option.isSome_of_eq_some he) ih
    | unit hunit => exact .unit (Option.isSome_of_eq_some hunit) ih
    | pair hhigh hlow =>
      rw [List.append_assoc]
      exact .unit (Option.isSome_of_eq_some hhigh) (.unit (Option.isSome_of_eq_some hlow) ih)

theorem Quotes.isQuoted {s : String} {text : List Char} (h : Quotes s text) : IsQuoted text := by
  obtain ⟨body, hbody, rfl⟩ := h
  exact ⟨body, hbody.isStringBody, rfl⟩

/-! ## Numbers -/

/-- At least one digit, and nothing else. -/
def IsDigits (text : List Char) : Prop := text ≠ [] ∧ ∀ c ∈ text, c.isDigit = true

/-- The digits before the point: no zero stands in front of another digit. -/
def IsWhole (text : List Char) : Prop := IsDigits text ∧ (text.head? = some '0' → text.length = 1)

def minusText (negative : Bool) : List Char := if negative then ['-'] else []

def fractionText : Option (List Char) → List Char
  | none => []
  | some digits => '.' :: digits

/-- The ways to write an exponent. Only here a sign may also be a plus. -/
inductive ExponentText : Option (Bool × List Char) → List Char → Prop where
  | absent : ExponentText none []
  | unsigned {mark : Char} {digits : List Char} : mark = 'e' ∨ mark = 'E' → IsDigits digits →
      ExponentText (some (false, digits)) (mark :: digits)
  | plus {mark : Char} {digits : List Char} : mark = 'e' ∨ mark = 'E' → IsDigits digits →
      ExponentText (some (false, digits)) (mark :: '+' :: digits)
  | minus {mark : Char} {digits : List Char} : mark = 'e' ∨ mark = 'E' → IsDigits digits →
      ExponentText (some (true, digits)) (mark :: '-' :: digits)

/-- The text is a number with these digits. -/
structure NumeralText (n : Numeral) (text : List Char) : Prop where
  whole : IsWhole n.whole
  fraction : ∀ digits ∈ n.fraction?, IsDigits digits
  text_eq : ∃ exponent, ExponentText n.exponent? exponent ∧
    text = minusText n.negative ++ (n.whole ++ (fractionText n.fraction? ++ exponent))

/-! ## Lists and objects -/

/-- What stands behind an item up to the closing bracket: more items, each with a comma before it. -/
inductive Led : List (List Char) → List Char → Prop where
  | done {after : List Char} : Blank after → Led [] after
  | next {after before item rest : List Char} {items : List (List Char)} : Blank after →
      Blank before → Led items rest → Led (item :: items) (after ++ ',' :: (before ++ (item ++ rest)))

/-- What stands between brackets: items with commas between them, and blanks around them. -/
inductive Separated : List (List Char) → List Char → Prop where
  | empty {blanks : List Char} : Blank blanks → Separated [] blanks
  | items {before item rest : List Char} {items : List (List Char)} : Blank before →
      Led items rest → Separated (item :: items) (before ++ (item ++ rest))

/-- The text is a list of these values. -/
def ListText (items : List (List Char)) (text : List Char) : Prop :=
  ∃ body, Separated items body ∧ text = '[' :: body ++ [']']

/-- A member of an object with a key and a value. -/
inductive MemberText {κ : Type} (Key : κ → List Char → Prop) (key : κ) (value : List Char) :
    List Char → Prop where
  | mk {keyText after before : List Char} : Key key keyText → Blank after → Blank before →
      MemberText Key key value (keyText ++ (after ++ ':' :: (before ++ value)))

/-- The text is an object of these members. -/
def ObjectText {κ : Type} (Key : κ → List Char → Prop) (members : List (κ × List Char))
    (text : List Char) : Prop :=
  ∃ texts body, List.Forall₂ (fun member => MemberText Key member.1 member.2) members texts ∧
    Separated texts body ∧ text = '\x7b' :: body ++ ['\x7d']

/-- The text is a value. -/
inductive IsJson : List Char → Prop where
  | null : IsJson "null".toList
  | bool (b : Bool) : IsJson (boolText b)
  | number {n : Numeral} {text : List Char} : NumeralText n text → IsJson text
  | string {text : List Char} : IsQuoted text → IsJson text
  | array {items : List (List Char)} {text : List Char} : ListText items text →
      (∀ item ∈ items, IsJson item) → IsJson text
  | object {members : List (Unit × List Char)} {text : List Char} :
      ObjectText (fun _ => IsQuoted) members text → (∀ member ∈ members, IsJson member.2) →
      IsJson text

/-! ## Compact texts -/

theorem hexValue?_digitChar {n : Nat} (h : n < 16) : hexValue? (Nat.digitChar n) = some n := by
  have : ∀ m : Fin 16, hexValue? (Nat.digitChar m) = some m.val := by decide
  exact this ⟨n, h⟩

theorem codeUnit?_control {n : Nat} (h : n < 0x20) :
    codeUnit? ['0', '0', Nat.digitChar (n / 16), Nat.digitChar (n % 16)] = some n := by
  have h0 : hexValue? '0' = some 0 := rfl
  have hthird := hexValue?_digitChar (show n / 16 < 16 by omega)
  have hfourth := hexValue?_digitChar (show n % 16 < 16 by omega)
  simp only [codeUnit?, h0, hthird, hfourth]
  congr 1
  omega

theorem spelling_escape (c : Char) : Spelling c (escape c) := by
  unfold escape
  repeat' split
  -- seven characters have a letter of their own, others are written by number or as they are
  iterate 7
    case _ h =>
      obtain rfl := eq_of_beq h
      exact .letter rfl
  case _ h => exact .unit (codeUnit?_control h)
  case _ hq hb _ _ _ _ _ hc =>
    exact .plain (by simpa using hq) (by simpa using hb) (Nat.le_of_not_lt hc)

theorem quotes_quoted (s : String) : Quotes s (quoted s) := by
  refine ⟨s.toList.flatMap escape, ?_, rfl⟩
  induction s.toList with
  | nil => exact .nil
  | cons c cs ih => exact .cons (spelling_escape c) ih

/-- A number does not begin with a zero, unless it is zero. -/
theorem head?_toDigits {n : Nat} (h : 0 < n) : (Nat.toDigits 10 n).head? ≠ some '0' := by
  induction n using Nat.strongRecOn with
  | ind n ih =>
    by_cases hn : n < 10
    · have hdigit : ∀ m : Fin 10, 0 < m.val → [Nat.digitChar m].head? ≠ some '0' := by decide
      rw [Nat.toDigits_of_lt_base hn]
      exact hdigit ⟨n, hn⟩ h
    · have hbase : 10 ≤ n := Nat.le_of_not_lt hn
      have hhead : (Nat.toDigits 10 n).head? = (Nat.toDigits 10 (n / 10)).head? := by
        rw [Nat.toDigits_of_base_le (by decide) hbase,
          List.head?_append_of_ne_nil _ Nat.toDigits_ne_nil]
      rw [hhead]
      exact ih (n / 10) (by omega) (by omega)

theorem isWhole_natText (n : Nat) : IsWhole (natText n) := by
  refine ⟨⟨Nat.toDigits_ne_nil, fun c hc => Nat.isDigit_of_mem_toDigits (by decide) (by decide) hc⟩,
    fun hzero => ?_⟩
  rcases Nat.eq_zero_or_pos n with rfl | hpos
  · rfl
  · exact absurd hzero (head?_toDigits hpos)

theorem numeralText_natText (n : Nat) : NumeralText (.ofNat n) (natText n) where
  whole := isWhole_natText n
  fraction := by
    intro digits hd
    cases hd
  text_eq := ⟨[], .absent, by simp [natText, Numeral.ofNat, minusText, fractionText]⟩

theorem intText_eq (n : Int) : intText n = minusText (decide (n < 0)) ++ natText n.natAbs := by
  cases n with
  | ofNat n => rfl
  | negSucc n =>
    rw [decide_eq_true (Int.negSucc_lt_zero n)]
    rfl

theorem numeralText_intText (n : Int) : NumeralText (.ofInt n) (intText n) where
  whole := isWhole_natText n.natAbs
  fraction := by
    intro digits hd
    cases hd
  text_eq := ⟨[], .absent, by simp [intText_eq, natText, Numeral.ofInt, fractionText]⟩

theorem natValue_toDigits (n : Nat) : Numeral.natValue (Nat.toDigits 10 n) = n := by
  have hvalue : Numeral.natValue (Nat.toDigits 10 n) = Nat.ofDigitChars 10 (Nat.toDigits 10 n) 0 := by
    rw [Nat.ofDigitChars_eq_foldl]
    simp only [Numeral.natValue, Numeral.digitValue, Nat.mul_comm]
  rw [hvalue, Nat.ofDigitChars_toDigits (by decide) (by decide)]

/-- A digit is the character of its value. -/
theorem digitChar_digitValue {c : Char} (h : c.isDigit) :
    Nat.digitChar (Numeral.digitValue c) = c ∧ Numeral.digitValue c < 10 := by
  simp only [Char.isDigit, Bool.and_eq_true, decide_eq_true_eq] at h
  have hlow : 48 ≤ c.toNat := UInt32.le_iff_toNat_le.mp h.1
  have hhigh : c.toNat ≤ 57 := UInt32.le_iff_toNat_le.mp h.2
  have hdigit : ∀ k < 10, Nat.digitChar k = Char.ofNat (48 + k) := by decide
  have hlt : Numeral.digitValue c < 10 := show c.toNat - 48 < 10 by omega
  refine ⟨?_, hlt⟩
  rw [hdigit _ hlt, show 48 + Numeral.digitValue c = c.toNat from Nat.add_sub_cancel' hlow,
    Char.ofNat_toNat]

theorem natValue_concat (init : List Char) (c : Char) :
    Numeral.natValue (init ++ [c]) = Numeral.natValue init * 10 + Numeral.digitValue c := by
  rw [Numeral.natValue, List.foldl_append]
  rfl

/-- Digits without a leading zero are those of the number that they write. -/
theorem IsWhole.eq_toDigits {digits : List Char} (h : IsWhole digits) :
    digits = Nat.toDigits 10 (Numeral.natValue digits) := by
  induction digits using List.reverseRecOn with
  | nil => exact absurd rfl h.1.1
  | append_singleton init c ih =>
    obtain ⟨hchar, hlt⟩ := digitChar_digitValue (h.1.2 c (by simp))
    rw [natValue_concat]
    by_cases hinit : init = []
    · subst hinit
      change [c] = Nat.toDigits 10 (0 * 10 + _)
      rw [Nat.zero_mul, Nat.zero_add, Nat.toDigits_of_lt_base hlt, hchar]
    · -- the first digit is the same, and is not alone any more, so it is not zero
      have hhead : init.head? ≠ some '0' := by
        intro hzero
        have hlength := h.2 (by rw [List.head?_append_of_ne_nil _ hinit, hzero])
        rw [List.length_append, List.length_singleton] at hlength
        exact hinit (List.length_eq_zero_iff.mp (Nat.succ.inj hlength))
      have hdigits := ih ⟨⟨hinit, fun d hd => h.1.2 d (List.mem_append_left _ hd)⟩,
        fun hzero => absurd hzero hhead⟩
      have hpos : 0 < Numeral.natValue init := by
        refine Nat.pos_of_ne_zero fun hzero => hhead ?_
        rw [hdigits, hzero]
        rfl
      rw [Nat.toDigits_of_base_le (by decide) (by omega),
        show (Numeral.natValue init * 10 + Numeral.digitValue c) / 10 = Numeral.natValue init by omega,
        show (Numeral.natValue init * 10 + Numeral.digitValue c) % 10 = Numeral.digitValue c by omega,
        ← hdigits, hchar]

/-- A number of 64 bits stands for itself. -/
theorem value?_ofNat {n : Nat} (h : n < UInt64.size) :
    (Numeral.ofNat n).value? = some (.integer n) := by
  have hvalue : Numeral.natValue (Numeral.ofNat n).whole = n := natValue_toDigits n
  rw [Numeral.value?, hvalue]
  simp [Numeral.ofNat, h]

/-- So does an integer of 64 bits with a sign. -/
theorem value?_ofInt {n : Int} (hleast : -Int.pow 2 63 ≤ n) (hmost : n < UInt64.size) :
    (Numeral.ofInt n).value? = some (.integer n) := by
  have hvalue : Numeral.natValue (Numeral.ofInt n).whole = n.natAbs := natValue_toDigits n.natAbs
  have hpow : Int.pow 2 63 = 2 ^ 63 := rfl
  rw [Numeral.value?, hvalue]
  by_cases hn : n < 0
  · have hsize : n.natAbs ≤ Nat.pow 2 63 := by
      change n.natAbs ≤ 2 ^ 63
      omega
    have hpos : 0 < n.natAbs := by omega
    have habs : -(n.natAbs : Int) = n := by omega
    simp only [Numeral.ofInt, decide_eq_true hn, decide_eq_true hsize, decide_eq_true hpos, habs,
      Option.isNone_none, Bool.and_self, Bool.not_true, Bool.false_and, Bool.false_eq_true, if_true,
      if_false]
  · have hsize : n.natAbs < UInt64.size := by omega
    have habs : (n.natAbs : Int) = n := by omega
    simp only [Numeral.ofInt, decide_eq_false hn, decide_eq_true hsize, habs, Option.isNone_none,
      Bool.and_self, Bool.not_false, if_true]

theorem led_flatMap (items : List (List Char)) : Led items (items.flatMap (',' :: ·)) := by
  induction items with
  | nil => exact .done .nil
  | cons item items ih => exact .next .nil .nil ih

theorem separated_commaSeparated (items : List (List Char)) :
    Separated items (commaSeparated items) := by
  cases items with
  | nil => exact .empty .nil
  | cons item items =>
    have hled : commaSeparated (item :: items) = item ++ items.flatMap (',' :: ·) := by
      induction items generalizing item with
      | nil => simp [commaSeparated]
      | cons next items ih =>
        rw [commaSeparated, List.intercalate_cons_cons, ← commaSeparated, ih, List.flatMap_cons]
        simp
    rw [hled]
    exact .items .nil (led_flatMap items)

theorem listText_arrayText (items : List (List Char)) : ListText items (arrayText items) :=
  ⟨commaSeparated items, separated_commaSeparated items, rfl⟩

theorem memberText_memberText (key : String) (value : List Char) :
    MemberText Quotes key value (memberText key value) := by
  have h : MemberText Quotes key value (quoted key ++ ([] ++ ':' :: ([] ++ value))) :=
    .mk (quotes_quoted key) .nil .nil
  rwa [List.nil_append, List.nil_append] at h

theorem objectText_objectText (members : List (String × List Char)) :
    ObjectText Quotes members (objectText members) := by
  let texts := members.map fun member => memberText member.1 member.2
  refine ⟨texts, commaSeparated texts, ?_, separated_commaSeparated texts, rfl⟩
  rw [List.forall₂_map_right_iff, List.forall₂_same]
  exact fun member _ => memberText_memberText member.1 member.2

end ShardedLines.Json
