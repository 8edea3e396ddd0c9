import ShardedLines.Coder.Record
import ShardedLines.Proofs.Text.Utf8

/-!
JSON texts without control characters.

A control character in a text is escaped, and nothing else that is written for a record holds one:
neither numbers nor the signs between them. So there is none in what is written for a record, up to
the place where it fails if it does (`noControls_write`), and no byte below 0x20 in its bytes.
-/

namespace ShardedLines

/-- None of the characters is a control character of the C0 set. -/
def NoControls (text : List Char) : Prop := ∀ c ∈ text, 0x20 ≤ c.toNat

instance (text : List Char) : Decidable (NoControls text) :=
  List.decidableBAll (fun c : Char => 0x20 ≤ c.toNat) text

theorem noControls_nil : NoControls [] := fun _ hc => nomatch hc

theorem noControls_cons {c : Char} {text : List Char} :
    NoControls (c :: text) ↔ 0x20 ≤ c.toNat ∧ NoControls text :=
  List.forall_mem_cons

theorem NoControls.append {first second : List Char} (h : NoControls first)
    (h' : NoControls second) : NoControls (first ++ second) :=
  List.forall_mem_append.mpr ⟨h, h'⟩

theorem NoControls.flatMap {α : Type} {spell : α → List Char} {items : List α}
    (h : ∀ item ∈ items, NoControls (spell item)) : NoControls (items.flatMap spell) := by
  intro c hc
  obtain ⟨item, hitem, hc⟩ := List.mem_flatMap.mp hc
  exact h item hitem c hc

/-- Bytes below 0x20 come from control characters only. -/
theorem NoControls.le_of_mem_encodeChars {text : List Char} (h : NoControls text) {b : UInt8}
    (hb : b ∈ encodeChars text) : 0x20 ≤ b := by
  rw [UInt8.le_iff_toNat_le]
  refine Nat.le_of_not_lt fun hlt => ?_
  have hlt : b.toNat < 0x20 := hlt
  have hvalid : b.toNat.isValidChar := .inl (by omega)
  have hchar : (Char.ofNat b.toNat).toNat = b.toNat := by
    rw [Char.ofNat, dif_pos hvalid]
    rfl
  rw [← UInt8.ofNat_toNat (x := b), ← hchar, Utf8.mem_encodeChars_iff (by omega)] at hb
  have hle := h _ hb
  omega

namespace Json

/-! ## Texts and numbers -/

theorem le_toNat_digitChar {n : Nat} (h : n < 16) : 0x20 ≤ (Nat.digitChar n).toNat :=
  (by decide : ∀ n < 16, 0x20 ≤ (Nat.digitChar n).toNat) n h

theorem noControls_escape (c : Char) : NoControls (escape c) := by
  unfold escape
  repeat' split
  iterate 7
    case _ => decide
  case _ hc =>
    -- the only characters that are written by number are control characters themselves
    have hfirst := le_toNat_digitChar (show c.toNat / 16 < 16 by omega)
    have hsecond := le_toNat_digitChar (show c.toNat % 16 < 16 by omega)
    simp only [noControls_cons, hfirst, hsecond, true_and]
    decide
  case _ hc => exact noControls_cons.mpr ⟨Nat.le_of_not_lt hc, noControls_nil⟩

theorem noControls_inQuotes {text : List Char} (h : NoControls text) :
    NoControls ('"' :: text ++ ['"']) :=
  (noControls_cons.mpr ⟨by decide, h⟩).append (by decide)

theorem noControls_quoted (text : String) : NoControls (quoted text) :=
  noControls_inQuotes (.flatMap fun c _ => noControls_escape c)

theorem le_toNat_of_isDigit {c : Char} (h : c.isDigit) : 0x20 ≤ c.toNat := by
  simp only [Char.isDigit, Bool.and_eq_true, decide_eq_true_eq] at h
  exact Nat.le_trans (by decide) (UInt32.le_iff_toNat_le.mp h.1)

theorem noControls_natText (n : Nat) : NoControls (natText n) := fun _ hc =>
  le_toNat_of_isDigit (Nat.isDigit_of_mem_toDigits (by decide) (by decide) hc)

theorem noControls_intText (n : Int) : NoControls (intText n) := by
  cases n with
  | ofNat n => exact noControls_natText n
  | negSucc n => exact noControls_cons.mpr ⟨by decide, noControls_natText (n + 1)⟩

theorem noControls_signedText (n : Int) : NoControls (signedText n) := by
  unfold signedText
  split
  · exact noControls_cons.mpr ⟨by decide, noControls_intText n⟩
  · exact noControls_intText n

theorem noControls_zeros (count : Nat) : NoControls (List.replicate count '0') := by
  intro c hc
  rw [List.eq_of_mem_replicate hc]
  decide

theorem noControls_decimalText (decimal : Decimal.Scaled) : NoControls (decimalText decimal) := by
  have hdigits := noControls_natText decimal.digits
  have htake : ∀ count, NoControls ((natText decimal.digits).take count) :=
    fun _ c hc => hdigits c (List.mem_of_mem_take hc)
  have hdrop : ∀ count, NoControls ((natText decimal.digits).drop count) :=
    fun _ c hc => hdigits c (List.mem_of_mem_drop hc)
  unfold decimalText
  dsimp only
  split
  · exact (hdigits.append (noControls_zeros _)).append (by decide)
  · split
    · exact ((htake _).append (by decide)).append (hdrop _)
    · split
      · exact (NoControls.append (by decide) (noControls_zeros _)).append hdigits
      · have htail : NoControls (if (natText decimal.digits).length == 1 then []
            else '.' :: (natText decimal.digits).drop 1) := by
          split
          · exact noControls_nil
          · exact noControls_cons.mpr ⟨by decide, hdrop 1⟩
        exact (((htake 1).append htail).append (by decide)).append (noControls_signedText _)

theorem noControls_floatText (x : Float) : NoControls (floatText x) := by
  unfold floatText
  dsimp only
  split
  · decide
  · split
    · split <;> decide
    · refine NoControls.append ?_ (noControls_decimalText _)
      split <;> decide

theorem noControls_boolText (b : Bool) : NoControls (boolText b) := by
  cases b <;> decide

end Json

namespace Datum

/-! ## Records -/

theorem Written.noControls_andThen {first second : Written} (h : NoControls first.text)
    (h' : NoControls second.text) : NoControls (first.andThen second).text := by
  rw [andThen]
  split
  · exact h
  · exact h.append h'

theorem noControls_writeKey (key : Datum) : NoControls key.writeKey.text := by
  cases key with
  | text s => exact Json.noControls_quoted s
  | int n => exact Json.noControls_inQuotes (Json.noControls_intText n)
  | bool b => exact Json.noControls_inQuotes (Json.noControls_boolText b)
  | float x =>
    rw [writeKey]
    split
    · exact Json.noControls_inQuotes (Json.noControls_floatText x)
    · exact noControls_nil
  | null | seq _ | map _ | failure _ => exact noControls_nil

theorem noControls_comma (first : Bool) : NoControls (comma first).text := by
  cases first <;> decide

mutual

/-- What is written for a record has no control character, whether or not the record fails. -/
theorem noControls_write (record : Datum) : NoControls record.write.text := by
  cases record with
  | null =>
    rw [write]
    decide
  | bool b =>
    rw [write]
    exact Json.noControls_boolText b
  | int n =>
    rw [write]
    exact Json.noControls_intText n
  | float x =>
    rw [write]
    exact Json.noControls_floatText x
  | text s =>
    rw [write]
    exact Json.noControls_quoted s
  | seq items =>
    rw [write]
    exact Written.noControls_andThen
      (Written.noControls_andThen (by decide) (noControls_writeItems true items)) (by decide)
  | map entries =>
    rw [write]
    exact Written.noControls_andThen
      (Written.noControls_andThen (by decide) (noControls_writeEntries true entries)) (by decide)
  | failure reason =>
    rw [write]
    exact noControls_nil

theorem noControls_writeItems (first : Bool) (items : List Datum) :
    NoControls (writeItems first items).text := by
  cases items with
  | nil =>
    rw [writeItems]
    exact noControls_nil
  | cons item rest =>
    rw [writeItems]
    exact Written.noControls_andThen
      (Written.noControls_andThen (noControls_comma first) (noControls_write item))
      (noControls_writeItems false rest)

theorem noControls_writeEntries (first : Bool) (entries : List (Datum × Datum)) :
    NoControls (writeEntries first entries).text := by
  cases entries with
  | nil =>
    rw [writeEntries]
    exact noControls_nil
  | cons entry rest =>
    obtain ⟨key, value⟩ := entry
    have hkey : NoControls ((comma first).andThen key.writeKey).text :=
      Written.noControls_andThen (noControls_comma first) (noControls_writeKey key)
    have hcolon : NoControls (Written.ok [':']).text := by decide
    have hvalue := Written.noControls_andThen (Written.noControls_andThen hkey hcolon)
      (noControls_write value)
    rw [writeEntries]
    exact Written.noControls_andThen hvalue (noControls_writeEntries false rest)

end

end Datum

/-- No byte that is written for a record is below 0x20. -/
theorem Coder.le_of_mem_json {record : Datum} {b : UInt8} (h : b ∈ (Coder.json.run record).2) :
    0x20 ≤ b := by
  change b ∈ utf8 (String.ofList record.write.text) at h
  rw [utf8_ofList] at h
  exact (Datum.noControls_write record).le_of_mem_encodeChars h

end ShardedLines
