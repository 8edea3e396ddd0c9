import ShardedLines.Proofs.Json.Skipping

/-!
Keeping JSON values.

A value is kept or refused, and which of the two does not depend on what stands around it
(`exists_reads_value`). Not every value can be kept: half of a character may stand alone in a string,
a number may be beyond the largest double, and brackets may be nested too deep. All this is found
while reading, and refused as malformed. Where a number is wanted, an integer of 64 bits is read as it
is (`reads_int`).
-/

namespace ShardedLines.Reader

open Json (Spelling Spells Quotes IsStringBody IsQuoted NumeralText ListText MemberText ObjectText
  IsJson codeUnit?)

variable {β : Type}

/-! ## Strings -/

theorem hexValue?_lt {c : Char} {n : Nat} (h : hexValue? c = some n) : n < 16 := by
  have hle : ∀ {first last : Char}, (decide (first ≤ c) && decide (c ≤ last)) = true →
      c.toNat ≤ last.toNat :=
    fun hc => UInt32.le_iff_toNat_le.mp (of_decide_eq_true (Bool.and_eq_true_iff.mp hc).2)
  unfold hexValue? at h
  split at h
  · rename_i hc
    have hlast : c.toNat ≤ 57 := hle hc
    have hvalue : c.toNat - 48 = n := Option.some.inj h
    omega
  · split at h
    · rename_i hc
      have hlast : c.toNat ≤ 102 := hle hc
      have hvalue : c.toNat - 97 + 10 = n := Option.some.inj h
      omega
    · split at h
      · rename_i hc
        have hlast : c.toNat ≤ 70 := hle hc
        have hvalue : c.toNat - 65 + 10 = n := Option.some.inj h
        omega
      · cases h

theorem codeUnit?_lt {quad : List Char} {n : Nat} (h : codeUnit? quad = some n) : n < 0x10000 := by
  unfold codeUnit? at h
  split at h
  · split at h
    · rename_i ha hb hc hd
      have := hexValue?_lt ha
      have := hexValue?_lt hb
      have := hexValue?_lt hc
      have := hexValue?_lt hd
      cases h
      omega
    · cases h
  · cases h

/-- A code unit that is no half of a character is one by itself. -/
theorem exists_char_of_unit {n : Nat} (hlt : n < 0x10000) (hlow : isLowSurrogate n = false)
    (hhigh : isHighSurrogate n = false) : ∃ c : Char, c.toNat = n := by
  have hvalid : n.isValidChar := by
    simp only [isLowSurrogate, isHighSurrogate, Bool.and_eq_false_iff, decide_eq_false_iff_not]
      at hlow hhigh
    change n < 0xD800 ∨ 0xDFFF < n ∧ n < 0x110000
    omega
  exact ⟨Char.ofNatAux n hvalid, rfl⟩

theorem exists_char_of_pair {first second : Nat} (hf : isHighSurrogate first = true)
    (hs : isLowSurrogate second = true) :
    ∃ c : Char, c.toNat = 0x10000 + (first - 0xD800) * 0x400 + (second - 0xDC00) := by
  simp only [isHighSurrogate, isLowSurrogate, Bool.and_eq_true, decide_eq_true_eq] at hf hs
  have hvalid : (0x10000 + (first - 0xD800) * 0x400 + (second - 0xDC00)).isValidChar := by
    change _ < 0xD800 ∨ 0xDFFF < _ ∧ _ < 0x110000
    omega
  exact ⟨Char.ofNatAux _ hvalid, rfl⟩

theorem unicodeEscape_low {quad : List Char} {n : Nat} (h : codeUnit? quad = some n)
    (hlow : isLowSurrogate n = true) (rest : List Char) :
    unicodeEscape (quad ++ rest) = .error .malformed := by
  simp only [unicodeEscape, hexQuad_append h, hlow, if_true]

/-- The first half of a character must be followed by another code unit. -/
theorem unicodeEscape_high {quad : List Char} {n : Nat} (h : codeUnit? quad = some n)
    (hhigh : isHighSurrogate n = true) {rest : List Char} (hquote : '"' ∈ rest)
    (hnext : ∀ after, rest ≠ '\\' :: 'u' :: after) :
    unicodeEscape (quad ++ rest) = .error .malformed := by
  have hlow : isLowSurrogate n = false := by
    simp only [isHighSurrogate, Bool.and_eq_true, decide_eq_true_eq] at hhigh
    simp only [isLowSurrogate, Bool.and_eq_false_iff, decide_eq_false_iff_not]
    omega
  simp only [unicodeEscape, hexQuad_append h, hlow, hhigh, Bool.not_true, Bool.false_eq_true,
    if_false]
  split
  · exact absurd rfl (hnext _)
  · cases hquote
  · exact absurd hquote (by decide)
  · rfl

/-- The second code unit must be a second half. -/
theorem unicodeEscape_high_other {high other : List Char} {first second : Nat}
    (hhigh : codeUnit? high = some first) (hother : codeUnit? other = some second)
    (hf : isHighSurrogate first = true) (hs : isLowSurrogate second = false) (rest : List Char) :
    unicodeEscape (high ++ '\\' :: 'u' :: (other ++ rest)) = .error .malformed := by
  have hlow : isLowSurrogate first = false := by
    simp only [isHighSurrogate, Bool.and_eq_true, decide_eq_true_eq] at hf
    simp only [isLowSurrogate, Bool.and_eq_false_iff, decide_eq_false_iff_not]
    omega
  simp only [unicodeEscape, hexQuad_append hhigh, hexQuad_append hother, hf, hs, hlow, Bool.not_true,
    Bool.false_eq_true, if_false]

theorem stringRest_unicode_error {text : List Char} {fault : ReadFault}
    (h : unicodeEscape text = .error fault) : stringRest ('\\' :: 'u' :: text) = .error fault := by
  rw [stringRest.eq_def]
  simp only [beq_self_eq_true, if_true, if_false, show ('\\' == '"') = false by decide,
    Bool.false_eq_true]
  split
  · rename_i heq
    rw [h] at heq
    cases heq
    rfl
  · rename_i heq
    rw [h] at heq
    cases heq

/-- The two ways that the rest of a string is read. -/
def SpelledOrMalformed (body : List Char) : Prop :=
  (∃ cs, Spells cs body) ∨ ∀ rest, stringRest (body ++ '"' :: rest) = .error .malformed

theorem SpelledOrMalformed.cons {c : Char} {text body : List Char} (hc : Spelling c text)
    (h : SpelledOrMalformed body) : SpelledOrMalformed (text ++ body) := by
  rcases h with ⟨cs, hspells⟩ | hmalformed
  · exact .inl ⟨c :: cs, .cons hc hspells⟩
  · refine .inr fun rest => ?_
    rw [List.append_assoc, stringRest_spelling hc, hmalformed]
    rfl

theorem SpelledOrMalformed.of_escape {quad body : List Char}
    (h : ∀ rest, unicodeEscape (quad ++ (body ++ '"' :: rest)) = .error .malformed) :
    SpelledOrMalformed ('\\' :: 'u' :: quad ++ body) := by
  refine .inr fun rest => ?_
  rw [List.append_assoc]
  exact stringRest_unicode_error (h rest)

/-- Behind the first half of a character, only a code unit can follow, and it must be the second
half. -/
theorem SpelledOrMalformed.of_high {high body : List Char} {first : Nat}
    (hhigh : codeUnit? high = some first) (hf : isHighSurrogate first = true)
    (hbody : IsStringBody body)
    (later : ∀ rest, rest.length < body.length → IsStringBody rest → SpelledOrMalformed rest) :
    SpelledOrMalformed ('\\' :: 'u' :: high ++ body) := by
  have hquote : ∀ text rest, '"' ∈ text ++ '"' :: rest := by simp
  cases hbody with
  | nil => exact .of_escape fun rest => unicodeEscape_high hhigh hf (hquote [] rest) (by simp)
  | @plain c body _ hb _ _ =>
    exact .of_escape fun rest => unicodeEscape_high hhigh hf (hquote (c :: body) rest)
      fun _ heq => hb (List.cons.inj heq).1
  | @letter e body he _ =>
    refine .of_escape fun rest => unicodeEscape_high hhigh hf (hquote ('\\' :: e :: body) rest)
      fun _ heq => ?_
    obtain rfl := (List.cons.inj (List.cons.inj heq).2).1
    cases he
  | @unit low body hunit hbody =>
    obtain ⟨second, hlow⟩ := Option.isSome_iff_exists.mp hunit
    by_cases hs : isLowSurrogate second = true
    · obtain ⟨c, hc⟩ := exists_char_of_pair hf hs
      have hshorter : body.length < ('\\' :: 'u' :: low ++ body).length := by
        simp only [List.length_append, List.length_cons]
        omega
      have hpair := (later body hshorter hbody).cons (.pair hhigh hlow hf hs hc)
      rwa [List.append_assoc] at hpair
    · refine .of_escape fun rest => ?_
      rw [List.append_assoc]
      exact unicodeEscape_high_other hhigh hlow hf (Bool.eq_false_iff.mpr hs) _

/-- A string spells some characters, unless half of a character stands alone in it. -/
theorem spelledOrMalformed {body : List Char} (h : IsStringBody body) : SpelledOrMalformed body := by
  -- a character may take two code units, so the induction is on the length
  induction hlength : body.length using Nat.strongRecOn generalizing body with
  | ind length ih =>
    subst hlength
    cases h with
    | nil => exact .inl ⟨[], .nil⟩
    | plain hq hb hc hrest => exact (ih _ (Nat.lt_succ_self _) hrest rfl).cons (.plain hq hb hc)
    | letter he hrest =>
      obtain ⟨c, hc⟩ := Option.isSome_iff_exists.mp he
      exact (ih _ (Nat.lt_succ_of_lt (Nat.lt_succ_self _)) hrest rfl).cons (.letter hc)
    | @unit quad rest hunit hrest =>
      have hshorter : rest.length < ('\\' :: 'u' :: quad ++ rest).length := by
        simp only [List.length_append, List.length_cons]
        omega
      obtain ⟨n, hn⟩ := Option.isSome_iff_exists.mp hunit
      by_cases hlow : isLowSurrogate n = true
      · exact .of_escape fun _ => unicodeEscape_low hn hlow _
      by_cases hhigh : isHighSurrogate n = true
      · exact .of_high hn hhigh hrest fun _ hlt h => ih _ (Nat.lt_trans hlt hshorter) h rfl
      · rw [Bool.not_eq_true] at hlow hhigh
        obtain ⟨c, rfl⟩ := exists_char_of_unit (codeUnit?_lt hn) hlow hhigh
        exact (ih _ hshorter hrest rfl).cons (.unit hn)

/-- What is read of a string is what it spells. -/
theorem exists_quotedString {text : List Char} (h : IsQuoted text) :
    ∃ answer : Except ReadFault String, (∀ rest, quotedString (text ++ rest) = answer.map (·, rest)) ∧
      ∀ s, answer = .ok s → Quotes s text := by
  obtain ⟨body, hbody, rfl⟩ := h
  rcases spelledOrMalformed hbody with ⟨cs, hspells⟩ | hmalformed
  · have hquotes : Quotes (String.ofList cs) ('"' :: body ++ ['"']) :=
      ⟨body, by rwa [String.toList_ofList], rfl⟩
    refine ⟨.ok (String.ofList cs), quotedString_append hquotes, ?_⟩
    rintro _ ⟨⟩
    exact hquotes
  · refine ⟨.error .malformed, fun rest => ?_, fun s hs => by cases hs⟩
    have htail : ('"' :: body ++ ['"'] ++ rest).tail = body ++ '"' :: rest := by simp
    rw [quotedString, htail, hmalformed]
    rfl

/-! ## Numbers -/

/-- A number beyond the largest double is refused. -/
theorem boundedNumeral_append {n : Numeral} {text : List Char} (h : NumeralText n text)
    {rest : List Char} (ends : EndsValue rest) :
    boundedNumeral (text ++ rest) =
      if n.value?.isSome then .ok (n, rest) else .error .malformed := by
  rw [boundedNumeral, bind_of_ok (numeral_append h ends)]
  cases n.value? <;> rfl

theorem reads_int {least most n : Int} (hrange : least ≤ n ∧ n ≤ most) {numeral : Numeral}
    {text : List Char} (h : NumeralText numeral text) (hvalue : numeral.value? = some (.integer n)) :
    Reads (int least most) text (.ok n) := by
  refine ReadsNext.reads (fun rest ends => ?_) (skipsBlanks_peekValue _)
  have hnumeral := boundedNumeral_append h ends
  rw [hvalue] at hnumeral
  obtain ⟨c, tail, rfl, hc⟩ := exists_startsNumeral h
  rw [int, List.cons_append, bind_of_ok (peekValue_cons (dispatch_numeral hc).1 _)]
  rw [startsNumeral] at hc
  simp only [hc, if_true]
  rw [← List.cons_append, bind_of_ok hnumeral, hvalue]
  simp only [hrange, and_self, if_true]
  rfl

/-! ## Values -/

section Values

variable {nested? : Option (Reader Json)}

theorem reads_valueWith_null : Reads (valueWith nested?) "null".toList (.ok .null) :=
  reads_word (c := 'n') rfl rfl

theorem reads_valueWith_bool (b : Bool) :
    Reads (valueWith nested?) (Json.boolText b) (.ok (.bool b)) := by
  cases b with
  | true => exact reads_word (c := 't') rfl rfl
  | false => exact reads_word (c := 'f') rfl rfl

/-- A string is kept as it is read. -/
theorem reads_valueWith_string {text : List Char} (h : StartsKey text)
    {answer : Except ReadFault String}
    (hread : ∀ rest, quotedString (text ++ rest) = answer.map (·, rest)) :
    Reads (valueWith nested?) text (answer.map .string) := by
  refine ReadsNext.reads (fun rest _ => ?_) (skipsBlanks_peekValue _)
  rw [valueWith.eq_def, bind_of_ok (h.peekValue rest)]
  change (quotedString >>= fun s => pure (Json.string s)) _ = _
  rw [bind_apply, hread]
  cases answer <;> rfl

theorem reads_valueWith_quotes {s : String} {text : List Char} (h : Quotes s text) :
    Reads (valueWith nested?) text (.ok (.string s)) := by
  have hread : ∀ rest, quotedString (text ++ rest) = (Except.ok s).map (·, rest) :=
    quotedString_append h
  exact reads_valueWith_string (startsKey_quotes h) hread

/-- A number that is not too large for a double is kept with its digits. -/
theorem reads_valueWith_number {n : Numeral} {text : List Char} (h : NumeralText n text) :
    Reads (valueWith nested?) text
      (if n.value?.isSome then .ok (.number n) else .error .malformed) := by
  refine ReadsNext.reads (fun rest ends => ?_) (skipsBlanks_peekValue _)
  have hnumeral := boundedNumeral_append h ends
  obtain ⟨c, tail, rfl, hc⟩ := exists_startsNumeral h
  obtain ⟨hblank, _, hn, ht, hf⟩ := dispatch_numeral hc
  rw [valueWith.eq_def, List.cons_append, bind_of_ok (peekValue_cons hblank _)]
  simp only [hn, ht, hf, Bool.false_eq_true, if_false]
  rw [startsNumeral] at hc
  rw [if_pos hc, ← List.cons_append]
  change (boundedNumeral >>= fun n => pure (Json.number n)) _ = _
  rw [bind_apply, hnumeral]
  cases n.value?.isSome <;> rfl

variable {nested : Reader Json}

theorem reads_valueWith_array {texts : List (List Char)} {text : List Char}
    (h : ListText texts text) {xs : List β} {answer : β → Except ReadFault Json}
    (reads : ItemTexts nested answer xs texts) :
    Reads (valueWith (some nested)) text ((xs.mapM answer).map .array) := by
  refine ReadsNext.reads (fun rest _ => ?_) (skipsBlanks_peekValue _)
  obtain ⟨body, hbody, rfl⟩ := h
  have hitems := items_separated hbody reads rest
  have htext : '[' :: body ++ [']'] ++ rest = '[' :: (body ++ ']' :: rest) := by simp
  rw [valueWith, htext, bind_of_ok (peekValue_cons rfl _)]
  change (advance >>= fun _ => items nested >>= fun list => expect ']' >>= fun _ =>
    pure (Json.array list)) _ = _
  simp only [bind_apply, advance, List.tail_cons, hitems]
  cases xs.mapM answer with
  | error fault => rfl
  | ok list => simp only [Except.map, expect_cons (c := ']') rfl, pure_apply]

/-- A member of an object that is kept, put in front of those before it. -/
def keptMember (nested : Reader Json) (list : List (String × Json)) (key : String) :
    Reader (List (String × Json)) := do
  colon
  pure ((key, ← nested) :: list)

/-- The members that have been kept once one more has been read as given. -/
def keptNext (list : List (String × Json)) (pair : Except ReadFault (String × Json)) :
    Except ReadFault (List (String × Json)) :=
  pair.map (· :: list)

theorem reads_valueWith_object {texts : List (List Char)} {body : List Char}
    (h : Json.Separated texts body) {pairs : List (Except ReadFault (String × Json))}
    (reads : MemberTexts quotedString (keptMember nested) keptNext pairs texts) :
    Reads (valueWith (some nested)) ('\x7b' :: body ++ ['\x7d'])
      ((pairs.foldlM keptNext []).map fun list => .object list.reverse) := by
  refine ReadsNext.reads (fun rest _ => ?_) (skipsBlanks_peekValue _)
  have hread := members_separated h reads [] rest
  have htext : '\x7b' :: body ++ ['\x7d'] ++ rest = '\x7b' :: (body ++ '\x7d' :: rest) := by simp
  rw [valueWith, htext, bind_of_ok (peekValue_cons rfl _)]
  change (advance >>= fun _ => members quotedString (keptMember nested) [] >>= fun list =>
    expect '\x7d' >>= fun _ => pure (Json.object list.reverse)) _ = _
  simp only [bind_apply, advance, List.tail_cons, hread]
  cases pairs.foldlM keptNext [] with
  | error fault => rfl
  | ok list => simp only [Except.map, expect_cons (c := '\x7d') rfl, pure_apply]

end Values

/-! ## Values of any depth -/

/-- A value without brackets is read the same at every depth. -/
theorem reads_value {text : List Char} {answer : Except ReadFault Json}
    (h : ∀ nested?, Reads (valueWith nested?) text answer) (depth : Nat) :
    Reads (value depth) text answer := by
  cases depth with
  | zero => exact h none
  | succ depth => exact h (some (value depth))

/-- What stands for something on one side of two lists can be gathered. -/
theorem exists_forall₂ {γ δ : Type} {R : β → γ → Prop} {ds : List δ} {cs : List γ}
    (h : List.Forall₂ (fun _ c => ∃ b, R b c) ds cs) : ∃ bs, List.Forall₂ R bs cs := by
  induction h with
  | nil => exact ⟨[], .nil⟩
  | cons hc _ ih =>
    obtain ⟨b, hb⟩ := hc
    obtain ⟨bs, hbs⟩ := ih
    exact ⟨b :: bs, .cons hb hbs⟩

/-- At the last level no bracket is allowed. -/
theorem reads_value_bracket {c : Char} (h : c = '[' ∨ c = '\x7b') (text : List Char) :
    Reads (value 0) (c :: text) (.error .malformed) := by
  refine ReadsNext.reads (fun rest _ => ?_) (skipsBlanks_peekValue _)
  rcases h with rfl | rfl
  · exact bind_of_ok (peekValue_cons rfl (text ++ rest)) _
  · exact bind_of_ok (peekValue_cons rfl (text ++ rest)) _

theorem exists_reads_value_array {texts : List (List Char)} {text : List Char}
    (h : ListText texts text) (starts : ∀ item ∈ texts, StartsValue item)
    (reads : ∀ item ∈ texts, ∀ depth, ∃ answer, Reads (value depth) item answer) (depth : Nat) :
    ∃ list : Except ReadFault (List Json), Reads (value depth) text (list.map .array) := by
  cases depth with
  | zero =>
    obtain ⟨body, _, rfl⟩ := h
    exact ⟨.error .malformed, reads_value_bracket (.inl rfl) _⟩
  | succ depth =>
    have hread : ∀ item ∈ texts, ∃ answer, StartsValue item ∧ Reads (value depth) item answer := by
      intro item hi
      obtain ⟨answer, hread⟩ := reads item hi depth
      exact ⟨answer, starts item hi, hread⟩
    obtain ⟨answers, hanswers⟩ := exists_forall₂ (List.forall₂_same.mpr hread)
    have hitems : ItemTexts (value depth) id answers texts := hanswers
    exact ⟨answers.mapM id, reads_valueWith_array h hitems⟩

/-- A member is kept with its key, whatever comes before it. -/
theorem exists_reads_keptMember {nested : Reader Json} {k : Unit} {value text : List Char}
    (h : MemberText (fun _ => IsQuoted) k value text) {answer : Except ReadFault Json}
    (reads : Reads nested value answer) :
    ∃ pair : Except ReadFault (String × Json), StartsKey text ∧
      ∀ list, ReadsNext (quotedString >>= keptMember nested list) text (keptNext list pair) := by
  cases h with
  | @mk keyText after before hkey ha hb =>
    obtain ⟨key?, hread, -⟩ := exists_quotedString hkey
    obtain ⟨tail, rfl⟩ := startsKey_quoted hkey
    cases key? with
    | error fault =>
      refine ⟨.error fault, ⟨_, rfl⟩, fun list rest _ => ?_⟩
      rw [List.append_assoc, bind_apply, hread]
      rfl
    | ok key =>
      refine ⟨answer.map fun value => (key, value), ⟨_, rfl⟩, fun list rest ends => ?_⟩
      have hmember := readsMember_colon (reads.map fun value => (key, value) :: list)
      rw [List.append_assoc, bind_of_ok (hread _), List.append_assoc]
      refine (hmember before hb after ha rest ends).trans ?_
      cases answer <;> rfl

theorem exists_reads_value_object {members : List (Unit × List Char)} {text : List Char}
    (h : ObjectText (fun _ => IsQuoted) members text)
    (reads : ∀ m ∈ members, ∀ depth, ∃ answer, Reads (value depth) m.2 answer) (depth : Nat) :
    ∃ list : Except ReadFault (List (String × Json)), Reads (value depth) text (list.map .object) := by
  obtain ⟨texts, body, hmembers, hbody, rfl⟩ := h
  cases depth with
  | zero => exact ⟨.error .malformed, reads_value_bracket (.inr rfl) _⟩
  | succ depth =>
    have hread : List.Forall₂ (fun (_ : Unit × List Char) text =>
        ∃ pair : Except ReadFault (String × Json), StartsKey text ∧ ∀ list,
          ReadsNext (quotedString >>= keptMember (value depth) list) text (keptNext list pair))
        members texts := by
      refine ((List.forall₂_and_left ..).mpr ⟨reads, hmembers⟩).imp ?_
      rintro m text ⟨hvalue, hmember⟩
      obtain ⟨answer, hread⟩ := hvalue depth
      exact exists_reads_keptMember hmember hread
    obtain ⟨pairs, hpairs⟩ := exists_forall₂ hread
    have hobject := reads_valueWith_object hbody hpairs
    refine ⟨(pairs.foldlM keptNext []).map List.reverse, ?_⟩
    cases hfold : pairs.foldlM keptNext [] <;> rwa [hfold] at hobject

/-- A value is read the same wherever it stands: it is kept, or it is refused. -/
theorem exists_reads_value {text : List Char} (h : IsJson text) (depth : Nat) :
    ∃ answer, Reads (value depth) text answer := by
  induction h generalizing depth with
  | null => exact ⟨_, reads_value (fun _ => reads_valueWith_null) depth⟩
  | bool b => exact ⟨_, reads_value (fun _ => reads_valueWith_bool b) depth⟩
  | number hn => exact ⟨_, reads_value (fun _ => reads_valueWith_number hn) depth⟩
  | string hs =>
    obtain ⟨s?, hread, -⟩ := exists_quotedString hs
    exact ⟨_, reads_value (fun _ => reads_valueWith_string (startsKey_quoted hs) hread) depth⟩
  | array hlist hitems ih =>
    obtain ⟨list, hread⟩ := exists_reads_value_array hlist
      (fun item hi => startsValue_of_isJson (hitems item hi)) ih depth
    exact ⟨_, hread⟩
  | object hobject _ ih =>
    obtain ⟨list, hread⟩ := exists_reads_value_object hobject ih depth
    exact ⟨_, hread⟩

end ShardedLines.Reader
