import ShardedLines.Proofs.Json.ReadBack

/-!
Skipping JSON values.

Every value can be skipped, however it is written and however deep it is nested (`reads_skip`): each
level takes a character of the text, so a depth as great as the length of the text is enough. Numbers
are the only values that must be followed by something else to be at their end.
-/

namespace ShardedLines.Reader

open Json (IsQuoted IsDigits IsWhole ExponentText NumeralText Led Separated ListText MemberText
  ObjectText IsJson minusText fractionText)

variable {α β : Type}

/-! ## Numbers -/

theorem takeIf_of_head {accepted : Char → Bool} {c : Char} (h : accepted c = true)
    (text : List Char) : takeIf accepted (c :: text) = .ok (true, text) := by
  have hpeek : peek (c :: text) = .ok (some c, c :: text) := rfl
  rw [takeIf, bind_of_ok hpeek]
  simp only [h, if_true]
  rfl

theorem takeIf_of_not_head {accepted : Char → Bool} {text : List Char}
    (h : ∀ c ∈ text.head?, accepted c = false) : takeIf accepted text = .ok (false, text) := by
  have hpeek : peek text = .ok (text.head?, text) := rfl
  rw [takeIf, bind_of_ok hpeek]
  cases text with
  | nil => rfl
  | cons c text =>
    simp only [List.head?_cons, h c rfl, Bool.false_eq_true, if_false]
    rfl

theorem someDigits_append {text : List Char} (h : IsDigits text) {rest : List Char}
    (hrest : ∀ c ∈ rest.head?, c.isDigit = false) : someDigits (text ++ rest) = .ok (text, rest) := by
  obtain ⟨hne, hall⟩ := h
  have hdigits : digits (text ++ rest) = .ok (text, rest) := by
    have htake : rest.takeWhile Char.isDigit = [] ∧ rest.dropWhile Char.isDigit = rest := by
      cases rest with
      | nil => exact ⟨rfl, rfl⟩
      | cons c rest => simp [hrest c rfl]
    rw [digits, List.takeWhile_append_of_pos hall, List.dropWhile_append_of_pos hall, htake.1, htake.2,
      List.append_nil]
  obtain ⟨c, tail, rfl⟩ := List.exists_cons_of_ne_nil hne
  have hpeek : peek (c :: tail ++ rest) = .ok (some c, c :: tail ++ rest) := rfl
  rw [someDigits, bind_of_ok hpeek]
  simp only [hall c List.mem_cons_self, if_true]
  exact hdigits

theorem wholeDigits_append {text : List Char} (h : IsWhole text) {rest : List Char}
    (hrest : ∀ c ∈ rest.head?, c.isDigit = false) : wholeDigits (text ++ rest) = .ok (text, rest) := by
  rw [wholeDigits, bind_of_ok (someDigits_append h.1 hrest)]
  have hcanonical : (text.head? == some '0' && decide (1 < text.length)) = false := by
    rw [Bool.and_eq_false_iff, decide_eq_false_iff_not]
    by_cases hzero : text.head? = some '0'
    · exact .inr (by rw [h.2 hzero]; decide)
    · exact .inl (beq_eq_false_iff_ne.mpr hzero)
  rw [hcanonical]
  rfl

/-- What stands behind the whole part of a number, from its end. -/
def fractionPart : Reader (Option (List Char)) := do
  if ← takeIf (· == '.') then pure (some (← someDigits)) else pure none

def exponentPart : Reader (Option (Bool × List Char)) := do
  if ← takeIf fun c => c == 'e' || c == 'E' then do
    if ← takeIf (· == '+') then pure (some (false, ← someDigits))
    else
      let sign ← takeIf (· == '-')
      pure (some (sign, ← someDigits))
  else pure none

theorem ite_bind (c : Bool) (first second : Reader α) (next : α → Reader β) :
    ((if c = true then first else second) >>= next) =
      if c = true then first >>= next else second >>= next := by
  cases c <;> rfl

theorem numeral_eq : numeral = (do
    let negative ← takeIf (· == '-')
    let whole ← wholeDigits
    let fraction? ← fractionPart
    let exponent? ← exponentPart
    pure { negative, whole, fraction?, exponent? }) := by
  simp only [numeral, fractionPart, exponentPart, bind_assoc, pure_bind, ite_bind]

theorem fractionPart_append {fraction? : Option (List Char)}
    (h : ∀ digits ∈ fraction?, IsDigits digits) {rest : List Char}
    (hrest : ∀ c ∈ rest.head?, c.isDigit = false ∧ c ≠ '.') :
    fractionPart (fractionText fraction? ++ rest) = .ok (fraction?, rest) := by
  cases fraction? with
  | none =>
    have htake : takeIf (· == '.') rest = .ok (false, rest) :=
      takeIf_of_not_head fun c hc => beq_eq_false_iff_ne.mpr (hrest c hc).2
    rw [fractionPart]
    exact bind_of_ok htake _
  | some digits =>
    have htake : takeIf (· == '.') ('.' :: (digits ++ rest)) = .ok (true, digits ++ rest) :=
      takeIf_of_head rfl _
    have hdigits := someDigits_append (h digits rfl) fun c hc => (hrest c hc).1
    rw [fractionPart]
    exact (bind_of_ok htake _).trans (bind_of_ok hdigits _)

theorem exponentPart_append {exponent? : Option (Bool × List Char)} {text : List Char}
    (h : ExponentText exponent? text) {rest : List Char} (ends : EndsValue rest) :
    exponentPart (text ++ rest) = .ok (exponent?, rest) := by
  have hdigits : ∀ {digits}, IsDigits digits → someDigits (digits ++ rest) = .ok (digits, rest) :=
    fun hd => someDigits_append hd (ends.head_of rfl)
  have hmark : ∀ {mark text}, mark = 'e' ∨ mark = 'E' →
      takeIf (fun c => c == 'e' || c == 'E') (mark :: text) = .ok (true, text) := by
    intro mark text hmark
    refine takeIf_of_head ?_ text
    rcases hmark with rfl | rfl <;> rfl
  rw [exponentPart]
  cases h with
  | absent =>
    have htake : takeIf (fun c => c == 'e' || c == 'E') rest = .ok (false, rest) :=
      takeIf_of_not_head (ends.head_of rfl)
    exact bind_of_ok htake _
  | plus hm hd =>
    refine (bind_of_ok (hmark hm) _).trans ?_
    exact (bind_of_ok (takeIf_of_head rfl _) _).trans (bind_of_ok (hdigits hd) _)
  | @minus _ digits hm hd =>
    have hplus : takeIf (· == '+') ('-' :: (digits ++ rest)) = .ok (false, '-' :: (digits ++ rest)) :=
      takeIf_of_not_head (by simp)
    refine (bind_of_ok (hmark hm) _).trans ((bind_of_ok hplus _).trans ?_)
    exact (bind_of_ok (takeIf_of_head rfl _) _).trans (bind_of_ok (hdigits hd) _)
  | @unsigned _ digits hm hd =>
    -- the first digit is no sign
    obtain ⟨c, tail, rfl⟩ := List.exists_cons_of_ne_nil hd.1
    have hc : c.isDigit = true := hd.2 c List.mem_cons_self
    have hsign : ∀ sign : Char, sign.isDigit = false →
        takeIf (· == sign) (c :: tail ++ rest) = .ok (false, c :: tail ++ rest) := by
      intro sign hs
      refine takeIf_of_not_head fun d hd => beq_eq_false_iff_ne.mpr ?_
      obtain rfl := Option.some.inj hd
      rintro rfl
      rw [hs] at hc
      cases hc
    refine (bind_of_ok (hmark hm) _).trans ((bind_of_ok (hsign '+' rfl) _).trans ?_)
    exact (bind_of_ok (hsign '-' rfl) _).trans (bind_of_ok (hdigits hd) _)

/-- What stands behind the digits before the point is no digit, and behind a fraction no point. -/
theorem head_exponentText {exponent? : Option (Bool × List Char)} {text : List Char}
    (h : ExponentText exponent? text) {rest : List Char} (ends : EndsValue rest) :
    ∀ c ∈ (text ++ rest).head?, c.isDigit = false ∧ c ≠ '.' := by
  intro c hc
  have hmark : ∀ {mark : Char}, mark = 'e' ∨ mark = 'E' → c = mark → c.isDigit = false ∧ c ≠ '.' := by
    rintro mark (rfl | rfl) rfl <;> decide
  cases h with
  | absent =>
    have hpoint : (c == '.') = false := ends.head_of (p := (· == '.')) rfl c hc
    exact ⟨ends.head_of rfl c hc, beq_eq_false_iff_ne.mp hpoint⟩
  | unsigned hm _ => exact hmark hm (Option.some.inj hc).symm
  | plus hm _ => exact hmark hm (Option.some.inj hc).symm
  | minus hm _ => exact hmark hm (Option.some.inj hc).symm

theorem numeral_append {n : Numeral} {text : List Char} (h : NumeralText n text) {rest : List Char}
    (ends : EndsValue rest) : numeral (text ++ rest) = .ok (n, rest) := by
  obtain ⟨exponent, hexponent, rfl⟩ := h.text_eq
  obtain ⟨negative, whole, fraction?, exponent?⟩ := n
  have hbehind := head_exponentText hexponent ends
  have hfraction := fractionPart_append h.fraction hbehind
  have hwhole : wholeDigits (whole ++ (fractionText fraction? ++ (exponent ++ rest))) =
      .ok (whole, fractionText fraction? ++ (exponent ++ rest)) := by
    refine wholeDigits_append h.whole ?_
    cases fraction? with
    | none => exact fun c hc => (hbehind c hc).1
    | some digits =>
      intro c hc
      obtain rfl := Option.some.inj hc
      rfl
  have hminus : takeIf (· == '-') (minusText negative ++
      (whole ++ (fractionText fraction? ++ (exponent ++ rest)))) =
        .ok (negative, whole ++ (fractionText fraction? ++ (exponent ++ rest))) := by
    cases negative with
    | true => exact takeIf_of_head rfl _
    | false =>
      obtain ⟨c, tail, rfl⟩ := List.exists_cons_of_ne_nil h.whole.1.1
      have hc : c.isDigit = true := h.whole.1.2 c List.mem_cons_self
      refine takeIf_of_not_head fun d hd => beq_eq_false_iff_ne.mpr ?_
      obtain rfl := Option.some.inj hd
      rintro rfl
      cases hc
  simp only [List.append_assoc]
  rw [numeral_eq, bind_of_ok hminus, bind_of_ok hwhole, bind_of_ok hfraction,
    bind_of_ok (exponentPart_append hexponent ends)]
  rfl

/-- The first character of a number. -/
def startsNumeral (c : Char) : Bool := c == '-' || c.isDigit

theorem exists_startsNumeral {n : Numeral} {text : List Char} (h : NumeralText n text) :
    ∃ c rest, text = c :: rest ∧ startsNumeral c = true := by
  obtain ⟨exponent, _, rfl⟩ := h.text_eq
  cases n.negative with
  | true => exact ⟨'-', _, rfl, rfl⟩
  | false =>
    obtain ⟨c, tail, hwhole⟩ := List.exists_cons_of_ne_nil h.whole.1.1
    have hc : c.isDigit = true := h.whole.1.2 c (hwhole ▸ List.mem_cons_self)
    refine ⟨c, tail ++ (fractionText n.fraction? ++ exponent), by rw [hwhole]; rfl, ?_⟩
    rw [startsNumeral, hc, Bool.or_true]

/-- A number can be told from a value of another kind by its first character. -/
theorem dispatch_numeral {c : Char} (h : startsNumeral c = true) :
    isJsonBlank c = false ∧ c ≠ ']' ∧
      (c == 'n') = false ∧ (c == 't') = false ∧ (c == 'f') = false := by
  have hne : ∀ d, startsNumeral d = false → c ≠ d := by
    rintro d hd rfl
    rw [h] at hd
    cases hd
  refine ⟨?_, hne ']' rfl, ?_, ?_, ?_⟩
  · simp [isJsonBlank, hne ' ' rfl, hne '\t' rfl, hne '\n' rfl, hne '\r' rfl]
  · exact beq_eq_false_iff_ne.mpr (hne 'n' rfl)
  · exact beq_eq_false_iff_ne.mpr (hne 't' rfl)
  · exact beq_eq_false_iff_ne.mpr (hne 'f' rfl)

/-! ## Values of any kind -/

theorem startsValue_of_isJson {text : List Char} (h : IsJson text) : StartsValue text := by
  cases h with
  | null => exact ⟨'n', _, rfl, rfl, by decide⟩
  | bool b => cases b <;> exact ⟨_, _, rfl, rfl, by decide⟩
  | number hn =>
    obtain ⟨c, rest, rfl, hc⟩ := exists_startsNumeral hn
    obtain ⟨hblank, hbracket, _⟩ := dispatch_numeral hc
    exact ⟨c, rest, rfl, hblank, hbracket⟩
  | string hs => exact (startsKey_quoted hs).startsValue
  | array hlist _ =>
    obtain ⟨body, _, rfl⟩ := hlist
    exact ⟨'[', _, rfl, rfl, by decide⟩
  | object hobject _ =>
    obtain ⟨texts, body, _, _, rfl⟩ := hobject
    exact ⟨'\x7b', _, rfl, rfl, by decide⟩

theorem length_le_of_mem_led {texts : List (List Char)} {body : List Char} (h : Led texts body) :
    ∀ text ∈ texts, text.length ≤ body.length := by
  induction h with
  | done => simp
  | next _ _ _ ih =>
    refine List.forall_mem_cons.mpr ⟨?_, fun text ht => ?_⟩
    · simp only [List.length_append, List.length_cons]
      omega
    · have := ih text ht
      simp only [List.length_append, List.length_cons]
      omega

theorem length_le_of_mem_separated {texts : List (List Char)} {body : List Char}
    (h : Separated texts body) : ∀ text ∈ texts, text.length ≤ body.length := by
  cases h with
  | empty => simp
  | items _ led =>
    refine List.forall_mem_cons.mpr ⟨?_, fun text ht => ?_⟩
    · simp only [List.length_append]
      omega
    · have := length_le_of_mem_led led text ht
      simp only [List.length_append]
      omega

theorem length_le_of_member {κ : Type} {Key : κ → List Char → Prop} {ms : List (κ × List Char)}
    {texts : List (List Char)} (h : List.Forall₂ (fun m => MemberText Key m.1 m.2) ms texts) :
    ∀ m ∈ ms, ∃ text ∈ texts, m.2.length ≤ text.length := by
  induction h with
  | nil => simp
  | @cons m text ms texts hm _ ih =>
    refine List.forall_mem_cons.mpr ⟨⟨text, List.mem_cons_self, ?_⟩, fun other ho => ?_⟩
    · cases hm
      simp only [List.length_append, List.length_cons]
      omega
    · obtain ⟨found, hmem, hlength⟩ := ih other ho
      exact ⟨found, List.mem_cons_of_mem _ hmem, hlength⟩

section Skipping

variable {nested : Reader Unit}

/-- A list of values that can be skipped can be skipped. -/
theorem readsNext_skipWith_list {texts : List (List Char)} {text : List Char}
    (h : ListText texts text)
    (reads : ∀ item ∈ texts, StartsValue item ∧ Reads nested item (.ok ())) :
    ReadsNext (skipWith nested) text (.ok ()) := by
  intro rest _
  obtain ⟨body, hbody, rfl⟩ := h
  have hitems := items_separated hbody (List.forall₂_same.mpr reads) rest
  have hall : (texts.mapM fun _ => (Except.ok () : Except ReadFault Unit)) =
      .ok (texts.map fun _ => ()) := List.mapM_pure
  rw [hall] at hitems
  have htext : '[' :: body ++ [']'] ++ rest = '[' :: (body ++ ']' :: rest) := by simp
  rw [htext, skipWith, bind_of_ok (peekValue_cons rfl _)]
  change (advance >>= fun _ => items nested >>= fun _ => expect ']') _ = _
  rw [bind_apply]
  exact (bind_of_ok hitems _).trans (expect_cons rfl rest)

theorem foldlM_ok (ms : List β) :
    ms.foldlM (fun (_ : Unit) _ => (Except.ok () : Except ReadFault Unit)) () = .ok () := by
  induction ms with
  | nil => rfl
  | cons m ms ih => exact ih

/-- An object of values that can be skipped can be skipped. -/
theorem readsNext_skipWith_object {ms : List (Unit × List Char)} {text : List Char}
    (h : ObjectText (fun _ => IsQuoted) ms text) (reads : ∀ m ∈ ms, Reads nested m.2 (.ok ())) :
    ReadsNext (skipWith nested) text (.ok ()) := by
  intro rest _
  obtain ⟨texts, body, hmembers, hbody, rfl⟩ := h
  have hvalues : MemberTexts skipQuotedString (fun _ _ => colon >>= fun _ => nested)
      (fun (_ : Unit) _ => .ok ()) ms texts :=
    memberTexts_of_object hmembers startsKey_quoted skipQuotedString_append
      fun m hm _ => readsMember_colon (reads m hm)
  have hread := members_separated hbody hvalues () rest
  rw [foldlM_ok] at hread
  have htext : '\x7b' :: body ++ ['\x7d'] ++ rest = '\x7b' :: (body ++ '\x7d' :: rest) := by simp
  rw [htext, skipWith, bind_of_ok (peekValue_cons rfl _)]
  change (advance >>= fun _ => members skipQuotedString _ () >>= fun _ => expect '\x7d') _ = _
  rw [bind_apply]
  exact (bind_of_ok hread _).trans (expect_cons rfl rest)

theorem readsNext_skipWith_numeral {n : Numeral} {text : List Char} (h : NumeralText n text) :
    ReadsNext (skipWith nested) text (.ok ()) := by
  intro rest ends
  obtain ⟨c, tail, rfl, hc⟩ := exists_startsNumeral h
  have hskip : skipNumeral (c :: tail ++ rest) = .ok ((), rest) := by
    rw [skipNumeral, numeral_append h ends]
  obtain ⟨hblank, _, hn, ht, hf⟩ := dispatch_numeral hc
  rw [skipWith, List.cons_append, bind_of_ok (peekValue_cons hblank _)]
  simp only [hn, ht, hf, Bool.false_eq_true, if_false]
  rw [startsNumeral] at hc
  rw [if_pos hc]
  exact hskip

theorem readsNext_skipWith_quoted {text : List Char} (h : IsQuoted text) :
    ReadsNext (skipWith nested) text (.ok ()) := by
  intro rest _
  rw [skipWith, bind_of_ok ((startsKey_quoted h).peekValue rest)]
  exact skipQuotedString_append h rest

theorem readsNext_skipWith_word {text : List Char}
    (h : text ∈ ["null".toList, "true".toList, "false".toList]) :
    ReadsNext (skipWith nested) text (.ok ()) := by
  intro rest _
  have hpeek : ∀ {c tail}, isJsonBlank c = false → skipWith nested (c :: tail) = _ :=
    fun hblank => bind_of_ok (peekValue_cons hblank _) _
  simp only [List.mem_cons, List.not_mem_nil, or_false] at h
  rcases h with rfl | rfl | rfl
  · exact (hpeek rfl).trans (word_append "null".toList rest)
  · exact (hpeek rfl).trans (word_append "true".toList rest)
  · exact (hpeek rfl).trans (word_append "false".toList rest)

end Skipping

theorem StartsValue.length_pos {text : List Char} (h : StartsValue text) : 0 < text.length := by
  obtain ⟨c, rest, rfl, _⟩ := h
  exact Nat.zero_lt_succ _

/-- A value can be skipped if its text is no longer than the depth that is allowed. -/
theorem reads_skipNested {text : List Char} (h : IsJson text) :
    ∀ depth, text.length ≤ depth → Reads (skipNested depth) text (.ok ()) := by
  have level : ∀ {text}, IsJson text →
      (∀ depth, text.length ≤ depth + 1 → ReadsNext (skipWith (skipNested depth)) text (.ok ())) →
      ∀ depth, text.length ≤ depth → Reads (skipNested depth) text (.ok ()) := by
    intro text h hnext depth hd
    have hpos := (startsValue_of_isJson h).length_pos
    obtain ⟨depth, rfl⟩ := Nat.exists_eq_add_one_of_ne_zero (Nat.ne_of_gt (Nat.lt_of_lt_of_le hpos hd))
    exact (hnext depth hd).reads (skipsBlanks_peekValue _)
  induction h with
  | null => exact level .null fun _ _ => readsNext_skipWith_word (by simp)
  | bool b =>
    exact level (.bool b) fun _ _ => readsNext_skipWith_word (by cases b <;> simp [Json.boolText])
  | number hn => exact level (.number hn) fun _ _ => readsNext_skipWith_numeral hn
  | string hs => exact level (.string hs) fun _ _ => readsNext_skipWith_quoted hs
  | @array items text hlist hitems ih =>
    refine level (.array hlist hitems) fun depth hd => readsNext_skipWith_list hlist fun item hi =>
      ⟨startsValue_of_isJson (hitems item hi), ih item hi depth ?_⟩
    obtain ⟨body, hbody, rfl⟩ := hlist
    have hlength := length_le_of_mem_separated hbody item hi
    simp only [List.length_append, List.length_cons, List.length_nil] at hd
    omega
  | @object ms text hobject hvalues ih =>
    refine level (.object hobject hvalues) fun depth hd => readsNext_skipWith_object hobject fun m hm =>
      ih m hm depth ?_
    obtain ⟨texts, body, hmembers, hbody, rfl⟩ := hobject
    obtain ⟨found, hmem, hm⟩ := length_le_of_member hmembers m hm
    have hlength := length_le_of_mem_separated hbody found hmem
    simp only [List.length_append, List.length_cons, List.length_nil] at hd
    omega

theorem reads_skip {text : List Char} (h : IsJson text) : Reads skip text (.ok ()) := by
  intro before hb rest ends
  have hdepth : text.length ≤ (before ++ (text ++ rest)).length + 1 := by
    simp only [List.length_append]
    omega
  exact reads_skipNested h _ hdepth before hb rest ends

/-- A member with a name that nobody asks for is skipped. -/
theorem readsMember_skipMember {value : List Char} (h : IsJson value) :
    ReadsMember skipMember value (.ok ()) :=
  readsMember_colon (reads_skip h)

end ShardedLines.Reader
