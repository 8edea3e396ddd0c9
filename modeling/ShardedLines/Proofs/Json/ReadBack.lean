import ShardedLines.Json.Reader.Typed
import ShardedLines.Proofs.Json.Grammar

/-!
Reading JSON texts.

A text `Reads` as an answer if a reader gives that answer wherever the text stands before the end of
a value, blanks in front of it or not, and leaves what follows. Strings read as the characters they
spell, and lists and records as their parts do, up to the first part that is refused.
-/

namespace ShardedLines.Reader

open Json (Blank Spelling Spells Quotes IsStringBody IsQuoted Led Separated ListText MemberText
  ObjectText codeUnit?)

variable {α β σ : Type}

/-! ## Steps -/

theorem bind_apply (reader : Reader α) (next : α → Reader β) (text : List Char) :
    (reader >>= next) text = match reader text with
      | .ok (a, rest) => next a rest
      | .error fault => .error fault := by
  change (StateT.bind reader next) text = _
  unfold StateT.bind
  cases reader text <;> rfl

theorem pure_apply (a : α) (text : List Char) : (pure a : Reader α) text = .ok (a, text) := rfl

theorem bind_of_ok {reader : Reader α} {a : α} {text rest : List Char}
    (h : reader text = .ok (a, rest)) (next : α → Reader β) :
    (reader >>= next) text = next a rest := by
  rw [bind_apply, h]

theorem skipBlanks_append {before : List Char} (hb : Blank before) (text : List Char) :
    skipBlanks (before ++ text) = skipBlanks text := by
  rw [skipBlanks, List.dropWhile_append_of_pos hb]
  rfl

theorem peekValue_cons {c : Char} (h : isJsonBlank c = false) (text : List Char) :
    peekValue (c :: text) = .ok (c, c :: text) := by
  simp [peekValue, bind_apply, skipBlanks, peek, h, pure_apply]

theorem expect_cons {c : Char} (h : isJsonBlank c = false) (text : List Char) :
    expect c (c :: text) = .ok ((), text) := by
  rw [expect, bind_of_ok (peekValue_cons h text), beq_self_eq_true, if_pos rfl]
  rfl

/-- Blanks before what the reader takes do not matter to it. -/
def SkipsBlanks (reader : Reader α) : Prop :=
  ∀ {before}, Blank before → ∀ text, reader (before ++ text) = reader text

theorem skipsBlanks_peekValue (next : Char → Reader α) : SkipsBlanks (peekValue >>= next) := by
  intro before hb text
  have hpeek : peekValue (before ++ text) = peekValue text := by
    rw [peekValue, bind_apply, bind_apply, skipBlanks_append hb]
  rw [bind_apply, bind_apply, hpeek]

theorem skipsBlanks_expect (c : Char) : SkipsBlanks (expect c) := skipsBlanks_peekValue _

theorem SkipsBlanks.bind {reader : Reader α} (h : SkipsBlanks reader) (next : α → Reader β) :
    SkipsBlanks (reader >>= next) := by
  intro before hb text
  rw [bind_apply, bind_apply, h hb]

theorem word_append (chars rest : List Char) : word chars (chars ++ rest) = .ok ((), rest) := by
  induction chars with
  | nil => rfl
  | cons c chars ih =>
    have hpeek : peek (c :: chars ++ rest) = .ok (some c, c :: chars ++ rest) := rfl
    rw [word, bind_of_ok hpeek]
    simp only [beq_self_eq_true, if_true]
    exact ih

/-! ## Strings -/

theorem hexQuad_append {quad : List Char} {n : Nat} (h : codeUnit? quad = some n)
    (rest : List Char) : hexQuad (quad ++ rest) = .ok (n, rest) := by
  unfold codeUnit? at h
  split at h
  · rename_i a b c d
    split at h
    · rename_i ha hb hc hd
      cases h
      simp only [List.cons_append, List.nil_append, hexQuad, ha, hb, hc, hd]
    · cases h
  · cases h

/-- The number of a character is no half of another. -/
theorem not_surrogate (c : Char) :
    isLowSurrogate c.toNat = false ∧ isHighSurrogate c.toNat = false := by
  have hvalid : c.toNat < 0xD800 ∨ 0xDFFF < c.toNat ∧ c.toNat < 0x110000 := c.valid
  constructor <;>
    · simp only [isLowSurrogate, isHighSurrogate, Bool.and_eq_false_iff, decide_eq_false_iff_not]
      omega

theorem unicodeEscape_unit {c : Char} {quad : List Char} (h : codeUnit? quad = some c.toNat)
    (rest : List Char) : unicodeEscape (quad ++ rest) = .ok (c, rest) := by
  obtain ⟨hlow, hhigh⟩ := not_surrogate c
  simp only [unicodeEscape, hexQuad_append h, hlow, hhigh, Bool.not_false, Bool.false_eq_true,
    if_true, if_false, Char.ofNat_toNat]

theorem unicodeEscape_pair {c : Char} {high low : List Char} {first second : Nat}
    (hhigh : codeUnit? high = some first) (hlow : codeUnit? low = some second)
    (hf : isHighSurrogate first = true) (hs : isLowSurrogate second = true)
    (hc : c.toNat = 0x10000 + (first - 0xD800) * 0x400 + (second - 0xDC00)) (rest : List Char) :
    unicodeEscape (high ++ '\\' :: 'u' :: (low ++ rest)) = .ok (c, rest) := by
  have hother : isLowSurrogate first = false := by
    simp only [isHighSurrogate, Bool.and_eq_true, decide_eq_true_eq] at hf
    simp only [isLowSurrogate, Bool.and_eq_false_iff, decide_eq_false_iff_not]
    omega
  simp only [unicodeEscape, hexQuad_append hhigh, hexQuad_append hlow, hf, hs, hother, ← hc,
    Bool.not_true, Bool.false_eq_true, if_true, if_false, Char.ofNat_toNat]

/-- A character before what is read of the rest of a string. -/
def consRead (c : Char) (read : Except ReadFault (List Char × List Char)) :
    Except ReadFault (List Char × List Char) :=
  read.map fun (cs, rest) => (c :: cs, rest)

theorem stringRest_quote (rest : List Char) : stringRest ('"' :: rest) = .ok ([], rest) := by
  rw [stringRest.eq_def]
  rfl

theorem stringRest_plain {c : Char} (hq : c ≠ '"') (hb : c ≠ '\\') (hc : 0x20 ≤ c.toNat)
    (rest : List Char) : stringRest (c :: rest) = consRead c (stringRest rest) := by
  rw [stringRest.eq_def]
  simp only [beq_iff_eq, hq, hb, if_false, if_neg (Nat.not_lt.mpr hc)]
  cases stringRest rest <;> rfl

theorem stringRest_letter {c e : Char} (he : simpleEscape? e = some c) (rest : List Char) :
    stringRest ('\\' :: e :: rest) = consRead c (stringRest rest) := by
  have hu : e ≠ 'u' := by
    rintro rfl
    cases he
  rw [stringRest.eq_def]
  simp only [beq_iff_eq, hu, he, if_false, if_true, show ('\\' : Char) ≠ '"' by decide]
  cases stringRest rest <;> rfl

theorem stringRest_unicode {c : Char} {text rest : List Char}
    (h : unicodeEscape text = .ok (c, rest)) :
    stringRest ('\\' :: 'u' :: text) = consRead c (stringRest rest) := by
  rw [stringRest.eq_def]
  simp only [beq_self_eq_true, if_true, if_false, show ('\\' == '"') = false by decide,
    Bool.false_eq_true]
  split
  · rename_i heq
    rw [h] at heq
    cases heq
  · rename_i heq
    rw [h] at heq
    cases heq
    cases stringRest rest <;> rfl

theorem stringRest_spelling {c : Char} {text : List Char} (h : Spelling c text) (rest : List Char) :
    stringRest (text ++ rest) = consRead c (stringRest rest) := by
  cases h with
  | plain hq hb hc => exact stringRest_plain hq hb hc rest
  | letter he => exact stringRest_letter he rest
  | unit hunit => exact stringRest_unicode (unicodeEscape_unit hunit rest)
  | @pair high low _ _ hhigh hlow hf hs hc =>
    have hpair := unicodeEscape_pair hhigh hlow hf hs hc rest
    rw [List.append_assoc]
    exact stringRest_unicode hpair

theorem stringRest_spells {cs text : List Char} (h : Spells cs text) (rest : List Char) :
    stringRest (text ++ '"' :: rest) = .ok (cs, rest) := by
  induction h with
  | nil => exact stringRest_quote rest
  | cons hc _ ih =>
    rw [List.append_assoc, stringRest_spelling hc, ih]
    rfl

/-- The reader takes a string off the front, whatever follows it. -/
theorem quotedString_append {s : String} {text : List Char} (h : Quotes s text) (rest : List Char) :
    quotedString (text ++ rest) = .ok (s, rest) := by
  obtain ⟨body, hbody, rfl⟩ := h
  have htail : ('"' :: body ++ ['"'] ++ rest).tail = body ++ '"' :: rest := by simp
  rw [quotedString, htail, stringRest_spells hbody]
  simp only [String.ofList_toList]

theorem skipStringRest_quote (rest : List Char) : skipStringRest ('"' :: rest) = .ok rest := by
  rw [skipStringRest.eq_def]
  rfl

theorem skipStringRest_append {text : List Char} (h : IsStringBody text) (rest : List Char) :
    skipStringRest (text ++ '"' :: rest) = .ok rest := by
  induction h with
  | nil => exact skipStringRest_quote rest
  | plain hq hb hc _ ih =>
    rw [List.cons_append, skipStringRest.eq_def]
    simp only [beq_iff_eq, hq, hb, if_false, if_neg (Nat.not_lt.mpr hc), ih]
  | @letter e _ he _ ih =>
    have hu : e ≠ 'u' := by
      rintro rfl
      cases he
    rw [List.cons_append, List.cons_append, skipStringRest.eq_def]
    simp only [beq_iff_eq, hu, he, if_false, if_true, show ('\\' : Char) ≠ '"' by decide, ih]
  | @unit quad text hunit _ ih =>
    obtain ⟨n, hn⟩ := Option.isSome_iff_exists.mp hunit
    have hquad := hexQuad_append hn (text ++ '"' :: rest)
    rw [List.append_assoc, List.cons_append, List.cons_append, skipStringRest.eq_def]
    simp only [beq_self_eq_true, if_true, if_false, show ('\\' == '"') = false by decide,
      Bool.false_eq_true]
    split
    · rename_i heq
      rw [hquad] at heq
      cases heq
    · rename_i heq
      rw [hquad] at heq
      cases heq
      exact ih

theorem skipQuotedString_append {text : List Char} (h : IsQuoted text) (rest : List Char) :
    skipQuotedString (text ++ rest) = .ok ((), rest) := by
  obtain ⟨body, hbody, rfl⟩ := h
  have htail : ('"' :: body ++ ['"'] ++ rest).tail = body ++ '"' :: rest := by simp
  rw [skipQuotedString, htail, skipStringRest_append hbody]

/-! ## Values and what follows them -/

/-- The characters that may stand behind a value. -/
def valueEnds : List Char := [' ', '\t', '\n', '\r', ',', ':', ']', '\x7d']

/-- A value is at its end before one of these characters, or at the end of the text. -/
def EndsValue (rest : List Char) : Prop := ∀ c ∈ rest.head?, c ∈ valueEnds

/-- The text that comes next stands for a value that the reader answers with, or refuses. -/
def ReadsNext (reader : Reader α) (text : List Char) (answer : Except ReadFault α) : Prop :=
  ∀ rest, EndsValue rest → reader (text ++ rest) = answer.map (·, rest)

/-- So does the text behind blanks. -/
def Reads (reader : Reader α) (text : List Char) (answer : Except ReadFault α) : Prop :=
  ∀ before, Blank before → ∀ rest, EndsValue rest →
    reader (before ++ (text ++ rest)) = answer.map (·, rest)

/-- The text can be an item of a list, as no bracket or blank stands at its front. -/
def StartsValue (text : List Char) : Prop :=
  ∃ c rest, text = c :: rest ∧ isJsonBlank c = false ∧ c ≠ ']'

/-- The text can be a key. -/
def StartsKey (text : List Char) : Prop := ∃ rest, text = '"' :: rest

theorem mem_valueEnds_of_blank {c : Char} (h : isJsonBlank c = true) : c ∈ valueEnds := by
  simp only [isJsonBlank, Bool.or_eq_true, beq_iff_eq] at h
  rcases h with ((rfl | rfl) | rfl) | rfl <;> decide

theorem endsValue_cons {c : Char} (h : c ∈ valueEnds) (rest : List Char) : EndsValue (c :: rest) := by
  intro d hd
  obtain rfl := Option.some.inj hd
  exact h

theorem endsValue_blank {after : List Char} (hb : Blank after) {rest : List Char}
    (h : EndsValue rest) : EndsValue (after ++ rest) := by
  cases after with
  | nil => exact h
  | cons c after => exact endsValue_cons (mem_valueEnds_of_blank (hb c List.mem_cons_self)) _

theorem EndsValue.head_of {rest : List Char} (ends : EndsValue rest) {p : Char → Bool}
    (h : valueEnds.any p = false) : ∀ c ∈ rest.head?, p c = false :=
  fun c hc => Bool.eq_false_iff.mpr (List.any_eq_false.mp h c (ends c hc))

theorem startsKey_quotes {s : String} {text : List Char} (h : Quotes s text) : StartsKey text := by
  obtain ⟨body, _, rfl⟩ := h
  exact ⟨body ++ ['"'], rfl⟩

theorem startsKey_quoted {text : List Char} (h : IsQuoted text) : StartsKey text := by
  obtain ⟨body, _, rfl⟩ := h
  exact ⟨body ++ ['"'], rfl⟩

theorem StartsKey.startsValue {text : List Char} (h : StartsKey text) : StartsValue text := by
  obtain ⟨rest, rfl⟩ := h
  exact ⟨'"', rest, rfl, rfl, by decide⟩

theorem StartsKey.peekValue {text : List Char} (h : StartsKey text) (rest : List Char) :
    peekValue (text ++ rest) = .ok ('"', text ++ rest) := by
  obtain ⟨tail, rfl⟩ := h
  exact peekValue_cons rfl _

theorem ReadsNext.reads {reader : Reader α} {text : List Char} {answer : Except ReadFault α}
    (h : ReadsNext reader text answer) (skips : SkipsBlanks reader) : Reads reader text answer := by
  intro before hb rest ends
  rw [skips hb, h rest ends]

theorem Reads.next {reader : Reader α} {text : List Char} {answer : Except ReadFault α}
    (h : Reads reader text answer) : ReadsNext reader text answer :=
  fun rest ends => h [] .nil rest ends

/-- A whole text may have blanks around its value. -/
theorem Reads.run {reader : Reader α} {text : List Char} {answer : Except ReadFault α}
    (h : Reads reader text answer) {before after : List Char} (hb : Blank before) (ha : Blank after) :
    reader.run (String.ofList (before ++ (text ++ after))) = answer := by
  have ends : EndsValue after := fun c hc => mem_valueEnds_of_blank (ha c (List.mem_of_mem_head? hc))
  have hall : after.all isJsonBlank = true := List.all_eq_true.mpr ha
  rw [Reader.run, String.toList_ofList, h before hb after ends]
  cases answer with
  | error fault => rfl
  | ok a => simp only [Except.map, hall, if_true]

theorem Reads.run_self {reader : Reader α} {text : List Char} {answer : Except ReadFault α}
    (h : Reads reader text answer) : reader.run (String.ofList text) = answer := by
  have hrun := h.run .nil .nil
  rwa [List.nil_append, List.append_nil] at hrun

/-- A text is read in one way. -/
theorem Reads.unique {reader : Reader α} {text : List Char} {first second : Except ReadFault α}
    (hfirst : Reads reader text first) (hsecond : Reads reader text second) : first = second :=
  hfirst.run_self.symm.trans hsecond.run_self

theorem Reads.text_ne {reader : Reader α} {text text' : List Char} {first second : α}
    (hfirst : Reads reader text (.ok first)) (hsecond : Reads reader text' (.ok second))
    (h : first ≠ second) : text ≠ text' := by
  rintro rfl
  exact h (Except.ok.inj (hfirst.unique hsecond))

theorem Reads.map {reader : Reader α} {text : List Char} {answer : Except ReadFault α}
    (h : Reads reader text answer) (f : α → β) :
    Reads (reader >>= fun a => pure (f a)) text (answer.map f) := by
  intro before hb rest ends
  rw [bind_apply, h before hb rest ends]
  cases answer <;> rfl

theorem reads_string {s : String} {text : List Char} (h : Quotes s text) :
    Reads string text (.ok s) := by
  refine ReadsNext.reads (fun rest _ => ?_) (skipsBlanks_peekValue _)
  rw [string, bind_of_ok ((startsKey_quotes h).peekValue rest), beq_self_eq_true, if_pos rfl,
    quotedString_append h]
  rfl

/-- A word is read as what its first letter tells. -/
theorem reads_word {step : Char → Reader α} {c : Char} {chars : List Char} {a : α}
    (hc : isJsonBlank c = false) (hstep : step c = do word (c :: chars); pure a) :
    Reads (peekValue >>= step) (c :: chars) (.ok a) := by
  refine ReadsNext.reads (fun rest _ => ?_) (skipsBlanks_peekValue _)
  rw [List.cons_append, bind_of_ok (peekValue_cons hc _), hstep]
  exact bind_of_ok (word_append (c :: chars) rest) _

theorem reads_bool (b : Bool) : Reads bool (Json.boolText b) (.ok b) := by
  cases b with
  | true => exact reads_word (c := 't') rfl rfl
  | false => exact reads_word (c := 'f') rfl rfl

theorem reads_option_none (inner : Reader α) : Reads (option inner) "null".toList (.ok none) :=
  reads_word (c := 'n') rfl rfl

/-- A text that may be missing, and is there. -/
theorem reads_option_string {s : String} {text : List Char} (h : Quotes s text) :
    Reads (option string) text (.ok (some s)) := by
  refine ReadsNext.reads (fun rest ends => ?_) (skipsBlanks_peekValue _)
  rw [option, bind_of_ok ((startsKey_quotes h).peekValue rest)]
  exact bind_of_ok ((reads_string h).next rest ends) _

/-- A named alternative, written as its name. -/
theorem reads_variant {named content : String → Reader α} {name : String} {a : α}
    (hnamed : named name = pure a) {text : List Char} (h : Quotes name text) :
    Reads (variant named content) text (.ok a) := by
  refine ReadsNext.reads (fun rest _ => ?_) (skipsBlanks_peekValue _)
  rw [variant, bind_of_ok ((startsKey_quotes h).peekValue rest), beq_self_eq_true, if_pos rfl,
    bind_of_ok (quotedString_append h rest), hnamed]
  rfl

/-! ## Lists -/

section Lists

theorem length_le_of_led {items : List (List Char)} {text : List Char} (h : Led items text) :
    items.length ≤ text.length := by
  induction h with
  | done => exact Nat.zero_le _
  | next _ _ _ ih =>
    simp only [List.length_append, List.length_cons] at ih ⊢
    omega

theorem endsValue_led {items : List (List Char)} {text : List Char} (h : Led items text) {c : Char}
    (hc : c ∈ valueEnds) (rest : List Char) : EndsValue (text ++ c :: rest) := by
  cases h with
  | done ha => exact endsValue_blank ha (endsValue_cons hc rest)
  | next ha _ _ =>
    rw [List.append_assoc]
    exact endsValue_blank ha (endsValue_cons (by decide) _)

theorem nextItem_close (first : Bool) {after : List Char} (ha : Blank after) (rest : List Char) :
    nextItem first (after ++ ']' :: rest) = .ok (false, ']' :: rest) := by
  rw [nextItem, skipsBlanks_peekValue _ ha, bind_of_ok (peekValue_cons rfl rest)]
  rfl

theorem nextItem_first {text : List Char} (h : StartsValue text) {before : List Char}
    (hb : Blank before) (rest : List Char) :
    nextItem true (before ++ (text ++ rest)) = .ok (true, text ++ rest) := by
  obtain ⟨c, text, rfl, hblank, hc⟩ := h
  rw [nextItem, skipsBlanks_peekValue _ hb, List.cons_append, bind_of_ok (peekValue_cons hblank _)]
  simp [hc, pure_apply]

theorem nextItem_comma {text : List Char} (h : StartsValue text) {after before : List Char}
    (ha : Blank after) (hb : Blank before) (rest : List Char) :
    nextItem false (after ++ ',' :: (before ++ (text ++ rest))) = .ok (true, text ++ rest) := by
  obtain ⟨c, text, rfl, hblank, hc⟩ := h
  rw [nextItem, skipsBlanks_peekValue _ ha, bind_of_ok (peekValue_cons rfl _)]
  change (advance >>= fun _ => peekValue >>= _) _ = _
  rw [bind_apply]
  change (peekValue >>= _) (before ++ (c :: text ++ rest)) = _
  rw [skipsBlanks_peekValue _ hb, List.cons_append, bind_of_ok (peekValue_cons hblank _)]
  simp [hc, pure_apply]

variable {item : Reader α} {answer : β → Except ReadFault α}

/-- Texts that stand for items, each of which is read by itself. -/
def ItemTexts (item : Reader α) (answer : β → Except ReadFault α) : List β → List (List Char) → Prop :=
  List.Forall₂ fun x text => StartsValue text ∧ Reads item text (answer x)

/-- One item and then the others, as the loop goes through them. -/
theorem item_then {x : β} {xs : List β} {text : List Char} (h : Reads item text (answer x))
    {rest after : List Char} (ends : EndsValue rest) {others : Reader (List α)}
    (ho : others rest = (xs.mapM answer).map (·, after)) :
    (item >>= fun a => others >>= fun list => pure (a :: list)) (text ++ rest) =
      ((x :: xs).mapM answer).map (·, after) := by
  rw [bind_apply, h.next rest ends, List.mapM_cons]
  cases answer x with
  | error fault => rfl
  | ok a =>
    simp only [Except.map, bind_apply, ho]
    cases xs.mapM answer <;> rfl

theorem itemsLoop_led {texts : List (List Char)} {body : List Char} (led : Led texts body)
    {xs : List β} (reads : ItemTexts item answer xs texts) {fuel : Nat} (hfuel : texts.length < fuel)
    (rest : List Char) :
    itemsLoop item fuel false (body ++ ']' :: rest) = (xs.mapM answer).map (·, ']' :: rest) := by
  induction led generalizing xs fuel with
  | done ha =>
    obtain ⟨fuel, rfl⟩ := Nat.exists_eq_add_one_of_ne_zero (Nat.ne_of_gt hfuel)
    cases reads
    rw [itemsLoop, bind_of_ok (nextItem_close false ha rest)]
    rfl
  | @next after before text body texts ha hb led ih =>
    obtain ⟨fuel, rfl⟩ := Nat.exists_eq_add_one_of_ne_zero (Nat.ne_of_gt (Nat.zero_lt_of_lt hfuel))
    cases reads with
    | cons hx hxs =>
      have htext : after ++ ',' :: (before ++ (text ++ body)) ++ ']' :: rest =
          after ++ ',' :: (before ++ (text ++ (body ++ ']' :: rest))) := by simp
      rw [itemsLoop, htext, bind_of_ok (nextItem_comma hx.1 ha hb _)]
      exact item_then hx.2 (endsValue_led led (by decide) rest)
        (ih hxs (Nat.lt_of_succ_lt_succ hfuel))

theorem items_separated {texts : List (List Char)} {body : List Char} (h : Separated texts body)
    {xs : List β} (reads : ItemTexts item answer xs texts) (rest : List Char) :
    items item (body ++ ']' :: rest) = (xs.mapM answer).map (·, ']' :: rest) := by
  rw [items]
  cases h with
  | empty hb =>
    cases reads
    rw [itemsLoop, bind_of_ok (nextItem_close true hb rest)]
    rfl
  | @items before text body texts hb led =>
    cases reads with
    | cons hx hxs =>
      have hlength := length_le_of_led led
      have htext : before ++ (text ++ body) ++ ']' :: rest =
          before ++ (text ++ (body ++ ']' :: rest)) := by simp
      have hfuel : texts.length < (before ++ (text ++ (body ++ ']' :: rest))).length := by
        simp only [List.length_append, List.length_cons]
        omega
      rw [htext, itemsLoop, bind_of_ok (nextItem_first hx.1 hb _)]
      exact item_then hx.2 (endsValue_led led (by decide) rest) (itemsLoop_led led hxs hfuel rest)

/-- A list reads as its items do, one after the other. -/
theorem reads_list {texts : List (List Char)} {text : List Char} (h : ListText texts text)
    {xs : List β} (reads : ItemTexts item answer xs texts) :
    Reads (list item) text (xs.mapM answer) := by
  refine ReadsNext.reads (fun rest _ => ?_) (skipsBlanks_peekValue _)
  obtain ⟨body, hbody, rfl⟩ := h
  have hitems := items_separated hbody reads rest
  have htext : '[' :: body ++ [']'] ++ rest = '[' :: (body ++ ']' :: rest) := by simp
  rw [list, htext, bind_of_ok (peekValue_cons rfl _), beq_self_eq_true, if_pos rfl]
  simp only [bind_apply, advance, List.tail_cons, hitems]
  cases xs.mapM answer with
  | error fault => rfl
  | ok list =>
    simp only [Except.map, expect_cons (c := ']') rfl, pure_apply]

end Lists

/-! ## Records -/

section Records

theorem nextKey_close (first : Bool) {after : List Char} (ha : Blank after) (rest : List Char) :
    nextKey first (after ++ '\x7d' :: rest) = .ok (false, '\x7d' :: rest) := by
  rw [nextKey, skipsBlanks_peekValue _ ha, bind_of_ok (peekValue_cons rfl rest)]
  rfl

theorem nextKey_first {text : List Char} (h : StartsKey text) {before : List Char}
    (hb : Blank before) (rest : List Char) :
    nextKey true (before ++ (text ++ rest)) = .ok (true, text ++ rest) := by
  rw [nextKey, skipsBlanks_peekValue _ hb, bind_of_ok (h.peekValue rest)]
  rfl

theorem nextKey_comma {text : List Char} (h : StartsKey text) {after before : List Char}
    (ha : Blank after) (hb : Blank before) (rest : List Char) :
    nextKey false (after ++ ',' :: (before ++ (text ++ rest))) = .ok (true, text ++ rest) := by
  rw [nextKey, skipsBlanks_peekValue _ ha, bind_of_ok (peekValue_cons rfl _)]
  change (advance >>= fun _ => peekValue >>= _) _ = _
  rw [bind_apply]
  change (peekValue >>= _) (before ++ (text ++ rest)) = _
  rw [skipsBlanks_peekValue _ hb, bind_of_ok (h.peekValue rest)]
  rfl

variable {key : Reader α} {member : σ → α → Reader σ} {next : σ → β → Except ReadFault σ}

/-- Texts that stand for members, each of which is read by itself, key and value. -/
def MemberTexts (key : Reader α) (member : σ → α → Reader σ) (next : σ → β → Except ReadFault σ) :
    List β → List (List Char) → Prop :=
  List.Forall₂ fun m text =>
    StartsKey text ∧ ∀ state, ReadsNext (key >>= member state) text (next state m)

/-- One member and then the others, as the loop goes through them. -/
theorem member_then {m : β} {ms : List β} {text : List Char} {state : σ}
    (h : ReadsNext (key >>= member state) text (next state m)) {rest after : List Char}
    (ends : EndsValue rest) {others : σ → Reader σ}
    (ho : ∀ state, others state rest = (ms.foldlM next state).map (·, after)) :
    (key >>= fun k => member state k >>= others) (text ++ rest) =
      ((m :: ms).foldlM next state).map (·, after) := by
  rw [← bind_assoc, bind_apply, h rest ends, List.foldlM_cons]
  cases next state m with
  | error fault => rfl
  | ok state => exact ho state

theorem membersLoop_led {texts : List (List Char)} {body : List Char} (led : Led texts body)
    {ms : List β} (reads : MemberTexts key member next ms texts) {fuel : Nat}
    (hfuel : texts.length < fuel) (state : σ) (rest : List Char) :
    membersLoop key member fuel false state (body ++ '\x7d' :: rest) =
      (ms.foldlM next state).map (·, '\x7d' :: rest) := by
  induction led generalizing ms fuel state with
  | done ha =>
    obtain ⟨fuel, rfl⟩ := Nat.exists_eq_add_one_of_ne_zero (Nat.ne_of_gt hfuel)
    cases reads
    rw [membersLoop, bind_of_ok (nextKey_close false ha rest)]
    rfl
  | @next after before text body texts ha hb led ih =>
    obtain ⟨fuel, rfl⟩ := Nat.exists_eq_add_one_of_ne_zero (Nat.ne_of_gt (Nat.zero_lt_of_lt hfuel))
    cases reads with
    | cons hm hms =>
      have htext : after ++ ',' :: (before ++ (text ++ body)) ++ '\x7d' :: rest =
          after ++ ',' :: (before ++ (text ++ (body ++ '\x7d' :: rest))) := by simp
      rw [membersLoop, htext, bind_of_ok (nextKey_comma hm.1 ha hb _)]
      exact member_then (hm.2 state) (endsValue_led led (by decide) rest)
        fun state => ih hms (Nat.lt_of_succ_lt_succ hfuel) state

theorem members_separated {texts : List (List Char)} {body : List Char} (h : Separated texts body)
    {ms : List β} (reads : MemberTexts key member next ms texts) (state : σ) (rest : List Char) :
    members key member state (body ++ '\x7d' :: rest) =
      (ms.foldlM next state).map (·, '\x7d' :: rest) := by
  rw [members]
  cases h with
  | empty hb =>
    cases reads
    rw [membersLoop, bind_of_ok (nextKey_close true hb rest)]
    rfl
  | @items before text body texts hb led =>
    cases reads with
    | cons hm hms =>
      have hlength := length_le_of_led led
      have htext : before ++ (text ++ body) ++ '\x7d' :: rest =
          before ++ (text ++ (body ++ '\x7d' :: rest)) := by simp
      have hfuel : texts.length < (before ++ (text ++ (body ++ '\x7d' :: rest))).length := by
        simp only [List.length_append, List.length_cons]
        omega
      rw [htext, membersLoop, bind_of_ok (nextKey_first hm.1 hb _)]
      exact member_then (hm.2 state) (endsValue_led led (by decide) rest)
        fun state => membersLoop_led led hms hfuel state rest

/-- The reader goes on from the colon to a value. -/
def ReadsMember (reader : Reader α) (value : List Char) (answer : Except ReadFault α) : Prop :=
  ∀ before, Blank before → Reads reader (':' :: (before ++ value)) answer

theorem ReadsMember.map {reader : Reader α} {value : List Char} {answer : Except ReadFault α}
    (h : ReadsMember reader value answer) (f : α → β) :
    ReadsMember (reader >>= fun a => pure (f a)) value (answer.map f) :=
  fun before hb => (h before hb).map f

theorem readsMember_colon {reader : Reader α} {value : List Char} {answer : Except ReadFault α}
    (h : Reads reader value answer) : ReadsMember (colon >>= fun _ => reader) value answer := by
  intro before hb
  refine ReadsNext.reads (fun rest ends => ?_) (SkipsBlanks.bind (skipsBlanks_expect ':') _)
  rw [List.cons_append, List.append_assoc, colon, bind_of_ok (expect_cons rfl _)]
  exact h before hb rest ends

/-- What a field reads as: it is refused where it was seen before. -/
def fieldAnswer (seen : Option α) (answer : Except ReadFault α) : Except ReadFault (Option α) :=
  if seen.isSome then .error (.rejected none) else answer.map some

theorem readsMember_field {item : Reader α} {value : List Char} {answer : Except ReadFault α}
    (h : Reads item value answer) (seen : Option α) :
    ReadsMember (field seen item) value (fieldAnswer seen answer) := by
  cases seen with
  | some _ => exact fun before _ blanks _ rest _ => rfl
  | none => exact readsMember_colon (h.map some)

/-- A field that is put into a record, unless it was seen before. -/
theorem readsMember_put {item : Reader α} {value : List Char} {a : α}
    (h : Reads item value (.ok a)) (seen : Option α) (put : Option α → σ) :
    ReadsMember (field seen item >>= fun a? => pure (put a?)) value
      (if seen.isSome then .error (.rejected none) else .ok (put (some a))) := by
  have hread := (readsMember_field h seen).map put
  rw [fieldAnswer] at hread
  split <;> rename_i hseen
  · rwa [if_pos hseen] at hread
  · rwa [if_neg hseen] at hread

variable {κ : Type} {Key : κ → List Char → Prop}

/-- The members of an object are read one by one if their values are. -/
theorem memberTexts_of_object {read : κ → α} {ms : List (κ × List Char)}
    {next : σ → κ × List Char → Except ReadFault σ} {texts : List (List Char)}
    (object : List.Forall₂ (fun m => MemberText Key m.1 m.2) ms texts)
    (starts : ∀ {k text}, Key k text → StartsKey text)
    (keys : ∀ {k text}, Key k text → ∀ rest, key (text ++ rest) = .ok (read k, rest))
    (values : ∀ m ∈ ms, ∀ state, ReadsMember (member state (read m.1)) m.2 (next state m)) :
    MemberTexts key member next ms texts := by
  refine ((List.forall₂_and_left ..).mpr ⟨values, object⟩).imp ?_
  rintro ⟨k, value⟩ text ⟨hvalue, hmember⟩
  cases hmember with
  | @mk keyText after before hkey ha hb =>
    obtain ⟨tail, rfl⟩ := starts hkey
    refine ⟨⟨_, rfl⟩, fun state rest ends => ?_⟩
    rw [List.append_assoc, bind_of_ok (keys hkey _), List.append_assoc]
    exact hvalue state before hb after ha rest ends

section Objects

variable {member : σ → String → Reader σ} {next : σ → String × List Char → Except ReadFault σ}
  {ms : List (String × List Char)} {text : List Char}

/-- The members of an object are read one after the other, and then the record is completed. -/
theorem record_append (object : ObjectText Quotes ms text)
    (values : ∀ m ∈ ms, ∀ state, ReadsMember (member state m.1) m.2 (next state m)) (state : σ)
    (fromList : Reader α) (complete : σ → Reader α) (rest : List Char) :
    record fromList (members quotedString member state >>= complete) (text ++ rest) =
      match ms.foldlM next state with
      | .error fault => .error fault
      | .ok last =>
        (complete last >>= fun a => expect '\x7d' >>= fun _ => pure a) ('\x7d' :: rest) := by
  obtain ⟨texts, body, hmembers, hbody, rfl⟩ := object
  have hread := members_separated hbody
    (memberTexts_of_object hmembers startsKey_quotes quotedString_append values) state rest
  have htext : '\x7b' :: body ++ ['\x7d'] ++ rest = '\x7b' :: (body ++ '\x7d' :: rest) := by simp
  rw [record, htext, bind_of_ok (peekValue_cons rfl _)]
  change (advance >>= fun _ => _) _ = _
  simp only [bind_apply, advance, List.tail_cons, hread]
  cases ms.foldlM next state <;> rfl

/-- A record in the form of an object reads as its members do, one after the other. -/
theorem reads_object (object : ObjectText Quotes ms text)
    (values : ∀ m ∈ ms, ∀ state, ReadsMember (member state m.1) m.2 (next state m)) (state : σ)
    (fromList : Reader α) (result : σ → α) :
    Reads (record fromList (members quotedString member state >>= fun state => pure (result state)))
      text ((ms.foldlM next state).map result) := by
  refine ReadsNext.reads (fun rest _ => ?_) (skipsBlanks_peekValue _)
  rw [record_append object values]
  cases ms.foldlM next state with
  | error fault => rfl
  | ok state =>
    change (expect '\x7d' >>= fun _ => pure (result state)) ('\x7d' :: rest) = _
    rw [bind_of_ok (expect_cons rfl rest)]
    rfl

/-- Fields that must be there may still be missing when all members have been read. -/
theorem reads_object_of_complete (object : ObjectText Quotes ms text)
    (values : ∀ m ∈ ms, ∀ state, ReadsMember (member state m.1) m.2 (next state m)) {state last : σ}
    (hlast : ms.foldlM next state = .ok last) (fromList : Reader α) {complete : σ → Reader α} {a : α}
    (hcomplete : ∀ rest, complete last rest = .ok (a, rest)) :
    Reads (record fromList (members quotedString member state >>= complete)) text (.ok a) := by
  refine ReadsNext.reads (fun rest _ => ?_) (skipsBlanks_peekValue _)
  rw [record_append object values, hlast]
  change (complete last >>= _) _ = _
  rw [bind_of_ok (hcomplete _), bind_of_ok (expect_cons rfl rest)]
  rfl

end Objects

theorem onlyString_append {s : String} {text : List Char} (h : Quotes s text) {before : List Char}
    (hb : Blank before) (rest : List Char) :
    onlyString (before ++ (text ++ rest)) = .ok (s, rest) := by
  rw [onlyString, skipsBlanks_peekValue _ hb, bind_of_ok ((startsKey_quotes h).peekValue rest)]
  exact quotedString_append h rest

/-- An object with one member has its key and its value between blanks. -/
theorem exists_of_objectText_single {k : κ} {value text : List Char}
    (h : ObjectText Key [(k, value)] text) :
    ∃ before keyText after gap blanks, Blank before ∧ Key k keyText ∧ Blank after ∧ Blank gap ∧
      Blank blanks ∧ text = '\x7b' :: (before ++ (keyText ++
        (after ++ (':' :: (gap ++ value) ++ (blanks ++ ['\x7d']))))) := by
  obtain ⟨texts, body, hmembers, hbody, rfl⟩ := h
  cases hmembers with
  | cons hmember hnone =>
    cases hnone
    cases hmember with
    | @mk keyText after gap hkey ha hgap =>
      cases hbody with
      | @items before _ blanks _ hb led =>
        cases led with
        | done hblanks =>
          exact ⟨before, keyText, after, gap, blanks, hb, hkey, ha, hgap, hblanks, by simp⟩

/-- A named alternative with a content, written as an object with the name as its only key. -/
theorem reads_variant_object {named content : String → Reader α} {name : String} {value : List Char}
    {answer : Except ReadFault α} (h : ReadsMember (content name) value answer) {text : List Char}
    (object : ObjectText Quotes [(name, value)] text) :
    Reads (variant named content) text answer := by
  refine ReadsNext.reads (fun rest _ => ?_) (skipsBlanks_peekValue _)
  obtain ⟨before, keyText, after, gap, blanks, hb, hkey, ha, hgap, hblanks, rfl⟩ :=
    exists_of_objectText_single object
  have hvalue := h gap hgap after ha (blanks ++ '\x7d' :: rest)
    (endsValue_blank hblanks (endsValue_cons (by decide) rest))
  have hclose : expect '\x7d' (blanks ++ '\x7d' :: rest) = .ok ((), rest) := by
    rw [skipsBlanks_expect '\x7d' hblanks, expect_cons rfl]
  simp only [List.cons_append, List.append_assoc, List.nil_append] at hvalue ⊢
  rw [variant, bind_of_ok (peekValue_cons rfl _)]
  change (advance >>= fun _ => onlyString >>= fun s => content s >>= _) _ = _
  rw [bind_apply]
  change (onlyString >>= fun s => content s >>= _) (before ++ (keyText ++ _)) = _
  rw [bind_of_ok (onlyString_append hkey hb _), bind_apply, hvalue]
  cases answer with
  | error fault => rfl
  | ok a => exact bind_of_ok hclose _

end Records

end ShardedLines.Reader
