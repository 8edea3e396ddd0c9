import ShardedLines.Naming.Pattern
import ShardedLines.Proofs.Naming.Scan

/-!
The pattern of a template.

`Pattern.StandsFor` says what a pattern stands for, star by star, and the matcher decides it
(`accepts_iff`). The text of a template's pattern always reads as a pattern, whose tokens are
`shardTokens`: the characters of the stem and of the template, with one run for each stretch of the
letters `S` and `N`. Whatever numbers are filled in, and wherever a later run of the letters is kept,
the name of a shard has this form (`standsFor_fill`).
-/

namespace ShardedLines

namespace Pattern

/-- What a pattern stands for: a star for any characters without a slash, and everything else for
its character. -/
inductive StandsFor : List PatternToken → List Char → Prop where
  | nil : StandsFor [] []
  | plain (c : Char) {rest : List PatternToken} {text : List Char} :
      StandsFor rest text → StandsFor (.plain c :: rest) (c :: text)
  | bracketed (c : Char) {rest : List PatternToken} {text : List Char} :
      StandsFor rest text → StandsFor (.bracketed c :: rest) (c :: text)
  | run {taken : List Char} {rest : List PatternToken} {text : List Char} :
      '/' ∉ taken → StandsFor rest text → StandsFor (.run :: rest) (taken ++ text)

theorem StandsFor.skipRun {rest : List PatternToken} {text : List Char} (h : StandsFor rest text) :
    StandsFor (.run :: rest) text :=
  .run List.not_mem_nil h

/-- A star may take one more character. -/
theorem StandsFor.takeOne {c : Char} {rest : List PatternToken} {text : List Char} (hc : c ≠ '/')
    (h : StandsFor (.run :: rest) text) : StandsFor (.run :: rest) (c :: text) := by
  cases h with
  | run hs ht =>
    rw [← List.cons_append]
    refine .run ?_ ht
    simpa [Ne.symm hc] using hs

theorem StandsFor.takeMany {taken : List Char} {rest : List PatternToken} {text : List Char}
    (hs : '/' ∉ taken) (h : StandsFor (.run :: rest) text) :
    StandsFor (.run :: rest) (taken ++ text) := by
  induction taken with
  | nil => exact h
  | cons c taken ih =>
    rw [List.mem_cons, not_or] at hs
    exact (ih hs.2).takeOne (Ne.symm hs.1)

/-- The matcher decides what a pattern stands for. -/
theorem accepts_iff (pattern : List PatternToken) (text : List Char) :
    accepts pattern text ↔ StandsFor pattern text := by
  constructor
  · intro h
    fun_induction accepts pattern text with
    | case1 text =>
      obtain rfl := List.isEmpty_iff.mp h
      exact .nil
    | case2 | case4 => cases h
    | case3 c rest x text ih =>
      obtain ⟨hc, hrest⟩ := Bool.and_eq_true_iff.mp h
      obtain rfl := eq_of_beq hc
      exact .plain c (ih hrest)
    | case5 c rest x text ih =>
      obtain ⟨hc, hrest⟩ := Bool.and_eq_true_iff.mp h
      obtain rfl := eq_of_beq hc
      exact .bracketed c (ih hrest)
    | case6 rest ih => exact (ih h).skipRun
    | case7 rest x text ihSkip ihTake =>
      rcases Bool.or_eq_true_iff.mp h with h | h
      · exact (ihSkip h).skipRun
      · obtain ⟨hx, h⟩ := Bool.and_eq_true_iff.mp h
        exact (ihTake h).takeOne (by simpa using hx)
  · intro h
    induction h with
    | nil => simp [accepts]
    | plain c _ ih => simpa [accepts] using ih
    | bracketed c _ ih => simpa [accepts] using ih
    | @run taken rest text hs _ ih =>
      induction taken with
      | nil => cases text <;> simp [accepts, ih]
      | cons c taken ihTaken =>
        rw [List.mem_cons, not_or] at hs
        have hc : c ≠ '/' := Ne.symm hs.1
        simp [accepts, hc, ihTaken hs.2]

/-- The token that stands for a character when it is escaped. -/
def token (c : Char) : PatternToken :=
  if c == '?' || c == '*' || c == '[' || c == ']' then .bracketed c else .plain c

theorem standsFor_token_iff {c : Char} {rest : List PatternToken} {text : List Char} :
    StandsFor (token c :: rest) text ↔ ∃ more, text = c :: more ∧ StandsFor rest more := by
  unfold token
  split
  · constructor
    · rintro ⟨⟩
      exact ⟨_, rfl, ‹_›⟩
    · rintro ⟨more, rfl, h⟩
      exact .bracketed c h
  · constructor
    · rintro ⟨⟩
      exact ⟨_, rfl, ‹_›⟩
    · rintro ⟨more, rfl, h⟩
      exact .plain c h

theorem standsFor_map_token_iff (stem : List Char) {rest : List PatternToken} {text : List Char} :
    StandsFor (stem.map token ++ rest) text ↔ ∃ more, text = stem ++ more ∧ StandsFor rest more := by
  induction stem generalizing text with
  | nil => simp
  | cons c stem ih =>
    rw [List.map_cons, List.cons_append, standsFor_token_iff]
    simp only [ih]
    constructor
    · rintro ⟨_, rfl, more, rfl, h⟩
      exact ⟨more, rfl, h⟩
    · rintro ⟨more, rfl, h⟩
      exact ⟨_, rfl, more, rfl, h⟩

/-- What is escaped reads as a token for its character. -/
theorem tokens?_escape (c : Char) (rest : List Char) :
    tokens? (escape c ++ rest) = (tokens? rest).map (token c :: ·) := by
  by_cases hs : (c == '?' || c == '*' || c == '[' || c == ']') = true
  · simp only [escape, token, hs, if_true, List.cons_append, List.nil_append]
    simp [tokens?]
  · simp only [escape, token, hs, Bool.false_eq_true, if_false, List.cons_append, List.nil_append]
    simp only [Bool.or_eq_true, beq_iff_eq, not_or] at hs
    obtain ⟨⟨⟨_, _⟩, hopen⟩, _⟩ := hs
    cases rest with
    | nil => simp [tokens?]
    | cons x rest => simp [tokens?, hopen]

/-- Where a text reads as a pattern, no star follows another one. -/
theorem not_double_star_of_tokens? {text : List Char} {pattern : List PatternToken}
    (h : tokens? text = some pattern) : ¬ ['*', '*'] <:+: text := by
  fun_induction tokens? text generalizing pattern with
  | case1 => simp
  | case2 rest hstar => cases h
  | case3 rest hstar ih =>
    obtain ⟨later, hl, _⟩ := Option.map_eq_some_iff.mp h
    rw [List.infix_cons_iff, List.cons_prefix_cons]
    rintro (⟨_, hp⟩ | hi)
    · cases rest with
      | nil => simp at hp
      | cons c rest =>
        obtain rfl := (List.cons_prefix_cons.mp hp).1
        exact hstar rfl
    · exact ih hl hi
  | case4 c rest ih =>
    obtain ⟨later, hl, _⟩ := Option.map_eq_some_iff.mp h
    have hi := ih hl
    simp [List.infix_cons_iff, hi]
  | case5 => cases h
  | case6 c rest hstar hopen hbracket ih =>
    obtain ⟨later, hl, _⟩ := Option.map_eq_some_iff.mp h
    have hc : '*' ≠ c := fun he => hstar he.symm
    simpa [List.infix_cons_iff, hc] using ih hl

theorem head?_escape_append (c : Char) (rest : List Char) :
    (escape c ++ rest).head? ≠ some '*' := by
  unfold escape
  split
  · simp
  · rename_i hs
    simp at hs
    simp [hs]

end Pattern

namespace Naming

/-- The tokens of a template's pattern; `starred` tells whether a star was just written. -/
def templateTokens : (starred : Bool) → List Char → List PatternToken
  | _, [] => []
  | starred, c :: rest =>
    if c == 'S' || c == 'N' then
      (if starred then [] else [.run]) ++ templateTokens true rest
    else Pattern.token c :: templateTokens false rest

/-- The tokens of the pattern that stands for the names of all shards. -/
def shardTokens (stem template : String) : List PatternToken :=
  stem.toList.map Pattern.token ++ templateTokens false template.toList

/-- A star is not followed by another one. -/
theorem head?_templatePattern (template : List Char) :
    (templatePattern true template).head? ≠ some '*' := by
  induction template with
  | nil => simp [templatePattern]
  | cons c rest ih =>
    simp only [templatePattern]
    split
    · exact ih
    · exact Pattern.head?_escape_append c _

theorem tokens?_templatePattern (starred : Bool) (template : List Char) :
    Pattern.tokens? (templatePattern starred template) =
      some (templateTokens starred template) := by
  induction template generalizing starred with
  | nil => rfl
  | cons c rest ih =>
    simp only [templatePattern, templateTokens]
    split
    · cases starred with
      | true => exact ih true
      | false => simp [Pattern.tokens?, head?_templatePattern, ih]
    · rw [Pattern.tokens?_escape, ih]
      rfl

theorem tokens?_flatMap_escape (stem rest : List Char) :
    Pattern.tokens? (stem.flatMap Pattern.escape ++ rest) =
      (Pattern.tokens? rest).map (stem.map Pattern.token ++ ·) := by
  induction stem with
  | nil => simp
  | cons c stem ih =>
    rw [List.flatMap_cons, List.append_assoc, Pattern.tokens?_escape, ih, Option.map_map]
    rfl

/-- The text of a template's pattern is always a pattern. -/
theorem tokens?_patternText (stem template : String) :
    Pattern.tokens? (patternText stem template).toList = some (shardTokens stem template) := by
  rw [patternText, String.toList_ofList, tokens?_flatMap_escape, tokens?_templatePattern]
  rfl

/-! ## What a template stands for -/

/-- A character of a template that is no text of its own. -/
def IsLetter (c : Char) : Prop :=
  c = 'S' ∨ c = 'N'

/-- A text is the template with some text without a slash in place of each stretch of letters, a
stretch being as long as it can be. -/
inductive Replaced : (template text : List Char) → Prop where
  | nil : Replaced [] []
  | kept {c : Char} {rest text : List Char} :
      ¬ IsLetter c → Replaced rest text → Replaced (c :: rest) (c :: text)
  | stretch {letters taken rest text : List Char} :
      letters ≠ [] → (∀ c ∈ letters, IsLetter c) → (∀ c ∈ rest.head?, ¬ IsLetter c) →
      '/' ∉ taken → Replaced rest text → Replaced (letters ++ rest) (taken ++ text)

/-- A text that starts with the stem and goes on as the template allows. -/
def HasForm (stem template text : List Char) : Prop :=
  ∃ filled, text = stem ++ filled ∧ Replaced template filled

theorem isLetter_iff {c : Char} : (c == 'S' || c == 'N') = true ↔ IsLetter c := by
  simp [IsLetter]

theorem templateTokens_kept {c : Char} (hc : ¬ IsLetter c) (starred : Bool) (rest : List Char) :
    templateTokens starred (c :: rest) = Pattern.token c :: templateTokens false rest := by
  rw [templateTokens, if_neg (mt isLetter_iff.mp hc)]

theorem templateTokens_letter {c : Char} (hc : IsLetter c) (starred : Bool) (rest : List Char) :
    templateTokens starred (c :: rest) =
      (if starred then [] else [.run]) ++ templateTokens true rest := by
  rw [templateTokens, if_pos (isLetter_iff.mpr hc)]

/-- A star takes the whole stretch that it stands for. -/
theorem templateTokens_stretch {letters rest : List Char} (h : ∀ c ∈ letters, IsLetter c)
    (hrest : ∀ c ∈ rest.head?, ¬ IsLetter c) :
    templateTokens true (letters ++ rest) = templateTokens false rest := by
  induction letters with
  | nil =>
    cases rest with
    | nil => rfl
    | cons c rest =>
      have hc := hrest c rfl
      rw [List.nil_append, templateTokens_kept hc, templateTokens_kept hc]
  | cons c letters ih =>
    rw [List.forall_mem_cons] at h
    rw [List.cons_append, templateTokens_letter h.1, ih h.2]
    rfl

theorem Replaced.standsFor {template text : List Char} (h : Replaced template text) :
    Pattern.StandsFor (templateTokens false template) text := by
  induction h with
  | nil => exact .nil
  | kept hc _ ih =>
    rw [templateTokens_kept hc]
    exact Pattern.standsFor_token_iff.mpr ⟨_, rfl, ih⟩
  | @stretch letters taken rest text hne hletters hrest hslash _ ih =>
    obtain ⟨c, letters, rfl⟩ := List.exists_cons_of_ne_nil hne
    rw [List.forall_mem_cons] at hletters
    rw [List.cons_append, templateTokens_letter hletters.1,
      templateTokens_stretch hletters.2 hrest]
    exact .run hslash ih

/-- Reads off what the pattern's tokens took, also behind a star that stands for the letters so
far. -/
theorem replaced_of_standsFor (template : List Char) :
    (∀ text, Pattern.StandsFor (templateTokens false template) text → Replaced template text) ∧
      ∀ letters text, letters ≠ [] → (∀ c ∈ letters, IsLetter c) →
        Pattern.StandsFor (.run :: templateTokens true template) text →
          Replaced (letters ++ template) text := by
  induction template with
  | nil =>
    constructor
    · rintro text ⟨⟩
      exact .nil
    · rintro letters text hne hletters (_ | _ | _ | ⟨hslash, ⟨⟩⟩)
      exact .stretch hne hletters (by simp) hslash .nil
  | cons c rest ih =>
    by_cases hc : IsLetter c
    · have hletter : ∀ x ∈ [c], IsLetter x := by simpa using hc
      constructor
      · intro text h
        rw [templateTokens_letter hc] at h
        exact ih.2 [c] text (by simp) hletter h
      · intro letters text hne hletters h
        rw [templateTokens_letter hc] at h
        have hall := List.forall_mem_append.mpr ⟨hletters, hletter⟩
        rw [List.append_cons]
        exact ih.2 (letters ++ [c]) text (by simp) hall h
    · constructor
      · intro text h
        rw [templateTokens_kept hc, Pattern.standsFor_token_iff] at h
        obtain ⟨more, rfl, hmore⟩ := h
        exact .kept hc (ih.1 more hmore)
      · intro letters text hne hletters h
        rw [templateTokens_kept hc] at h
        obtain _ | _ | _ | ⟨hslash, hrest⟩ := h
        obtain ⟨more, rfl, hmore⟩ := Pattern.standsFor_token_iff.mp hrest
        exact .stretch hne hletters (by simpa using hc) hslash (.kept hc (ih.1 more hmore))

/-- The pattern of a stem and a template stands for the texts that start with the stem and go on as
the template allows, whatever characters both have. -/
theorem standsFor_shardTokens_iff (stem template : String) (text : List Char) :
    Pattern.StandsFor (shardTokens stem template) text ↔
      HasForm stem.toList template.toList text := by
  rw [shardTokens, Pattern.standsFor_map_token_iff, HasForm]
  constructor
  · rintro ⟨filled, rfl, h⟩
    exact ⟨filled, rfl, (replaced_of_standsFor _).1 filled h⟩
  · rintro ⟨filled, rfl, h⟩
    exact ⟨filled, rfl, h.standsFor⟩

/-! ## Names have the form of the pattern -/

theorem isDigit_of_mem_padded {width n : Nat} {c : Char} (h : c ∈ padded width n) :
    c.isDigit = true := by
  rw [padded, List.leftpad, List.mem_append] at h
  rcases h with h | h
  · rw [List.eq_of_mem_replicate h]
    rfl
  · exact Nat.isDigit_of_mem_toDigits (by decide) (by decide) h

theorem slash_notMem_padded (width n : Nat) : '/' ∉ padded width n :=
  fun h => absurd (isDigit_of_mem_padded h) (by decide)

/-- A star takes all of a run of its letters. -/
theorem templateTokens_afterRun {c : Char} (hc : IsLetter c) (template : List Char) :
    templateTokens true (afterRun c template) = templateTokens true template := by
  induction template with
  | nil => rfl
  | cons x rest ih =>
    unfold afterRun at ih ⊢
    rw [List.dropWhile_cons]
    by_cases hx : x = c
    · subst hx
      rw [if_pos (beq_self_eq_true x), ih, templateTokens_letter hc, if_pos rfl, List.nil_append]
    · simp [hx]

/-- A filled template has the form of its pattern, also behind a star that is still open. -/
theorem standsFor_fill (shard? shards? : Option Nat) (template : List Char) :
    Pattern.StandsFor (templateTokens false template) (fill shard? shards? template) ∧
      Pattern.StandsFor (.run :: templateTokens true template) (fill shard? shards? template) := by
  -- at a letter both forms are one star, which takes what is filled in for the letter
  have letter {c : Char} {rest : List Char} {text : List Char} (hc : IsLetter c)
      (h : Pattern.StandsFor (.run :: templateTokens true rest) text) :
      Pattern.StandsFor (templateTokens false (c :: rest)) text ∧
        Pattern.StandsFor (.run :: templateTokens true (c :: rest)) text := by
    rw [templateTokens_letter hc, templateTokens_letter hc]
    exact ⟨h, h⟩
  fun_induction fill shard? shards? template with
  | case1 => exact ⟨.nil, Pattern.StandsFor.nil.skipRun⟩
  | case2 shards? c rest hS shard ih =>
    obtain rfl := eq_of_beq hS
    apply letter (.inl rfl)
    rw [templateTokens_afterRun (.inl rfl)] at ih
    exact ih.2.takeMany (slash_notMem_padded _ _)
  | case3 shards? c rest hS ih =>
    obtain rfl := eq_of_beq hS
    exact letter (.inl rfl) (ih.2.takeOne (by decide))
  | case4 shard? c rest hS hN shards ih =>
    obtain rfl := eq_of_beq hN
    apply letter (.inr rfl)
    rw [templateTokens_afterRun (.inr rfl)] at ih
    exact ih.2.takeMany (slash_notMem_padded _ _)
  | case5 shard? c rest hS hN ih =>
    obtain rfl := eq_of_beq hN
    exact letter (.inr rfl) (ih.2.takeOne (by decide))
  | case6 shard? shards? c rest hS hN ih =>
    have hc : ¬ IsLetter c := by
      rw [← isLetter_iff]
      simp [hS, hN]
    rw [templateTokens_kept hc, templateTokens_kept hc]
    have h := Pattern.standsFor_token_iff (c := c).mpr ⟨_, rfl, ih.1⟩
    exact ⟨h, h.skipRun⟩

theorem standsFor_shardFile (stem template : String) (shard shards : Nat) :
    Pattern.StandsFor (shardTokens stem template) (shardFile stem template shard shards).toList := by
  rw [toList_shardFile]
  exact (Pattern.standsFor_map_token_iff _).mpr ⟨_, rfl, (standsFor_fill _ _ _).1⟩

/-- The files are looked up by a pattern that cannot be refused. -/
theorem shardFiles_eq (disk : Disk) (stem template : String) :
    shardFiles disk stem template =
      .ok (Path.sorted ((disk.expand (shardTokens stem template)).filter disk.isFile)) := by
  rw [shardFiles, tokens?_patternText]

/-- Every stem and template have a pattern, so the search for shard files is never refused. A shard
has a name exactly if both numbers can be formatted, and the pattern stands for every name, whatever
the number of the shard and that of all shards. -/
theorem name_has_form_of_pattern (stem template : String) :
    ¬ ['*', '*'] <:+: (patternText stem template).toList ∧
    ∃ pattern, Pattern.tokens? (patternText stem template).toList = some pattern ∧
      (∀ shard shards, (∃ name, shardFile? stem template shard shards = some name) ↔
        Formats template.toList) ∧
      (∀ shard shards name, shardFile? stem template shard shards = some name →
        Pattern.StandsFor pattern name.toList) ∧
      ∀ disk, ∃ files, shardFiles disk stem template = .ok files := by
  have hread := tokens?_patternText stem template
  refine ⟨Pattern.not_double_star_of_tokens? hread, shardTokens stem template, hread,
    fun _ _ => exists_shardFile?_iff, ?_, ?_⟩
  · intro shard shards name hname
    rw [(shardFile?_eq_some_iff.mp hname).2]
    exact standsFor_shardFile stem template shard shards
  · intro disk
    exact ⟨_, shardFiles_eq disk stem template⟩

/-- Where the run is too long there is a pattern, but no name that has its form. -/
theorem no_name_of_overlong_run :
    (∃ pattern, Pattern.tokens? (patternText "out" overlong).toList = some pattern) ∧
      shardFile? "out" overlong 0 1 = none :=
  ⟨⟨_, tokens?_patternText "out" overlong⟩, shardFile?_eq_none_iff.mpr not_formats_overlong⟩

end Naming

end ShardedLines
