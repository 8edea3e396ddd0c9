import ShardedLines.Proofs.Logging.ReadBack

/-!
The grammar of overrides.

A text is an override, or it is wrong in one of four ways. `LevelOverride.Reading` tells these apart
by the form of the text alone, and every text has one reading, which is what parsing it gives
(`parse_eq_iff_reading`). The level is wrong before the name is, and a name is wrong for the first
character that cannot stand in it.
-/

namespace ShardedLines

/-! ## Characters and level names -/

/-- The code points of white space. -/
def whiteSpace : List Nat :=
  [0x9, 0xA, 0xB, 0xC, 0xD, 0x20, 0x85, 0xA0, 0x1680, 0x2000, 0x2001, 0x2002, 0x2003, 0x2004,
    0x2005, 0x2006, 0x2007, 0x2008, 0x2009, 0x200A, 0x2028, 0x2029, 0x202F, 0x205F, 0x3000]

theorem isBlank_iff (c : Char) : isBlank c = true ↔ c.toNat ∈ whiteSpace := by
  simp [isBlank, CodeRanges.contains, blankRanges, whiteSpace]
  omega

/-- Characters of which the name in a text can be made. -/
def StandsInName (c : Char) : Prop :=
  c ∉ ['#', ',', '=', '[', ']'] ∧ c.toNat ∉ whiteSpace

theorem isForbiddenInName_iff {c : Char} (h : c ≠ '#') :
    isForbiddenInName c = true ↔ ¬ StandsInName c := by
  simp [isForbiddenInName, StandsInName, isBlank_iff, h]
  tauto

theorem StandsInName.not_isForbiddenInName {c : Char} (h : StandsInName c) :
    isForbiddenInName c = false := by
  have hc : c ≠ '#' := by
    intro heq
    exact h.1 (by rw [heq]; exact List.mem_cons_self)
  rw [← Bool.not_eq_true, isForbiddenInName_iff hc]
  exact not_not_intro h

theorem separator_notMem_of_standsInName {name : List Char} (h : ∀ c ∈ name, StandsInName c) :
    '#' ∉ name := by
  intro hmem
  exact (h _ hmem).1 List.mem_cons_self

def levelNames : List String := ["TRACE", "DEBUG", "INFO", "WARN", "ERROR"]

theorem mem_levelNames_iff {text : String} :
    text ∈ levelNames ↔ ∃ level : Level, level.name = text := by
  constructor
  · intro h
    simp only [levelNames, List.mem_cons, List.not_mem_nil, or_false] at h
    obtain rfl | rfl | rfl | rfl | rfl := h
    exacts [⟨.trace, rfl⟩, ⟨.debug, rfl⟩, ⟨.info, rfl⟩, ⟨.warn, rfl⟩, ⟨.error, rfl⟩]
  · rintro ⟨level, rfl⟩
    cases level <;> simp [levelNames, Level.name]

theorem Level.parse_of_notMem_levelNames {text : String} (h : text ∉ levelNames) :
    Level.parse text = .error ⟨text⟩ :=
  Level.parse_of_forall_ne fun level hname => h (mem_levelNames_iff.mpr ⟨level, hname⟩)

namespace LevelOverride

/-! ## Readings -/

/-- What a text says, told from its form. -/
inductive Reading (text : String) : Except OverrideFault LevelOverride → Prop where
  | override {override : LevelOverride} :
      text = override.name ++ "#" ++ override.level.name →
      (∀ c ∈ override.name.toList, StandsInName c) →
      Reading text (.ok override)
  | noSeparator : '#' ∉ text.toList → Reading text (.error (.noSeparator text))
  | badLevel {name rest : String} :
      text = name ++ "#" ++ rest → '#' ∉ name.toList → rest ∉ levelNames →
      Reading text (.error (.badLevel ⟨rest⟩))
  | emptyName {level : String} :
      text = "#" ++ level → level ∈ levelNames →
      Reading text (.error .emptyName)
  | forbidden {name level : String} {before after : List Char} {c : Char} :
      text = name ++ "#" ++ level → '#' ∉ name.toList → level ∈ levelNames →
      name.toList = before ++ c :: after → (∀ c ∈ before, StandsInName c) → ¬ StandsInName c →
      Reading text (.error (.forbidden c name))

theorem splitAtSeparator?_of_notMem {text : List Char} (h : separator ∉ text) :
    splitAtSeparator? text = none := by
  cases hsplit : splitAtSeparator? text with
  | none => rfl
  | some parts =>
    obtain ⟨name, level⟩ := parts
    obtain ⟨rfl, -⟩ := eq_of_splitAtSeparator? hsplit
    exact absurd (List.mem_append_right name List.mem_cons_self) h

theorem notMem_of_splitAtSeparator? {text : List Char} (h : splitAtSeparator? text = none) :
    separator ∉ text := by
  intro hmem
  obtain ⟨name, level, rfl, hname⟩ := List.eq_append_cons_of_mem hmem
  rw [splitAtSeparator?_append hname] at h
  cases h

theorem splitAtSeparator?_toList {name : String} (h : '#' ∉ name.toList) (rest : String) :
    splitAtSeparator? (name ++ "#" ++ rest).toList = some (name.toList, rest.toList) := by
  have htext : (name ++ "#" ++ rest).toList = name.toList ++ separator :: rest.toList := by
    simp [String.toList_append, separator]
  rw [htext, splitAtSeparator?_append h]

theorem parse_of_badLevel {name rest : String} (h : '#' ∉ name.toList) {fault : LevelFault}
    (hrest : Level.parse rest = .error fault) :
    parse (name ++ "#" ++ rest) = .error (.badLevel fault) := by
  simp only [parse, splitAtSeparator?_toList h, String.ofList_toList, hrest]

theorem parse_of_level {name : String} (h : '#' ∉ name.toList) (level : Level) :
    parse (name ++ "#" ++ level.name) = forName name level := by
  simp only [parse, splitAtSeparator?_toList h, String.ofList_toList, Level.parse_eq_ok_iff.mpr rfl]

theorem forName_empty (level : Level) : forName "" level = .error .emptyName := rfl

theorem forName_of_find? {name : String} {c : Char}
    (h : name.toList.find? isForbiddenInName = some c) (level : Level) :
    forName name level = .error (.forbidden c name) := by
  have hbad : ¬ isTargetName name = true := by
    intro hfits
    have hany : name.toList.any isForbiddenInName = true :=
      List.any_eq_true.mpr ⟨c, List.mem_of_find?_eq_some h, List.find?_some h⟩
    simp [isTargetName, hany] at hfits
  rw [forName, dif_neg hbad, h]

theorem Reading.parse_eq {text : String} {answer : Except OverrideFault LevelOverride}
    (h : Reading text answer) : parse text = answer := by
  cases h with
  | override htext hname =>
    rw [htext, parse_of_level (separator_notMem_of_standsInName hname)]
    exact forName_eq_ok_iff.mpr ⟨rfl, rfl⟩
  | noSeparator hno => rw [parse, splitAtSeparator?_of_notMem hno]
  | badLevel htext hname hrest =>
    rw [htext, parse_of_badLevel hname (Level.parse_of_notMem_levelNames hrest)]
  | @emptyName level htext hlevel =>
    obtain ⟨level, rfl⟩ := mem_levelNames_iff.mp hlevel
    have hempty : '#' ∉ "".toList := by simp
    have hcut : "#" ++ level.name = "" ++ "#" ++ level.name := by rw [String.empty_append]
    rw [htext, hcut, parse_of_level hempty]
    exact forName_empty level
  | @forbidden name level before after c htext hsep hlevel hname hbefore hc =>
    obtain ⟨level, rfl⟩ := mem_levelNames_iff.mp hlevel
    rw [htext, parse_of_level hsep]
    refine forName_of_find? ?_ level
    have hne : c ≠ '#' := by
      rintro rfl
      exact hsep (by rw [hname]; simp)
    rw [List.find?_eq_some_iff_append]
    refine ⟨(isForbiddenInName_iff hne).mpr hc, before, after, hname, ?_⟩
    intro c hc
    simpa using (hbefore c hc).not_isForbiddenInName

theorem reading_forName {name : String} (hsep : '#' ∉ name.toList) (level : Level) :
    Reading (name ++ "#" ++ level.name) (forName name level) := by
  have hlevel : level.name ∈ levelNames := mem_levelNames_iff.mpr ⟨level, rfl⟩
  have hstands : ∀ c ∈ name.toList, isForbiddenInName c = false → StandsInName c := by
    intro c hc hfits
    have hne : c ≠ '#' := by
      rintro rfl
      exact hsep hc
    rw [← Bool.not_eq_true, isForbiddenInName_iff hne] at hfits
    exact not_not.mp hfits
  cases hfind : name.toList.find? isForbiddenInName with
  | some c =>
    rw [forName_of_find? hfind]
    obtain ⟨hc, before, after, hname, hbefore⟩ := List.find?_eq_some_iff_append.mp hfind
    have hmem : c ∈ name.toList := by rw [hname]; simp
    refine .forbidden rfl hsep hlevel hname ?_ ?_
    · intro c hc
      exact hstands c (by rw [hname]; simp [hc]) (by simpa using hbefore c hc)
    · exact (isForbiddenInName_iff fun heq => hsep (heq ▸ hmem)).mp hc
  | none =>
    have hgood : ∀ c ∈ name.toList, isForbiddenInName c = false := by simpa using hfind
    by_cases hempty : name = ""
    · subst hempty
      exact .emptyName rfl hlevel
    · have hfits : isTargetName name = true := by
        simpa [isTargetName, hempty] using hgood
      rw [forName, dif_pos hfits]
      exact .override rfl fun c hc => hstands c hc (hgood c hc)

theorem reading_parse (text : String) : Reading text (parse text) := by
  cases hsplit : splitAtSeparator? text.toList with
  | none =>
    rw [parse, hsplit]
    exact .noSeparator (notMem_of_splitAtSeparator? hsplit)
  | some parts =>
    obtain ⟨name, rest⟩ := parts
    obtain ⟨htext, hname⟩ := eq_of_splitAtSeparator? hsplit
    have heq : text = String.ofList name ++ "#" ++ String.ofList rest := by
      apply String.toList_inj.mp
      simp [htext, String.toList_append, separator]
    have hsep : '#' ∉ (String.ofList name).toList := by rwa [String.toList_ofList]
    rw [heq]
    by_cases hlevel : String.ofList rest ∈ levelNames
    · obtain ⟨level, hlevel⟩ := mem_levelNames_iff.mp hlevel
      rw [← hlevel, parse_of_level hsep]
      exact reading_forName hsep level
    · rw [parse_of_badLevel hsep (Level.parse_of_notMem_levelNames hlevel)]
      exact .badLevel rfl hsep hlevel

theorem parse_eq_iff_reading {text : String} {answer : Except OverrideFault LevelOverride} :
    parse text = answer ↔ Reading text answer := by
  constructor
  · rintro rfl
    exact reading_parse text
  · exact Reading.parse_eq

/-- The texts of overrides. -/
theorem exists_parse_iff {text : String} :
    (∃ override, parse text = .ok override) ↔
      ∃ name level, text = name ++ "#" ++ level ∧ level ∈ levelNames ∧
        name ≠ "" ∧ ∀ c ∈ name.toList, StandsInName c := by
  constructor
  · rintro ⟨override, hparse⟩
    cases parse_eq_iff_reading.mp hparse with
    | override htext hname =>
      refine ⟨override.name, override.level.name, htext, mem_levelNames_iff.mpr ⟨_, rfl⟩, ?_, hname⟩
      intro hempty
      have hfits := override.name_fits
      simp [isTargetName, hempty] at hfits
  · rintro ⟨name, level, htext, hlevel, hempty, hname⟩
    obtain ⟨level, rfl⟩ := mem_levelNames_iff.mp hlevel
    have hfits : isTargetName name = true := by
      simpa [isTargetName, hempty] using fun c hc => (hname c hc).not_isForbiddenInName
    exact ⟨⟨name, level, hfits⟩, parse_eq_iff_reading.mpr (.override htext hname)⟩

end LevelOverride

/-- A text has one reading, which is what comes of parsing it. It is an override exactly if it is a
name and a level around a separator, the name not empty and of characters that can stand in it; and
the override is then written as the text again. -/
theorem override_parsed_by_grammar (text : String) :
    (∀ answer, LevelOverride.parse text = answer ↔ LevelOverride.Reading text answer) ∧
    ((∃ override, LevelOverride.parse text = .ok override) ↔
      ∃ name level, text = name ++ "#" ++ level ∧ level ∈ levelNames ∧
        name ≠ "" ∧ ∀ c ∈ name.toList, StandsInName c) ∧
    ∀ override, LevelOverride.parse text = .ok override → override.text = text := by
  refine ⟨fun _ => LevelOverride.parse_eq_iff_reading, LevelOverride.exists_parse_iff, ?_⟩
  intro override h
  exact (LevelOverride.of_parse h).2

/-- The level is looked at first: the empty name goes unmentioned. -/
example : LevelOverride.parse "#a b#INFO" = .error (.badLevel ⟨"a b#INFO"⟩) := rfl

end ShardedLines
