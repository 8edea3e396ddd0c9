import ShardedLines.Proofs.Json.ReadBack
import ShardedLines.Logging.Options

/-!
Reading overrides and logging options back from their own texts.

An override is written as its name, the separator and its level, and is read up to the first
separator. So it reads back exactly if its name holds no separator; otherwise the name is cut short,
and what follows the cut names no level. Names that come from a text hold none, names that are given
directly may. Options read back exactly if all their overrides do.
-/

namespace ShardedLines

/-! ## Levels -/

namespace Level

theorem ofName?_name (level : Level) : ofName? level.name = some level := by
  cases level <;> rfl

theorem parse_eq_ok_iff {text : String} {level : Level} :
    parse text = .ok level ↔ level.name = text := by
  constructor
  · intro h
    rw [parse] at h
    split at h
    next found hfound =>
      obtain rfl := Except.ok.inj h
      rw [ofName?] at hfound
      have hnamed := List.find?_some hfound
      exact eq_of_beq hnamed
    next => cases h
  · rintro rfl
    rw [parse, ofName?_name]

theorem separator_notMem_name (level : Level) :
    LevelOverride.separator ∉ level.name.toList := by
  cases level <;> decide

theorem parse_of_forall_ne {text : String} (h : ∀ level : Level, level.name ≠ text) :
    parse text = .error ⟨text⟩ := by
  cases hparse : parse text with
  | ok level => exact absurd (parse_eq_ok_iff.mp hparse) (h level)
  | error fault =>
    rw [parse] at hparse
    split at hparse
    · cases hparse
    · exact hparse.symm

/-- A text with a separator in it names no level. -/
theorem parse_of_separator_mem {text : String} (h : LevelOverride.separator ∈ text.toList) :
    parse text = .error ⟨text⟩ := by
  refine parse_of_forall_ne fun level hname => ?_
  rw [← hname] at h
  exact separator_notMem_name level h

end Level

/-! ## Overrides -/

namespace LevelOverride

theorem splitAtSeparator?_append {name : List Char} (h : separator ∉ name) (level : List Char) :
    splitAtSeparator? (name ++ separator :: level) = some (name, level) := by
  induction name with
  | nil => rfl
  | cons c name ih =>
    obtain ⟨hc, hname⟩ := List.ne_and_not_mem_of_not_mem_cons h
    rw [List.cons_append, splitAtSeparator?, if_neg (by simpa using Ne.symm hc), ih hname]
    rfl

theorem eq_of_splitAtSeparator? {text name level : List Char}
    (h : splitAtSeparator? text = some (name, level)) :
    text = name ++ separator :: level ∧ separator ∉ name := by
  induction text generalizing name with
  | nil => cases h
  | cons c text ih =>
    rw [splitAtSeparator?] at h
    split at h
    next hc =>
      obtain ⟨rfl, rfl⟩ := Prod.mk.inj (Option.some.inj h)
      exact ⟨by rw [eq_of_beq hc, List.nil_append], List.not_mem_nil⟩
    next hc =>
      obtain ⟨⟨rest, _⟩, hrest, heq⟩ := Option.map_eq_some_iff.mp h
      obtain ⟨rfl, rfl⟩ := Prod.mk.inj heq
      obtain ⟨rfl, hno⟩ := ih hrest
      refine ⟨rfl, List.not_mem_cons_of_ne_of_not_mem ?_ hno⟩
      intro heq
      exact hc (by rw [heq, beq_self_eq_true])

theorem forName_eq_ok_iff {name : String} {level : Level} {override : LevelOverride} :
    forName name level = .ok override ↔ override.name = name ∧ override.level = level := by
  constructor
  · intro h
    rw [forName] at h
    split at h
    · obtain rfl := Except.ok.inj h
      exact ⟨rfl, rfl⟩
    · split at h <;> cases h
  · rintro ⟨rfl, rfl⟩
    rw [forName, dif_pos override.name_fits]

theorem toList_text (override : LevelOverride) :
    override.text.toList = override.name.toList ++ separator :: override.level.name.toList := by
  simp [text, String.toList_append, Char.toString]

theorem parse_text {override : LevelOverride} (h : separator ∉ override.name.toList) :
    parse override.text = .ok override := by
  rw [parse, toList_text, splitAtSeparator?_append h]
  simp only [String.ofList_toList, Level.parse_eq_ok_iff.mpr rfl]
  exact forName_eq_ok_iff.mpr ⟨rfl, rfl⟩

/-- A name is cut at its first separator, and the rest of the text is taken for a level. -/
theorem parse_text_of_separator_mem {override : LevelOverride}
    (h : separator ∈ override.name.toList) :
    ∃ before after, override.name.toList = before ++ separator :: after ∧
      parse override.text = .error (.badLevel
        ⟨String.ofList (after ++ separator :: override.level.name.toList)⟩) := by
  obtain ⟨before, after, hname, hbefore⟩ := List.eq_append_cons_of_mem h
  refine ⟨before, after, hname, ?_⟩
  have hlevel : separator ∈
      (String.ofList (after ++ separator :: override.level.name.toList)).toList := by
    rw [String.toList_ofList]
    exact List.mem_append_right after List.mem_cons_self
  rw [parse, toList_text, hname, List.append_assoc, List.cons_append,
    splitAtSeparator?_append hbefore]
  simp only [Level.parse_of_separator_mem hlevel]

theorem parse_text_eq_ok_iff {override : LevelOverride} :
    parse override.text = .ok override ↔ separator ∉ override.name.toList := by
  constructor
  · intro h hmem
    obtain ⟨before, after, -, herror⟩ := parse_text_of_separator_mem hmem
    rw [herror] at h
    cases h
  · exact parse_text

/-- What is read from a text has a name without separator, and is written as that text. -/
theorem of_parse {text : String} {override : LevelOverride} (h : parse text = .ok override) :
    separator ∉ override.name.toList ∧ override.text = text := by
  rw [parse] at h
  split at h
  next => cases h
  next name level hsplit =>
    obtain ⟨htext, hname⟩ := eq_of_splitAtSeparator? hsplit
    split at h
    next => cases h
    next found hlevel =>
      obtain ⟨hn, rfl⟩ := forName_eq_ok_iff.mp h
      have hl : override.level.name.toList = level := by
        rw [Level.parse_eq_ok_iff.mp hlevel, String.toList_ofList]
      refine ⟨by rwa [hn, String.toList_ofList], String.toList_inj.mp ?_⟩
      rw [toList_text, hn, hl, String.toList_ofList, htext]

/-- What a reader of JSON makes of the text of an override. -/
def reread (override : LevelOverride) : Except ReadFault LevelOverride :=
  match parse override.text with
  | .ok override => .ok override
  | .error fault => .error (.rejected (some fault.message))

theorem mapM_reread {overrides : List LevelOverride}
    (h : ∀ override ∈ overrides, separator ∉ override.name.toList) :
    overrides.mapM reread = .ok overrides := by
  induction overrides with
  | nil => rfl
  | cons override overrides ih =>
    obtain ⟨hfirst, hrest⟩ := List.forall_mem_cons.mp h
    rw [List.mapM_cons, reread, parse_text hfirst, ih hrest]
    rfl

/-- The first override whose name holds a separator is the one that is refused. -/
theorem mapM_reread_of_separator_mem {overrides : List LevelOverride}
    (h : ¬ ∀ override ∈ overrides, separator ∉ override.name.toList) :
    ∃ override ∈ overrides, ∃ fault, parse override.text = .error fault ∧
      overrides.mapM reread = .error (.rejected (some fault.message)) := by
  induction overrides with
  | nil => exact absurd (fun _ hmem => absurd hmem List.not_mem_nil) h
  | cons override overrides ih =>
    by_cases hfirst : separator ∈ override.name.toList
    · obtain ⟨_, after, _, hparse⟩ := parse_text_of_separator_mem hfirst
      refine ⟨override, List.mem_cons_self, _, hparse, ?_⟩
      rw [List.mapM_cons, reread, hparse]
      rfl
    · have hrest : ¬ ∀ override ∈ overrides, separator ∉ override.name.toList :=
        fun hall => h (List.forall_mem_cons.mpr ⟨hfirst, hall⟩)
      obtain ⟨bad, hbad, fault, hparse, hmap⟩ := ih hrest
      refine ⟨bad, List.mem_cons_of_mem _ hbad, fault, hparse, ?_⟩
      rw [List.mapM_cons, reread, parse_text hfirst, hmap]
      rfl

end LevelOverride

/-! ## Options as JSON -/

/-- What a reader of JSON makes of a text that should be an override. -/
def LevelOverride.ofText (text : String) : Except ReadFault LevelOverride :=
  match parse text with
  | .ok override => .ok override
  | .error fault => .error (.rejected (some fault.message))

namespace LoggingOptions

/-- The members of an object are a level and overrides, in either order and written in any way. -/
def MembersOf (level : Level) (overrides : List String) (members : List (String × List Char)) : Prop :=
  ∃ levelText overridesText items,
    (members = [("default_level", levelText), ("overrides", overridesText)] ∨
      members = [("overrides", overridesText), ("default_level", levelText)]) ∧
    Json.Quotes level.name levelText ∧ List.Forall₂ Json.Quotes overrides items ∧
    Json.ListText items overridesText

end LoggingOptions

namespace Reader

theorem reads_level {level : Level} {text : List Char} (h : Json.Quotes level.name text) :
    Reads Reader.level text (.ok level) :=
  reads_variant (by simp only [Level.ofName?_name]) h

theorem reads_override {s : String} {text : List Char} (h : Json.Quotes s text) :
    Reads Reader.override text (LevelOverride.ofText s) := by
  intro before hb rest ends
  rw [Reader.override, bind_of_ok (reads_string h before hb rest ends), LevelOverride.ofText]
  cases LevelOverride.parse s <;> rfl

theorem reads_overrides {overrides : List String} {items : List (List Char)}
    (h : List.Forall₂ Json.Quotes overrides items) {text : List Char}
    (list : Json.ListText items text) :
    Reads (Reader.list Reader.override) text (overrides.mapM LevelOverride.ofText) :=
  reads_list list (h.imp fun _ _ h => ⟨(startsKey_quotes h).startsValue, reads_override h⟩)

/-- The draft after a member of the text of some options, where the overrides read as given. -/
def loggingNext (defaultLevel : Level) (overrides : Except ReadFault (List LevelOverride))
    (draft : LoggingDraft) (member : String × List Char) : Except ReadFault LoggingDraft :=
  if member.1 = "default_level" then
    (fieldAnswer draft.defaultLevel? (.ok defaultLevel)).map
      fun defaultLevel? => { draft with defaultLevel? }
  else (fieldAnswer draft.overrides? overrides).map fun overrides? => { draft with overrides? }

/-- Options read as their level, and as what is made of their overrides. -/
theorem ofJson_of_members {level : Level} {overrides : List String}
    {members : List (String × List Char)} (h : LoggingOptions.MembersOf level overrides members)
    {text before after : List Char} (object : Json.ObjectText Json.Quotes members text)
    (hb : Json.Blank before) (ha : Json.Blank after) :
    LoggingOptions.ofJson (String.ofList (before ++ (text ++ after))) =
      (overrides.mapM LevelOverride.ofText).map fun overrides =>
        { defaultLevel := level, overrides } := by
  obtain ⟨levelText, overridesText, items, horder, hlevel, hitems, hlist⟩ := h
  have hmembers : ∀ member ∈ members, ∀ draft, ReadsMember (loggingMember draft member.1) member.2
      (loggingNext level (overrides.mapM LevelOverride.ofText) draft member) := by
    intro member hmember draft
    have hcases : member = ("default_level", levelText) ∨ member = ("overrides", overridesText) := by
      rcases horder with rfl | rfl
      · simpa using hmember
      · simpa [or_comm] using hmember
    rcases hcases with rfl | rfl
    · exact (readsMember_field (reads_level hlevel) draft.defaultLevel?).map _
    · exact (readsMember_field (reads_overrides hitems hlist) draft.overrides?).map _
  rw [LoggingOptions.ofJson, loggingOptions,
    (reads_object object hmembers {} _ LoggingDraft.options).run hb ha]
  rcases horder with rfl | rfl
  · cases overrides.mapM LevelOverride.ofText <;> rfl
  · cases overrides.mapM LevelOverride.ofText <;> rfl

theorem members_of_jsonText (options : LoggingOptions) :
    LoggingOptions.MembersOf options.defaultLevel (options.overrides.map LevelOverride.text) [
      ("default_level", Json.quoted options.defaultLevel.name),
      ("overrides", Json.arrayText
        (options.overrides.map fun override => Json.quoted override.text))] := by
  refine ⟨_, _, _, .inl rfl, Json.quotes_quoted _, ?_, Json.listText_arrayText _⟩
  rw [List.forall₂_map_left_iff, List.forall₂_map_right_iff, List.forall₂_same]
  exact fun override _ => Json.quotes_quoted override.text

theorem ofJson_jsonText (options : LoggingOptions) :
    LoggingOptions.ofJson (String.ofList options.jsonText) =
      (options.overrides.mapM LevelOverride.reread).map fun overrides =>
        { options with overrides } := by
  have h := ofJson_of_members (members_of_jsonText options) (Json.objectText_objectText _)
    .nil .nil
  rw [List.append_nil, List.mapM_map] at h
  exact h

end Reader

/-! ## What reads back -/

/-- An override is what its name and level give, and reads back from its own text exactly if its
name holds no separator; what is read from a text always does. Options read back from their own
text exactly if all their overrides do, and are refused otherwise. -/
theorem overrides_readBack_iff (override : LevelOverride) (options : LoggingOptions) :
    (LevelOverride.forName override.name override.level = .ok override ∧
      (LevelOverride.parse override.text = .ok override ↔
        LevelOverride.separator ∉ override.name.toList) ∧
      (LevelOverride.separator ∈ override.name.toList →
        ∃ fault, LevelOverride.parse override.text = .error (.badLevel fault))) ∧
    (∀ text, LevelOverride.parse text = .ok override →
      override.text = text ∧ LevelOverride.parse override.text = .ok override) ∧
    (LoggingOptions.ofJson (String.ofList options.jsonText) = .ok options ↔
      ∀ override ∈ options.overrides, LevelOverride.separator ∉ override.name.toList) ∧
    ((∃ override ∈ options.overrides, LevelOverride.separator ∈ override.name.toList) →
      ∃ override ∈ options.overrides, ∃ fault,
        LevelOverride.parse override.text = .error fault ∧
        LoggingOptions.ofJson (String.ofList options.jsonText) =
          .error (.rejected (some fault.message))) := by
  have hrefused : (¬ ∀ override ∈ options.overrides,
      LevelOverride.separator ∉ override.name.toList) →
      ∃ override ∈ options.overrides, ∃ fault,
        LevelOverride.parse override.text = .error fault ∧
        LoggingOptions.ofJson (String.ofList options.jsonText) =
          .error (.rejected (some fault.message)) := by
    intro h
    obtain ⟨override, hmem, fault, hparse, hmap⟩ := LevelOverride.mapM_reread_of_separator_mem h
    refine ⟨override, hmem, fault, hparse, ?_⟩
    rw [Reader.ofJson_jsonText, hmap]
    rfl
  refine ⟨⟨LevelOverride.forName_eq_ok_iff.mpr ⟨rfl, rfl⟩, LevelOverride.parse_text_eq_ok_iff, ?_⟩,
    ?_, ⟨?_, ?_⟩, ?_⟩
  · intro h
    obtain ⟨_, _, _, herror⟩ := LevelOverride.parse_text_of_separator_mem h
    exact ⟨_, herror⟩
  · intro text h
    obtain ⟨hname, htext⟩ := LevelOverride.of_parse h
    exact ⟨htext, LevelOverride.parse_text hname⟩
  · intro hok
    refine Classical.byContradiction fun h => ?_
    obtain ⟨_, _, _, _, herror⟩ := hrefused h
    rw [herror] at hok
    cases hok
  · intro h
    rw [Reader.ofJson_jsonText, LevelOverride.mapM_reread h]
    rfl
  · rintro ⟨override, hmem, hsep⟩
    exact hrefused fun h => h override hmem hsep

/-- The name `a#b` is accepted, and neither its override nor options that hold it read back. -/
theorem not_readBack_of_separator_in_name :
    ∃ override : LevelOverride, LevelOverride.forName "a#b" .info = .ok override ∧
      override.text = "a#b#INFO" ∧
      LevelOverride.parse override.text = .error (.badLevel ⟨"b#INFO"⟩) ∧
      LoggingOptions.ofJson (String.ofList (LoggingOptions.jsonText { overrides := [override] })) ≠
        .ok { overrides := [override] } := by
  have hparse : LevelOverride.parse "a#b#INFO" = .error (.badLevel ⟨"b#INFO"⟩) := rfl
  refine ⟨⟨"a#b", .info, by decide⟩, LevelOverride.forName_eq_ok_iff.mpr ⟨rfl, rfl⟩, by decide,
    hparse, ?_⟩
  rw [Reader.ofJson_jsonText, List.mapM_cons, LevelOverride.reread]
  intro h
  cases h

end ShardedLines
