import ShardedLines.Proofs.Logging.ReadBack

/-!
Two ways to logging options.

Overrides are given as texts, one call after the other or as a list in JSON. Either way they are taken
in turn, up to the first text that is no override (`parsedInTurn`), so both ways come to the same
options or to the same fault (`options_built_alike`).
-/

namespace ShardedLines

namespace LevelOverride

/-- What comes of texts that are taken for overrides in turn: all of the overrides, or the fault of
the first text that is none. -/
inductive ParsedInTurn (texts : List String) : Except OverrideFault (List LevelOverride) → Prop where
  | all {overrides : List LevelOverride} :
      List.Forall₂ (fun text override => parse text = .ok override) texts overrides →
      ParsedInTurn texts (.ok overrides)
  | stopped {good rest : List String} {bad : String} {fault : OverrideFault} :
      texts = good ++ bad :: rest → (∀ text ∈ good, ∃ override, parse text = .ok override) →
      parse bad = .error fault → ParsedInTurn texts (.error fault)

theorem parsedInTurn (texts : List String) : ParsedInTurn texts (texts.mapM parse) := by
  induction texts with
  | nil => exact .all .nil
  | cons text texts ih =>
    rw [List.mapM_cons]
    cases hfirst : parse text with
    | error fault => exact .stopped (List.nil_append _).symm (by simp) hfirst
    | ok override =>
      generalize texts.mapM parse = answer at ih
      cases ih with
      | all hall => exact .all (.cons hfirst hall)
      | stopped hsplit hgood hbad =>
        have hmore := List.forall_mem_cons.mpr ⟨⟨override, hfirst⟩, hgood⟩
        exact .stopped (congrArg (text :: ·) hsplit) hmore hbad

theorem noSeparator_of_parsed {texts : List String} {overrides : List LevelOverride}
    (h : List.Forall₂ (fun text override => parse text = .ok override) texts overrides) :
    ∀ override ∈ overrides, separator ∉ override.name.toList := by
  induction h with
  | nil => simp
  | cons hparse _ ih => exact List.forall_mem_cons.mpr ⟨(of_parse hparse).1, ih⟩

/-- A reader of JSON goes through the texts in the same turn. -/
theorem mapM_ofText (texts : List String) :
    texts.mapM ofText = match texts.mapM parse with
      | .ok overrides => .ok overrides
      | .error fault => .error (.rejected (some fault.message)) := by
  induction texts with
  | nil => rfl
  | cons text texts ih =>
    rw [List.mapM_cons, List.mapM_cons, ih, ofText]
    cases parse text with
    | error fault => rfl
    | ok override => cases texts.mapM parse <;> rfl

end LevelOverride

namespace LoggingOptions

/-- Adding overrides by their texts goes through the texts in turn, too. -/
theorem foldlM_withOverride (options : LoggingOptions) (texts : List String) :
    texts.foldlM withOverride options = (texts.mapM LevelOverride.parse).map fun overrides =>
      { options with overrides := options.overrides ++ overrides } := by
  induction texts generalizing options with
  | nil =>
    change Except.ok options = Except.ok { options with overrides := options.overrides ++ [] }
    rw [List.append_nil]
  | cons text texts ih =>
    rw [List.foldlM_cons, List.mapM_cons, withOverride]
    cases LevelOverride.parse text with
    | error fault => rfl
    | ok override =>
      refine (ih _).trans ?_
      cases texts.mapM LevelOverride.parse with
      | error fault => rfl
      | ok overrides =>
        change Except.ok { options with overrides := options.overrides ++ [override] ++ overrides } = _
        rw [List.append_assoc]
        rfl

/-- Options whose overrides come from texts read back from their own text. -/
theorem readBack_of_parsed {options : LoggingOptions} {texts : List String}
    (h : List.Forall₂ (fun text override => LevelOverride.parse text = .ok override) texts
      options.overrides) :
    ofJson (String.ofList options.jsonText) = .ok options := by
  rw [Reader.ofJson_jsonText, LevelOverride.mapM_reread (LevelOverride.noSeparator_of_parsed h)]
  rfl

/-- What the two ways answer, for the same level and the same texts: options that are equal and read
back from their own text, or a fault of the first text that is no override, in the same words. -/
inductive BuiltAlike (level : Level) (texts : List String) :
    Except OverrideFault LoggingOptions → Except ReadFault LoggingOptions → Prop where
  | both {options : LoggingOptions} : options.defaultLevel = level →
      List.Forall₂ (fun text override => LevelOverride.parse text = .ok override) texts
        options.overrides →
      ofJson (String.ofList options.jsonText) = .ok options →
      BuiltAlike level texts (.ok options) (.ok options)
  | neither {good rest : List String} {bad : String} {fault : OverrideFault} :
      texts = good ++ bad :: rest →
      (∀ text ∈ good, ∃ override, LevelOverride.parse text = .ok override) →
      LevelOverride.parse bad = .error fault →
      BuiltAlike level texts (.error fault) (.error (.rejected (some fault.message)))

end LoggingOptions

/-- Options with a level and overrides that are added one by one by their texts, and the JSON object
that holds the level and the list of these texts, come to the same. The object may be written in any
way, in compact form or with blanks and other escapes, and its members may stand in either order. -/
theorem options_built_alike (level : Level) (texts : List String) :
    let built := texts.foldlM LoggingOptions.withOverride (LoggingOptions.new level)
    let compact := Json.objectText [("default_level", Json.quoted level.name),
      ("overrides", Json.arrayText (texts.map Json.quoted))]
    LoggingOptions.BuiltAlike level texts built (LoggingOptions.ofJson (String.ofList compact)) ∧
    ∀ members text before after, LoggingOptions.MembersOf level texts members →
      Json.ObjectText Json.Quotes members text → Json.Blank before → Json.Blank after →
      LoggingOptions.BuiltAlike level texts built
        (LoggingOptions.ofJson (String.ofList (before ++ (text ++ after)))) := by
  intro built compact
  have alike : LoggingOptions.BuiltAlike level texts built
      ((texts.mapM LevelOverride.ofText).map fun overrides =>
        { defaultLevel := level, overrides }) := by
    have hturn := LevelOverride.parsedInTurn texts
    simp only [built, LoggingOptions.foldlM_withOverride, LevelOverride.mapM_ofText]
    generalize texts.mapM LevelOverride.parse = answer at hturn
    cases hturn with
    | all hall => exact .both rfl hall (LoggingOptions.readBack_of_parsed hall)
    | stopped hsplit hgood hbad => exact .neither hsplit hgood hbad
  have hany : ∀ members text before after, LoggingOptions.MembersOf level texts members →
      Json.ObjectText Json.Quotes members text → Json.Blank before → Json.Blank after →
      LoggingOptions.BuiltAlike level texts built
        (LoggingOptions.ofJson (String.ofList (before ++ (text ++ after)))) := by
    intro members text before after hmembers object hb ha
    rw [Reader.ofJson_of_members hmembers object hb ha]
    exact alike
  refine ⟨?_, hany⟩
  have hitems : List.Forall₂ Json.Quotes texts (texts.map Json.quoted) := by
    rw [List.forall₂_map_right_iff, List.forall₂_same]
    exact fun text _ => Json.quotes_quoted text
  have h := hany _ compact [] [] ⟨_, _, _, .inl rfl, Json.quotes_quoted _, hitems,
    Json.listText_arrayText _⟩ (Json.objectText_objectText _) .nil .nil
  rwa [List.nil_append, List.append_nil] at h

/-- Three texts, of which the second is no override, in an object with blanks and with its level last,
of which a letter is written by its number. -/
theorem options_built_alike_spaced :
    let texts := ["a#INFO", "b", "c#"]
    let text :=
      "\x7b\"overrides\": [\"a#INFO\",\"b\" ,\"c#\"],\"default_level\":\"W\\u0041RN\"\x7d".toList
    let built := texts.foldlM LoggingOptions.withOverride (LoggingOptions.new .warn)
    built = .error (.noSeparator "b") ∧
      LoggingOptions.BuiltAlike .warn texts built
        (LoggingOptions.ofJson (String.ofList ([' '] ++ (text ++ ['\n'])))) := by
  intro texts text built
  have hblank : Json.Blank [' '] := by simp [Json.Blank, Reader.isJsonBlank]
  have hlevel : Json.Quotes Level.warn.name "\"W\\u0041RN\"".toList := by
    have hbody : Json.Spells ['W', 'A', 'R', 'N']
        (['W'] ++ (('\\' :: 'u' :: ['0', '0', '4', '1']) ++ (['R'] ++ (['N'] ++ [])))) := by
      refine .cons (.plain ?_ ?_ ?_) (.cons (.unit rfl) (.cons (.plain ?_ ?_ ?_)
        (.cons (.plain ?_ ?_ ?_) .nil))) <;> decide
    exact ⟨_, hbody, rfl⟩
  have hitems : List.Forall₂ Json.Quotes texts (texts.map Json.quoted) :=
    .cons (Json.quotes_quoted _) (.cons (Json.quotes_quoted _) (.cons (Json.quotes_quoted _) .nil))
  have hlist : Json.ListText (texts.map Json.quoted) "[\"a#INFO\",\"b\" ,\"c#\"]".toList :=
    ⟨_, .items .nil (.next .nil .nil (.next hblank .nil (.done .nil))), rfl⟩
  have hobject : Json.ObjectText Json.Quotes [("overrides", "[\"a#INFO\",\"b\" ,\"c#\"]".toList),
      ("default_level", "\"W\\u0041RN\"".toList)]
      "\x7b\"overrides\": [\"a#INFO\",\"b\" ,\"c#\"],\"default_level\":\"W\\u0041RN\"\x7d".toList :=
    ⟨_, _, .cons (.mk (Json.quotes_quoted _) .nil hblank)
        (.cons (Json.memberText_memberText _ _) .nil),
      .items .nil (.next .nil .nil (.done .nil)), by decide⟩
  have h := (options_built_alike .warn texts).2 _ text [' '] ['\n']
    ⟨_, _, _, .inr rfl, hlevel, hitems, hlist⟩ hobject hblank
    (by simp [Json.Blank, Reader.isJsonBlank])
  exact ⟨rfl, h⟩

end ShardedLines
