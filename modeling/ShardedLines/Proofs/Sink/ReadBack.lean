import ShardedLines.Proofs.Json.Keeping
import ShardedLines.Sink.Options

/-!
Reading sink options back.

An object holds some options if each of its known members, at most one of a name, writes what the
options have in that field, and each field without a member has its default (`SinkOptions.HeldBy`).
The draft that is read then has the fields of the members read so far (`draftOf`), and at the end it
is complete.
-/

namespace ShardedLines

open Json (Quotes ObjectText IsJson Blank)

/-! ## Fields -/

/-- The fields of sink options. -/
inductive SinkField where
  | destination
  | sharded
  | numShards
  | header
  | footer
  | trailingNewlines
  | shardTemplate
  deriving DecidableEq

namespace SinkField

def all : List SinkField :=
  [destination, sharded, numShards, header, footer, trailingNewlines, shardTemplate]

/-- The name in an object. -/
def name : SinkField → String
  | destination => "destination"
  | sharded => "sharded"
  | numShards => "num_shards"
  | header => "header"
  | footer => "footer"
  | trailingNewlines => "append_trailing_newlines"
  | shardTemplate => "shard_template"

def ofName? (name : String) : Option SinkField := all.find? fun field => field.name == name

theorem mem_all (field : SinkField) : field ∈ all := by
  cases field <;> decide

theorem name_injective : Function.Injective name := by
  intro first second h
  cases first <;> cases second <;> first | rfl | exact absurd h (by decide)

theorem ofName?_name (field : SinkField) : ofName? field.name = some field := by
  cases field <;> decide

theorem eq_of_ofName? {name : String} {field : SinkField} (h : ofName? name = some field) :
    name = field.name := by
  rw [ofName?] at h
  have hfound := List.find?_some h
  exact (eq_of_beq hfound).symm

theorem ofName?_eq_none {name : String} (h : ∀ field : SinkField, name ≠ field.name) :
    ofName? name = none := by
  rw [ofName?, List.find?_eq_none]
  intro field _ heq
  exact h field (eq_of_beq heq).symm

/-- The text of a value that may be missing. -/
def OptionText (value? : Option String) (text : List Char) : Prop :=
  match value? with
  | none => text = "null".toList
  | some s => Quotes s text

/-- No shard count is also written `"auto"`, in any mixture of cases. -/
def CountText (count? : Option Nat) (text : List Char) : Prop :=
  match count? with
  | none => text = "null".toList ∨ ∃ s, asciiLower s = "auto".toList ∧ Quotes s text
  | some n => text = Json.natText n

/-- The text writes what the options have in the field. -/
def Writes (options : SinkOptions) (text : List Char) : SinkField → Prop
  | destination => Quotes options.destination text
  | sharded => text = Json.boolText options.sharded
  | numShards => CountText options.numShards? text
  | header => OptionText options.header? text
  | footer => OptionText options.footer? text
  | trailingNewlines => text = Json.boolText options.trailingNewlines
  | shardTemplate => OptionText options.shardTemplate? text

/-- The options have the default in the field. -/
def IsDefault (options : SinkOptions) : SinkField → Prop
  | destination => options.destination = ""
  | sharded => options.sharded = false
  | numShards => options.numShards? = none
  | header => options.header? = none
  | footer => options.footer? = none
  | trailingNewlines => options.trailingNewlines = true
  | shardTemplate => options.shardTemplate? = none

end SinkField

/-- The members of an object hold the options: no field twice, none with another value, none missing
unless it has its default, and unknown members as they like. -/
structure SinkOptions.HeldBy (options : SinkOptions) (members : List (String × List Char)) : Prop where
  once : ∀ field : SinkField, (members.map Prod.fst).count field.name ≤ 1
  written : ∀ (field : SinkField) text, (field.name, text) ∈ members → field.Writes options text
  missing : ∀ field : SinkField, field.name ∉ members.map Prod.fst → field.IsDefault options
  unknown : ∀ member ∈ members, (∀ field : SinkField, member.1 ≠ field.name) → IsJson member.2

/-! ## Drafts -/

namespace SinkField

open Reader (OptionsDraft)

/-- Whether the field has been read. -/
def isRead (draft : OptionsDraft) : SinkField → Bool
  | destination => draft.destination?.isSome
  | sharded => draft.sharded?.isSome
  | numShards => draft.numShards?.isSome
  | header => draft.header?.isSome
  | footer => draft.footer?.isSome
  | trailingNewlines => draft.trailingNewlines?.isSome
  | shardTemplate => draft.shardTemplate?.isSome

/-- The draft once the field has been read as the options have it. -/
def put (options : SinkOptions) (draft : OptionsDraft) : SinkField → OptionsDraft
  | destination => { draft with destination? := some options.destination }
  | sharded => { draft with sharded? := some options.sharded }
  | numShards => { draft with numShards? := some options.numShards? }
  | header => { draft with header? := some options.header? }
  | footer => { draft with footer? := some options.footer? }
  | trailingNewlines => { draft with trailingNewlines? := some options.trailingNewlines }
  | shardTemplate => { draft with shardTemplate? := some options.shardTemplate? }

/-- The draft once some fields have been read as the options have them. -/
def draftOf (options : SinkOptions) (seen : SinkField → Bool) : OptionsDraft where
  destination? := if seen destination then some options.destination else none
  sharded? := if seen sharded then some options.sharded else none
  numShards? := if seen numShards then some options.numShards? else none
  header? := if seen header then some options.header? else none
  footer? := if seen footer then some options.footer? else none
  trailingNewlines? := if seen trailingNewlines then some options.trailingNewlines else none
  shardTemplate? := if seen shardTemplate then some options.shardTemplate? else none

variable {options : SinkOptions} {seen : SinkField → Bool}

theorem isRead_draftOf (field : SinkField) : field.isRead (draftOf options seen) = seen field := by
  cases field <;> simp only [isRead, draftOf] <;> split <;> simp_all

theorem put_draftOf (field : SinkField) : field.put options (draftOf options seen) =
    draftOf options fun other => other == field || seen other := by
  cases field <;> rfl

theorem getD_read {α : Type} {read : Bool} {a default : α} (h : read = false → a = default) :
    (if read then some a else none : Option α).getD default = a := by
  cases read with
  | true => rfl
  | false => exact (h rfl).symm

theorem join_read {α : Type} {read : Bool} {a? : Option α} (h : read = false → a? = none) :
    (if read then some a? else none : Option (Option α)).join = a? := by
  cases read with
  | true => rfl
  | false => exact (h rfl).symm

/-- Fields that have not been read have their defaults, so the draft is complete. -/
theorem options_draftOf (h : ∀ field, seen field = false → field.IsDefault options) :
    (draftOf options seen).options = options := by
  simp only [OptionsDraft.options, draftOf, getD_read (h destination), getD_read (h sharded),
    join_read (h numShards), join_read (h header), join_read (h footer),
    getD_read (h trailingNewlines), join_read (h shardTemplate)]

end SinkField

/-! ## Reading members -/

namespace Reader

theorem reads_optionText {value? : Option String} {text : List Char}
    (h : SinkField.OptionText value? text) : Reads (option string) text (.ok value?) := by
  cases value? with
  | none =>
    obtain rfl : text = "null".toList := h
    exact reads_option_none string
  | some s => exact reads_option_string h

/-- A shard count is kept as a value first, and then understood. -/
theorem reads_shardCount_of_value {text : List Char} {json? : Except ReadFault Json}
    (h : Reads (value keptDepth) text json?) : Reads shardCount text (json? >>= shardCountOf) := by
  intro before hb rest ends
  rw [shardCount, bind_apply, h before hb rest ends]
  cases json? with
  | error fault => rfl
  | ok json =>
    change _ = (shardCountOf json).map (·, rest)
    simp only [Except.map]
    cases shardCountOf json <;> rfl

/-- A shard count is read back if it is a number of 64 bits. -/
theorem reads_shardCount {count? : Option Nat} (bounded : ∀ n ∈ count?, n < UInt64.size)
    {text : List Char} (h : SinkField.CountText count? text) :
    Reads shardCount text (.ok count?) := by
  cases count? with
  | none =>
    rcases h with rfl | ⟨s, hs, hquotes⟩
    · exact reads_shardCount_of_value (reads_value (fun _ => reads_valueWith_null) keptDepth)
    · have hread := reads_shardCount_of_value
        (reads_value (fun _ => reads_valueWith_quotes hquotes) keptDepth)
      have hcount : shardCountOf (.string s) = .ok none := by
        rw [shardCountOf, hs, beq_self_eq_true, if_pos rfl]
      exact hcount ▸ hread
  | some n =>
    obtain rfl : text = Json.natText n := h
    have hvalue := Json.value?_ofNat (bounded n rfl)
    have hread := reads_shardCount_of_value (reads_value (fun _ =>
      reads_valueWith_number (Json.numeralText_natText n)) keptDepth)
    rw [hvalue] at hread
    have hcount : shardCountOf (.number (.ofNat n)) = .ok (some n) := by
      rw [shardCountOf, hvalue]
    exact hcount ▸ hread

/-- A field reads as the options have it, unless it has been read before. -/
theorem readsMember_field_of_writes {options : SinkOptions}
    (bounded : ∀ n ∈ options.numShards?, n < UInt64.size) {field : SinkField} {text : List Char}
    (h : field.Writes options text) (draft : OptionsDraft) :
    ReadsMember (optionsMember draft field.name) text
      (if field.isRead draft then .error (.rejected none) else .ok (field.put options draft)) := by
  cases field with
  | destination =>
    exact readsMember_put (reads_string h) draft.destination?
      fun destination? => { draft with destination? }
  | sharded =>
    obtain rfl : text = Json.boolText options.sharded := h
    exact readsMember_put (reads_bool options.sharded) draft.sharded?
      fun sharded? => { draft with sharded? }
  | numShards =>
    exact readsMember_put (reads_shardCount bounded h) draft.numShards?
      fun numShards? => { draft with numShards? }
  | header =>
    exact readsMember_put (reads_optionText h) draft.header? fun header? => { draft with header? }
  | footer =>
    exact readsMember_put (reads_optionText h) draft.footer? fun footer? => { draft with footer? }
  | trailingNewlines =>
    obtain rfl : text = Json.boolText options.trailingNewlines := h
    exact readsMember_put (reads_bool options.trailingNewlines) draft.trailingNewlines?
      fun trailingNewlines? => { draft with trailingNewlines? }
  | shardTemplate =>
    exact readsMember_put (reads_optionText h) draft.shardTemplate?
      fun shardTemplate? => { draft with shardTemplate? }

theorem optionsMember_of_unknown {name : String} (h : ∀ field : SinkField, name ≠ field.name)
    (draft : OptionsDraft) :
    optionsMember draft name = skipMember >>= fun _ => pure draft := by
  unfold optionsMember
  split
  · exact absurd rfl (h .destination)
  · exact absurd rfl (h .sharded)
  · exact absurd rfl (h .numShards)
  · exact absurd rfl (h .header)
  · exact absurd rfl (h .footer)
  · exact absurd rfl (h .trailingNewlines)
  · exact absurd rfl (h .shardTemplate)
  · rfl

/-- The draft after a member of an object that holds some options. -/
def optionsNext (options : SinkOptions) (draft : OptionsDraft) (member : String × List Char) :
    Except ReadFault OptionsDraft :=
  match SinkField.ofName? member.1 with
  | none => .ok draft
  | some field =>
    if field.isRead draft then .error (.rejected none) else .ok (field.put options draft)

theorem readsMember_optionsMember {options : SinkOptions}
    (bounded : ∀ n ∈ options.numShards?, n < UInt64.size) {members : List (String × List Char)}
    (h : options.HeldBy members) {member : String × List Char} (hmem : member ∈ members)
    (draft : OptionsDraft) :
    ReadsMember (optionsMember draft member.1) member.2 (optionsNext options draft member) := by
  obtain ⟨name, text⟩ := member
  by_cases hknown : ∃ field : SinkField, name = field.name
  · obtain ⟨field, rfl⟩ := hknown
    rw [optionsNext, SinkField.ofName?_name]
    exact readsMember_field_of_writes bounded (h.written field text hmem) draft
  · have hunknown : ∀ field : SinkField, name ≠ field.name := fun field hn => hknown ⟨field, hn⟩
    rw [optionsNext, SinkField.ofName?_eq_none hunknown, optionsMember_of_unknown hunknown]
    exact (readsMember_skipMember (h.unknown (name, text) hmem hunknown)).map fun _ => draft

/-- Members that are read one after the other leave only those fields unread that have no member. -/
theorem foldlM_optionsNext {options : SinkOptions} {members : List (String × List Char)}
    (once : ∀ field : SinkField, (members.map Prod.fst).count field.name ≤ 1)
    (seen : SinkField → Bool)
    (fresh : ∀ field, seen field = true → field.name ∉ members.map Prod.fst) :
    ∃ next, members.foldlM (optionsNext options) (SinkField.draftOf options seen) =
        .ok (SinkField.draftOf options next) ∧
      ∀ field, next field = false → seen field = false ∧ field.name ∉ members.map Prod.fst := by
  induction members generalizing seen with
  | nil => exact ⟨seen, rfl, fun field hf => ⟨hf, List.not_mem_nil⟩⟩
  | cons member rest ih =>
    have honce : ∀ field : SinkField, (rest.map Prod.fst).count field.name ≤ 1 := fun field =>
      Nat.le_trans (List.count_le_count_cons ..) (once field)
    have hnot : ∀ field, seen field = true → field.name ∉ rest.map Prod.fst :=
      fun field hs hmem => fresh field hs (List.mem_cons_of_mem _ hmem)
    cases hname : SinkField.ofName? member.1 with
    | none =>
      have hstep : optionsNext options (SinkField.draftOf options seen) member =
          .ok (SinkField.draftOf options seen) := by
        rw [optionsNext, hname]
      obtain ⟨next, hread, hleft⟩ := ih honce seen hnot
      rw [List.foldlM_cons, hstep]
      refine ⟨next, hread, fun field hf => ⟨(hleft field hf).1, fun hmem => ?_⟩⟩
      rcases List.mem_cons.mp hmem with heq | hmem
      · rw [← heq, SinkField.ofName?_name] at hname
        cases hname
      · exact (hleft field hf).2 hmem
    | some found =>
      have hmember : member.1 = found.name := SinkField.eq_of_ofName? hname
      have hunread : seen found = false := by
        refine Bool.eq_false_iff.mpr fun hs => fresh found hs ?_
        rw [List.map_cons, hmember]
        exact List.mem_cons_self
      -- the field does not come again
      have hlast : found.name ∉ rest.map Prod.fst := by
        have hcount := once found
        rw [List.map_cons, hmember, List.count_cons_self] at hcount
        exact List.count_eq_zero.mp (by omega)
      let later (other : SinkField) : Bool := other == found || seen other
      have hlater : ∀ field, later field = true → field.name ∉ rest.map Prod.fst := by
        intro field hs
        rcases Bool.or_eq_true_iff.mp hs with heq | hs
        · rwa [eq_of_beq heq]
        · exact hnot field hs
      have hstep : optionsNext options (SinkField.draftOf options seen) member =
          .ok (SinkField.draftOf options later) := by
        simp only [optionsNext, hname, SinkField.isRead_draftOf, hunread, SinkField.put_draftOf]
        rfl
      obtain ⟨next, hread, hleft⟩ := ih honce later hlater
      rw [List.foldlM_cons, hstep]
      refine ⟨next, hread, fun field hf => ?_⟩
      obtain ⟨hunseen, hrest⟩ := hleft field hf
      obtain ⟨hne, hunseen⟩ := Bool.or_eq_false_iff.mp hunseen
      refine ⟨hunseen, fun hmem => ?_⟩
      rcases List.mem_cons.mp hmem with heq | hmem
      · obtain rfl := SinkField.name_injective (heq.trans hmember)
        rw [beq_self_eq_true] at hne
        cases hne
      · exact hrest hmem

theorem ofJson_of_heldBy {options : SinkOptions}
    (bounded : ∀ n ∈ options.numShards?, n < UInt64.size) {members : List (String × List Char)}
    (h : options.HeldBy members) {text before after : List Char}
    (object : ObjectText Quotes members text) (hb : Blank before) (ha : Blank after) :
    SinkOptions.ofJson (String.ofList (before ++ (text ++ after))) = .ok options := by
  obtain ⟨next, hread, hleft⟩ := foldlM_optionsNext h.once (fun _ => false) (by simp)
  have hdefault : ∀ field, next field = false → field.IsDefault options :=
    fun field hf => h.missing field (hleft field hf).2
  rw [SinkOptions.ofJson, sinkOptions, (reads_object object
    (fun member hm draft => readsMember_optionsMember bounded h hm draft) {} _
      OptionsDraft.options).run hb ha]
  have hstart : ({} : OptionsDraft) = SinkField.draftOf options fun _ => false := rfl
  rw [hstart, hread]
  exact congrArg Except.ok (SinkField.options_draftOf hdefault)

end Reader

/-! ## What reads back -/

/-- The members of the options' own text. -/
theorem SinkOptions.heldBy_jsonText (options : SinkOptions) : options.HeldBy [
    ("destination", Json.quoted options.destination),
    ("sharded", Json.boolText options.sharded),
    ("num_shards", Json.optionText Json.natText options.numShards?),
    ("header", Json.optionText Json.quoted options.header?),
    ("footer", Json.optionText Json.quoted options.footer?),
    ("append_trailing_newlines", Json.boolText options.trailingNewlines),
    ("shard_template", Json.optionText Json.quoted options.shardTemplate?)] := by
  have hnames : ∀ field : SinkField, field.name ∈ SinkField.all.map SinkField.name :=
    fun field => List.mem_map_of_mem field.mem_all
  have hoption : ∀ value?, SinkField.OptionText value? (Json.optionText Json.quoted value?) := by
    rintro (_ | s)
    · rfl
    · exact Json.quotes_quoted s
  have hcount : SinkField.CountText options.numShards?
      (Json.optionText Json.natText options.numShards?) := by
    cases options.numShards? with
    | none => exact .inl rfl
    | some n => rfl
  refine ⟨?_, ?_, ?_, ?_⟩
  · intro field
    change (SinkField.all.map SinkField.name).count field.name ≤ 1
    cases field <;> decide
  · intro field text hmem
    cases field with
    | destination =>
      obtain rfl : text = Json.quoted options.destination := by simpa [SinkField.name] using hmem
      exact Json.quotes_quoted options.destination
    | sharded => simpa [SinkField.name, SinkField.Writes] using hmem
    | numShards =>
      obtain rfl : text = Json.optionText Json.natText options.numShards? := by
        simpa [SinkField.name] using hmem
      exact hcount
    | header =>
      obtain rfl : text = Json.optionText Json.quoted options.header? := by
        simpa [SinkField.name] using hmem
      exact hoption options.header?
    | footer =>
      obtain rfl : text = Json.optionText Json.quoted options.footer? := by
        simpa [SinkField.name] using hmem
      exact hoption options.footer?
    | trailingNewlines => simpa [SinkField.name, SinkField.Writes] using hmem
    | shardTemplate =>
      obtain rfl : text = Json.optionText Json.quoted options.shardTemplate? := by
        simpa [SinkField.name] using hmem
      exact hoption options.shardTemplate?
  · intro field hmissing
    exact absurd (hnames field) hmissing
  · intro member hmem hunknown
    have hname : member.1 ∈ SinkField.all.map SinkField.name := List.mem_map_of_mem hmem
    obtain ⟨field, _, heq⟩ := List.mem_map.mp hname
    exact absurd heq.symm (hunknown field)

/-- Options read back from their own text, and from every object that holds them: its members may
stand in any order and be written in any way, those with the default may be left out, and others with
unknown names may stand between them. Where there is no shard count, it may be written `"auto"`. -/
theorem sinkOptions_readBack (options : SinkOptions)
    (bounded : ∀ n ∈ options.numShards?, n < UInt64.size) :
    SinkOptions.ofJson (String.ofList options.jsonText) = .ok options ∧
    ∀ members text before after, options.HeldBy members → ObjectText Quotes members text →
      Blank before → Blank after →
      SinkOptions.ofJson (String.ofList (before ++ (text ++ after))) = .ok options := by
  have hany : ∀ members text before after, options.HeldBy members → ObjectText Quotes members text →
      Blank before → Blank after →
      SinkOptions.ofJson (String.ofList (before ++ (text ++ after))) = .ok options :=
    fun _ _ _ _ h object hb ha => Reader.ofJson_of_heldBy bounded h object hb ha
  refine ⟨?_, hany⟩
  have h := hany _ options.jsonText [] [] options.heldBy_jsonText (Json.objectText_objectText _)
    .nil .nil
  rwa [List.nil_append, List.append_nil] at h

/-- An object with its members out of order, with blanks, with a shard count in words, a header that is
written by its code units, and with a member that means nothing to sinks; and the largest count. -/
theorem sinkOptions_readBack_reordered :
    let text := "\x7b\"more\" :\x7b\"x\":[-1.5E+3, null]\x7d,\"num_shards\":\"AUTO\",\"header\":\"\\uD83D\\ude00\" ,\"sharded\":true\x7d"
    let options : SinkOptions := { sharded := true, header? := some "😀" }
    let largest : SinkOptions := { numShards? := some 18446744073709551615 }
    SinkOptions.ofJson (String.ofList (['\t'] ++ (text.toList ++ ['\n']))) = .ok options ∧
      SinkOptions.ofJson (String.ofList largest.jsonText) = .ok largest := by
  intro text options largest
  have hblank : Blank [' '] := by simp [Blank, Reader.isJsonBlank]
  have hheader : Quotes "😀" "\"\\uD83D\\ude00\"".toList := by
    have hbody : Json.Spells ['😀']
        (('\\' :: 'u' :: ['D', '8', '3', 'D'] ++ '\\' :: 'u' :: ['d', 'e', '0', '0']) ++ []) :=
      .cons (.pair rfl rfl rfl rfl rfl) .nil
    exact ⟨_, hbody, rfl⟩
  have hnumber : IsJson "-1.5E+3".toList := by
    refine .number (n := ⟨true, ['1'], some ['5'], some (false, ['3'])⟩)
      ⟨?_, ?_, _, .plus (.inr rfl) ?_, rfl⟩
    · exact ⟨⟨by simp, List.forall_mem_singleton.mpr rfl⟩, by simp⟩
    · rintro digits hd
      obtain rfl := Option.some.inj hd
      exact ⟨by simp, List.forall_mem_singleton.mpr rfl⟩
    · exact ⟨by simp, List.forall_mem_singleton.mpr rfl⟩
  have hlist : IsJson "[-1.5E+3, null]".toList := by
    have hitems : Json.ListText ["-1.5E+3".toList, "null".toList] "[-1.5E+3, null]".toList :=
      ⟨_, .items .nil (.next .nil hblank (.done .nil)), by decide⟩
    exact .array hitems (List.forall_mem_cons.mpr ⟨hnumber, List.forall_mem_singleton.mpr .null⟩)
  have hmore : IsJson "\x7b\"x\":[-1.5E+3, null]\x7d".toList := by
    have hx : Json.IsQuoted ['"', 'x', '"'] :=
      ⟨['x'], .plain (by decide) (by decide) (by decide) .nil, rfl⟩
    have hinner : ObjectText (fun _ => Json.IsQuoted) [((), "[-1.5E+3, null]".toList)]
        "\x7b\"x\":[-1.5E+3, null]\x7d".toList :=
      ⟨_, _, .cons (.mk hx .nil .nil) .nil, .items .nil (.done .nil), by decide⟩
    exact .object hinner (List.forall_mem_singleton.mpr hlist)
  have hobject : ObjectText Quotes [("more", "\x7b\"x\":[-1.5E+3, null]\x7d".toList),
      ("num_shards", "\"AUTO\"".toList), ("header", "\"\\uD83D\\ude00\"".toList),
      ("sharded", "true".toList)] text.toList :=
    ⟨_, _, .cons (.mk (Json.quotes_quoted _) hblank .nil)
      (.cons (Json.memberText_memberText _ _) (.cons (Json.memberText_memberText _ _)
        (.cons (Json.memberText_memberText _ _) .nil))),
      .items .nil (.next .nil .nil (.next .nil .nil (.next hblank .nil (.done .nil)))), by decide⟩
  have hheld : options.HeldBy [("more", "\x7b\"x\":[-1.5E+3, null]\x7d".toList),
      ("num_shards", "\"AUTO\"".toList), ("header", "\"\\uD83D\\ude00\"".toList),
      ("sharded", "true".toList)] := by
    refine ⟨?_, ?_, ?_, ?_⟩
    · intro field
      change ["more", "num_shards", "header", "sharded"].count field.name ≤ 1
      cases field <;> decide
    · intro field text hmem
      cases field <;> simp [SinkField.name] at hmem <;> subst hmem
      · rfl
      · exact .inr ⟨"AUTO", by decide, Json.quotes_quoted "AUTO"⟩
      · exact hheader
    · intro field hmissing
      cases field <;> first | rfl | exact absurd (by decide) hmissing
    · intro member hmem hunknown
      rcases List.mem_cons.mp hmem with rfl | hmem
      · exact hmore
      · have hname : member.1 ∈ [SinkField.numShards, .header, .sharded].map SinkField.name :=
          List.mem_map_of_mem hmem
        obtain ⟨field, _, heq⟩ := List.mem_map.mp hname
        exact absurd heq.symm (hunknown field)
  exact ⟨(sinkOptions_readBack options (by simp [options])).2 _ _ ['\t'] ['\n'] hheld hobject
    (by simp [Blank, Reader.isJsonBlank]) (by simp [Blank, Reader.isJsonBlank]),
    (sinkOptions_readBack largest (by simp [largest, UInt64.size])).1⟩

end ShardedLines
