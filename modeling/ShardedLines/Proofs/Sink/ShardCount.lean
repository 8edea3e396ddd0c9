import ShardedLines.Proofs.Sink.Building
import ShardedLines.Proofs.Sink.ReadBack

/-!
Shard counts in sink options.

A shard count is read like any other value, and then understood or refused. Of all JSON values, only
those of `SinkField.CountText` are understood, and a number only if it has no more than 64 bits
(`countText_of_reads`). Options with zero shards are read, but describe no sink.
-/

namespace ShardedLines

open Json (Quotes ObjectText IsJson NumeralText Blank)

/-! ## Numbers without sign, fraction and exponent -/

namespace Numeral

theorem double_ne_integer {double? : Option Float} {n : Int} :
    double?.map Number.double ≠ some (.integer n) := by
  cases double? <;> simp

/-- A numeral of an integer that is not negative is made of digits alone. -/
theorem of_value?_eq_natCast {numeral : Numeral} {n : Nat}
    (h : numeral.value? = some (.integer n)) :
    numeral.negative = false ∧ numeral.fraction? = none ∧ numeral.exponent? = none ∧
      natValue numeral.whole = n ∧ n < UInt64.size := by
  simp only [value?] at h
  split at h
  · rename_i hparts
    simp only [Bool.and_eq_true, Option.isNone_iff_eq_none] at hparts
    obtain ⟨hfraction, hexponent⟩ := hparts
    split at h
    · rename_i hsize
      simp only [Bool.and_eq_true, Bool.not_eq_true', decide_eq_true_eq] at hsize
      have hvalue : ((natValue numeral.whole : Nat) : Int) = n :=
        Number.integer.inj (Option.some.inj h)
      have hnat : natValue numeral.whole = n := Int.ofNat.inj hvalue
      exact ⟨hsize.1, hfraction, hexponent, hnat, hnat ▸ hsize.2⟩
    · split at h
      · rename_i hsize
        simp only [Bool.and_eq_true, decide_eq_true_eq] at hsize
        have hvalue : -((natValue numeral.whole : Nat) : Int) = n :=
          Number.integer.inj (Option.some.inj h)
        omega
      · exact absurd h double_ne_integer
  · exact absurd h double_ne_integer

end Numeral

theorem Json.NumeralText.eq_natText {numeral : Numeral} {text : List Char}
    (h : NumeralText numeral text) (hnegative : numeral.negative = false)
    (hfraction : numeral.fraction? = none) (hexponent : numeral.exponent? = none) :
    text = Json.natText (Numeral.natValue numeral.whole) := by
  obtain ⟨exponent, hexp, rfl⟩ := h.text_eq
  rw [hexponent] at hexp
  cases hexp
  rw [hnegative, hfraction]
  change numeral.whole ++ [] = _
  rw [List.append_nil]
  exact h.whole.eq_toDigits

namespace Reader

theorem shardCountOf_number_eq_ok {numeral : Numeral} {count? : Option Nat}
    (h : shardCountOf (.number numeral) = .ok count?) :
    ∃ n : Nat, numeral.value? = some (.integer n) ∧ count? = some n := by
  simp only [shardCountOf] at h
  split at h
  · rename_i count hvalue
    exact ⟨count, hvalue, (Except.ok.inj h).symm⟩
  · cases h

theorem shardCountOf_string_eq_ok {s : String} {count? : Option Nat}
    (h : shardCountOf (.string s) = .ok count?) : asciiLower s = "auto".toList ∧ count? = none := by
  simp only [shardCountOf] at h
  split at h
  · rename_i hs
    exact ⟨eq_of_beq hs, (Except.ok.inj h).symm⟩
  · cases h

/-- What is understood as a shard count is written like one, with no more than 64 bits. -/
theorem countText_of_reads {text : List Char} (json : IsJson text) {count? : Option Nat}
    (h : Reads shardCount text (.ok count?)) :
    SinkField.CountText count? text ∧ ∀ n ∈ count?, n < UInt64.size := by
  -- for each kind of value, the count is what the value that is kept is understood as
  have understood : ∀ {json?}, Reads (value keptDepth) text json? →
      (json? >>= shardCountOf) = .ok count? :=
    fun hvalue => (reads_shardCount_of_value hvalue).unique h
  cases json with
  | null =>
    obtain rfl := Except.ok.inj (understood (reads_value (fun _ => reads_valueWith_null) _))
    exact ⟨.inl rfl, by simp⟩
  | bool b => cases understood (reads_value (fun _ => reads_valueWith_bool b) _)
  | @number numeral _ hn =>
    have hcount := understood (reads_value (fun _ => reads_valueWith_number hn) _)
    split at hcount
    · obtain ⟨n, hvalue, rfl⟩ := shardCountOf_number_eq_ok hcount
      obtain ⟨hnegative, hfraction, hexponent, rfl, hsize⟩ := Numeral.of_value?_eq_natCast hvalue
      exact ⟨hn.eq_natText hnegative hfraction hexponent, by simpa using hsize⟩
    · cases hcount
  | string hs =>
    obtain ⟨s?, hread, hquotes⟩ := exists_quotedString hs
    have hcount := understood
      (reads_value (fun _ => reads_valueWith_string (startsKey_quoted hs) hread) _)
    cases s? with
    | error fault => cases hcount
    | ok s =>
      obtain ⟨hauto, rfl⟩ := shardCountOf_string_eq_ok hcount
      exact ⟨.inr ⟨s, hauto, hquotes s rfl⟩, by simp⟩
  | array hlist hitems =>
    obtain ⟨list, hread⟩ := exists_reads_value_array hlist
      (fun item hi => startsValue_of_isJson (hitems item hi))
      (fun item hi => exists_reads_value (hitems item hi)) keptDepth
    have hcount := understood hread
    cases list <;> cases hcount
  | object hobject hvalues =>
    obtain ⟨list, hread⟩ := exists_reads_value_object hobject
      (fun m hm => exists_reads_value (hvalues m hm)) keptDepth
    have hcount := understood hread
    cases list <;> cases hcount

theorem exists_reads_shardCount {text : List Char} (json : IsJson text) :
    ∃ answer, Reads shardCount text answer := by
  obtain ⟨json?, hvalue⟩ := exists_reads_value json keptDepth
  exact ⟨_, reads_shardCount_of_value hvalue⟩

/-- Another word than `"auto"` is refused by its name. -/
theorem reads_shardCount_of_word {s : String} (hs : asciiLower s ≠ "auto".toList) {text : List Char}
    (h : Quotes s text) :
    Reads shardCount text (.error (.rejected
      (some s!"invalid shard count '{s}', expected a number or \"auto\""))) := by
  have hread := reads_shardCount_of_value
    (reads_value (fun _ => reads_valueWith_quotes h) keptDepth)
  have hcount : shardCountOf (.string s) = .error (.rejected
      (some s!"invalid shard count '{s}', expected a number or \"auto\"")) := by
    rw [shardCountOf, if_neg (by simpa using hs)]
  exact hcount ▸ hread

/-- Options with a shard count alone have the default in every other field. -/
theorem ofJson_of_shardCount {count text : List Char} {answer : Except ReadFault (Option Nat)}
    (h : Reads shardCount count answer) (object : ObjectText Quotes [("num_shards", count)] text)
    {before after : List Char} (hb : Blank before) (ha : Blank after) :
    SinkOptions.ofJson (String.ofList (before ++ (text ++ after))) =
      answer.map fun numShards? => { numShards? } := by
  let next (draft : OptionsDraft) (_ : String × List Char) : Except ReadFault OptionsDraft :=
    (fieldAnswer draft.numShards? answer).map fun numShards? => { draft with numShards? }
  have hmembers : ∀ member ∈ [("num_shards", count)], ∀ draft,
      ReadsMember (optionsMember draft member.1) member.2 (next draft member) := by
    intro member hm draft
    obtain rfl := List.mem_singleton.mp hm
    exact (readsMember_field h draft.numShards?).map _
  rw [SinkOptions.ofJson, sinkOptions,
    (reads_object object hmembers {} _ OptionsDraft.options).run hb ha]
  cases answer <;> rfl

end Reader

/-! ## What is accepted -/

/-- Options with nothing but a shard count are accepted exactly if it is `null` or "auto", a word in
any mixture of cases, or a number of 64 bits in digits alone, and then have this count and otherwise
defaults; any other word is named in the fault. With a destination, they describe a sink unless the
count is zero. -/
theorem shardCount_accepted_iff {α : Type} (κ τ : Type) (coder : Coder α) {count text : List Char}
    (json : IsJson count) (object : ObjectText Quotes [("num_shards", count)] text)
    {before after : List Char} (hb : Blank before) (ha : Blank after) :
    (∀ options, SinkOptions.ofJson (String.ofList (before ++ (text ++ after))) = .ok options ↔
      ∃ numShards?, SinkField.CountText numShards? count ∧ (∀ n ∈ numShards?, n < UInt64.size) ∧
        options = { numShards? }) ∧
    (∀ s, Quotes s count → asciiLower s ≠ "auto".toList →
      SinkOptions.ofJson (String.ofList (before ++ (text ++ after))) = .error (.rejected
        (some s!"invalid shard count '{s}', expected a number or \"auto\""))) ∧
    (∀ options, SinkOptions.ofJson (String.ofList (before ++ (text ++ after))) = .ok options →
      ∀ destination, destination ≠ "" →
        ((∃ fault, (TextSink.ofOptions { options with destination } coder :
          Except SinkFault (TextSink α κ τ)) = .error fault) ↔ count = "0".toList)) := by
  obtain ⟨answer, hread⟩ := Reader.exists_reads_shardCount json
  have hjson := Reader.ofJson_of_shardCount hread object hb ha
  have haccepted : ∀ options,
      SinkOptions.ofJson (String.ofList (before ++ (text ++ after))) = .ok options ↔
        ∃ numShards?, SinkField.CountText numShards? count ∧
          (∀ n ∈ numShards?, n < UInt64.size) ∧ options = { numShards? } := by
    intro options
    rw [hjson]
    constructor
    · intro hok
      cases answer with
      | error fault => cases hok
      | ok numShards? =>
        obtain ⟨hcount, hsize⟩ := Reader.countText_of_reads json hread
        exact ⟨numShards?, hcount, hsize, (Except.ok.inj hok).symm⟩
    · rintro ⟨numShards?, hcount, hsize, rfl⟩
      rw [hread.unique (Reader.reads_shardCount hsize hcount)]
      rfl
  refine ⟨haccepted, ?_, ?_⟩
  · intro s hs hword
    rw [hjson, hread.unique (Reader.reads_shardCount_of_word hword hs)]
    rfl
  · intro options hok destination hne
    obtain ⟨numShards?, hcount, hsize, rfl⟩ := (haccepted options).mp hok
    have hzero : numShards? = some 0 ↔ count = "0".toList := by
      constructor
      · rintro rfl
        exact hcount
      · rintro rfl
        have hread : Reader.Reads Reader.shardCount ['0'] (.ok (some 0)) :=
          Reader.reads_shardCount (by simp [UInt64.size]) rfl
        exact Except.ok.inj ((Reader.reads_shardCount hsize hcount).unique hread)
    rw [TextSink.exists_ofOptions_eq_error_iff, or_iff_right hne, hzero]

/-- A word with one of its letters written by number, zero, another word, and a number with a sign. -/
theorem shardCount_accepted_iff_for_inputs :
    let word := "\"Au\\u0054o\"".toList
    let input (count : List Char) := String.ofList ([' '] ++
      (Json.objectText [("num_shards", count)] ++ ['\n']))
    let sink (options : SinkOptions) : Except SinkFault (TextSink String FileChannel FileChannel) :=
      TextSink.ofOptions { options with destination := "out" } .text
    SinkOptions.ofJson (input word) = .ok {} ∧ (¬ ∃ fault, sink {} = .error fault) ∧
      SinkOptions.ofJson (input (Json.natText 0)) = .ok { numShards? := some 0 } ∧
      (∃ fault, sink { numShards? := some 0 } = .error fault) ∧
      SinkOptions.ofJson (input (Json.quoted "3")) = .error (.rejected
        (some "invalid shard count '3', expected a number or \"auto\"")) ∧
      ∀ options, SinkOptions.ofJson (input (Json.intText (-1))) ≠ .ok options := by
  intro word input sink
  have hbefore : Blank [' '] := by simp [Blank, Reader.isJsonBlank]
  have hafter : Blank ['\n'] := by simp [Blank, Reader.isJsonBlank]
  have hobject : ∀ count, ObjectText Quotes [("num_shards", count)]
      (Json.objectText [("num_shards", count)]) := fun count => Json.objectText_objectText _
  have hword : Quotes "AuTo" word := by
    have hbody : Json.Spells "AuTo".toList
        (['A'] ++ (['u'] ++ ('\\' :: 'u' :: ['0', '0', '5', '4'] ++ (['o'] ++ [])))) :=
      .cons (.plain (by decide) (by decide) (by decide))
        (.cons (.plain (by decide) (by decide) (by decide))
          (.cons (.unit rfl) (.cons (.plain (by decide) (by decide) (by decide)) .nil)))
    exact ⟨_, hbody, rfl⟩
  obtain ⟨hauto, -, hsink⟩ := shardCount_accepted_iff FileChannel FileChannel (.text)
    (.string hword.isQuoted) (hobject word) hbefore hafter
  obtain ⟨hzero, -, hnoSink⟩ := shardCount_accepted_iff FileChannel FileChannel (.text)
    (.number (Json.numeralText_natText 0)) (hobject (Json.natText 0)) hbefore hafter
  obtain ⟨-, hother, -⟩ := shardCount_accepted_iff FileChannel FileChannel (.text)
    (.string (Json.quotes_quoted "3").isQuoted) (hobject (Json.quoted "3")) hbefore hafter
  obtain ⟨hsigned, -, -⟩ := shardCount_accepted_iff FileChannel FileChannel (.text)
    (.number (Json.numeralText_intText (-1))) (hobject (Json.intText (-1))) hbefore hafter
  have hok : SinkOptions.ofJson (input word) = .ok {} :=
    (hauto {}).mpr ⟨none, .inr ⟨"AuTo", by decide, hword⟩, by simp, rfl⟩
  have hokZero : SinkOptions.ofJson (input (Json.natText 0)) = .ok { numShards? := some 0 } :=
    (hzero { numShards? := some 0 }).mpr ⟨some 0, rfl, by simp [UInt64.size], rfl⟩
  refine ⟨hok, ?_, hokZero, (hnoSink _ hokZero "out" (by decide)).mpr rfl,
    hother "3" (Json.quotes_quoted "3") (by decide), fun options h => ?_⟩
  · exact fun h => absurd ((hsink _ hok "out" (by decide)).mp h) (by decide)
  · obtain ⟨numShards?, hcount, -, -⟩ := (hsigned options).mp h
    cases numShards? with
    | none =>
      rcases hcount with hnull | ⟨s, -, body, -, hquotes⟩
      · exact absurd hnull (by decide)
      · exact absurd (List.cons.inj hquotes).1 (by decide)
    | some n =>
      have hminus : '-' ∈ Json.natText n := hcount ▸ List.mem_cons_self
      exact absurd ((Json.isWhole_natText n).1.2 '-' hminus) (by decide)

end ShardedLines
