import ShardedLines.Proofs.Json.Keeping
import ShardedLines.Window

/-!
Reading windowed values back.

Times are integers of 64 bits (`Timestamp.Fits`), those of a value and of the ends of its windows. A
value that keeps to them is read back from its own text as soon as its payload is (`reads_windowed`),
so no two values have one text.
-/

namespace ShardedLines

/-! ## Times of 64 bits -/

def Timestamp.Fits (time : Timestamp) : Prop := Timestamp.least ≤ time ∧ time ≤ Timestamp.most

/-- The ends of the window are times of 64 bits. -/
def Window.Fits : Window → Prop
  | global => True
  | interval start stop => start.Fits ∧ stop.Fits

/-- All times of the windowed value are of 64 bits. -/
structure WindowedValue.Fits {α : Type} (windowed : WindowedValue α) : Prop where
  time : windowed.time.Fits
  windows : ∀ window ∈ windowed.windows, window.Fits

namespace Reader

variable {α : Type}

theorem reads_timestamp {time : Timestamp} (h : time.Fits) :
    Reads timestamp (Json.intText time) (.ok time) := by
  have hmost : Timestamp.most < UInt64.size := by decide
  exact reads_int h (Json.numeralText_intText time)
    (Json.value?_ofInt h.1 (Int.lt_of_le_of_lt h.2 hmost))

/-! ## Windows -/

/-- The draft after a member of an interval's text. -/
def intervalNext (start stop : Timestamp) (draft : IntervalDraft) (member : String × List Char) :
    Except ReadFault IntervalDraft :=
  if member.1 = "start" then
    (fieldAnswer draft.start? (.ok start)).map fun start? => { draft with start? }
  else (fieldAnswer draft.stop? (.ok stop)).map fun stop? => { draft with stop? }

theorem reads_interval {start stop : Timestamp} (h : (Window.interval start stop).Fits) :
    Reads interval (Json.objectText [("start", Json.intText start), ("end", Json.intText stop)])
      (.ok (.interval start stop)) := by
  have hmembers : ∀ member ∈ [("start", Json.intText start), ("end", Json.intText stop)],
      ∀ draft, ReadsMember (intervalMember draft member.1) member.2
        (intervalNext start stop draft member) := by
    intro member hm draft
    rcases List.mem_pair.mp hm with rfl | rfl
    · exact (readsMember_field (reads_timestamp h.1) draft.start?).map _
    · exact (readsMember_field (reads_timestamp h.2) draft.stop?).map _
  exact reads_object_of_complete (Json.objectText_objectText _) hmembers rfl _ fun _ => rfl

theorem startsValue_window (window : Window) : StartsValue window.jsonText := by
  cases window with
  | global => exact (startsKey_quotes (Json.quotes_quoted _)).startsValue
  | interval start stop => exact ⟨'\x7b', _, rfl, rfl, by decide⟩

theorem reads_window {window : Window} (h : window.Fits) :
    Reads Reader.window window.jsonText (.ok window) := by
  cases window with
  | global => exact reads_variant (by rfl) (Json.quotes_quoted "Global")
  | interval start stop =>
    have hcontent := readsMember_colon (reads_interval h)
    exact reads_variant_object hcontent (Json.objectText_objectText [("Interval", _)])

theorem reads_windows {windows : List Window} (h : ∀ window ∈ windows, window.Fits) :
    Reads (list Reader.window) (Json.arrayText (windows.map Window.jsonText)) (.ok windows) := by
  have hitems : ItemTexts Reader.window .ok windows (windows.map Window.jsonText) := by
    rw [ItemTexts, List.forall₂_map_right_iff, List.forall₂_same]
    exact fun window hw => ⟨startsValue_window window, reads_window (h window hw)⟩
  have hall : windows.mapM (Except.ok : Window → Except ReadFault Window) = .ok windows := by
    exact (List.mapM_pure (f := id)).trans (congrArg Except.ok (List.map_id windows))
  exact hall ▸ reads_list (Json.listText_arrayText _) hitems

/-! ## Windowed values -/

/-- The draft after a member of a windowed value's text. -/
def windowedNext (windowed : WindowedValue α) (draft : WindowedDraft α)
    (member : String × List Char) : Except ReadFault (WindowedDraft α) :=
  if member.1 = "value" then
    (fieldAnswer draft.value? (.ok windowed.value)).map fun value? => { draft with value? }
  else if member.1 = "ts" then
    (fieldAnswer draft.time? (.ok windowed.time)).map fun time? => { draft with time? }
  else (fieldAnswer draft.windows? (.ok windowed.windows)).map fun windows? => { draft with windows? }

/-- A windowed value is read back if its payload is. -/
theorem reads_windowed {inner : Reader α} {valueText : α → List Char} {windowed : WindowedValue α}
    (hvalue : Reads inner (valueText windowed.value) (.ok windowed.value)) (h : windowed.Fits) :
    Reads (Reader.windowed inner) (windowed.jsonText valueText) (.ok windowed) := by
  have hmembers : ∀ member ∈ [
        ("value", valueText windowed.value),
        ("ts", Json.intText windowed.time),
        ("windows", Json.arrayText (windowed.windows.map Window.jsonText))],
      ∀ draft, ReadsMember (windowedMember inner draft member.1) member.2
        (windowedNext windowed draft member) := by
    intro member hm draft
    simp only [List.mem_cons, List.not_mem_nil, or_false] at hm
    rcases hm with rfl | rfl | rfl
    · exact (readsMember_field hvalue draft.value?).map _
    · exact (readsMember_field (reads_timestamp h.time) draft.time?).map _
    · exact (readsMember_field (reads_windows h.windows) draft.windows?).map _
  exact reads_object_of_complete (Json.objectText_objectText _) hmembers rfl _ fun _ => rfl

end Reader

/-! ## What reads back -/

/-- Windowed texts are read back from their own text, and so are windowed integers of 64 bits, which
are read as times are. No two of them have one text. -/
theorem windowed_readBack :
    (∀ windowed : WindowedValue String, windowed.Fits →
      (Reader.windowed Reader.string).run (String.ofList (windowed.jsonText Json.quoted)) =
        .ok windowed) ∧
    (∀ windowed : WindowedValue Timestamp, windowed.value.Fits → windowed.Fits →
      (Reader.windowed Reader.timestamp).run (String.ofList (windowed.jsonText Json.intText)) =
        .ok windowed) ∧
    (∀ first second : WindowedValue String, first.Fits → second.Fits → first ≠ second →
      first.jsonText Json.quoted ≠ second.jsonText Json.quoted) ∧
    (∀ first second : WindowedValue Timestamp, first.value.Fits → first.Fits →
      second.value.Fits → second.Fits → first ≠ second →
      first.jsonText Json.intText ≠ second.jsonText Json.intText) := by
  have htexts : ∀ windowed : WindowedValue String, windowed.Fits → Reader.Reads
      (Reader.windowed Reader.string) (windowed.jsonText Json.quoted) (.ok windowed) :=
    fun windowed h => Reader.reads_windowed (Reader.reads_string (Json.quotes_quoted windowed.value)) h
  have hintegers : ∀ windowed : WindowedValue Timestamp, windowed.value.Fits → windowed.Fits →
      Reader.Reads (Reader.windowed Reader.timestamp) (windowed.jsonText Json.intText)
        (.ok windowed) :=
    fun windowed hvalue h => Reader.reads_windowed (Reader.reads_timestamp hvalue) h
  refine ⟨fun windowed h => (htexts windowed h).run_self,
    fun windowed hvalue h => (hintegers windowed hvalue h).run_self, ?_, ?_⟩
  · intro first second hfirst hsecond hne
    exact (htexts first hfirst).text_ne (htexts second hsecond) hne
  · intro first second hvalue hfirst hvalue' hsecond hne
    exact (hintegers first hvalue hfirst).text_ne (hintegers second hvalue' hsecond) hne

/-- A text with escapes, without an event time and in the longest window; and the least integer at the
latest time, in windows that end before they start. -/
theorem windowed_readBack_of_extremes :
    let text : WindowedValue String := {
      value := "\"\\\n😀", time := Timestamp.least
      windows := [.global, .interval Timestamp.least Timestamp.most] }
    let integer : WindowedValue Timestamp := {
      value := Timestamp.least, time := Timestamp.most
      windows := [.interval 1 0, .interval 1 0] }
    (Reader.windowed Reader.string).run (String.ofList (text.jsonText Json.quoted)) = .ok text ∧
      (Reader.windowed Reader.timestamp).run (String.ofList (integer.jsonText Json.intText)) =
        .ok integer ∧
      text.jsonText Json.quoted ≠
        (WindowedValue.inGlobalWindow text.value).jsonText Json.quoted ∧
      integer.jsonText Json.intText ≠
        (WindowedValue.inGlobalWindow integer.value).jsonText Json.intText := by
  intro text integer
  have hleast : Timestamp.least.Fits := ⟨by decide, by decide⟩
  have hmost : Timestamp.most.Fits := ⟨by decide, by decide⟩
  have hbackwards : (Window.interval 1 0).Fits := ⟨⟨by decide, by decide⟩, by decide, by decide⟩
  have hglobal : ∀ {α : Type} (value : α), (WindowedValue.inGlobalWindow value).Fits :=
    fun value => ⟨hleast, List.forall_mem_singleton.mpr trivial⟩
  have htext : text.Fits :=
    ⟨hleast, List.forall_mem_cons.mpr ⟨trivial, List.forall_mem_singleton.mpr ⟨hleast, hmost⟩⟩⟩
  have hinteger : integer.Fits :=
    ⟨hmost, List.forall_mem_cons.mpr ⟨hbackwards, List.forall_mem_singleton.mpr hbackwards⟩⟩
  exact ⟨windowed_readBack.1 text htext, windowed_readBack.2.1 integer hleast hinteger,
    windowed_readBack.2.2.1 text _ htext (hglobal _) (by decide),
    windowed_readBack.2.2.2 integer _ hleast hinteger hleast (hglobal _) (by decide)⟩

end ShardedLines
