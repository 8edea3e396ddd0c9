import ShardedLines.Disk.Expand
import ShardedLines.Proofs.Text.Lines

/-!
Paths that run through names alone.

`ofNames` writes the path of some names, from the top or from the working directory, and
`components` reads them off again. A path is plain where no stretch between its slashes is empty or
starts with a point (`IsPlain`); it is then the path of its names, so two different lists of names
never share a plain path.
-/

namespace ShardedLines.Path

/-- A name that an entry of a directory can have. -/
structure IsName (name : String) : Prop where
  ne_empty : name ≠ ""
  ne_here : name ≠ "."
  ne_up : name ≠ ".."
  no_slash : '/' ∉ name.toList

instance (name : String) : Decidable (IsName name) :=
  decidable_of_iff (name ≠ "" ∧ name ≠ "." ∧ name ≠ ".." ∧ '/' ∉ name.toList)
    ⟨fun ⟨hempty, hhere, hup, hslash⟩ => ⟨hempty, hhere, hup, hslash⟩,
      fun h => ⟨h.ne_empty, h.ne_here, h.ne_up, h.no_slash⟩⟩

theorem IsName.step? {name : String} (h : IsName name) : step? name = some (.name name) := by
  unfold Path.step?
  split
  · exact absurd rfl h.ne_empty
  · exact absurd rfl h.ne_here
  · exact absurd rfl h.ne_up
  · rfl

theorem IsName.toList_ne_nil {name : String} (h : IsName name) : name.toList ≠ [] :=
  fun he => h.ne_empty (String.toList_eq_nil_iff.mp he)

/-- The names in a path are names of entries. -/
theorem isName_of_mem_components {path name : String} (h : .name name ∈ components path) :
    IsName name := by
  have hstep : .name name ∈ (segments path).filterMap Path.step? := by
    unfold components at h
    split at h
    · simpa using h
    · split at h
      · simpa using h
      · exact h
  obtain ⟨segment, hs, hname⟩ := List.mem_filterMap.mp hstep
  obtain ⟨piece, hp, rfl⟩ := List.mem_map.mp hs
  unfold Path.step? at hname
  split at hname
  · cases hname
  · cases hname
  · cases hname
  · rename_i hempty hhere hup
    cases hname
    refine ⟨hempty, hhere, hup, ?_⟩
    rw [String.toList_ofList]
    exact not_mem_of_mem_pieces hp

/-! ## Paths of names -/

/-- Each name behind a slash. -/
def slashed (names : List String) : List Char :=
  names.flatMap fun name => '/' :: name.toList

/-- The path of some names, from the top or from the working directory. -/
def ofNames (absolute : Bool) : List String → String
  | [] => if absolute then "/" else "."
  | first :: rest => (if absolute then "/" else "") ++ first ++ String.ofList (slashed rest)

theorem slashed_append (first second : List String) :
    slashed (first ++ second) = slashed first ++ slashed second :=
  List.flatMap_append

theorem pieces_append_slashed {names : List String} (h : ∀ name ∈ names, '/' ∉ name.toList)
    {text : List Char} (ht : '/' ∉ text) :
    pieces '/' (text ++ slashed names) = text :: names.map String.toList := by
  induction names generalizing text with
  | nil => simpa [slashed] using pieces_of_not_mem ht
  | cons name rest ih =>
    rw [List.forall_mem_cons] at h
    rw [show slashed (name :: rest) = '/' :: (name.toList ++ slashed rest) from rfl,
      pieces_append_cons ht, ih h.2 h.1]
    rfl

theorem intercalate_slash (text : List Char) (names : List String) :
    ['/'].intercalate (text :: names.map String.toList) = text ++ slashed names := by
  induction names generalizing text with
  | nil => simp [slashed]
  | cons name rest ih =>
    rw [List.map_cons, List.intercalate_cons_cons, ih]
    simp [slashed]

section Names

variable {absolute : Bool} {names : List String}

theorem toList_ofNames_cons (first : String) (rest : List String) :
    (ofNames absolute (first :: rest)).toList =
      (if absolute then ['/'] else []) ++ (first.toList ++ slashed rest) := by
  cases absolute <;> simp [ofNames]

theorem segments_ofNames (hne : names ≠ []) (h : ∀ name ∈ names, IsName name) :
    segments (ofNames absolute names) = (if absolute then [""] else []) ++ names := by
  obtain ⟨first, rest, rfl⟩ := List.exists_cons_of_ne_nil hne
  have hpieces : pieces '/' (first.toList ++ slashed rest) = (first :: rest).map String.toList :=
    pieces_append_slashed (fun name hn => (h name (List.mem_cons_of_mem _ hn)).no_slash)
      (h first List.mem_cons_self).no_slash
  have hback : ((first :: rest).map String.toList).map String.ofList = first :: rest := by
    simp [Function.comp_def]
  rw [segments, toList_ofNames_cons]
  cases absolute with
  | true =>
    change (pieces '/' ('/' :: (first.toList ++ slashed rest))).map String.ofList = _
    rw [pieces, hpieces, beq_self_eq_true, if_pos rfl, List.map_cons, hback]
    rfl
  | false =>
    change (pieces '/' (first.toList ++ slashed rest)).map String.ofList = _
    rw [hpieces, hback]
    rfl

theorem isAbsolute_ofNames (hne : names ≠ []) (h : ∀ name ∈ names, IsName name) :
    isAbsolute (ofNames absolute names) = absolute := by
  obtain ⟨first, rest, rfl⟩ := List.exists_cons_of_ne_nil hne
  have hfirst := h first List.mem_cons_self
  obtain ⟨c, text, hc⟩ := List.exists_cons_of_ne_nil hfirst.toList_ne_nil
  have hslash : c ≠ '/' := by
    rintro rfl
    exact hfirst.no_slash (hc ▸ List.mem_cons_self)
  rw [isAbsolute, toList_ofNames_cons]
  cases absolute <;> simp [hc, hslash]

theorem components_ofNames (hne : names ≠ []) (h : ∀ name ∈ names, IsName name) :
    components (ofNames absolute names) =
      (if absolute then [.root] else []) ++ names.map .name := by
  have hsteps : names.filterMap Path.step? = names.map .name := by
    rw [← List.filterMap_eq_map]
    exact List.filterMap_congr fun name hn => (h name hn).step?
  have hhead : names.head? ≠ some "." := fun hd => (h "." (List.mem_of_head? hd)).ne_here rfl
  unfold components
  rw [segments_ofNames hne h, isAbsolute_ofNames hne h]
  cases absolute with
  | true => simp [hsteps, show Path.step? "" = none from rfl]
  | false => simp [hsteps, hhead]

theorem ending_ofNames (hne : names ≠ []) (h : ∀ name ∈ names, IsName name) :
    ending (ofNames absolute names) = .plain := by
  obtain ⟨init, last, rfl⟩ := (List.eq_nil_or_concat' names).resolve_left hne
  have hlast := h last (by simp)
  unfold ending
  rw [segments_ofNames hne h]
  simp [hlast.ne_empty, hlast.ne_here]

/-- Different names have different paths. -/
theorem ofNames_inj {others : List String} (hne : names ≠ []) (h : ∀ name ∈ names, IsName name)
    (hne' : others ≠ []) (h' : ∀ name ∈ others, IsName name)
    (heq : ofNames absolute names = ofNames absolute others) : names = others := by
  have hsegments := congrArg segments heq
  rw [segments_ofNames hne h, segments_ofNames hne' h'] at hsegments
  exact List.append_cancel_left hsegments

/-- The path of more names goes on from the path of the first ones. -/
theorem ofNames_append (hne : names ≠ []) (more : List String) :
    ofNames absolute (names ++ more) = ofNames absolute names ++ String.ofList (slashed more) := by
  obtain ⟨first, rest, rfl⟩ := List.exists_cons_of_ne_nil hne
  rw [← String.toList_inj, List.cons_append, String.toList_append, toList_ofNames_cons,
    toList_ofNames_cons, slashed_append, String.toList_ofList]
  simp only [List.append_assoc]

theorem getLast?_ofNames (absolute : Bool) (hne : names ≠ []) (h : ∀ name ∈ names, IsName name) :
    ∃ c, c ≠ '/' ∧ (ofNames absolute names).toList.getLast? = some c := by
  obtain ⟨init, last, rfl⟩ := (List.eq_nil_or_concat' names).resolve_left hne
  have hlast := h last (by simp)
  refine ⟨last.toList.getLast hlast.toList_ne_nil, ?_, ?_⟩
  · intro hc
    exact hlast.no_slash (hc ▸ List.getLast_mem hlast.toList_ne_nil)
  · obtain ⟨before, hb⟩ : ∃ before,
        (ofNames absolute (init ++ [last])).toList = before ++ last.toList := by
      cases init with
      | nil =>
        refine ⟨if absolute then ['/'] else [], ?_⟩
        rw [List.nil_append, toList_ofNames_cons]
        simp [slashed]
      | cons first rest =>
        refine ⟨(if absolute then ['/'] else []) ++ first.toList ++ slashed rest ++ ['/'], ?_⟩
        rw [List.cons_append, toList_ofNames_cons, slashed_append]
        simp [slashed]
    rw [hb, List.getLast?_append_of_ne_nil _ hlast.toList_ne_nil]
    exact List.getLast?_eq_some_getLast hlast.toList_ne_nil

theorem entryPath_ofNames (h : ∀ name ∈ names, IsName name) (name : String) :
    Disk.entryPath (ofNames absolute names) name = ofNames absolute (names ++ [name]) := by
  by_cases hne : names = []
  · subst hne
    cases absolute with
    | true =>
      change join "/" name = "/" ++ name ++ String.ofList (slashed [])
      simp [join, slashed]
    | false =>
      change name = "" ++ name ++ String.ofList (slashed [])
      simp [slashed]
  · have hhere : (components (ofNames absolute names) == [.here]) = false := by
      obtain ⟨first, rest, rfl⟩ := List.exists_cons_of_ne_nil hne
      rw [components_ofNames hne h]
      cases absolute <;> simp
    obtain ⟨c, hc, hlast⟩ := getLast?_ofNames absolute hne h
    rw [Disk.entryPath, hhere, ofNames_append hne]
    simp only [Bool.false_eq_true, if_false, join, hlast]
    rw [← String.toList_inj]
    simp [slashed]

end Names

/-! ## Plain paths -/

/-- The stretches between the slashes of a path, behind the slash at its start. -/
def names (path : String) : List String :=
  if isAbsolute path then (segments path).tail else segments path

/-- No stretch of the path is empty or starts with a point. -/
def IsPlain (path : String) : Prop :=
  ∀ name ∈ names path, name ≠ "" ∧ name.toList.head? ≠ some '.'

instance (path : String) : Decidable (IsPlain path) :=
  inferInstanceAs (Decidable (∀ _ ∈ _, _))

variable {path : String}

theorem exists_of_isAbsolute (h : isAbsolute path) : ∃ rest, path.toList = '/' :: rest := by
  rw [isAbsolute, beq_iff_eq, List.head?_eq_some_iff] at h
  exact h

theorem names_of_isAbsolute (h : isAbsolute path) {rest : List Char}
    (hrest : path.toList = '/' :: rest) :
    names path = (pieces '/' rest).map String.ofList := by
  rw [names, if_pos h, segments, hrest, pieces, beq_self_eq_true, if_pos rfl]
  rfl

theorem names_ne_nil (path : String) : names path ≠ [] := by
  by_cases h : isAbsolute path
  · obtain ⟨rest, hrest⟩ := exists_of_isAbsolute h
    rw [names_of_isAbsolute h hrest]
    simpa using pieces_ne_nil '/' rest
  · rw [names, if_neg h, segments]
    simpa using pieces_ne_nil '/' path.toList

/-- Every path is that of the stretches between its slashes. -/
theorem ofNames_names (path : String) : ofNames (isAbsolute path) (names path) = path := by
  have joined : ∀ text first rest, (pieces '/' text).map String.ofList = first :: rest →
      first.toList ++ slashed rest = text := by
    intro text first rest h
    have hback : pieces '/' text = (first :: rest).map String.toList := by
      rw [← h, List.map_map]
      simp [Function.comp_def]
    rw [← intercalate_slash, ← List.map_cons, ← hback, intercalate_pieces]
  obtain ⟨first, rest, hnames⟩ := List.exists_cons_of_ne_nil (names_ne_nil path)
  rw [← String.toList_inj, hnames, toList_ofNames_cons]
  by_cases h : isAbsolute path
  · obtain ⟨text, htext⟩ := exists_of_isAbsolute h
    rw [names_of_isAbsolute h htext] at hnames
    rw [joined text first rest hnames, htext, h]
    rfl
  · rw [names, if_neg h] at hnames
    rw [joined path.toList first rest hnames, if_neg h]
    rfl

theorem no_slash_of_mem_names {name : String} (h : name ∈ names path) : '/' ∉ name.toList := by
  have hs : name ∈ segments path := by
    unfold names at h
    split at h
    · exact List.mem_of_mem_tail h
    · exact h
  obtain ⟨piece, hp, rfl⟩ := List.mem_map.mp hs
  rw [String.toList_ofList]
  exact not_mem_of_mem_pieces hp

/-- The path runs through names alone, without a step that is empty, stays or leads up. -/
def IsStraight (path : String) : Prop :=
  ∀ name ∈ names path, IsName name

instance (path : String) : Decidable (IsStraight path) :=
  inferInstanceAs (Decidable (∀ _ ∈ _, _))

theorem IsPlain.isStraight (h : IsPlain path) : IsStraight path := by
  intro name hn
  obtain ⟨hempty, hpoint⟩ := h name hn
  refine ⟨hempty, ?_, ?_, no_slash_of_mem_names hn⟩
  · rintro rfl
    exact hpoint rfl
  · rintro rfl
    exact hpoint rfl

theorem IsStraight.components_eq (h : IsStraight path) :
    components path = (if isAbsolute path then [.root] else []) ++ (names path).map .name := by
  have hcomponents : components (ofNames (isAbsolute path) (names path)) = _ :=
    components_ofNames (names_ne_nil path) h
  rwa [ofNames_names] at hcomponents

theorem isStraight_ofNames {absolute : Bool} {others : List String} (hne : others ≠ [])
    (h : ∀ name ∈ others, IsName name) :
    IsStraight (ofNames absolute others) ∧ isAbsolute (ofNames absolute others) = absolute ∧
      names (ofNames absolute others) = others := by
  have habsolute : isAbsolute (ofNames absolute others) = absolute := isAbsolute_ofNames hne h
  have hnames : names (ofNames absolute others) = others := by
    rw [names, habsolute, segments_ofNames hne h]
    cases absolute <;> rfl
  refine ⟨?_, habsolute, hnames⟩
  rw [IsStraight, hnames]
  exact h

/-- Straight paths that start alike are told apart by their components. -/
theorem IsStraight.eq_of_components {other : String} (h : IsStraight path) (h' : IsStraight other)
    (hstart : isAbsolute path = isAbsolute other) (heq : components path = components other) :
    path = other := by
  rw [h.components_eq, h'.components_eq, hstart, List.append_cancel_left_eq,
    List.map_inj_right (by simp)] at heq
  rw [← ofNames_names path, hstart, heq, ofNames_names]

/-! ## Reading a path from left to right -/

/-- No stretch that starts in the text is empty or starts with a point; `start` tells whether one
starts with the text itself. -/
def CleanFrom : (start : Bool) → List Char → Prop
  | start, [] => start = false
  | start, c :: rest => (start → c ≠ '/' ∧ c ≠ '.') ∧ CleanFrom (c == '/') rest

theorem cleanFrom_iff (start : Bool) (text : List Char) :
    CleanFrom start text ↔
      (∀ piece ∈ (pieces '/' text).tail, piece ≠ [] ∧ piece.head? ≠ some '.') ∧
        (start → ∀ piece ∈ (pieces '/' text).head?, piece ≠ [] ∧ piece.head? ≠ some '.') := by
  -- a slash ends a stretch, and the one that starts behind it is the first of the rest
  induction text generalizing start with
  | nil => cases start <;> simp [CleanFrom, pieces]
  | cons c rest ih =>
    rw [CleanFrom, ih]
    obtain ⟨piece, others, hp⟩ := List.exists_cons_of_ne_nil (pieces_ne_nil '/' rest)
    by_cases hc : c = '/'
    · subst hc
      rw [pieces, beq_self_eq_true, if_pos rfl, hp]
      cases start <;> simp [and_comm]
    · rw [pieces, beq_false_of_ne hc, if_neg Bool.false_ne_true, hp]
      cases start <;> simp [hc, and_comm]

/-- The end of a text may be replaced by what is as clean as it. -/
theorem cleanFrom_append {before after : List Char}
    (h : ∀ {start}, CleanFrom start before → CleanFrom start after) {front : List Char}
    {start : Bool} (hbefore : CleanFrom start (front ++ before)) :
    CleanFrom start (front ++ after) := by
  induction front generalizing start with
  | nil => exact h hbefore
  | cons c rest ih => exact ⟨hbefore.1, ih hbefore.2⟩

theorem isPlain_iff : IsPlain path ↔ CleanFrom (!isAbsolute path) path.toList := by
  have hmap : ∀ texts : List (List Char),
      (∀ name ∈ texts.map String.ofList, name ≠ "" ∧ name.toList.head? ≠ some '.') ↔
        ∀ text ∈ texts, text ≠ [] ∧ text.head? ≠ some '.' := by
    intro texts
    simp only [List.forall_mem_map, ne_eq, ← String.toList_eq_nil_iff, String.toList_ofList]
  rw [cleanFrom_iff, IsPlain, names]
  obtain ⟨piece, others, hp⟩ := List.exists_cons_of_ne_nil (pieces_ne_nil '/' path.toList)
  by_cases h : isAbsolute path
  · rw [if_pos h, segments, hp, List.map_cons, List.tail_cons, hmap]
    simp [h]
  · rw [if_neg h, segments, hp, hmap, List.forall_mem_cons, and_comm]
    simp [h]

end ShardedLines.Path
