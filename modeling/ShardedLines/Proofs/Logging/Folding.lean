import Mathlib.Data.List.Induction
import Mathlib.Data.List.Sort
import ShardedLines.Logging.Options

/-!
Overrides of one name folded into one.

Overrides are settled in the order in which they are given. A name keeps the place where it came
first, and its level is the one that was given last. `Folded` says so of a list without the way in
which it is made, and the effective overrides are the only such list (`folded_iff`).
-/

namespace ShardedLines

namespace LevelOverride

def names (overrides : List LevelOverride) : List String := overrides.map name

/-- The first override of a name, if there is one. -/
def ofName? (name : String) (overrides : List LevelOverride) : Option LevelOverride :=
  overrides.find? (·.name == name)

/-- Whether an override is given, and none of its name after it. -/
def IsLast (given : List LevelOverride) (override : LevelOverride) : Prop :=
  ∃ before after, given = before ++ override :: after ∧ override.name ∉ names after

theorem isLast_iff {given : List LevelOverride} {override : LevelOverride} :
    IsLast given override ↔ ofName? override.name given.reverse = some override := by
  rw [ofName?, List.find?_eq_some_iff_append]
  constructor
  · rintro ⟨before, after, rfl, hafter⟩
    refine ⟨beq_self_eq_true _, after.reverse, before.reverse, by simp, ?_⟩
    intro other ho
    have hne : other.name ≠ override.name := by
      intro hname
      exact hafter (hname ▸ List.mem_map_of_mem (List.mem_reverse.mp ho))
    simpa using hne
  · rintro ⟨-, after, before, hgiven, hafter⟩
    refine ⟨before.reverse, after.reverse, ?_, ?_⟩
    · rw [← List.reverse_reverse given, hgiven]
      simp
    · intro hmem
      obtain ⟨other, ho, hname⟩ := List.mem_map.mp hmem
      have hne := hafter other (List.mem_reverse.mp ho)
      simp [hname] at hne

/-- Only one override of a name is the last. -/
theorem IsLast.unique {given : List LevelOverride} {override other : LevelOverride}
    (h : IsLast given override) (ho : IsLast given other) (hname : override.name = other.name) :
    override = other := by
  rw [isLast_iff] at h ho
  rw [hname, ho] at h
  exact (Option.some.inj h).symm

/-- A list has each name that is given once, where it came first among them, with the last override
of that name. -/
structure Folded (given folded : List LevelOverride) : Prop where
  nodup : (names folded).Nodup
  mem_names : ∀ name, name ∈ names folded ↔ name ∈ names given
  inOrder : (names folded).Pairwise fun first second =>
    (names given).idxOf first < (names given).idxOf second
  isLast : ∀ override ∈ folded, IsLast given override

theorem Folded.names_eq {given first second : List LevelOverride} (h : Folded given first)
    (h' : Folded given second) : names first = names second := by
  have hperm : (names first).Perm (names second) := by
    rw [List.perm_ext_iff_of_nodup h.nodup h'.nodup]
    intro name
    rw [h.mem_names, h'.mem_names]
  refine hperm.eq_of_pairwise ?_ h.inOrder h'.inOrder
  intro name other _ _ hlt hgt
  omega

theorem Folded.unique {given first second : List LevelOverride} (h : Folded given first)
    (h' : Folded given second) : first = second := by
  have hnames := h.names_eq h'
  have hlength : first.length = second.length := by
    simpa [names] using congrArg List.length hnames
  refine List.ext_getElem hlength fun i hi hi' => ?_
  have hname : first[i].name = second[i].name := by
    have hget := congrArg (·[i]?) hnames
    simpa [names, hi, hi'] using hget
  exact (h.isLast _ (List.getElem_mem hi)).unique (h'.isLast _ (List.getElem_mem hi')) hname

end LevelOverride

namespace LoggingOptions

open LevelOverride

/-! ## One override settled -/

theorem names_settle (override : LevelOverride) (settled : List LevelOverride) :
    names (settle override settled) =
      if override.name ∈ names settled then names settled
      else names settled ++ [override.name] := by
  induction settled with
  | nil => rfl
  | cons earlier rest ih =>
    rw [settle]
    by_cases hname : earlier.name = override.name
    · simp [names, hname]
    · rw [if_neg (by simpa using hname)]
      change earlier.name :: names (settle override rest) = _
      rw [ih]
      have hmem : override.name ∈ names (earlier :: rest) ↔ override.name ∈ names rest := by
        simp [names, Ne.symm hname]
      by_cases hrest : override.name ∈ names rest
      · rw [if_pos hrest, if_pos (hmem.mpr hrest)]
        rfl
      · rw [if_neg hrest, if_neg (mt hmem.mp hrest)]
        rfl

theorem ofName?_settle (name : String) (override : LevelOverride) (settled : List LevelOverride) :
    ofName? name (settle override settled) =
      if override.name = name then some override else ofName? name settled := by
  induction settled with
  | nil => by_cases h : override.name = name <;> simp [settle, ofName?, h]
  | cons earlier rest ih =>
    rw [settle]
    by_cases hname : earlier.name = override.name
    · by_cases h : override.name = name <;> simp [ofName?, hname, h]
    · rw [if_neg (by simpa using hname)]
      by_cases hfirst : earlier.name = name
      · have h : override.name ≠ name := fun h => hname (hfirst.trans h.symm)
        simp [ofName?, hfirst, h]
      · simp only [ofName?] at ih
        simp [ofName?, hfirst, ih]

/-! ## All of them -/

/-- The overrides settled in turn. -/
def settleAll (given : List LevelOverride) : List LevelOverride :=
  given.foldl (fun settled override => settle override settled) []

theorem effectiveOverrides_eq (options : LoggingOptions) :
    options.effectiveOverrides = settleAll options.overrides := rfl

theorem settleAll_concat (given : List LevelOverride) (override : LevelOverride) :
    settleAll (given ++ [override]) = settle override (settleAll given) :=
  List.foldl_concat ..

theorem mem_names_settleAll (given : List LevelOverride) (name : String) :
    name ∈ names (settleAll given) ↔ name ∈ names given := by
  induction given using List.reverseRecOn with
  | nil => rfl
  | append_singleton given override ih =>
    have hgiven : names (given ++ [override]) = names given ++ [override.name] := List.map_append
    rw [settleAll_concat, names_settle, hgiven, List.mem_append, List.mem_singleton]
    split
    next hmem =>
      rw [ih]
      constructor
      · exact .inl
      · rintro (hold | rfl)
        · exact hold
        · exact ih.mp hmem
    next => rw [List.mem_append, List.mem_singleton, ih]

theorem inOrder_settleAll (given : List LevelOverride) :
    (names (settleAll given)).Pairwise fun first second =>
      (names given).idxOf first < (names given).idxOf second := by
  induction given using List.reverseRecOn with
  | nil => exact .nil
  | append_singleton given override ih =>
    have hgiven : names (given ++ [override]) = names given ++ [override.name] := List.map_append
    -- names that came before stay where they were
    have hkept : ∀ name ∈ names (settleAll given),
        (names given ++ [override.name]).idxOf name = (names given).idxOf name :=
      fun name hname => List.idxOf_append_of_mem ((mem_names_settleAll given name).mp hname)
    have hold : (names (settleAll given)).Pairwise fun first second =>
        (names given ++ [override.name]).idxOf first <
          (names given ++ [override.name]).idxOf second := by
      refine ih.imp_of_mem fun hfirst hsecond hlt => ?_
      rwa [hkept _ hfirst, hkept _ hsecond]
    rw [settleAll_concat, names_settle, hgiven]
    split
    next => exact hold
    next hnew =>
      refine List.pairwise_append.mpr ⟨hold, List.pairwise_singleton .., ?_⟩
      intro name hname other hother
      obtain rfl := List.mem_singleton.mp hother
      have hlt := List.idxOf_lt_length_of_mem ((mem_names_settleAll given name).mp hname)
      rw [hkept name hname,
        List.idxOf_append_of_notMem (mt (mem_names_settleAll given override.name).mpr hnew)]
      omega

theorem ofName?_settleAll (name : String) (given : List LevelOverride) :
    ofName? name (settleAll given) = ofName? name given.reverse := by
  induction given using List.reverseRecOn with
  | nil => rfl
  | append_singleton given override ih =>
    rw [settleAll_concat, ofName?_settle, ih, List.reverse_concat]
    by_cases h : override.name = name <;> simp [ofName?, h]

theorem folded_settleAll (given : List LevelOverride) : Folded given (settleAll given) := by
  have hnodup : (names (settleAll given)).Nodup := by
    refine (inOrder_settleAll given).imp ?_
    rintro first second hlt rfl
    exact Nat.lt_irrefl _ hlt
  refine ⟨hnodup, mem_names_settleAll given, inOrder_settleAll given, ?_⟩
  intro override hmem
  rw [isLast_iff, ← ofName?_settleAll, ofName?, List.find?_eq_some_iff_append]
  obtain ⟨before, after, heq⟩ := List.append_of_mem hmem
  refine ⟨beq_self_eq_true _, before, after, heq, ?_⟩
  intro other ho
  rw [heq, names, List.map_append, List.nodup_append] at hnodup
  have hne := hnodup.2.2 other.name (List.mem_map_of_mem ho) override.name (by simp)
  simpa using hne

/-- Overrides are folded in no other way. -/
theorem folded_iff {given folded : List LevelOverride} :
    Folded given folded ↔ folded = settleAll given :=
  ⟨fun h => h.unique (folded_settleAll given), fun h => h ▸ folded_settleAll given⟩

/-- What has no name twice is folded already. -/
theorem folded_self {given : List LevelOverride} (h : (names given).Nodup) :
    Folded given given := by
  refine ⟨h, fun _ => .rfl, ?_, ?_⟩
  · refine List.pairwise_iff_getElem.mpr fun i j hi hj hlt => ?_
    rwa [h.idxOf_getElem, h.idxOf_getElem]
  · intro override hmem
    obtain ⟨before, after, rfl⟩ := List.append_of_mem hmem
    refine ⟨before, after, rfl, ?_⟩
    rw [names, List.map_append, List.map_cons] at h
    exact (List.nodup_cons.mp h.of_append_right).1

/-- The level that options give a name, if they name it. -/
def levelOf? (options : LoggingOptions) (name : String) : Option Level :=
  (ofName? name options.effectiveOverrides).map LevelOverride.level

theorem levelOf?_eq (options : LoggingOptions) (name : String) :
    options.levelOf? name = (ofName? name options.overrides.reverse).map LevelOverride.level := by
  rw [levelOf?, effectiveOverrides_eq, ofName?_settleAll]

/-- An override counts for nothing where another one of its name follows. -/
theorem ofName?_reverse_insert (name : String) {other override : LevelOverride}
    (hname : other.name = override.name) (front middle after : List LevelOverride) :
    ofName? name (front ++ other :: (middle ++ override :: after)).reverse =
      ofName? name (front ++ (middle ++ override :: after)).reverse := by
  by_cases h : override.name = name <;> simp [ofName?, hname, h]

end LoggingOptions

open LevelOverride in
/-- The effective overrides have each name that is given once, in the order of first appearance, with
the last override of that name, and they are the only list that does. So they are effective
themselves as they stand, and an override makes no difference to any name's level where another one
of its name follows somewhere. -/
theorem overrides_folded (options : LoggingOptions) :
    (∀ folded, Folded options.overrides folded ↔ folded = options.effectiveOverrides) ∧
    ({ options with overrides := options.effectiveOverrides } : LoggingOptions).effectiveOverrides =
      options.effectiveOverrides ∧
    ∀ front middle after other override,
      options.overrides = front ++ (middle ++ override :: after) → other.name = override.name →
      ∀ name, ({ options with overrides := front ++ other :: (middle ++ override :: after) } :
          LoggingOptions).levelOf? name = options.levelOf? name := by
  refine ⟨fun folded => LoggingOptions.folded_iff, ?_, ?_⟩
  · have h := LoggingOptions.folded_self (LoggingOptions.folded_settleAll options.overrides).nodup
    exact (LoggingOptions.folded_iff.mp h).symm
  · intro front middle after other override hgiven hname name
    rw [LoggingOptions.levelOf?_eq, LoggingOptions.levelOf?_eq, hgiven,
      LoggingOptions.ofName?_reverse_insert name hname]

open LevelOverride in
/-- Two names, of which the first comes again at the end, and once more at the start. -/
theorem overrides_folded_around_another :
    let a (level : Level) : LevelOverride := ⟨"a", level, by decide⟩
    let b : LevelOverride := ⟨"b", .error, by decide⟩
    let options : LoggingOptions := { overrides := [a .debug, b, a .trace] }
    options.effectiveOverrides = [a .trace, b] ∧ Folded options.overrides [a .trace, b] ∧
      ∀ name, ({ options with overrides := [a .warn, a .debug, b, a .trace] } :
        LoggingOptions).levelOf? name = options.levelOf? name := by
  intro a b options
  obtain ⟨hfolded, -, hinsert⟩ := overrides_folded options
  have heffective : options.effectiveOverrides = [a .trace, b] := by decide
  exact ⟨heffective, (hfolded _).mpr heffective.symm,
    hinsert [] [a .debug, b] [] (a .warn) (a .trace) rfl rfl⟩

end ShardedLines
