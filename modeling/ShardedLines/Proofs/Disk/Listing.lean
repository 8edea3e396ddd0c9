import Mathlib.Data.List.Lex
import ShardedLines.Proofs.Disk.Path

/-!
The order in which paths are listed.

Paths are compared component by component, names by their UTF-8 bytes (`compare_eq_lt_iff`). A
number that is written into a path adds neither a slash nor a point, so it stays within one name,
the same one whatever its digits (`exists_components_eq`), and where the digits differ they decide
which path comes first (`compare_eq_lt_of_digits`).
-/

namespace ShardedLines

namespace Component

/-- What stands before a component where paths are listed. -/
def Before : Component → Component → Prop
  | name s, name t => utf8 s < utf8 t
  | a, b => a.rank < b.rank

/-- The text that tells a component from others of its kind. -/
def text : Component → String
  | name s => s
  | _ => ""

variable (a b : Component)

theorem compare_eq_lt_iff : Ord.compare a b = .lt ↔ Before a b := by
  change Component.compare a b = .lt ↔ _
  unfold Component.compare
  split
  · exact compareOfLessAndEq_eq_lt.trans (utf8_lt_iff _ _).symm
  · rename_i hnames
    rw [Before, Nat.compare_eq_lt]
    exact hnames

theorem compare_eq_iff_eq : Ord.compare a b = .eq ↔ a = b := by
  change Component.compare a b = .eq ↔ _
  unfold Component.compare
  split
  · exact Std.compare_eq_iff_eq.trans (by rw [name.injEq])
  · rw [Nat.compare_eq_eq]
    cases a <;> cases b <;> simp_all [rank]

/-- Components are ordered by their kinds first, then by their texts. -/
theorem compare_eq_compareLex :
    (Ord.compare : Component → Component → Ordering) =
      compareLex (compareOn rank) (compareOn text) := by
  funext a b
  change Component.compare a b = _
  cases a <;> cases b <;> rfl

instance : Std.TransOrd Component := by
  change Std.TransCmp _
  rw [compare_eq_compareLex]
  infer_instance

instance : Std.LawfulEqOrd Component where
  eq_of_compare := (compare_eq_iff_eq _ _).mp

end Component

namespace Path

/-- Of two paths the first comes first in the listing if its first other component does, or if the
other path goes on from it. -/
theorem compare_eq_lt_iff (p q : String) :
    compare p q = .lt ↔ List.Lex Component.Before (components p) (components q) := by
  unfold compare
  generalize components p = xs
  generalize components q = ys
  induction xs generalizing ys with
  | nil => cases ys <;> simp [Ord.compare, List.compareLex]
  | cons x xs ih =>
    cases ys with
    | nil => simp [Ord.compare, List.compareLex]
    | cons y ys =>
      have hcons : Ord.compare (x :: xs) (y :: ys) = (Ord.compare x y).then (Ord.compare xs ys) :=
        List.compareLex_cons_cons
      rw [hcons, Ordering.then_eq_lt, Component.compare_eq_lt_iff, Component.compare_eq_iff_eq, ih]
      constructor
      · rintro (h | ⟨rfl, h⟩)
        · exact .rel h
        · exact .cons h
      · rintro (_ | h | h)
        · exact .inl h
        · exact .inr ⟨rfl, h⟩

theorem compare_swap (p q : String) : compare p q = (compare q p).swap :=
  Std.OrientedOrd.eq_swap

theorem compare_ne_lt_of_lt {p q : String} (h : compare q p = .lt) : compare p q ≠ .lt := by
  rw [compare_swap, h]
  decide

/-- Paths that are told apart by their components are sorted into one strict order. -/
theorem pairwise_sorted {paths : List String} (hnodup : paths.Nodup)
    (hinj : ∀ p ∈ paths, ∀ q ∈ paths, components p = components q → p = q) :
    (sorted paths).Pairwise fun p q => List.Lex Component.Before (components p) (components q) := by
  have htotal : ∀ p q, ((compare p q).isLE || (compare q p).isLE) = true := by
    intro p q
    rw [compare_swap q p]
    cases compare p q <;> rfl
  have htrans : ∀ p q r, (compare p q).isLE = true → (compare q r).isLE = true →
      (compare p r).isLE = true := fun _ _ _ => Std.TransOrd.isLE_trans
  have hle : (sorted paths).Pairwise fun p q => (compare p q).isLE :=
    List.pairwise_mergeSort htrans htotal paths
  have hne : (sorted paths).Nodup := (sorted_perm paths).nodup_iff.mpr hnodup
  refine (hle.and hne).imp_of_mem ?_
  intro p q hp hq ⟨hle, hne⟩
  rw [← compare_eq_lt_iff]
  cases hc : compare p q with
  | lt => rfl
  | eq =>
    have hsame := hinj p ((sorted_perm paths).mem_iff.mp hp) q ((sorted_perm paths).mem_iff.mp hq)
      (Std.LawfulEqOrd.eq_of_compare hc)
    exact absurd hsame hne
  | gt =>
    rw [hc] at hle
    cases hle

/-! ## A number in a path -/

/-- A stretch with a character that is no point stands for a name. -/
theorem step?_of_mem {text : List Char} {c : Char} (hc : c ∈ text) (hpoint : c ≠ '.') :
    step? (String.ofList text) = some (.name (String.ofList text)) := by
  have hne : ∀ other : List Char, c ∉ other → String.ofList text ≠ String.ofList other := by
    intro other hother h
    exact hother (String.ofList_injective h ▸ hc)
  unfold step?
  split
  · exact absurd ‹_› (hne [] List.not_mem_nil)
  · exact absurd ‹_› (hne ['.'] (by simpa using hpoint))
  · exact absurd ‹_› (hne ['.', '.'] (by simpa using hpoint))
  · rfl

/-- Text without a slash goes on from the last segment in front of it, and into the first one behind
it. -/
theorem segments_of_notMem {before text after start stop : List Char} {init rest : List (List Char)}
    (hbefore : pieces '/' before = init ++ [start]) (hafter : pieces '/' after = stop :: rest)
    (hslash : '/' ∉ text) :
    segments (String.ofList (before ++ text ++ after)) =
      (init ++ (start ++ text ++ stop) :: rest).map String.ofList := by
  have hbehind : pieces '/' (text ++ after) = (text ++ stop) :: rest := by
    rw [pieces_append_of_not_mem hslash, hafter, List.modifyHead_cons]
  rw [segments, String.toList_ofList, List.append_assoc, pieces_append hbefore hbehind,
    List.append_assoc]

theorem isAbsolute_of_notMem {text : List Char} (hne : text ≠ []) (hslash : '/' ∉ text)
    (before after : List Char) :
    isAbsolute (String.ofList (before ++ text ++ after)) ↔ before.head? = some '/' := by
  rw [isAbsolute, String.toList_ofList]
  cases before with
  | cons b before => simp
  | nil =>
    obtain ⟨c, rest, rfl⟩ := List.exists_cons_of_ne_nil hne
    simpa using ne_of_mem_of_not_mem List.mem_cons_self hslash

/-- Of the components of a path only one depends on digits within it, which is a name. -/
theorem exists_components_eq (before after : List Char) :
    ∃ front start stop back, ∀ digits : List Char, digits ≠ [] →
      (∀ c ∈ digits, c.isDigit = true) → components (String.ofList (before ++ digits ++ after)) =
        front ++ .name (String.ofList (start ++ digits ++ stop)) :: back := by
  obtain ⟨init, start, hbefore⟩ : ∃ init start, pieces '/' before = init ++ [start] :=
    ⟨_, _, (List.dropLast_concat_getLast (pieces_ne_nil '/' before)).symm⟩
  obtain ⟨stop, rest, hafter⟩ := List.exists_cons_of_ne_nil (pieces_ne_nil '/' after)
  let steps (texts : List (List Char)) := (texts.map String.ofList).filterMap step?
  let top : List Component :=
    if before.head? = some '/' then [.root]
    else if init.head? = some ['.'] then [.here]
    else []
  refine ⟨top ++ steps init, start, stop, steps rest, ?_⟩
  intro digits hne hdigits
  have hslash : '/' ∉ digits := fun h => absurd (hdigits _ h) (by decide)
  have hpoint : '.' ∉ digits := fun h => absurd (hdigits _ h) (by decide)
  obtain ⟨c, hc⟩ := List.exists_mem_of_ne_nil digits hne
  have hname : step? (String.ofList (start ++ digits ++ stop)) = some (.name _) :=
    step?_of_mem (by simp [hc]) (ne_of_mem_of_not_mem hc hpoint)
  have hsegments := segments_of_notMem hbefore hafter hslash
  have habsolute := isAbsolute_of_notMem hne hslash before after
  have hhere : ((segments (String.ofList (before ++ digits ++ after))).head? == some ".") ↔
      init.head? = some ['.'] := by
    rw [hsegments]
    cases init with
    | nil =>
      have hne : String.ofList (start ++ digits ++ stop) ≠ "." := by
        intro h
        rw [h] at hname
        cases hname
      simpa using hne
    | cons piece init =>
      have hpiece : String.ofList piece = "." ↔ piece = ['.'] :=
        ⟨fun h => String.ofList_injective h, fun h => h ▸ rfl⟩
      simp [hpiece]
  simp only [components, habsolute, hhere, top, steps]
  rw [hsegments, List.map_append, List.map_cons, List.filterMap_append,
    List.filterMap_cons_some hname]
  split
  · rfl
  · split <;> rfl

/-- The digits written into a path decide its place in the listing. -/
theorem compare_eq_lt_of_digits {first second : List Char} (hne : first ≠ [])
    (hdigits : ∀ c ∈ first, c.isDigit = true) (hne' : second ≠ [])
    (hdigits' : ∀ c ∈ second, c.isDigit = true) (hlt : ∀ x y, first ++ x < second ++ y)
    (before after : List Char) :
    compare (String.ofList (before ++ first ++ after))
      (String.ofList (before ++ second ++ after)) = .lt := by
  obtain ⟨front, start, stop, back, hcomponents⟩ := exists_components_eq before after
  rw [compare_eq_lt_iff, hcomponents first hne hdigits, hcomponents second hne' hdigits']
  refine List.Lex.append_left _ (.rel ?_) front
  refine (utf8_lt_iff _ _).mpr ?_
  change String.toList _ < String.toList _
  simp only [String.toList_ofList, List.append_assoc]
  exact List.append_left_lt (hlt stop stop)

end Path

end ShardedLines
