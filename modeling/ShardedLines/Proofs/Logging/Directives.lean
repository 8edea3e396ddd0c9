import Mathlib.Data.List.Forall2
import ShardedLines.Logging.Options
import ShardedLines.Proofs.Text.Lines

/-!
Filter directives read back.

Directives are written without quotes, but no name holds a comma or an equals sign, and no level
does. So commas end the parts of a filter and nothing else, an equals sign stands in each part but
the first, between a name and a level, and the text of a filter says which options it was written
from, as far as they have an effect (`directives_unambiguous`).
-/

namespace ShardedLines

theorem Level.directive_injective : Function.Injective Level.directive := by
  intro first second h
  cases first <;> cases second <;> first | rfl | exact absurd h (by decide)

theorem Level.notMem_directive (level : Level) :
    ',' ∉ level.directive.toList ∧ '=' ∉ level.directive.toList := by
  cases level <;> decide

namespace LevelOverride

theorem notMem_name_of_isForbidden {c : Char} (h : isForbiddenInName c = true)
    (override : LevelOverride) : c ∉ override.name.toList := by
  have hfits := override.name_fits
  simp only [isTargetName, Bool.and_eq_true, Bool.not_eq_true', List.any_eq_false] at hfits
  exact fun hc => hfits.2 c hc h

/-- An override as a part of a filter. -/
def part (override : LevelOverride) : List Char :=
  override.name.toList ++ '=' :: override.level.directive.toList

theorem toList_overrideDirective (override : LevelOverride) :
    (LoggingOptions.overrideDirective override).toList = override.part := by
  simp [LoggingOptions.overrideDirective, part]

theorem comma_notMem_part (override : LevelOverride) : ',' ∉ override.part := by
  have hname : ',' ∉ override.name.toList := notMem_name_of_isForbidden (by decide) override
  simp [part, hname, override.level.notMem_directive.1]

/-- The equals sign parts name and level. -/
theorem pieces_part (override : LevelOverride) :
    pieces '=' override.part = [override.name.toList, override.level.directive.toList] := by
  have hname : '=' ∉ override.name.toList := notMem_name_of_isForbidden (by decide) override
  rw [part, pieces_append_cons hname, pieces_of_not_mem override.level.notMem_directive.2]

theorem count_part (override : LevelOverride) : override.part.count '=' = 1 := by
  have hlength := length_pieces '=' override.part
  rw [pieces_part] at hlength
  exact Nat.succ.inj hlength.symm

theorem part_injective : Function.Injective part := by
  intro first second h
  have hpieces := congrArg (pieces '=') h
  rw [pieces_part, pieces_part, List.cons.injEq, List.singleton_inj, String.toList_inj,
    String.toList_inj] at hpieces
  obtain ⟨hname, hlevel⟩ := hpieces
  cases first
  cases second
  cases hname
  cases Level.directive_injective hlevel
  rfl

end LevelOverride

namespace LoggingOptions

theorem pieces_directives (options : LoggingOptions) :
    pieces ',' options.directives.toList =
      options.defaultLevel.directive.toList :: options.effectiveOverrides.map LevelOverride.part := by
  have htexts : (options.defaultLevel.directive ::
        options.effectiveOverrides.map overrideDirective).map String.toList =
      options.defaultLevel.directive.toList ::
        options.effectiveOverrides.map LevelOverride.part := by
    rw [List.map_cons, List.map_map]
    congr 1
    exact List.map_congr_left fun override _ => override.toList_overrideDirective
  rw [directives, String.toList_intercalate, htexts]
  refine pieces_intercalate (List.cons_ne_nil _ _) (List.forall_mem_cons.mpr ⟨?_, ?_⟩)
  · exact options.defaultLevel.notMem_directive.1
  · rw [List.forall_mem_map]
    exact fun override _ => override.comma_notMem_part

end LoggingOptions

/-- Cut at its commas, a filter is the directive of the default level and then one part for each
effective override, in order; each of these has one equals sign, with the name before it and the
directive of the level behind it. So equal filters come from options with the same default level and
the same effective overrides, and only from these. -/
theorem directives_unambiguous (options other : LoggingOptions) :
    let parts := pieces ',' options.directives.toList
    parts.length = options.effectiveOverrides.length + 1 ∧
    parts.head? = some options.defaultLevel.directive.toList ∧
    List.Forall₂ (fun override part => part.count '=' = 1 ∧
        part = override.name.toList ++ '=' :: override.level.directive.toList)
      options.effectiveOverrides parts.tail ∧
    (options.directives = other.directives ↔ options.defaultLevel = other.defaultLevel ∧
      options.effectiveOverrides = other.effectiveOverrides) := by
  intro parts
  have hparts : parts = options.defaultLevel.directive.toList ::
      options.effectiveOverrides.map LevelOverride.part := options.pieces_directives
  refine ⟨?_, ?_, ?_, ?_, ?_⟩
  · rw [hparts, List.length_cons, List.length_map]
  · rw [hparts, List.head?_cons]
  · rw [hparts, List.tail_cons, List.forall₂_map_right_iff, List.forall₂_same]
    exact fun override _ => ⟨override.count_part, rfl⟩
  · intro h
    have hpieces := congrArg (fun text : String => pieces ',' text.toList) h
    simp only [LoggingOptions.pieces_directives, List.cons.injEq, String.toList_inj] at hpieces
    exact ⟨Level.directive_injective hpieces.1,
      LevelOverride.part_injective.list_map hpieces.2⟩
  · rintro ⟨hlevel, heffective⟩
    rw [LoggingOptions.directives, LoggingOptions.directives, hlevel, heffective]

end ShardedLines
