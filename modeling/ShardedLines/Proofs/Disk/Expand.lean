import Mathlib.Data.List.Dedup
import ShardedLines.Proofs.Disk.Growth
import ShardedLines.Proofs.Naming.Pattern

/-!
Finding paths by a pattern.

A pattern stands for a path name by name (`standsFor_iff_segments`). Where each of its segments
stands for names alone (`OfPaths`), what the search finds has the form of the pattern
(`form_of_mem_expand`), no path is found twice (`nodup_expand`), and every path that leads somewhere
and has the form is found (`mem_expand`).
-/

namespace ShardedLines

namespace Pattern

/-- A token that is no slash goes to the first segment, with the characters that it stands for. -/
theorem forall₂_pieces_cons (token : PatternToken) (taken : List Char) {rest : List PatternToken}
    {text : List Char} (ht : token ≠ .plain '/') (hs : '/' ∉ taken)
    (add : ∀ {rest text}, StandsFor rest text → StandsFor (token :: rest) (taken ++ text))
    (h : List.Forall₂ StandsFor (pieces (.plain '/') rest) (pieces '/' text)) :
    List.Forall₂ StandsFor (pieces (.plain '/') (token :: rest)) (pieces '/' (taken ++ text)) := by
  obtain ⟨segment, segments, hp⟩ := List.exists_cons_of_ne_nil (pieces_ne_nil (.plain '/') rest)
  obtain ⟨piece, others, ht'⟩ := List.exists_cons_of_ne_nil (pieces_ne_nil '/' text)
  rw [hp, ht'] at h
  obtain ⟨hfirst, hrest⟩ := List.forall₂_cons.mp h
  rw [pieces, beq_false_of_ne ht, if_neg Bool.false_ne_true, pieces_append_of_not_mem hs, hp, ht']
  exact .cons (add hfirst) hrest

/-- A pattern stands for a path as its segments stand for the path's. -/
theorem StandsFor.forall₂_pieces {pattern : List PatternToken} {text : List Char}
    (h : StandsFor pattern text) (hb : .bracketed '/' ∉ pattern) :
    List.Forall₂ StandsFor (pieces (.plain '/') pattern) (pieces '/' text) := by
  induction h with
  | nil => exact .cons .nil .nil
  | @plain c rest text _ ih =>
    have ih := ih fun hm => hb (List.mem_cons_of_mem _ hm)
    by_cases hc : c = '/'
    · subst hc
      rw [pieces, pieces, beq_self_eq_true, beq_self_eq_true, if_pos rfl, if_pos rfl]
      exact .cons .nil ih
    · exact forall₂_pieces_cons (.plain c) [c] (by simpa using hc) (by simpa using Ne.symm hc)
        (.plain c) ih
  | @bracketed c rest text _ ih =>
    have ih := ih fun hm => hb (List.mem_cons_of_mem _ hm)
    have hc : '/' ≠ c := by
      rintro rfl
      exact hb List.mem_cons_self
    exact forall₂_pieces_cons (.bracketed c) [c] (by simp) (by simpa using hc) (.bracketed c) ih
  | @run taken rest text hs _ ih =>
    have ih := ih fun hm => hb (List.mem_cons_of_mem _ hm)
    exact forall₂_pieces_cons .run taken (by simp) hs (.run hs) ih

theorem StandsFor.append {first second : List PatternToken} {text more : List Char}
    (h : StandsFor first text) (h' : StandsFor second more) :
    StandsFor (first ++ second) (text ++ more) := by
  induction h with
  | nil => exact h'
  | plain c _ ih => exact .plain c ih
  | bracketed c _ ih => exact .bracketed c ih
  | run hs _ ih =>
    rw [List.append_assoc]
    exact .run hs ih

theorem StandsFor.of_forall₂ {segments : List (List PatternToken)} {texts : List (List Char)}
    (h : List.Forall₂ StandsFor segments texts) :
    StandsFor ([.plain '/'].intercalate segments) (['/'].intercalate texts) := by
  induction h with
  | nil => exact .nil
  | @cons segment text segments texts hfirst hrest ih =>
    cases hrest with
    | nil => simpa using hfirst
    | cons _ _ =>
      rw [List.intercalate_cons_cons, List.intercalate_cons_cons]
      exact (hfirst.append (.plain '/' .nil)).append ih

/-- Without a slash in brackets, a pattern stands for a text segment by segment. -/
theorem standsFor_iff_forall₂ {pattern : List PatternToken} {text : List Char}
    (hb : .bracketed '/' ∉ pattern) :
    StandsFor pattern text ↔
      List.Forall₂ StandsFor (pieces (.plain '/') pattern) (pieces '/' text) := by
  constructor
  · intro h
    exact h.forall₂_pieces hb
  · intro h
    have hjoined := StandsFor.of_forall₂ h
    rwa [intercalate_pieces, intercalate_pieces] at hjoined

/-- What is written without star and brackets stands for itself alone. -/
theorem standsFor_of_text? {pattern : List PatternToken} {written : List Char}
    (ht : text? pattern = some written) {text : List Char} :
    StandsFor pattern text ↔ text = written := by
  induction pattern generalizing written text with
  | nil =>
    cases ht
    constructor
    · rintro ⟨⟩
      rfl
    · rintro rfl
      exact .nil
  | cons token rest ih =>
    cases token with
    | plain c =>
      obtain ⟨more, hmore, rfl⟩ := Option.map_eq_some_iff.mp ht
      constructor
      · rintro (_ | ⟨_, h⟩)
        rw [(ih hmore).mp h]
      · rintro rfl
        exact .plain c ((ih hmore).mpr rfl)
    | bracketed c | run => cases ht

/-! ## Patterns of paths -/

def isAbsolute (pattern : List PatternToken) : Bool :=
  pattern.head? == some (.plain '/')

/-- The stretches of a pattern between its slashes, behind the slash at its start. -/
def segments : (pattern : List PatternToken) → List (List PatternToken)
  | .plain '/' :: rest => pieces (.plain '/') rest
  | pattern => pieces (.plain '/') pattern

theorem exists_of_isAbsolute {pattern : List PatternToken} (h : isAbsolute pattern = true) :
    ∃ rest, pattern = .plain '/' :: rest := by
  rw [isAbsolute, beq_iff_eq, List.head?_eq_some_iff] at h
  exact h

theorem segments_of_not_isAbsolute {pattern : List PatternToken} (h : ¬ isAbsolute pattern = true) :
    segments pattern = pieces (.plain '/') pattern := by
  rw [segments]
  rintro rest rfl
  exact h rfl

theorem segments_ne_nil (pattern : List PatternToken) : segments pattern ≠ [] := by
  unfold segments
  split <;> exact pieces_ne_nil _ _

/-- A pattern that starts like a path stands for it name by name. -/
theorem standsFor_iff_segments {pattern : List PatternToken} {path : String}
    (hb : .bracketed '/' ∉ pattern) (ha : Path.isAbsolute path = isAbsolute pattern) :
    StandsFor pattern path.toList ↔
      List.Forall₂ (fun segment name => StandsFor segment name.toList) (segments pattern)
        (Path.names path) := by
  have named : ∀ (segments : List (List PatternToken)) (texts : List (List Char)),
      List.Forall₂ (fun segment name => StandsFor segment name.toList) segments
          (texts.map String.ofList) ↔ List.Forall₂ StandsFor segments texts := by
    intro segments texts
    rw [List.forall₂_map_right_iff]
    simp only [String.toList_ofList]
  by_cases habs : isAbsolute pattern = true
  · rw [habs] at ha
    obtain ⟨text, htext⟩ := Path.exists_of_isAbsolute ha
    obtain ⟨rest, rfl⟩ := exists_of_isAbsolute habs
    rw [Path.names_of_isAbsolute ha htext, named, htext, segments,
      ← standsFor_iff_forall₂ (mt (List.mem_cons_of_mem _) hb)]
    exact (standsFor_token_iff (c := '/')).trans (by simp)
  · rw [Path.names, if_neg (ha ▸ habs), segments_of_not_isAbsolute habs, Path.segments, named]
    exact standsFor_iff_forall₂ hb

end Pattern

namespace Disk

open ShardedLines.Path (IsName ofNames)
open Pattern (StandsFor)

/-! ## Directories -/

variable {disk : Disk}

theorem nodup_children (h : disk.Proper) (location : Location) :
    (disk.children location).Nodup := by
  let child (place : Location) : Option String :=
    if place.dropLast == location then place.getLast? else none
  have hplace : ∀ {place name}, name ∈ child place → place = location ++ [name] := by
    intro place name hn
    simp only [child] at hn
    split at hn
    · rename_i hdrop
      rw [← eq_of_beq hdrop]
      exact (List.dropLast_append_getLast? name hn).symm
    · cases hn
  have hchildren : disk.children location = disk.locations.filterMap child := by
    rw [locations, List.filterMap_map]
    rfl
  rw [hchildren]
  exact h.nodup.filterMap fun first second name hf hs => (hplace hf).trans (hplace hs).symm

theorem isName_of_mem_children (h : disk.Proper) {location : Location} {name : String}
    (hn : name ∈ disk.children location) : IsName name := by
  obtain ⟨entry, he, hname⟩ := List.mem_filterMap.mp hn
  split at hname
  · exact h.isName entry.1 (List.mem_map_of_mem he) name hname
  · cases hname

theorem mem_children {location : Location} {name : String}
    (h : (disk.find? (location ++ [name])).isSome) : name ∈ disk.children location := by
  obtain ⟨entry, he, heq⟩ := List.mem_map.mp (mem_locations h (by simp))
  exact List.mem_filterMap.mpr ⟨entry, he, by simp [heq]⟩

theorem refusal?_eq_none {path : String} :
    refusal? path = none ↔
      '\x00' ∉ path.toList ∧ path ≠ "" ∧ path.utf8ByteSize ≤ longestPath := by
  simp only [refusal?, List.contains_iff_mem, String.isEmpty_iff]
  split
  · simp_all
  · split
    · simp_all
    · split <;> simp_all

variable {absolute : Bool} {names : List String}

/-- A path on the way to one that is not refused is not refused either. -/
theorem refusal?_of_append (h : ∀ name ∈ names, IsName name) {more : List String}
    (hr : refusal? (ofNames absolute (names ++ more)) = none) :
    refusal? (ofNames absolute names) = none := by
  by_cases hne : names = []
  · subst hne
    cases absolute <;> rfl
  · rw [Path.ofNames_append hne, refusal?_eq_none, String.toList_append, String.utf8ByteSize_append]
      at hr
    obtain ⟨hzero, _, hsize⟩ := hr
    obtain ⟨c, _, hlast⟩ := Path.getLast?_ofNames absolute hne h
    refine refusal?_eq_none.mpr ⟨?_, ?_, by omega⟩
    · exact fun hm => hzero (List.mem_append_left _ hm)
    · intro he
      simp [he] at hlast

theorem locate_directory (h : ∀ name ∈ names, IsName name)
    (hr : refusal? (ofNames absolute names) = none)
    (leads : disk.Leads (disk.start absolute) names)
    (hdir : disk.find? (disk.start absolute ++ names) = some .directory) :
    disk.locate (ofNames absolute names) = .ok (disk.start absolute ++ names) := by
  by_cases hne : names = []
  · subst hne
    rw [List.append_nil] at hdir ⊢
    cases absolute with
    | true => rfl
    | false =>
      have hhere : disk.isDirectoryAt disk.here := beq_iff_eq.mpr hdir
      change (if _ then _ else _) = _
      rw [hhere, Bool.or_true, if_pos rfl]
      rfl
  · exact locate_ofNames hne h hr leads

/-! ## Segments -/

/-- A segment of a pattern that stands for names alone. -/
structure OfNames (segment : List PatternToken) : Prop where
  isName : ∀ text, Pattern.text? segment = some text → IsName (String.ofList text)
  head : segment.head? ≠ some (.plain '.')

theorem OfNames.of_standsFor {segment : List PatternToken} {name : String}
    (h : StandsFor segment name.toList) (hname : IsName name)
    (hpoint : name.toList.head? ≠ some '.') : OfNames segment where
  isName text ht := by
    rw [← (Pattern.standsFor_of_text? ht).mp h, String.ofList_toList]
    exact hname
  head hd := by
    obtain ⟨rest, rfl⟩ := List.head?_eq_some_iff.mp hd
    generalize name.toList = text at h hpoint
    cases h
    exact hpoint rfl

theorem OfNames.of_forall₂ {segments : List (List PatternToken)} {target : List String}
    (hs : List.Forall₂ (fun segment name => StandsFor segment name.toList) segments target)
    (h : ∀ name ∈ target, IsName name ∧ name.toList.head? ≠ some '.') :
    ∀ segment ∈ segments, OfNames segment := by
  induction hs with
  | nil => exact fun _ hm => nomatch hm
  | cons hfirst _ ih =>
    rw [List.forall_mem_cons] at h ⊢
    exact ⟨.of_standsFor hfirst h.1.1 h.1.2, ih h.2⟩

theorem OfNames.head_beq {segment : List PatternToken} (h : OfNames segment) :
    (segment.head? == some (.plain '.')) = false :=
  beq_false_of_ne h.head

theorem not_special {name : String} (h : IsName name) : (name == "." || name == "..") = false := by
  rw [beq_false_of_ne h.ne_here, beq_false_of_ne h.ne_up, Bool.or_false]

theorem isName_concat {last : String} (h : ∀ name ∈ names, IsName name) (hlast : IsName last) :
    ∀ name ∈ names ++ [last], IsName name :=
  List.forall_mem_append.mpr ⟨h, List.forall_mem_singleton.mpr hlast⟩

/-- The search goes on from different names, which have the form of the segment. -/
theorem exists_candidates (absolute : Bool) (proper : disk.Proper)
    {segment : List PatternToken} (hs : OfNames segment) (h : ∀ name ∈ names, IsName name) :
    ∃ found : List String, found.Nodup ∧
      (∀ name ∈ found, IsName name ∧ StandsFor segment name.toList) ∧
      disk.candidates (ofNames absolute names) segment =
        found.map fun name => ofNames absolute (names ++ [name]) := by
  rw [candidates]
  split
  · rename_i text ht
    have hname := hs.isName text ht
    have hstands : StandsFor segment (String.ofList text).toList := by
      rw [String.toList_ofList]
      exact (Pattern.standsFor_of_text? ht).mpr rfl
    simp only [not_special hname, Bool.false_eq_true, if_false, Path.entryPath_ofNames h]
    split
    · exact ⟨[String.ofList text], by simp, List.forall_mem_singleton.mpr ⟨hname, hstands⟩, rfl⟩
    · exact ⟨[], .nil, by simp, rfl⟩
  · split
    · exact ⟨[], .nil, by simp, rfl⟩
    · rename_i location _
      split
      · exact ⟨[], .nil, by simp, rfl⟩
      · refine ⟨(disk.children location).mergeSort.filter
          fun name => Pattern.covers segment name.toList, ?_, ?_, ?_⟩
        · exact (List.nodup_mergeSort.mpr (nodup_children proper location)).filter _
        · intro name hn
          obtain ⟨hmem, hcovers⟩ := List.mem_filter.mp hn
          rw [Pattern.covers_eq_accepts, Pattern.accepts_iff] at hcovers
          exact ⟨isName_of_mem_children proper (List.mem_mergeSort.mp hmem), hcovers⟩
        · simp only [hs.head_beq, Bool.false_eq_true, if_false, List.map_nil, List.nil_append]
          exact List.map_congr_left fun name _ => Path.entryPath_ofNames h name

/-- The search goes on from a name that is there and has the form of the segment. -/
theorem mem_candidates {segment : List PatternToken} {name : String}
    (hs : StandsFor segment name.toList) (hseg : OfNames segment)
    (h : ∀ name ∈ names, IsName name) (hname : IsName name)
    (hr : refusal? (ofNames absolute (names ++ [name])) = none)
    (leads : disk.Leads (disk.start absolute) (names ++ [name])) :
    ofNames absolute (names ++ [name]) ∈ disk.candidates (ofNames absolute names) segment := by
  obtain ⟨hbefore, hentry, hpresent, -⟩ := leads_append.mp leads
  rw [candidates]
  split
  · -- a segment without star or brackets is looked up by its name, whatever its directory lists
    rename_i text ht
    obtain rfl : String.ofList text = name := by
      rw [← (Pattern.standsFor_of_text? ht).mp hs, String.ofList_toList]
    have hfound : disk.hasPath (ofNames absolute (names ++ [String.ofList text])) = true := by
      rw [hasPath, nodeAt?, locate_ofNames (by simp) (isName_concat h hname) hr leads]
      simpa using hpresent
    simp only [not_special hname, Bool.false_eq_true, if_false, Path.entryPath_ofNames h, hfound,
      if_true]
    exact List.mem_singleton_self _
  · obtain ⟨-, hdir⟩ := entryFor_eq_ok hentry
    have hdirAt : disk.isDirectoryAt (disk.start absolute ++ names) = true := by
      simp [isDirectoryAt, hdir]
    rw [locate_directory h (refusal?_of_append h hr) hbefore hdir]
    simp only [hdirAt, hseg.head_beq, Bool.not_true, Bool.false_eq_true, if_false, List.map_nil,
      List.nil_append]
    refine List.mem_map.mpr ⟨name, List.mem_filter.mpr ⟨?_, ?_⟩, Path.entryPath_ofNames h name⟩
    · exact List.mem_mergeSort.mpr (mem_children hpresent)
    · rw [Pattern.covers_eq_accepts]
      exact (Pattern.accepts_iff _ _).mpr hs

/-! ## The whole search -/

variable {segments : List (List PatternToken)}

/-- What is found runs on through one name for each segment. -/
theorem exists_of_mem_expandSegments (proper : disk.Proper)
    (hs : ∀ segment ∈ segments, OfNames segment) (h : ∀ name ∈ names, IsName name) {path : String}
    (hp : path ∈ disk.expandSegments segments (ofNames absolute names)) :
    ∃ more : List String, (∀ name ∈ more, IsName name) ∧
      List.Forall₂ (fun segment name => StandsFor segment name.toList) segments more ∧
      path = ofNames absolute (names ++ more) := by
  induction segments generalizing names with
  | nil =>
    obtain rfl := List.mem_singleton.mp hp
    exact ⟨[], by simp, .nil, by simp⟩
  | cons segment rest ih =>
    rw [List.forall_mem_cons] at hs
    obtain ⟨found, -, hfound, heq⟩ := exists_candidates absolute proper hs.1 h
    rw [expandSegments, heq, List.mem_flatMap] at hp
    obtain ⟨_, hm, hp⟩ := hp
    obtain ⟨name, hn, rfl⟩ := List.mem_map.mp hm
    obtain ⟨hname, hstands⟩ := hfound name hn
    obtain ⟨more, hmore, hforms, rfl⟩ := ih hs.2 (isName_concat h hname) hp
    exact ⟨name :: more, List.forall_mem_cons.mpr ⟨hname, hmore⟩, .cons hstands hforms, by simp⟩

/-- No path is found twice. -/
theorem nodup_expandSegments (proper : disk.Proper)
    (hs : ∀ segment ∈ segments, OfNames segment) (h : ∀ name ∈ names, IsName name) :
    (disk.expandSegments segments (ofNames absolute names)).Nodup := by
  induction segments generalizing names with
  | nil => exact List.nodup_singleton _
  | cons segment rest ih =>
    rw [List.forall_mem_cons] at hs
    obtain ⟨found, hnodup, hfound, heq⟩ := exists_candidates absolute proper hs.1 h
    have hnext : ∀ name ∈ found, ∀ other ∈ names ++ [name], IsName other :=
      fun name hn => isName_concat h (hfound name hn).1
    rw [expandSegments, heq, List.flatMap_map, List.nodup_flatMap]
    refine ⟨fun name hn => ih hs.2 (hnext name hn), hnodup.imp_of_mem ?_⟩
    -- a path goes on from one name alone
    intro first second hf hsec hne path hp hq
    obtain ⟨more, hmore, -, rfl⟩ := exists_of_mem_expandSegments proper hs.2 (hnext first hf) hp
    obtain ⟨others, hothers, -, hsame⟩ :=
      exists_of_mem_expandSegments proper hs.2 (hnext second hsec) hq
    have hnames := Path.ofNames_inj (by simp)
      (List.forall_mem_append.mpr ⟨hnext first hf, hmore⟩) (by simp)
      (List.forall_mem_append.mpr ⟨hnext second hsec, hothers⟩) hsame
    simp only [List.append_assoc, List.append_cancel_left_eq, List.cons_append,
      List.cons.injEq] at hnames
    exact hne hnames.1

/-- Every path that leads somewhere is found by the segments that stand for its names. -/
theorem mem_expandSegments {target : List String}
    (hs : List.Forall₂ (fun segment name => StandsFor segment name.toList) segments target)
    (hsegments : ∀ segment ∈ segments, OfNames segment) (h : ∀ name ∈ names ++ target, IsName name)
    (hr : refusal? (ofNames absolute (names ++ target)) = none)
    (leads : disk.Leads (disk.start absolute) (names ++ target)) :
    ofNames absolute (names ++ target) ∈
      disk.expandSegments segments (ofNames absolute names) := by
  induction hs generalizing names with
  | nil =>
    rw [List.append_nil]
    exact List.mem_singleton_self _
  | @cons segment name rest others hsegment _ ih =>
    rw [List.append_cons] at h hr leads ⊢
    rw [List.forall_mem_cons] at hsegments
    have hstep : ∀ other ∈ names ++ [name], IsName other :=
      fun other ho => h other (List.mem_append_left _ ho)
    refine List.mem_flatMap.mpr ⟨_, ?_, ih hsegments.2 h hr leads⟩
    exact mem_candidates hsegment hsegments.1
      (fun other ho => hstep other (List.mem_append_left _ ho)) (hstep name (by simp))
      (refusal?_of_append hstep hr) (leads_append.mp leads).1

/-! ## Patterns of paths -/

/-- A pattern whose segments stand for names alone. -/
structure OfPaths (pattern : List PatternToken) : Prop where
  noSlash : .bracketed '/' ∉ pattern
  segments : ∀ segment ∈ Pattern.segments pattern, OfNames segment

variable {pattern : List PatternToken} {path : String}

/-- One plain path that a pattern stands for is enough. -/
theorem OfPaths.of_standsFor (hp : StandsFor pattern path.toList) (hb : .bracketed '/' ∉ pattern)
    (ha : Path.isAbsolute path = Pattern.isAbsolute pattern) (plain : Path.IsPlain path) :
    OfPaths pattern where
  noSlash := hb
  segments := OfNames.of_forall₂ ((Pattern.standsFor_iff_segments hb ha).mp hp)
    fun name hn => ⟨plain.isStraight name hn, (plain name hn).2⟩

/-- The search starts where the paths do that the pattern stands for. -/
theorem expand_eq (disk : Disk) (pattern : List PatternToken) :
    disk.expand pattern =
      disk.expandSegments (Pattern.segments pattern) (ofNames (Pattern.isAbsolute pattern) []) := by
  by_cases ha : Pattern.isAbsolute pattern = true
  · obtain ⟨rest, rfl⟩ := Pattern.exists_of_isAbsolute ha
    rfl
  · rw [Pattern.segments_of_not_isAbsolute ha, Bool.eq_false_iff.mpr ha, expand]
    · rfl
    · rintro rest rfl
      exact ha rfl

theorem nodup_expand (proper : disk.Proper) (hof : OfPaths pattern) :
    (disk.expand pattern).Nodup := by
  rw [expand_eq]
  exact nodup_expandSegments proper hof.segments (by simp)

/-- What is found is a path of names that has the form of the pattern. -/
theorem form_of_mem_expand (proper : disk.Proper) (hof : OfPaths pattern)
    (h : path ∈ disk.expand pattern) :
    Path.IsStraight path ∧ Path.isAbsolute path = Pattern.isAbsolute pattern ∧
      StandsFor pattern path.toList := by
  rw [expand_eq] at h
  obtain ⟨names, hnames, hforms, rfl⟩ :=
    exists_of_mem_expandSegments proper hof.segments (by simp) h
  rw [List.nil_append]
  have hne : names ≠ [] := by
    rintro rfl
    exact Pattern.segments_ne_nil pattern (List.forall₂_nil_right_iff.mp hforms)
  obtain ⟨hstraight, habsolute, hback⟩ := Path.isStraight_ofNames hne hnames
  refine ⟨hstraight, habsolute, ?_⟩
  rw [Pattern.standsFor_iff_segments hof.noSlash habsolute, hback]
  exact hforms

/-- Every path of names that leads somewhere is found by the patterns that stand for it. -/
theorem mem_expand (hof : OfPaths pattern) (hp : StandsFor pattern path.toList)
    (ha : Path.isAbsolute path = Pattern.isAbsolute pattern) (straight : Path.IsStraight path)
    (reaches : disk.Reaches path) : path ∈ disk.expand pattern := by
  have hr := reaches.accepted
  rw [← Path.ofNames_names path] at hr
  have hmem : ofNames (Path.isAbsolute path) ([] ++ Path.names path) ∈
      disk.expandSegments (Pattern.segments pattern) (ofNames (Path.isAbsolute path) []) :=
    mem_expandSegments ((Pattern.standsFor_iff_segments hof.noSlash ha).mp hp) hof.segments
      straight hr reaches.leads
  rwa [List.nil_append, Path.ofNames_names, ha, ← expand_eq] at hmem

end Disk

end ShardedLines
