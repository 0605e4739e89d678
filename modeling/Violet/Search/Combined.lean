import Violet.Search.Facets

/-!
# Several facets at once

A filter with several facets keeps the rows that match all of them, or the rows that match one of
them. Null is no match, but the filter throws where it looks into null for the second kind.
-/

namespace Violet

open Dart

/-- The filter page lists the facet, for some results. -/
def Facet.Listed (f : Facet) : Prop := ∃ queryResult, f ∈ (initTagPad queryResult).map Prod.fst

/-- The text in the column of a facet, unless it is null. -/
def Facet.text (f : Facet) (row : ResultRow) : Option Str := (prefix2Tag f.group).bind row

/-- A row matches a facet: its column has the tag between bars, or is the value. -/
def Facet.matches (f : Facet) (row : ResultRow) : Bool :=
  match f.text row with
  | none => false
  | some text =>
    if isSingleTag f.group = some true then text = f.name
    else contains text ('|' :: searchedTag f.group f.name ++ ['|'])

/-- The states of facets under their keys. -/
def tagStatesOf (states : List (Facet × Bool)) : List (Str × Bool) :=
  states.map fun state => (state.1.key, state.2)

/-- The row matches all selected facets, or one of them. -/
def combined (isOr : Bool) (states : List (Facet × Bool)) (row : ResultRow) : Bool :=
  if isOr then states.any fun state => state.2 && state.1.matches row
  else states.all fun state => !state.2 || state.1.matches row

/-- The filter keeps exactly the rows that match, in their order, and does not throw. -/
def FiltersCombined (isOr : Bool) (states : List (Facet × Bool)) (queryResult : List ResultRow) :
    Prop :=
  applyFilter isOr (tagStatesOf states) queryResult =
    some (queryResult.filter (combined isOr states))

/-- The facet stands for one of several values in a column, and the column is null. -/
def Facet.IsNull (f : Facet) (row : ResultRow) : Prop :=
  isSingleTag f.group = some false ∧ f.text row = none

/-- Before each selected facet whose column is null there is a selected one that the row matches. -/
def Shielded (states : List (Facet × Bool)) (row : ResultRow) : Prop :=
  ∀ l f r, states = l ++ (f, true) :: r → f.IsNull row →
    ∃ f', (f', true) ∈ l ∧ f'.matches row = true

section

variable {f : Facet} {row : ResultRow} {states : List (Facet × Bool)} {isOr : Bool}

lemma Facet.Listed.eq_facetOf (h : f.Listed) :
    ∃ key column, '|' ∉ key ∧ f = facetOf key column := by
  obtain ⟨queryResult, hf⟩ := h
  obtain ⟨-, -, column, text, -, key, hkey, rfl⟩ := mem_initTagPad_iff.mp hf
  exact ⟨key, column, notMem_of_mem_pieces hkey, rfl⟩

/-! ### Null columns -/

lemma shielded_nil : Shielded [] row := by
  intro l f r h
  simp at h

lemma shielded_cons_unselected : Shielded ((f, false) :: states) row ↔ Shielded states row := by
  constructor
  · intro h l f' r hstates hnull
    obtain ⟨f'', hmem, hmatches⟩ := h ((f, false) :: l) f' r (by rw [hstates]; rfl) hnull
    refine ⟨f'', ?_, hmatches⟩
    simpa using hmem
  · intro h l f' r hstates hnull
    cases l with
    | nil => simp at hstates
    | cons state l =>
      obtain ⟨f'', hmem, hmatches⟩ := h l f' r (List.cons.inj hstates).2 hnull
      exact ⟨f'', List.mem_cons_of_mem _ hmem, hmatches⟩

lemma shielded_cons_selected : Shielded ((f, true) :: states) row ↔
    ¬ f.IsNull row ∧ (f.matches row = true ∨ Shielded states row) := by
  constructor
  · intro h
    refine ⟨fun hnull => ?_, or_iff_not_imp_left.mpr fun hmatches l f' r hstates hnull => ?_⟩
    · obtain ⟨f'', hmem, -⟩ := h [] f states rfl hnull
      cases hmem
    · obtain ⟨f'', hmem, hf''⟩ := h ((f, true) :: l) f' r (by rw [hstates]; rfl) hnull
      rcases List.mem_cons.mp hmem with heq | hmem
      · cases heq
        exact absurd hf'' hmatches
      · exact ⟨f'', hmem, hf''⟩
  · rintro ⟨hnull, hrest⟩ l f' r hstates hnull'
    cases l with
    | nil =>
      cases hstates
      exact absurd hnull' hnull
    | cons state l =>
      obtain ⟨rfl, rfl⟩ := List.cons.inj hstates
      rcases hrest with hmatches | hrest
      · exact ⟨f, List.mem_cons_self, hmatches⟩
      · obtain ⟨f'', hmem, hmatches⟩ := hrest l f' r rfl hnull'
        exact ⟨f'', List.mem_cons_of_mem _ hmem, hmatches⟩

/-! ### One turn -/

lemma filterTag_decided (isOr : Bool) (row : ResultRow) (state : Str × Bool) :
    filterTag isOr row isOr state = some isOr := by
  rw [filterTag, if_pos rfl, ite_self]

lemma text_facetOf (key : Str) (column : ResultColumn) (row : ResultRow) :
    (facetOf key column).text row = row column := by
  rw [Facet.text, (facetOf_group key column).1, Option.bind_some]

/-- A selected facet whose column is null stops the filter, or rejects the row. -/
lemma filterTag_null (h : f.Listed) (hnull : f.IsNull row) (isOr : Bool) :
    filterTag isOr row (!isOr) (f.key, true) = if isOr then none else some false := by
  obtain ⟨key, column, hkey, rfl⟩ := h.eq_facetOf
  have hsingle := (facetOf_group key column).2.1.symm.trans hnull.1
  have htext := (text_facetOf key column row).symm.trans hnull.2
  rw [filterTag_facet hkey, htext, Option.some.inj hsingle, Bool.not_false, Bool.and_true]

/-- Any other selected facet answers whether the row matches. -/
lemma filterTag_notNull (h : f.Listed) (hnull : ¬ f.IsNull row) (isOr : Bool) :
    filterTag isOr row (!isOr) (f.key, true) = some (f.matches row) := by
  obtain ⟨key, column, hkey, rfl⟩ := h.eq_facetOf
  have hsingle := (facetOf_group key column).2.1
  have hinner (text : Str) : decide (searchedTag (facetOf key column).group
      (facetOf key column).name ∈ innerParts (text.splitOn '|')) = contains text
        ('|' :: searchedTag (facetOf key column).group (facetOf key column).name ++ ['|']) :=
    decide_eq_decide.mpr (infix_iff_mem_innerParts (notMem_searchedTag hkey column)).symm
  rw [filterTag_facet hkey, Facet.matches, ← text_facetOf key column row, hsingle]
  cases htext : (facetOf key column).text row with
  | none =>
    have hcolumn : column.single = true := by
      by_contra hcolumn
      exact hnull ⟨hsingle.trans (congrArg some (Bool.eq_false_iff.mpr hcolumn)), htext⟩
    rw [hcolumn, Bool.not_true, Bool.and_false, if_neg Bool.false_ne_true]
  | some text =>
    simp only [matchesColumn]
    cases column.single with
    | true => rfl
    | false => exact congrArg some (hinner text)

/-! ### All turns -/

lemma foldlM_decided (isOr : Bool) (row : ResultRow) (tagStates : List (Str × Bool)) :
    tagStates.foldlM (filterTag isOr row) isOr = some isOr := by
  induction tagStates with
  | nil => rfl
  | cons state tagStates ih =>
    rw [List.foldlM_cons, filterTag_decided]
    exact ih

lemma combined_cons_unselected (isOr : Bool) (f : Facet) (states : List (Facet × Bool))
    (row : ResultRow) : combined isOr ((f, false) :: states) row = combined isOr states row := by
  cases isOr <;> simp [combined]

/-- A facet decides for the row, or leaves it to the others. -/
lemma combined_cons_selected (isOr : Bool) (f : Facet) (states : List (Facet × Bool))
    (row : ResultRow) : combined isOr ((f, true) :: states) row =
      if f.matches row = isOr then isOr else combined isOr states row := by
  cases isOr <;> cases hmatches : f.matches row <;> simp [combined, hmatches]

/-- The filter of a row throws exactly when a null column is reached before a match in the one
mode, and answers otherwise whether the row matches. -/
lemma foldlM_tagStatesOf (h : ∀ state ∈ states, state.1.Listed) (isOr : Bool) (row : ResultRow) :
    ((isOr = true → Shielded states row) →
      (tagStatesOf states).foldlM (filterTag isOr row) (!isOr) =
        some (combined isOr states row)) ∧
    (¬ (isOr = true → Shielded states row) →
      (tagStatesOf states).foldlM (filterTag isOr row) (!isOr) = none) := by
  induction states with
  | nil => exact ⟨fun _ => by cases isOr <;> rfl, fun hnot => absurd (fun _ => shielded_nil) hnot⟩
  | cons state states ih =>
    obtain ⟨f, selected⟩ := state
    obtain ⟨hf, hstates⟩ := List.forall_mem_cons.mp h
    cases selected with
    | false =>
      rw [shielded_cons_unselected, combined_cons_unselected]
      exact ih hstates
    | true =>
      have hcons : (tagStatesOf ((f, true) :: states)).foldlM (filterTag isOr row) (!isOr) =
          (filterTag isOr row (!isOr) (f.key, true)).bind fun succ =>
            (tagStatesOf states).foldlM (filterTag isOr row) succ := List.foldlM_cons
      rw [shielded_cons_selected, combined_cons_selected, hcons]
      by_cases hnull : f.IsNull row
      · have hmatches : f.matches row = false := by rw [Facet.matches, hnull.2]
        rw [filterTag_null hf hnull, hmatches]
        cases isOr with
        | true => simp [hnull]
        | false => simpa using foldlM_decided false row (tagStatesOf states)
      · rw [filterTag_notNull hf hnull, Option.bind_some]
        by_cases hmatches : f.matches row = isOr
        · rw [if_pos hmatches, hmatches, foldlM_decided]
          refine ⟨fun _ => rfl, fun hnot => absurd (fun hor => ?_) hnot⟩
          exact ⟨hnull, .inl hor⟩
        · have hopen : f.matches row = !isOr := Bool.eq_not_of_ne hmatches
          rw [if_neg hmatches, hopen]
          have hiff : (isOr = true → ¬ f.IsNull row ∧ ((!isOr) = true ∨ Shielded states row)) ↔
              (isOr = true → Shielded states row) := by
            refine imp_congr_right fun hor => ?_
            simp [hnull, hor]
          rw [hiff]
          exact ih hstates

/-- The filter keeps exactly the rows that match if and only if, in the mode for one facet, no null
column is looked into: before each selected facet whose column is null in a row there is one that
the row matches. -/
theorem filtersCombined_iff_shielded (h : ∀ state ∈ states, state.1.Listed)
    (queryResult : List ResultRow) :
    FiltersCombined isOr states queryResult ↔
      (isOr = true → ∀ row ∈ queryResult, Shielded states row) := by
  rw [FiltersCombined, applyFilter_eq]
  constructor
  · intro heq hor row hrow
    by_contra hnot
    have hnone := (foldlM_tagStatesOf h isOr row).2 fun himp => hnot (himp hor)
    rw [if_neg] at heq
    · cases heq
    · intro hall
      have hsome := hall row hrow
      rw [hnone] at hsome
      cases hsome
  · intro hall
    have hsome (row : ResultRow) (hrow : row ∈ queryResult) :=
      (foldlM_tagStatesOf h isOr row).1 fun hor => hall hor row hrow
    rw [if_pos fun row hrow => by rw [hsome row hrow]; rfl]
    refine congrArg some (List.filter_congr fun row hrow => ?_)
    rw [hsome row hrow]
    simp

/-- A row with the one artist, in all other columns null. -/
def byArtist (artist : Option Str) : ResultRow
  | .artists => artist
  | _ => none

/-- A selected artist and two rows, all of which have artists. -/
theorem filtersCombined_iff_shielded_artist :
    FiltersCombined true [(⟨"artist".toList, "a".toList⟩, true)]
        [byArtist "|a|".toList, byArtist "|b|".toList] ↔
      (true = true → ∀ row ∈ [byArtist "|a|".toList, byArtist "|b|".toList],
        Shielded [(⟨"artist".toList, "a".toList⟩, true)] row) :=
  filtersCombined_iff_shielded
    (List.forall_mem_singleton.mpr ⟨[byArtist "|a|".toList], by decide +kernel⟩) _

end

/-- The filter throws for an artist at a row without artists. -/
theorem not_filtersCombined_null : ¬ ∀ (isOr : Bool) (states : List (Facet × Bool))
    (queryResult : List ResultRow), (∀ state ∈ states, state.1.Listed) →
      FiltersCombined isOr states queryResult := by
  intro h
  have hfilters := h true [(⟨"artist".toList, "a".toList⟩, true)] [byArtist none]
    (List.forall_mem_singleton.mpr ⟨[byArtist "|a|".toList], by decide +kernel⟩)
  have hnone : applyFilter true (tagStatesOf [(⟨"artist".toList, "a".toList⟩, true)])
      [byArtist none] = none := by decide +kernel
  exact Option.some_ne_none _ (hfilters.symm.trans hnone)

end Violet
