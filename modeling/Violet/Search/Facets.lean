import Violet.Dart.Map
import Violet.Dart.Split

/-!
# The facets of a result

The filter page lists the tags of the results by groups. It takes them from the columns of the rows,
which it splits at bars. A filter looks for a tag between two bars, or for the whole column where
the column has one value.
-/

namespace Violet

open Dart

/-! ### Rows -/

/-- The columns of a result that the filter page reads. -/
inductive ResultColumn where
  | tags
  | language
  | characters
  | series
  | artists
  | groups
  | «class»
  | type
  | uploader
  deriving DecidableEq, Repr

/-- A result: the texts in its columns, unless they are null. -/
abbrev ResultRow := ResultColumn → Option Str

/-- An article in a list of E-Hentai. -/
structure EHResultArticle where
  uploader : Option Str
  type : Option Str
  descripts : Map Str (List Str)

/-- `searchEHentai`: the row of an article. -/
def EHResultArticle.row (element : EHResultArticle) : ResultRow
  | .artists =>
    match element.descripts.get? "artist".toList with
    | some values => some (join ['|'] values)
    | none => some "n/a".toList
  | .groups => (element.descripts.get? "group".toList).map (join ['|'])
  | .characters => (element.descripts.get? "character".toList).map (join ['|'])
  | .series =>
    match element.descripts.get? "parody".toList with
    | some values => some (join ['|'] values)
    | none => some "n/a".toList
  | .language =>
    match element.descripts.get? "language".toList with
    | some values => some (join ['|'] (values.filter fun e => !contains e "translate".toList))
    | none => some "n/a".toList
  | .tags =>
    let tag (name : Str) := (element.descripts.get? name).getD []
    some (join ['|'] ((tag "female".toList).map (fun e => "female:".toList ++ e) ++
      (tag "male".toList).map (fun e => "male:".toList ++ e) ++ tag "misc".toList))
  | .uploader => element.uploader
  | .type => element.type
  | .class => none

/-- A list of results, from the database or from the network. -/
inductive ResultList where
  | database (rows : List ResultRow)
  | network (articles : List EHResultArticle)

def ResultList.rows : ResultList → List ResultRow
  | .database rows => rows
  | .network articles => articles.map EHResultArticle.row

/-! ### Facets -/

structure Facet where
  group : Str
  name : Str
  deriving DecidableEq, Repr

/-- The key of a facet in `tagStates`. -/
def Facet.key (f : Facet) : Str := f.group ++ '|' :: f.name

/-- The facet of a value in the column of the tags. -/
def tagFacet (key : Str) : Facet :=
  if "female:".toList.isPrefixOf key then ⟨"female".toList, (key.splitOn ':').getD 1 []⟩
  else if "male:".toList.isPrefixOf key then ⟨"male".toList, (key.splitOn ':').getD 1 []⟩
  else ⟨"tag".toList, key⟩

/-- The group under which the values of a column are listed, but for some tags. -/
def ResultColumn.group : ResultColumn → Str
  | .tags => "tag".toList
  | .language => "language".toList
  | .characters => "character".toList
  | .series => "series".toList
  | .artists => "artist".toList
  | .groups => "group".toList
  | .class => "class".toList
  | .type => "type".toList
  | .uploader => "uploader".toList

/-- The facet of a value in a column. -/
def facetOf (key : Str) (column : ResultColumn) : Facet :=
  if column = .tags then tagFacet key else ⟨column.group, key⟩

/-- The columns in the order in which the filter page reads them. -/
def appended : List ResultColumn :=
  [.tags, .language, .characters, .series, .artists, .groups, .class, .type, .uploader]

/-- The values in a column, each as often as it is there. -/
def pieces (text : Str) : List Str := (text.splitOn '|').filter fun element => element ≠ []

/-- How often each value is in a column. -/
def countPieces (queryResult : List ResultRow) (vv : ResultColumn) : Map Str ℕ :=
  queryResult.foldl (fun tags element =>
    match element vv with
    | none => tags
    | some text =>
      (pieces text).foldl (fun tags e => tags.set e ((tags.get? e).getD 0 + 1)) tags) []

/-- `_initTagPad`, before its sorting: the facets with the numbers of their values. -/
def initTagPad (queryResult : List ResultRow) : List (Facet × ℕ) :=
  appended.flatMap fun vv => (countPieces queryResult vv).map fun e => (facetOf e.1 vv, e.2)

/-- The facets that are listed because of a row. -/
def facetsOf (row : ResultRow) : List Facet := (initTagPad [row]).map Prod.fst

/-! ### Filters -/

/-- `prefix2Tag`: the column of a group. -/
def prefix2Tag (group : Str) : Option ResultColumn :=
  if group = "artist".toList then some .artists
  else if group = "group".toList then some .groups
  else if group = "language".toList then some .language
  else if group = "character".toList then some .characters
  else if group = "series".toList then some .series
  else if group = "class".toList then some .class
  else if group = "type".toList then some .type
  else if group = "uploader".toList then some .uploader
  else if group ∈ ["tag".toList, "female".toList, "male".toList] then some .tags
  else none

def isSingleTag (group : Str) : Option Bool :=
  if group ∈ ["language".toList, "class".toList, "type".toList, "uploader".toList] then some true
  else if group ∈ ["artist".toList, "group".toList, "character".toList, "tag".toList,
    "female".toList, "male".toList, "series".toList] then some false
  else none

/-- The text that is looked for between bars. -/
def searchedTag (group name : Str) : Str :=
  if group ∈ ["female".toList, "male".toList] then group ++ ':' :: name else name

/-- The turn of a tag in the filter of a row. It throws when a text is needed and null is there. -/
def filterTag (isOr : Bool) (element : ResultRow) (succ : Bool) (state : Str × Bool) :
    Option Bool :=
  if !state.2 then some succ
  else if succ = isOr then some succ
  else
    let split := state.1.splitOn '|'
    let group := split.headD []
    let column := (prefix2Tag group).bind element
    if column = none ∧ isOr = false then some false
    else do
      let name ← split[1]?
      let single ← isSingleTag group
      if !single then
        let text ← column
        some (if contains text ('|' :: searchedTag group name ++ ['|']) = isOr then isOr else succ)
      else some (if decide (column = some name) = isOr then isOr else succ)

/-- `_applyFilter`: the rows that the filter keeps, in the one or the other mode of combination. -/
def applyFilter (isOr : Bool) (tagStates : List (Str × Bool)) :
    List ResultRow → Option (List ResultRow)
  | [] => some []
  | element :: queryResult => do
    let succ ← tagStates.foldlM (filterTag isOr element) (!isOr)
    let result ← applyFilter isOr tagStates queryResult
    some (if succ then element :: result else result)

/-- The facet is the only one that is selected. -/
def OnlySelected (tagStates : List (Str × Bool)) (f : Facet) : Prop :=
  ∃ l r, tagStates = l ++ (f.key, true) :: r ∧ ∀ state ∈ l ++ r, state.2 = false

/-- Each facet that is listed because of a row keeps this row, in both modes. -/
def FacetsSelect (queryResult : List ResultRow) : Prop :=
  ∀ row ∈ queryResult, ∀ f ∈ facetsOf row, ∀ tagStates, OnlySelected tagStates f → ∀ isOr,
    ∃ kept, applyFilter isOr tagStates queryResult = some kept ∧ row ∈ kept

/-- The columns with one value. -/
def ResultColumn.single : ResultColumn → Bool
  | .language | .class | .type | .uploader => true
  | _ => false

/-- The columns with several values have each between bars, or at least the text that is looked for
in its place, and the columns with one value have no bar. No row has null in a column with several
values of which another row has one. -/
structure Delimited (queryResult : List ResultRow) : Prop where
  single : ∀ row ∈ queryResult, ∀ column : ResultColumn, column.single = true →
    ∀ text ∈ row column, pieces text ≠ [] → '|' ∉ text
  several : ∀ row ∈ queryResult, ∀ column : ResultColumn, column.single = false →
    ∀ text ∈ row column, ∀ key ∈ pieces text,
      searchedTag (facetOf key column).group (facetOf key column).name ∈
        innerParts (text.splitOn '|')
  notNull : ∀ column : ResultColumn, column.single = false →
    (∃ row ∈ queryResult, ∃ text ∈ row column, pieces text ≠ []) →
      ∀ row ∈ queryResult, row column ≠ none

/-! ### The listed facets -/

section

variable {queryResult : List ResultRow} {row : ResultRow} {column : ResultColumn} {f : Facet}
  {key text : Str}

lemma mem_pieces : key ∈ pieces text ↔ key ∈ text.splitOn '|' ∧ key ≠ [] := by
  rw [pieces, List.mem_filter, decide_eq_true_eq]

lemma mem_keys_count (values : List Str) (tags : Map Str ℕ) :
    key ∈ (values.foldl (fun tags e => tags.set e ((tags.get? e).getD 0 + 1)) tags).keys ↔
      key ∈ values ∨ key ∈ tags.keys := by
  induction values generalizing tags with
  | nil => simp
  | cons e values ih =>
    rw [List.foldl_cons, ih, Map.mem_keys_set, List.mem_cons]
    exact or_left_comm.trans or_assoc.symm

lemma mem_keys_countPieces : key ∈ (countPieces queryResult column).keys ↔
    ∃ row ∈ queryResult, ∃ text ∈ row column, key ∈ pieces text := by
  have hfold (rows : List ResultRow) (tags : Map Str ℕ) :
      key ∈ (rows.foldl (fun tags element =>
        match element column with
        | none => tags
        | some text => (pieces text).foldl
            (fun tags e => tags.set e ((tags.get? e).getD 0 + 1)) tags) tags).keys ↔
        (∃ row ∈ rows, ∃ text ∈ row column, key ∈ pieces text) ∨ key ∈ tags.keys := by
    induction rows generalizing tags with
    | nil => simp
    | cons row rows ih =>
      rw [List.foldl_cons, ih]
      cases hrow : row column with
      | none => simp [hrow]
      | some text =>
        simp only [mem_keys_count, List.mem_cons, exists_eq_or_imp, hrow, Option.mem_def,
          Option.some.injEq, exists_eq_left']
        exact or_left_comm.trans or_assoc.symm
  rw [countPieces, hfold]
  exact or_iff_left List.not_mem_nil

lemma mem_appended (column : ResultColumn) : column ∈ appended := by
  cases column <;> decide

/-- The page lists the values in the columns of the rows. -/
lemma mem_initTagPad_iff : f ∈ (initTagPad queryResult).map Prod.fst ↔
    ∃ row ∈ queryResult, ∃ column, ∃ text ∈ row column, ∃ key ∈ pieces text,
      f = facetOf key column := by
  rw [initTagPad, List.map_flatMap, List.mem_flatMap]
  constructor
  · rintro ⟨column, -, hf⟩
    rw [List.map_map, List.mem_map] at hf
    obtain ⟨e, he, rfl⟩ := hf
    have hkey : e.1 ∈ (countPieces queryResult column).keys := List.mem_map_of_mem he
    obtain ⟨row, hrow, text, htext, hpiece⟩ := mem_keys_countPieces.mp hkey
    exact ⟨row, hrow, column, text, htext, e.1, hpiece, rfl⟩
  · rintro ⟨row, hrow, column, text, htext, key, hpiece, rfl⟩
    have hkey := mem_keys_countPieces.mpr ⟨row, hrow, text, htext, hpiece⟩
    obtain ⟨e, he, rfl⟩ := List.mem_map.mp hkey
    refine ⟨column, mem_appended column, ?_⟩
    rw [List.map_map]
    exact List.mem_map.mpr ⟨e, he, rfl⟩

lemma mem_facetsOf : f ∈ facetsOf row ↔
    ∃ column, ∃ text ∈ row column, ∃ key ∈ pieces text, f = facetOf key column := by
  rw [facetsOf, mem_initTagPad_iff]
  simp

/-- Each facet of the page is listed because of a row. -/
lemma mem_initTagPad_iff_facetsOf : f ∈ (initTagPad queryResult).map Prod.fst ↔
    ∃ row ∈ queryResult, f ∈ facetsOf row := by
  simp only [mem_initTagPad_iff, mem_facetsOf]

/-! ### Facets and columns -/

/-- The groups and their columns. -/
def groupColumns : List (Str × ResultColumn) :=
  [("tag".toList, .tags), ("female".toList, .tags), ("male".toList, .tags),
    ("language".toList, .language), ("character".toList, .characters), ("series".toList, .series),
    ("artist".toList, .artists), ("group".toList, .groups), ("class".toList, .class),
    ("type".toList, .type), ("uploader".toList, .uploader)]

/-- A tag is listed by its text, or by what stands behind its `female:` or `male:`. -/
lemma tagFacet_cases (key : Str) :
    tagFacet key = ⟨"female".toList, (key.splitOn ':').getD 1 []⟩ ∨
      tagFacet key = ⟨"male".toList, (key.splitOn ':').getD 1 []⟩ ∨
      tagFacet key = ⟨"tag".toList, key⟩ := by
  by_cases hfemale : "female:".toList.isPrefixOf key = true
  · exact .inl (if_pos hfemale)
  · by_cases hmale : "male:".toList.isPrefixOf key = true
    · exact .inr (.inl ((if_neg hfemale).trans (if_pos hmale)))
    · exact .inr (.inr ((if_neg hfemale).trans (if_neg hmale)))

lemma facetOf_mem (key : Str) (column : ResultColumn) :
    ((facetOf key column).group, column) ∈ groupColumns := by
  have hfemale : ("female".toList, ResultColumn.tags) ∈ groupColumns := by decide
  have hmale : ("male".toList, ResultColumn.tags) ∈ groupColumns := by decide
  have hgroup : (column.group, column) ∈ groupColumns := by
    cases column <;> decide
  by_cases htags : column = .tags
  · subst htags
    rw [facetOf, if_pos rfl]
    rcases tagFacet_cases key with h | h | h <;> rw [h]
    · exact hfemale
    · exact hmale
    · exact hgroup
  · rw [facetOf, if_neg htags]
    exact hgroup

lemma facetOf_group (key : Str) (column : ResultColumn) :
    prefix2Tag (facetOf key column).group = some column ∧
      isSingleTag (facetOf key column).group = some column.single ∧
      '|' ∉ (facetOf key column).group := by
  have hall : ∀ p ∈ groupColumns,
      prefix2Tag p.1 = some p.2 ∧ isSingleTag p.1 = some p.2.single ∧ '|' ∉ p.1 := by
    decide
  exact hall _ (facetOf_mem key column)

lemma notMem_facetOf_name (h : '|' ∉ key) (column : ResultColumn) :
    '|' ∉ (facetOf key column).name := by
  have hpart : '|' ∉ (key.splitOn ':').getD 1 [] := by
    cases hget : (key.splitOn ':')[1]? with
    | none => simp [List.getD, hget]
    | some part =>
      rw [List.getD, hget]
      exact fun hmem => h (subset_of_mem_splitOn (List.mem_of_getElem? hget) hmem)
  by_cases htags : column = .tags
  · rw [facetOf, if_pos htags]
    rcases tagFacet_cases key with hcase | hcase | hcase <;> rw [hcase]
    · exact hpart
    · exact hpart
    · exact h
  · rw [facetOf, if_neg htags]
    exact h

lemma notMem_searchedTag (h : '|' ∉ key) (column : ResultColumn) :
    '|' ∉ searchedTag (facetOf key column).group (facetOf key column).name := by
  have hname := notMem_facetOf_name h column
  rw [searchedTag]
  split_ifs
  · rw [List.mem_append, List.mem_cons, not_or, not_or]
    exact ⟨(facetOf_group key column).2.2, by decide, hname⟩
  · exact hname

lemma splitOn_key (h : '|' ∉ key) (column : ResultColumn) :
    (facetOf key column).key.splitOn '|' =
      [(facetOf key column).group, (facetOf key column).name] := by
  rw [Facet.key, List.splitOn_append_cons_self_of_not_mem (facetOf_group key column).2.2,
    List.splitOn_eq_singleton (notMem_facetOf_name h column)]

lemma notMem_of_mem_pieces (h : key ∈ pieces text) : '|' ∉ key :=
  notMem_of_mem_splitOn (mem_pieces.mp h).1

/-! ### The filter with one facet -/

/-- Does the column of a row match the facet of a value? -/
def matchesColumn (key : Str) (column : ResultColumn) (text : Str) : Bool :=
  if column.single then text = (facetOf key column).name
  else
    searchedTag (facetOf key column).group (facetOf key column).name ∈ innerParts (text.splitOn '|')

/-- What the filter does with a row. For null in a column with several values it throws, in the one
mode. -/
lemma filterTag_facet (h : '|' ∉ key) (column : ResultColumn) (isOr : Bool) (row : ResultRow) :
    filterTag isOr row (!isOr) ((facetOf key column).key, true) =
      match row column with
      | none => if isOr && !column.single then none else some false
      | some text => some (matchesColumn key column text) := by
  obtain ⟨hcolumn, hsingle, -⟩ := facetOf_group key column
  have hinner (text : Str) : contains text
      ('|' :: searchedTag (facetOf key column).group (facetOf key column).name ++ ['|']) =
        decide (searchedTag (facetOf key column).group (facetOf key column).name ∈
          innerParts (text.splitOn '|')) :=
    decide_eq_decide.mpr (infix_iff_mem_innerParts (notMem_searchedTag h column))
  simp only [filterTag, splitOn_key h, List.headD_cons, hcolumn, Option.bind_some, hsingle,
    Bool.not_true, Bool.false_eq_true, if_false, Bool.not_eq_self, List.getElem?_cons_succ,
    List.getElem?_cons_zero, Option.bind_eq_bind, hinner]
  cases row column with
  | none => cases isOr <;> cases column.single <;> simp
  | some text =>
    cases isOr <;> cases hs : column.single <;> simp [matchesColumn, hs]

/-- The other facets have no effect. -/
lemma foldlM_filterTag {tagStates : List (Str × Bool)} (h : OnlySelected tagStates f)
    (isOr : Bool) (row : ResultRow) :
    tagStates.foldlM (filterTag isOr row) (!isOr) = filterTag isOr row (!isOr) (f.key, true) := by
  have hskip (succ : Bool) (states : List (Str × Bool)) (hstates : ∀ e ∈ states, e.2 = false) :
      states.foldlM (filterTag isOr row) succ = some succ := by
    induction states with
    | nil => rfl
    | cons e states ih =>
      have he : filterTag isOr row succ e = some succ := by
        rw [filterTag, hstates e List.mem_cons_self]
        rfl
      rw [List.foldlM_cons, he]
      exact ih fun e' he' => hstates e' (List.mem_cons_of_mem e he')
  obtain ⟨l, r, rfl, hfalse⟩ := h
  rw [List.foldlM_append, hskip _ l fun e he => hfalse e (List.mem_append_left r he)]
  simp only [Option.bind_eq_bind, Option.bind_some, List.foldlM_cons]
  cases filterTag isOr row (!isOr) (f.key, true) with
  | none => rfl
  | some succ => exact hskip succ r fun e he => hfalse e (List.mem_append_right l he)

/-- The filter throws when it does for some row. -/
lemma applyFilter_eq (isOr : Bool) (tagStates : List (Str × Bool)) (queryResult : List ResultRow) :
    applyFilter isOr tagStates queryResult =
      if ∀ row ∈ queryResult, (tagStates.foldlM (filterTag isOr row) (!isOr)).isSome = true then
        some (queryResult.filter fun row =>
          tagStates.foldlM (filterTag isOr row) (!isOr) = some true)
      else none := by
  induction queryResult with
  | nil => simp [applyFilter]
  | cons row queryResult ih =>
    rw [applyFilter, ih]
    cases hrow : tagStates.foldlM (filterTag isOr row) (!isOr) with
    | none => simp [hrow]
    | some succ =>
      by_cases hall : ∀ row ∈ queryResult,
          (tagStates.foldlM (filterTag isOr row) (!isOr)).isSome = true
      · have hcons : ∀ row' ∈ row :: queryResult,
            (tagStates.foldlM (filterTag isOr row') (!isOr)).isSome = true := by
          refine List.forall_mem_cons.mpr ⟨?_, hall⟩
          rw [hrow]
          rfl
        rw [if_pos hall, if_pos hcons, List.filter_cons, hrow]
        cases succ <;> rfl
      · rw [if_neg hall, if_neg fun h => hall (List.forall_mem_cons.mp h).2]
        rfl

/-- A row is kept exactly when the filter throws for no row and answers yes for this one. -/
lemma exists_applyFilter_iff {isOr : Bool} {tagStates : List (Str × Bool)}
    (hrow : row ∈ queryResult) :
    (∃ kept, applyFilter isOr tagStates queryResult = some kept ∧ row ∈ kept) ↔
      (∀ row' ∈ queryResult,
        (tagStates.foldlM (filterTag isOr row') (!isOr)).isSome = true) ∧
        tagStates.foldlM (filterTag isOr row) (!isOr) = some true := by
  rw [applyFilter_eq]
  split_ifs with hall
  · simp only [Option.some.injEq, exists_eq_left', List.mem_filter, decide_eq_true_eq, hrow,
      true_and]
    exact (and_iff_right hall).symm
  · simp [hall]

lemma filterTag_isSome (h : '|' ∉ key) (column : ResultColumn) (isOr : Bool) (row : ResultRow) :
    (filterTag isOr row (!isOr) ((facetOf key column).key, true)).isSome = true ↔
      (isOr = true → column.single = false → row column ≠ none) := by
  rw [filterTag_facet h]
  cases row column <;> cases isOr <;> cases column.single <;> simp

lemma facetOf_name (h : column.single = true) (key : Str) : (facetOf key column).name = key := by
  rw [facetOf, if_neg]
  rintro rfl
  cases h

/-- A column with one value is this value exactly when it has no bar. -/
lemma matchesColumn_iff (h : key ∈ pieces text) (column : ResultColumn) :
    matchesColumn key column text = true ↔
      if column.single then '|' ∉ text
      else searchedTag (facetOf key column).group (facetOf key column).name ∈
        innerParts (text.splitOn '|') := by
  rw [matchesColumn]
  split_ifs with hsingle
  · rw [decide_eq_true_eq, facetOf_name hsingle]
    constructor
    · rintro rfl
      exact notMem_of_mem_pieces h
    · intro hbar
      have hmem := (mem_pieces.mp h).1
      rw [List.splitOn_eq_singleton hbar] at hmem
      exact (List.mem_singleton.mp hmem).symm
  · rw [decide_eq_true_eq]

/-- A facet keeps the rows because of which it is listed exactly when the value can be found in its
column and no row stops the filter. -/
lemma keeps_iff (hrow : row ∈ queryResult) (htext : row column = some text)
    (hkey : key ∈ pieces text) {tagStates : List (Str × Bool)}
    (h : OnlySelected tagStates (facetOf key column)) (isOr : Bool) :
    (∃ kept, applyFilter isOr tagStates queryResult = some kept ∧ row ∈ kept) ↔
      (isOr = true → column.single = false → ∀ row' ∈ queryResult, row' column ≠ none) ∧
        if column.single then '|' ∉ text
        else searchedTag (facetOf key column).group (facetOf key column).name ∈
          innerParts (text.splitOn '|') := by
  have hbar := notMem_of_mem_pieces hkey
  rw [exists_applyFilter_iff hrow, ← matchesColumn_iff hkey]
  simp only [foldlM_filterTag h, filterTag_isSome hbar]
  rw [filterTag_facet hbar, htext]
  constructor
  · rintro ⟨hall, hmatch⟩
    exact ⟨fun hor hsingle row' hrow' => hall row' hrow' hor hsingle, Option.some.inj hmatch⟩
  · rintro ⟨hall, hmatch⟩
    exact ⟨fun row' hrow' hor hsingle => hall hor hsingle row' hrow', congrArg some hmatch⟩

/-- Every facet keeps the rows because of which it is listed if and only if the values stand between
bars where there may be several. -/
theorem facetsSelect_iff_delimited (results : ResultList) :
    FacetsSelect results.rows ↔ Delimited results.rows := by
  have honly (f : Facet) : OnlySelected [(f.key, true)] f := ⟨[], [], rfl, by simp⟩
  constructor
  · intro h
    have hkeeps {row : ResultRow} (hrow : row ∈ results.rows) {column : ResultColumn} {text : Str}
        (htext : row column = some text) {key : Str} (hkey : key ∈ pieces text) (isOr : Bool) :=
      (keeps_iff hrow htext hkey (honly _) isOr).mp
        (h row hrow (facetOf key column)
          (mem_facetsOf.mpr ⟨column, text, htext, key, hkey, rfl⟩) _ (honly _) isOr)
    constructor
    · intro row hrow column hsingle text htext hne
      obtain ⟨key, hkey⟩ := List.exists_mem_of_ne_nil _ hne
      have hmatch := (hkeeps hrow htext hkey false).2
      rwa [if_pos hsingle] at hmatch
    · intro row hrow column hsingle text htext key hkey
      have hmatch := (hkeeps hrow htext hkey false).2
      rwa [if_neg (by simp [hsingle])] at hmatch
    · rintro column hsingle ⟨row, hrow, text, htext, hne⟩
      obtain ⟨key, hkey⟩ := List.exists_mem_of_ne_nil _ hne
      exact (hkeeps hrow htext hkey true).1 rfl hsingle
  · rintro ⟨hsingle, hseveral, hnull⟩ row hrow f hf tagStates hstates isOr
    obtain ⟨column, text, htext, key, hkey, rfl⟩ := mem_facetsOf.mp hf
    have hne : pieces text ≠ [] := List.ne_nil_of_mem hkey
    refine (keeps_iff hrow htext hkey hstates isOr).mpr ⟨fun _ hcolumn => ?_, ?_⟩
    · exact hnull column hcolumn ⟨row, hrow, text, htext, hne⟩
    · split_ifs with hcolumn
      · exact hsingle row hrow column hcolumn text htext hne
      · exact hseveral row hrow column (Bool.eq_false_iff.mpr hcolumn) text htext key hkey

end

/-- An article with one tag. -/
def glasses : EHResultArticle where
  uploader := none
  type := none
  descripts := [("female".toList, ["glasses".toList])]

/-- The list of the network has no bars around its tags. -/
theorem not_facetsSelect_network : ¬ ∀ results : ResultList, FacetsSelect results.rows := by
  intro h
  have hlisted : ⟨"female".toList, "glasses".toList⟩ ∈ facetsOf glasses.row := by decide +kernel
  obtain ⟨kept, hkept, hrow⟩ := h (.network [glasses]) glasses.row (List.mem_singleton.mpr rfl) _
    hlisted _ ⟨[], [], rfl, by simp⟩ false
  have hlength := congrArg (Option.map List.length) hkept
  have hnone : (applyFilter false [("female|glasses".toList, true)] [glasses.row]).map
      List.length = some 0 := by decide +kernel
  have hzero : some 0 = some kept.length := hnone.symm.trans hlength
  exact List.ne_nil_of_mem hrow (List.length_eq_zero_iff.mp (Option.some.inj hzero).symm)

end Violet
