import Violet.Search.Filters
import Violet.Search.Paging
import Violet.Sql.Select

/-!
# Searching and counting

`HentaiManager.search` looks up an identifier, draws at random or searches the database, page by
page; `countSearch` counts the articles of the database for the same text. The two build their
statements separately: the search leaves the words for a random order out of the text, and asks for
an order and a page behind its condition, the count does neither.
-/

namespace Violet

open Dart Sql Paging

/-! ### The database -/

def idColumn : List Char := "Id".toList

/-- The articles, with unique identifiers. -/
structure Table where
  rows : List Env
  nodup_ids : (rows.map fun row => row idColumn).Nodup

/-- `ORDER BY Id DESC`. -/
def byIdDesc (rows : List Env) : List Env :=
  rows.mergeSort fun a b => !Value.lt (a idColumn) (b idColumn)

/-- The orders that a search asks for. -/
inductive Order (Seed : Type) where
  | byId
  | random (seed : Seed)

variable {Seed : Type}

/-- The text of an order, with the seed as it is printed. -/
def Order.text (print : Seed → Str) : Order Seed → Str
  | .byId => "Id DESC".toList
  | .random seed => "Id * ".toList ++ print seed ++ " - ROUND(Id * ".toList ++ print seed ++
      " - 0.5, 0) DESC".toList

/-- The order and the page, behind the condition. -/
def pageClause (order : Str) (limit offset : ℤ) : Str :=
  " ORDER BY ".toList ++ order ++ " LIMIT ".toList ++ intToString limit ++ " OFFSET ".toList ++
    intToString offset

def countWhere : Str := "SELECT COUNT(*) AS C FROM HitomiColumnModel WHERE ".toList

/-- What a search rests on: how SQLite reads a condition and answers a statement, how a double is
parsed and printed, and what the web answers. A comment that a condition leaves open takes in the
order and the page. -/
structure Engine (Seed : Type) where
  /-- The rows that a condition selects, when it is valid. -/
  meaning : Str → Option (Env → Bool)
  meaning_id : ∀ n, meaning ("Id=".toList ++ intToString n) =
    some fun row => decide (row idColumn = .int n)
  doubleTryParse : Str → Option Seed
  /-- The seed `-1.0`. -/
  minusOne : Seed
  print : Seed → Str
  sorted : Order Seed → List Env → List Env
  sorted_byId : ∀ rows, sorted .byId rows = byIdDesc rows
  sorted_perm : ∀ order rows, (sorted order rows).Perm rows
  /-- The rows as SQLite comes to them when no order is asked for. -/
  scan : List Env → List Env
  scan_perm : ∀ rows, (scan rows).Perm rows
  rawQuery : Table → Str → Option (List Env)
  rawQuery_closed : ∀ table cond p, meaning cond = some p → Closed cond →
    ∀ (order : Order Seed) (limit offset : ℕ),
      rawQuery table (selectWhere ++ cond ++ pageClause (order.text print) limit offset) =
        some (((sorted order (table.rows.filter p)).drop offset).take limit)
  rawQuery_open : ∀ table cond p, meaning cond = some p → ¬ Closed cond →
    ∀ (order : Order Seed) (limit offset : ℕ),
      rawQuery table (selectWhere ++ cond ++ pageClause (order.text print) limit offset) =
        some (scan (table.rows.filter p))
  /-- The column `C` of the first row. -/
  rawCount : Table → Str → Option ℕ
  rawCount_where : ∀ table cond p, meaning cond = some p →
    rawCount table (countWhere ++ cond) = some (table.rows.filter p).length
  rawCount_nil : ∀ table, rawCount table [] = none
  /-- The article on the web, when it can be loaded. -/
  galleryBlock : ℤ → Option Env
  networkSearch : Str → ℤ → Option (List Env × ℤ)

variable (engine : Engine Seed) (table : Table) (settings : Settings)

def itemsPerPage : ℕ := 500

/-! ### Search -/

def idSearch (no : ℤ) (what : Str) : Option (List Env × ℤ) :=
  (engine.rawQuery table (translate2query what ++ pageClause "Id DESC".toList 1 0)).map
    fun queryResult =>
      match queryResult with
      | [] =>
        match engine.galleryBlock no with
        | some row => ([row], -1)
        | none => ([], -1)
      | row :: rest => (row :: rest, -1)

def isRandomWord (w : Str) : Bool := w = "random".toList

def isSeedWord (w : Str) : Bool := "random:".toList.isPrefixOf w

/-- The words of the text without those that ask for a random order. A text with a seed keeps the
plain word. -/
def randomText (what : Str) : Str :=
  let split := what.splitOn ' '
  if split.any isSeedWord then join [' '] (split.filter fun x => !isSeedWord x)
  else join [' '] (split.filter fun x => !isRandomWord x)

def randomSeed (what : Str) : Option Seed :=
  match (what.splitOn ' ').filter isSeedWord with
  | [] => some engine.minusOne
  | first :: _ => engine.doubleTryParse ((splitAll "random:".toList first).getLastD [])

/-- A page of the rows of a statement, and the number of the next one. -/
def Engine.queryPage (order : Order Seed) (queryString : Str) (offset : ℤ) :
    Option (List Env × ℤ) :=
  (engine.rawQuery table (queryString ++
    pageClause (order.text engine.print) itemsPerPage (itemsPerPage * offset))).map
      fun queryResult =>
        (queryResult, if itemsPerPage ≤ queryResult.length then offset + 1 else -1)

def randomSearch (what : Str) (offset : ℤ) : Option (List Env × ℤ) :=
  match randomSeed engine what with
  | none => some ([], -1)
  | some seed =>
    engine.queryPage table (.random seed) (queryString settings (randomText what)) offset

def dbSearch (what : Str) (offset : ℤ) : Option (List Env × ℤ) :=
  engine.queryPage table .byId (queryString settings what) offset

def isRandom (what : Str) : Bool :=
  (what.splitOn ' ').any isRandomWord || (what.splitOn ' ').any isSeedWord

def search (what : Str) (offset : ℤ) : Option (List Env × ℤ) :=
  match intTryParse what with
  | some no => idSearch engine table no what
  | none =>
    if isRandom what then randomSearch engine table settings what offset
    else if !settings.searchNetwork then dbSearch engine table settings what offset
    else engine.networkSearch what offset

/-! ### Count -/

def selectFrom : Str := "SELECT * FROM".toList

def countStatement (what : Str) : Str :=
  replaceAll selectFrom "SELECT COUNT(*) AS C FROM".toList (queryString settings what)

def countSearch (what : Str) : Option ℕ := engine.rawCount table (countStatement settings what)

/-! ### Statement -/

/-- The statement that a search for the text sends, up to its order and its page. -/
def searchStatement (what : Str) : Str :=
  if (intTryParse what).isSome then translate2query what
  else if isRandom what then queryString settings (randomText what)
  else queryString settings what

/-- The condition of the search, when it is valid. -/
def searchCondition (what : Str) : Option (Env → Bool) :=
  ((searchStatement settings what).dropPrefix? selectWhere).bind engine.meaning

/-- The rows that a search finds: none when the seed cannot be read. -/
def finds (what : Str) (row : Env) : Bool :=
  if isRandom what ∧ (randomSeed engine what).isNone then false
  else (searchCondition engine settings what).any fun p => p row

/-- The count is the number of rows on all pages of the search. -/
def CountAgrees (what : Str) : Prop :=
  ∃ rows, Collects (search engine table settings what) 0 rows ∧
    countSearch engine table settings what = some rows.length

/-- The translated condition of the text. -/
def conditionText (what : Str) : Str := (queryString settings what).drop selectWhere.length

/-- The text is a number, or it asks for no random order, its condition does not spell the beginning
of a statement, and either leaves no comment open or is true of less than a page of articles. -/
def CountsAlike (what : Str) (p : Env → Bool) : Prop :=
  (intTryParse what).isSome ∨
    isRandom what = false ∧ ¬ selectFrom <:+: conditionText settings what ∧
      (Closed (queryString settings what) ∨ (table.rows.filter p).length < itemsPerPage)

/-- The count has a statement, but not the one of the search: the text asks for a random order, or
its condition spells the beginning of a statement. -/
def ReadsAnother (what : Str) : Prop :=
  isRandom what = true ∧ countStatement settings what ≠ [] ∨
    selectFrom <:+: conditionText settings what

/-! ### Pages of a search -/

variable {engine table settings} {what cond : Str} {p : Env → Bool} {order : Order Seed}

lemma byIdDesc_perm (rows : List Env) : (byIdDesc rows).Perm rows := List.mergeSort_perm rows _

section

variable (hmeaning : engine.meaning cond = some p)

include hmeaning

/-- The pages of a condition that leaves nothing open are those of the rows that it selects. -/
lemma Engine.queryPage_closed (hc : Closed cond) (order : Order Seed) (n : ℕ) :
    engine.queryPage table order (selectWhere ++ cond) n =
      some (fetch itemsPerPage (engine.sorted order (table.rows.filter p)) n) := by
  rw [queryPage, ← Int.natCast_mul, engine.rawQuery_closed table cond p hmeaning hc]
  rfl

/-- Behind an open comment, every page is all the rows. -/
lemma Engine.queryPage_open (hc : ¬ Closed cond) (order : Order Seed) (n : ℕ) :
    engine.queryPage table order (selectWhere ++ cond) n =
      some (engine.scan (table.rows.filter p),
        if itemsPerPage ≤ (table.rows.filter p).length then (n : ℤ) + 1 else -1) := by
  rw [queryPage, ← Int.natCast_mul, engine.rawQuery_open table cond p hmeaning hc, Option.map_some,
    (engine.scan_perm _).length_eq]

lemma collects_closed (hc : Closed cond) (order : Order Seed) :
    Collects (engine.queryPage table order (selectWhere ++ cond)) 0
      (engine.sorted order (table.rows.filter p)) :=
  collects_of_fetch (by decide) fun n => engine.queryPage_closed hmeaning hc order n

/-- All pages together, when each of them is all the rows: there is one, or there is no end. -/
lemma collects_open_iff (hc : ¬ Closed cond) (order : Order Seed) {rows : List Env} :
    Collects (engine.queryPage table order (selectWhere ++ cond)) 0 rows ↔
      (table.rows.filter p).length < itemsPerPage ∧ rows = engine.scan (table.rows.filter p) := by
  have hpage : ∀ n : ℕ, engine.queryPage table order (selectWhere ++ cond) n =
      some (engine.scan (table.rows.filter p),
        if itemsPerPage ≤ (table.rows.filter p).length then (n : ℤ) + 1 else -1) :=
    engine.queryPage_open hmeaning hc order
  by_cases hfull : itemsPerPage ≤ (table.rows.filter p).length
  · simp only [hfull, if_true] at hpage
    exact iff_of_false (not_collects_of_endless hpage) fun h => Nat.not_lt.mpr hfull h.1
  · simp only [hfull, if_false] at hpage
    have hfirst : engine.queryPage table order (selectWhere ++ cond) 0 = some (_, -1) := hpage 0
    rw [collects_of_last_iff hfirst]
    exact (and_iff_right (Nat.lt_of_not_le hfull)).symm

end

/-- The order that a search without a number asks for, unless its seed cannot be read. -/
def searchOrder (engine : Engine Seed) (what : Str) : Option (Order Seed) :=
  if isRandom what then (randomSeed engine what).map .random else some .byId

lemma search_eq (hoff : settings.searchNetwork = false) (hn : intTryParse what = none) :
    search engine table settings what =
      match searchOrder engine what with
      | none => fun _ => some ([], -1)
      | some order => engine.queryPage table order (searchStatement settings what) := by
  funext offset
  by_cases hr : isRandom what = true
  · simp only [search, searchOrder, searchStatement, hn, hr, if_true, randomSearch,
      Option.isSome_none, Bool.false_eq_true, if_false]
    cases randomSeed engine what <;> rfl
  · simp [search, searchOrder, searchStatement, hn, hr, hoff, dbSearch]

lemma searchStatement_of_condition (h : searchCondition engine settings what = some p) :
    ∃ cond, searchStatement settings what = selectWhere ++ cond ∧
      engine.meaning cond = some p := by
  obtain ⟨cond, hcond, hmeaning⟩ := Option.bind_eq_some_iff.mp h
  obtain ⟨pre, hpre, heq⟩ := List.dropPrefix?_eq_some_iff.mp hcond
  exact ⟨cond, hpre.trans (congrArg (· ++ cond) (eq_of_beq heq)), hmeaning⟩

/-- Without a number, the pages of a search amount to the rows that it finds. -/
lemma collects_search (hoff : settings.searchNetwork = false) (hn : intTryParse what = none)
    (hv : searchCondition engine settings what = some p)
    (hc : Closed (searchStatement settings what)) (table : Table) :
    ∃ rows, Collects (search engine table settings what) 0 rows ∧
      rows.Perm (table.rows.filter (finds engine settings what)) := by
  obtain ⟨cond, hstatement, hmeaning⟩ := searchStatement_of_condition hv
  rw [hstatement, closed_append read_selectWhere] at hc
  rw [search_eq hoff hn, hstatement]
  cases horder : searchOrder engine what with
  | none =>
    have hnone : isRandom what = true ∧ (randomSeed engine what).isNone = true := by
      by_cases hr : isRandom what = true <;> simp_all [searchOrder]
    have hfinds : finds engine settings what = fun _ => false := by
      funext row
      simp [finds, hnone]
    exact ⟨[], Collects.of_last rfl, by simp [hfinds]⟩
  | some order =>
    have hsome : ¬ (isRandom what = true ∧ (randomSeed engine what).isNone = true) := by
      rintro ⟨hr, hseed⟩
      simp [searchOrder, hr, Option.isNone_iff_eq_none.mp hseed] at horder
    have hfinds : finds engine settings what = p := by
      funext row
      rw [finds, if_neg hsome, hv, Option.any_some]
    rw [hfinds]
    exact ⟨_, collects_closed hmeaning hc order, engine.sorted_perm order _⟩

/-! ### Numbers -/

lemma length_filter_id_le (table : Table) (n : ℤ) :
    (table.rows.filter fun row => decide (row idColumn = .int n)).length ≤ 1 := by
  have h := List.nodup_iff_count.mp table.nodup_ids (.int n)
  rwa [List.count, List.countP_map, List.countP_eq_length_filter] at h

lemma translate2query_of_number {s : Str} {n : ℤ} (h : intTryParse (firstWord s) = some n) :
    translate2query s = selectWhere ++ ("Id=".toList ++ intToString n) := by
  simp [translate2query, translatePieces, h, render, Piece.text]

/-- The rewriting of the statement for the count reaches into the condition. -/
lemma countStatement_eq (h : queryString settings what = selectWhere ++ cond) :
    countStatement settings what = countWhere ++
      replaceAll selectFrom "SELECT COUNT(*) AS C FROM".toList cond := by
  have hselect : selectWhere = selectFrom ++ " HitomiColumnModel WHERE ".toList := rfl
  have hcount : countWhere =
      "SELECT COUNT(*) AS C FROM".toList ++ " HitomiColumnModel WHERE ".toList := rfl
  have hS : 'S' ∉ " HitomiColumnModel WHERE ".toList := by decide
  have hne : selectFrom ≠ [] := by decide
  rw [countStatement, h, hselect, hcount, List.append_assoc, replaceAll_append_self hne,
    List.append_assoc]
  exact congrArg ("SELECT COUNT(*) AS C FROM".toList ++ ·) (replaceAll_append_of_notMem hS cond)

lemma closed_id (n : ℤ) : Closed ("Id=".toList ++ intToString n) := (reads_id n []).settled

/-- Text in which every quote is paired leaves nothing open, whatever else it holds. -/
lemma closed_of_quotesPaired {text : Str} (h : QuotesPaired text) :
    Closed (translate2query text) := by
  cases hn : intTryParse (firstWord text) with
  | some n =>
    rw [translate2query_of_number hn, closed_append read_selectWhere]
    exact closed_id n
  | none =>
    by_cases htrim : trim (trim text) = []
    · have hfixed : translate2query text = selectWhere ++ "ExistOnHitomi=1".toList := by
        simp [translate2query, translatePieces, hn, htrim, render, Piece.text]
      rw [hfixed]
      decide +kernel
    · have hpieces := translatePieces_eq htrim hn
      rw [whereLoop_eq] at hpieces
      cases herror : (items (words text)).findSome? Item.error with
      | some s =>
        have hfixed : translate2query text = s := by
          simp [translate2query, hpieces, emit, herror, render, Piece.text]
        obtain ⟨i, -, hi⟩ := List.exists_of_findSome?_eq_some herror
        rw [hfixed]
        rcases Item.error_eq_some hi with rfl | rfl <;> decide +kernel
      | none =>
        have hitems := List.findSome?_eq_none_iff.mp herror
        have hok := items_ok_iff.mp hitems
        have hp : ∀ tok ∈ words text, paired (copied tok) = true := by
          refine (h.resolve_left (by simp [hn])).resolve_left ?_
          rintro ⟨tok, hmem, hno⟩
          exact hok tok hmem hno
        have hloop : translate2query text = selectWhere ++
            (render ((items (words text)).flatMap Item.pieces) ++
              " AND ExistOnHitomi=1".toList) := by
          simp [translate2query, hpieces, emit, herror, render, Piece.text]
        rw [hloop, closed_append read_selectWhere]
        exact (reads_whereLoop hitems ((pairedItems_iff hitems).mpr hp) rfl).settled

/-- The search for a number finds the article with that identifier. -/
lemma search_of_number {n : ℤ} (hn : intTryParse what = some n)
    (hweb : engine.galleryBlock n = none) (offset : ℤ) :
    search engine table settings what offset =
      some (table.rows.filter fun row => decide (row idColumn = .int n), -1) := by
  set found := table.rows.filter fun row => decide (row idColumn = .int n) with hfound
  have hperm := engine.sorted_perm .byId found
  have hone : ((engine.sorted .byId found).drop 0).take 1 = found := by
    have hle := length_filter_id_le table n
    rw [← hfound] at hle
    rw [List.drop_zero, List.take_of_length_le (hperm.length_eq ▸ hle)]
    match found, hle, hperm with
    | [], _, hperm => exact List.perm_nil.mp hperm
    | [row], _, hperm => exact List.perm_singleton.mp hperm
  have hstatement := translate2query_of_number (intTryParse_firstWord_of_number hn)
  have hquery : engine.rawQuery table
      (translate2query what ++ pageClause "Id DESC".toList 1 0) = some found := by
    rw [hstatement, ← hone]
    exact engine.rawQuery_closed table _ _ (engine.meaning_id n) (closed_id n) .byId 1 0
  simp only [search, hn, idSearch, hquery, Option.map_some]
  cases found with
  | nil => simp only [hweb]
  | cons row rest => rfl

/-- A number is looked up and counted alike. -/
lemma countAgrees_of_number (hweb : ∀ no, engine.galleryBlock no = none) {n : ℤ}
    (hn : intTryParse what = some n) : CountAgrees engine table settings what := by
  refine ⟨_, Collects.of_last (search_of_number hn (hweb n) 0), ?_⟩
  have hstatement : queryString settings what =
      selectWhere ++ ("Id=".toList ++ intToString n) := by
    refine translate2query_of_number ?_
    rw [searchText, List.append_assoc, List.cons_append]
    exact intTryParse_firstWord_append_of_number hn _
  have hkeep : replaceAll selectFrom "SELECT COUNT(*) AS C FROM".toList
      ("Id=".toList ++ intToString n) = "Id=".toList ++ intToString n := by
    refine replaceAll_eq_self fun hin => ?_
    have hS : 'S' ∈ "Id=".toList ++ intToString n := hin.subset (by decide)
    rcases List.mem_append.mp hS with h | h
    · exact absurd h (by decide)
    · rcases isDigit_of_mem_intToString h with h | h <;> cases h
  rw [countSearch, countStatement_eq hstatement, hkeep,
    engine.rawCount_where table _ _ (engine.meaning_id n)]

/-! ### Agreement -/

/-- A text without a word for a random order, whose condition does not spell the beginning of a
statement, is counted by the condition of the search. -/
lemma countSearch_of_plain (hstatement : queryString settings what = selectWhere ++ cond)
    (hmeaning : engine.meaning cond = some p)
    (hcond : ¬ selectFrom <:+: conditionText settings what) :
    countSearch engine table settings what = some (table.rows.filter p).length := by
  have htext : conditionText settings what = cond := by
    rw [conditionText, hstatement, List.drop_left]
  rw [countSearch, countStatement_eq hstatement, replaceAll_eq_self (htext ▸ hcond),
    engine.rawCount_where table _ _ hmeaning]

/-- The statement of a tag that names no column is empty, but for `recent`. -/
lemma countStatement_of_noColumn {tok : Str} (hn : intTryParse (firstWord what) = none)
    (ht : (words what).find? (NamesNoColumn ·) = some tok)
    (hrecent : tagName tok ≠ "recent".toList) : countStatement settings what = [] := by
  have hno : NamesNoColumn tok := by simpa using List.find?_some ht
  have htext : searchText settings what = what ++ ' ' :: (settings.includeTags ++ ' ' ::
      trim (join [' '] ((settings.excludeTags.filter fun e => trim e ≠ []).map fun e => '-' :: e)))
      := by rw [searchText, List.append_assoc, List.cons_append]
  have hne : trim what ≠ [] := fun h => by
    rw [words_of_trim_trim (by rw [h, trim_nil])] at ht
    cases ht
  have hfind : (words (searchText settings what)).find? (NamesNoColumn ·) = some tok := by
    rw [htext, words_append_space, List.find?_append, ht]
    rfl
  have hnumber : intTryParse (firstWord (searchText settings what)) = none := by
    rw [htext, intTryParse_firstWord_append, if_neg hne, hn]
  have htrim : trim (trim (searchText settings what)) ≠ [] := fun h => by
    rw [words_of_trim_trim h] at hfind
    cases hfind
  have herror : (Item.token tok).error = some [] :=
    (Item.error_of_namesNoColumn hno).trans (congrArg some (if_neg hrecent))
  have hnil : queryString settings what = [] := by
    rw [queryString, translate2query, translatePieces_eq htrim hnumber, whereLoop_eq, emit,
      findSome_error_items, hfind, Option.bind_some, herror]
    rfl
  rw [countStatement, hnil]
  rfl

/-- The count is the number of rows on all pages of a text that is counted as it is searched. A
count that agrees otherwise is one of another condition. -/
theorem countAgrees_of_countsAlike (engine : Engine Seed) (table : Table) (settings : Settings)
    (what : Str) {p : Env → Bool} (hoff : settings.searchNetwork = false)
    (hweb : ∀ no, engine.galleryBlock no = none)
    (hv : searchCondition engine settings what = some p) :
    (CountsAlike table settings what p → CountAgrees engine table settings what) ∧
      (CountAgrees engine table settings what →
        CountsAlike table settings what p ∨ ReadsAnother settings what) := by
  cases hn : intTryParse what with
  | some n =>
    exact ⟨fun _ => countAgrees_of_number hweb hn, fun _ => .inl (.inl (by rw [hn]; rfl))⟩
  | none =>
    obtain ⟨cond, hstatement, hmeaning⟩ := searchStatement_of_condition hv
    have hsearch : search engine table settings what =
        match searchOrder engine what with
        | none => fun _ => some ([], -1)
        | some order => engine.queryPage table order (searchStatement settings what) :=
      search_eq hoff hn
    rw [hstatement] at hsearch
    have hplain (hr : isRandom what = false) : queryString settings what = selectWhere ++ cond := by
      simpa [searchStatement, hn, hr] using hstatement
    have hpages (hr : isRandom what = false) : search engine table settings what =
        engine.queryPage table .byId (selectWhere ++ cond) := by
      simpa [searchOrder, hr] using hsearch
    constructor
    · rintro (hnumber | ⟨hr, hspell, hclosed⟩)
      · rw [hn] at hnumber
        cases hnumber
      · have hcount : countSearch engine table settings what =
            some (table.rows.filter p).length := countSearch_of_plain (hplain hr) hmeaning hspell
        rw [hplain hr, closed_append read_selectWhere] at hclosed
        by_cases hc : Closed cond
        · refine ⟨_, hpages hr ▸ collects_closed hmeaning hc .byId, ?_⟩
          rw [hcount, (engine.sorted_perm _ _).length_eq]
        · have hshort := hclosed.resolve_left hc
          refine ⟨_, hpages hr ▸ (collects_open_iff hmeaning hc .byId).mpr ⟨hshort, rfl⟩, ?_⟩
          rw [hcount, (engine.scan_perm _).length_eq]
    · rintro ⟨rows, hrows, hcount⟩
      cases hr : isRandom what with
      | true =>
        refine .inr (.inl ⟨hr, fun hnil => ?_⟩)
        rw [countSearch, hnil, engine.rawCount_nil] at hcount
        cases hcount
      | false =>
        by_cases hspell : selectFrom <:+: conditionText settings what
        · exact .inr (.inr hspell)
        · refine .inl (.inr ⟨hr, hspell, ?_⟩)
          rw [hplain hr, closed_append read_selectWhere]
          by_cases hc : Closed cond
          · exact .inl hc
          · rw [hpages hr, collects_open_iff hmeaning hc] at hrows
            exact .inr hrows.1

/-- Of a text whose first tag without a column is not `recent`, as one with a seed is, there is no
count. -/
lemma not_countAgrees_of_noColumn {tok : Str} (hn : intTryParse (firstWord what) = none)
    (ht : (words what).find? (NamesNoColumn ·) = some tok)
    (hrecent : tagName tok ≠ "recent".toList) : ¬ CountAgrees engine table settings what := by
  rintro ⟨rows, -, hcount⟩
  rw [countSearch, countStatement_of_noColumn hn ht hrecent, engine.rawCount_nil] at hcount
  cases hcount

/-! ### An engine -/

/-- Words between blanks, and a number behind them. -/
lemma reads_words_number {s : LexState} (hs : s.Settled) {cs : Str} {ts : List Sql.Token}
    (h : LexState.read ⟨[], .blank⟩ cs = ⟨ts, .blank⟩) (n : ℕ) :
    s.Reads (' ' :: cs ++ Nat.toDigits 10 n) (ts ++ [.number n]) := by
  have hread := LexState.read_space hs h
  refine LexState.Reads.append ⟨?_, ?_⟩ ?_
  · rw [hread]
    exact LexState.settled_blank _
  · rw [hread, LexState.flush_blank]
  · rw [hread]
    exact LexState.reads_toDigits (.inl rfl) n

lemma read_offset : LexState.read ⟨[], .blank⟩ "OFFSET ".toList =
    ⟨[.name "OFFSET".toList], .blank⟩ := by
  decide +kernel

lemma pageClause_eq (text : Str) (limit offset : ℕ) : pageClause text limit offset =
    ' ' :: ("ORDER BY ".toList ++ text ++ " LIMIT ".toList) ++ Nat.toDigits 10 limit ++
      (' ' :: "OFFSET ".toList ++ Nat.toDigits 10 offset) := by
  have horder : " ORDER BY ".toList = ' ' :: "ORDER BY ".toList := by decide
  have hword : " OFFSET ".toList = ' ' :: "OFFSET ".toList := by decide
  have hnumber (n : ℕ) : intToString n = Nat.toDigits 10 n := rfl
  unfold pageClause
  rw [horder, hword, hnumber, hnumber]
  simp only [List.append_assoc, List.cons_append]

lemma pageTokens_eq (ts : List Sql.Token) (limit offset : ℕ) :
    pageTokens ts limit offset = ts ++ [.name "LIMIT".toList] ++ [.number limit] ++
      ([.name "OFFSET".toList] ++ [.number offset]) := by
  rw [pageTokens, List.append_assoc, List.append_assoc]
  rfl

/-- The order and the page are read behind a text that leaves nothing open. -/
lemma reads_pageClause {s : LexState} (hs : s.Settled) {text : Str} {ts : List Sql.Token}
    (htext : LexState.read ⟨[], .blank⟩ ("ORDER BY ".toList ++ text ++ " LIMIT ".toList) =
      ⟨ts ++ [.name "LIMIT".toList], .blank⟩) (limit offset : ℕ) :
    s.Reads (pageClause text limit offset) (pageTokens ts limit offset) := by
  have hlimit := reads_words_number hs htext limit
  have hall := hlimit.append (reads_words_number hlimit.settled read_offset offset)
  rw [pageClause_eq, pageTokens_eq]
  exact hall

/-- The order and the page end no comment. -/
lemma notMem_pageClause {text : Str} (h : ∀ c ∈ text, c ≠ '\n' ∧ c ≠ '/') (limit offset : ℕ) :
    ∀ c ∈ pageClause text limit offset, c ≠ '\n' ∧ c ≠ '/' := by
  have hdigits (n : ℕ) : ∀ c ∈ intToString n, c ≠ '\n' ∧ c ≠ '/' := by
    intro c hc
    rcases isDigit_of_mem_intToString hc with rfl | hd
    · decide
    · constructor <;> rintro rfl <;> cases hd
  have hwords : ∀ c ∈ " ORDER BY ".toList ++ " LIMIT ".toList ++ " OFFSET ".toList,
      c ≠ '\n' ∧ c ≠ '/' := forall_mem_of_all (by decide)
  intro c hc
  unfold pageClause at hc
  simp only [List.mem_append, or_assoc] at hc
  rcases hc with hc | hc | hc | hc | hc | hc
  · exact hwords c (by simp only [List.mem_append, hc, true_or])
  · exact h c hc
  · exact hwords c (by simp only [List.mem_append, hc, true_or, or_true])
  · exact hdigits limit c hc
  · exact hwords c (by simp only [List.mem_append, hc, or_true])
  · exact hdigits offset c hc

/-- A condition in which `ORDER` is no name. -/
def readWhere (ts : List Sql.Token) : Option Expr :=
  if ts.any Sql.Token.isOrder then none else parse ts

def sampleMeaning (cond : Str) : Option (Env → Bool) :=
  ((lex cond).bind readWhere).map fun e row => decide (e.Holds row)

lemma sampleMeaning_eq_some {cond : Str} {p : Env → Bool} (h : sampleMeaning cond = some p) :
    ∃ ts e, lex cond = some ts ∧ (∀ t ∈ ts, t.isOrder = false) ∧ parse ts = some e ∧
      p = fun row => decide (e.Holds row) := by
  obtain ⟨e, he, rfl⟩ := Option.map_eq_some_iff.mp h
  obtain ⟨ts, hts, hwhere⟩ := Option.bind_eq_some_iff.mp he
  rw [readWhere, Option.ite_none_left_eq_some] at hwhere
  refine ⟨ts, e, hts, fun t ht => ?_, hwhere.2, rfl⟩
  simpa using List.any_eq_false.mp (Bool.eq_false_iff.mpr hwhere.1) t ht

/-- The seeds `5.0` and `-1.0`. -/
def samplePrint (five : Bool) : Str := if five then "5.0".toList else "-1.0".toList

/-- The rows of a statement, put in the order of their identifiers whenever one is asked for. -/
def sampleRows (table : Table) (statement : Str) : Option (List Env) := do
  let ts ← lex statement
  let ts ← ts.dropPrefix? selectTokens
  let selection ← readSelection ts
  let rows := table.rows.filter fun row => selection.cond.Holds row
  match selection.page with
  | none => return rows
  | some page => return ((byIdDesc rows).drop page.offset).take page.limit

def countTokens : List Sql.Token :=
  [.name "SELECT".toList, .name "COUNT".toList, .symbol '(', .symbol '*', .symbol ')',
    .name "AS".toList, .name "C".toList, .name "FROM".toList, .name "HitomiColumnModel".toList,
    .name "WHERE".toList]

def sampleCount (table : Table) (statement : Str) : Option ℕ := do
  let ts ← lex statement
  let ts ← ts.dropPrefix? countTokens
  let e ← readWhere ts
  return (table.rows.filter fun row => e.Holds row).length

lemma exists_orderTokens (order : Order Bool) : ∃ ts,
    LexState.read ⟨[], .blank⟩
        ("ORDER BY ".toList ++ order.text samplePrint ++ " LIMIT ".toList) =
      ⟨.name "ORDER".toList :: ts ++ [.name "LIMIT".toList], .blank⟩ := by
  cases order with
  | byId => exact ⟨[.name "BY".toList, .name "Id".toList, .name "DESC".toList], rfl⟩
  | random seed =>
    cases seed
    · exact ⟨[.name "BY".toList, .name "Id".toList, .symbol '*', .symbol '-', .number 1,
        .symbol '.', .number 0, .symbol '-', .name "ROUND".toList, .symbol '(', .name "Id".toList,
        .symbol '*', .symbol '-', .number 1, .symbol '.', .number 0, .symbol '-', .number 0,
        .symbol '.', .number 5, .symbol ',', .number 0, .symbol ')', .name "DESC".toList], rfl⟩
    · exact ⟨[.name "BY".toList, .name "Id".toList, .symbol '*', .number 5,
        .symbol '.', .number 0, .symbol '-', .name "ROUND".toList, .symbol '(', .name "Id".toList,
        .symbol '*', .number 5, .symbol '.', .number 0, .symbol '-', .number 0,
        .symbol '.', .number 5, .symbol ',', .number 0, .symbol ')', .name "DESC".toList], rfl⟩

/-- An engine that reads the statements of the translator, without a web. -/
def sampleEngine : Engine Bool where
  meaning := sampleMeaning
  meaning_id n := by
    have hread := readCondition_id n
    rw [readCondition, lex_eq_of_reads (reads_id n []), Option.bind_some] at hread
    have hnone : (idTokens n).any Sql.Token.isOrder = false := by
      rw [idTokens]
      split_ifs <;> rfl
    rw [sampleMeaning, lex_eq_of_reads (reads_id n []), Option.bind_some, readWhere, hnone,
      if_neg Bool.false_ne_true, hread, Option.map_some]
    exact congrArg some (funext fun row => decide_eq_decide.mpr holds_eq_number)
  doubleTryParse s := if s = "5".toList then some true else none
  minusOne := false
  print := samplePrint
  sorted _ rows := byIdDesc rows
  sorted_byId _ := rfl
  sorted_perm _ rows := byIdDesc_perm rows
  scan rows := rows
  scan_perm rows := .refl rows
  rawQuery := sampleRows
  rawQuery_closed table cond p hp hc order limit offset := by
    obtain ⟨ts, e, hlex, hts, he, rfl⟩ := sampleMeaning_eq_some hp
    obtain ⟨os, hos⟩ := exists_orderTokens order
    have hcond : LexState.init.Reads cond ts :=
      ⟨hc, (lex_eq_some_iff.mp hlex).1⟩
    have htext := lex_eq_of_reads (hcond.append (reads_pageClause hc hos limit offset))
    simp only [sampleRows, List.append_assoc, lex_append read_selectWhere, htext,
      Option.map_some, Option.bind_eq_bind, Option.bind_some,
      List.dropPrefix?_append_of_beq _ (beq_self_eq_true _),
      readSelection_append hts (t := .name "ORDER".toList) rfl, he]
    rfl
  rawQuery_open table cond p hp hc order limit offset := by
    obtain ⟨ts, e, hlex, hts, he, rfl⟩ := sampleMeaning_eq_some hp
    have hplain : ∀ c ∈ order.text samplePrint, c ≠ '\n' ∧ c ≠ '/' := by
      rcases order with _ | (_ | _) <;> exact forall_mem_of_all (by decide)
    have htext := lex_append_of_open hlex hc (notMem_pageClause hplain limit offset)
    simp only [sampleRows, List.append_assoc, lex_append read_selectWhere, htext,
      Option.map_some, Option.bind_eq_bind, Option.bind_some,
      List.dropPrefix?_append_of_beq _ (beq_self_eq_true _), readSelection_self hts, he]
    rfl
  rawCount := sampleCount
  rawCount_where table cond p hp := by
    obtain ⟨ts, e, hlex, hts, he, rfl⟩ := sampleMeaning_eq_some hp
    have hcount : LexState.init.read countWhere = ⟨countTokens, .blank⟩ := rfl
    have hwhere : readWhere ts = some e := by
      rw [readWhere, if_neg, he]
      simpa using hts
    simp only [sampleCount, lex_append hcount, hlex, Option.map_some, Option.bind_eq_bind,
      Option.bind_some, List.dropPrefix?_append_of_beq _ (beq_self_eq_true _), hwhere]
    rfl
  rawCount_nil _ := rfl
  galleryBlock _ := none
  networkSearch _ _ := none

/-- An article in English with the title `a`. -/
def sampleArticle (n : ℕ) : Env := fun column =>
  if column = idColumn then .int n
  else if column = titleColumn then .text "a".toList
  else if column = "Language".toList then .text "english".toList
  else if column = existColumn then .int 1
  else .null

/-- The first of these articles. -/
def sampleTable (n : ℕ) : Table where
  rows := (List.range n).map sampleArticle
  nodup_ids := by
    rw [List.map_map]
    refine List.Pairwise.map _ (fun i j hne h => hne ?_) List.nodup_range
    have hid : Value.int i = .int j := h
    exact Int.natCast_inj.mp (Value.int.inj hid)

theorem countAgrees_word : ∃ p, searchCondition sampleEngine sampleSettings "a".toList = some p ∧
    CountAgrees sampleEngine (sampleTable 2) sampleSettings "a".toList := by
  have hv : (searchCondition sampleEngine sampleSettings "a".toList).isSome = true := by
    decide +kernel
  obtain ⟨p, hp⟩ := Option.isSome_iff_exists.mp hv
  refine ⟨p, hp, (countAgrees_of_countsAlike _ _ _ _ rfl (fun _ => rfl) hp).1 (.inr ⟨?_, ?_, ?_⟩)⟩
  · decide
  · decide +kernel
  · exact .inl (closed_of_quotesPaired (by decide +kernel))

/-- The count of a search with a seed is an error. -/
theorem not_countAgrees_seed :
    (searchCondition sampleEngine sampleSettings "random:5".toList).isSome = true ∧
      ¬ CountAgrees sampleEngine (sampleTable 2) sampleSettings "random:5".toList := by
  refine ⟨by decide +kernel, fun h => ?_⟩
  obtain ⟨rows, -, hcount⟩ := h
  have hempty : countStatement sampleSettings "random:5".toList = [] := by decide +kernel
  rw [countSearch, hempty] at hcount
  cases hcount

end Violet
