import Violet.Search.HentaiManager

/-!
# The pages of the database

A search in the database asks for one page at a time, by a statement with `LIMIT` and `OFFSET`. The
pages up to the one that is not full are all rows that the condition selects, each once, with the
highest identifier first, as long as the condition leaves no comment open. A quote in the text of
the user can open one, and the order and the page are then a part of it: every page is all the rows.
-/

namespace Violet

open Dart Sql Paging

/-! ### Conditions -/

/-- Articles with integer identifiers. -/
structure ArticleTable extends Table where
  isInt : ∀ row ∈ rows, ∃ n, row idColumn = .int n

variable {Seed : Type}

/-- The condition that the text is translated to, when it is valid. -/
def dbCondition (engine : Engine Seed) (settings : Settings) (what : Str) : Option (Env → Bool) :=
  ((queryString settings what).dropPrefix? selectWhere).bind engine.meaning

variable {engine : Engine Seed} {table : ArticleTable} {settings : Settings} {what : Str}
  {p : Env → Bool}

lemma queryString_of_dbCondition (h : dbCondition engine settings what = some p) :
    ∃ cond, queryString settings what = selectWhere ++ cond ∧ engine.meaning cond = some p := by
  obtain ⟨cond, hcond, hmeaning⟩ := Option.bind_eq_some_iff.mp h
  obtain ⟨pre, hpre, heq⟩ := List.dropPrefix?_eq_some_iff.mp hcond
  exact ⟨cond, hpre.trans (congrArg (· ++ cond) (eq_of_beq heq)), hmeaning⟩

/-! ### Order -/

/-- The identifier, where it is an integer. -/
def intId (row : Env) : ℤ :=
  match row idColumn with
  | .int n => n
  | _ => 0

lemma map_intId_byIdDesc {rows : List Env} (hint : ∀ row ∈ rows, ∃ n, row idColumn = .int n) :
    (byIdDesc rows).map intId = (rows.map intId).mergeSort fun a b => decide (b ≤ a) := by
  refine List.map_mergeSort fun a ha b hb => ?_
  obtain ⟨m, hm⟩ := hint a ha
  obtain ⟨n, hn⟩ := hint b hb
  simp only [intId, hm, hn, Value.lt, ← decide_not, Int.not_lt]

/-- Different integers are put in strictly descending order. -/
lemma pairwise_byIdDesc {rows : List Env} (hint : ∀ row ∈ rows, ∃ n, row idColumn = .int n)
    (hnodup : (rows.map fun row => row idColumn).Nodup) :
    (byIdDesc rows).Pairwise fun a b => Value.lt (b idColumn) (a idColumn) = true := by
  have hsorted : ((byIdDesc rows).map intId).Pairwise fun a b => b ≤ a := by
    rw [map_intId_byIdDesc hint]
    have htrans : ∀ a b c : ℤ, decide (b ≤ a) = true → decide (c ≤ b) = true →
        decide (c ≤ a) = true := by
      simp only [decide_eq_true_eq]
      intro a b c hab hbc
      exact Int.le_trans hbc hab
    have htotal : ∀ a b : ℤ, (decide (b ≤ a) || decide (a ≤ b)) = true := by
      intro a b
      simpa using Int.le_total b a
    exact (List.pairwise_mergeSort htrans htotal (rows.map intId)).imp of_decide_eq_true
  have hdistinct : (byIdDesc rows).Pairwise fun a b => a idColumn ≠ b idColumn :=
    List.pairwise_map.mp (((byIdDesc_perm rows).map _).nodup_iff.mpr hnodup)
  refine ((List.pairwise_map.mp hsorted).and hdistinct).imp_of_mem ?_
  rintro a b ha hb ⟨hle, hne⟩
  obtain ⟨m, hm⟩ := hint a ((byIdDesc_perm rows).mem_iff.mp ha)
  obtain ⟨n, hn⟩ := hint b ((byIdDesc_perm rows).mem_iff.mp hb)
  simp only [intId, hm, hn] at hle
  rw [hm, hn] at hne ⊢
  exact decide_eq_true (Int.lt_iff_le_and_ne.mpr ⟨hle, fun heq => hne (congrArg _ heq.symm)⟩)

/-! ### All pages -/

/-- The pages from the first one on end, and are the rows, with the highest identifier first. -/
def PagesAll (search : ℤ → Option (List Env × ℤ)) (all : List Env) : Prop :=
  ∃ rows, Collects search 0 rows ∧ rows.Perm all ∧
    rows.Pairwise fun a b => Value.lt (b idColumn) (a idColumn) = true

/-- The pages from the first one on are the rows that the condition selects exactly when the
condition leaves nothing open, or when it leaves a comment open and the one page that there is
happens to be in order. -/
theorem pagesAll_dbSearch_iff (engine : Engine Seed) (table : ArticleTable) (settings : Settings)
    (what : Str) {p : Env → Bool} (h : dbCondition engine settings what = some p) :
    PagesAll (dbSearch engine table.toTable settings what) (table.rows.filter p) ↔
      Closed (queryString settings what) ∨ (table.rows.filter p).length < itemsPerPage ∧
        (engine.scan (table.rows.filter p)).Pairwise fun a b =>
          Value.lt (b idColumn) (a idColumn) = true := by
  obtain ⟨cond, hstatement, hmeaning⟩ := queryString_of_dbCondition h
  have hsearch : dbSearch engine table.toTable settings what =
      engine.queryPage table.toTable .byId (selectWhere ++ cond) := by
    funext offset
    rw [dbSearch, hstatement]
  rw [hsearch, hstatement, closed_append read_selectWhere]
  by_cases hc : Closed cond
  · have hrows : Collects (engine.queryPage table.toTable .byId (selectWhere ++ cond)) 0
        (engine.sorted .byId (table.rows.filter p)) := collects_closed hmeaning hc .byId
    rw [engine.sorted_byId] at hrows
    have hint : ∀ row ∈ table.rows.filter p, ∃ n, row idColumn = .int n := fun row hrow =>
      table.isInt row (List.mem_of_mem_filter hrow)
    have hnodup := table.nodup_ids.sublist (List.filter_sublist (p := p) |>.map _)
    exact iff_of_true ⟨_, hrows, byIdDesc_perm _, pairwise_byIdDesc hint hnodup⟩ (.inl hc)
  · have hopen (rows : List Env) :
        Collects (engine.queryPage table.toTable .byId (selectWhere ++ cond)) 0 rows ↔
          (table.rows.filter p).length < itemsPerPage ∧
            rows = engine.scan (table.rows.filter p) := collects_open_iff hmeaning hc .byId
    rw [or_iff_right hc]
    constructor
    · rintro ⟨rows, hrows, -, hsorted⟩
      obtain ⟨hfew, rfl⟩ := (hopen rows).mp hrows
      exact ⟨hfew, hsorted⟩
    · rintro ⟨hfew, hsorted⟩
      exact ⟨_, (hopen _).mpr ⟨hfew, rfl⟩, engine.scan_perm _, hsorted⟩

/-- Articles in English with the title `a`. -/
def sampleArticleTable (n : ℕ) : ArticleTable where
  toTable := sampleTable n
  isInt row hrow := by
    obtain ⟨i, -, rfl⟩ := List.mem_map.mp hrow
    exact ⟨i, rfl⟩

theorem pagesAll_dbSearch_word :
    ∃ p, dbCondition sampleEngine sampleSettings "a".toList = some p ∧
      PagesAll (dbSearch sampleEngine (sampleArticleTable 501).toTable sampleSettings "a".toList)
        ((sampleArticleTable 501).rows.filter p) := by
  have hvalid : (dbCondition sampleEngine sampleSettings "a".toList).isSome = true := by
    decide +kernel
  obtain ⟨p, hp⟩ := Option.isSome_iff_exists.mp hvalid
  refine ⟨p, hp, (pagesAll_dbSearch_iff _ _ _ _ hp).mpr (.inl ?_)⟩
  exact closed_of_quotesPaired (by decide +kernel)

/-- What is left of the condition behind a quote that is not paired. -/
def quoteExpr : Expr := .binary .like (.column titleColumn) (.text "%a".toList)

lemma length_filter_quoteExpr (n : ℕ) : ((sampleArticleTable n).rows.filter fun row =>
    decide (quoteExpr.Holds row)).length = n := by
  have hall : ∀ row ∈ (sampleArticleTable n).rows, decide (quoteExpr.Holds row) = true := by
    intro row hrow
    obtain ⟨i, -, rfl⟩ := List.mem_map.mp hrow
    have hzero : quoteExpr.Holds (sampleArticle 0) := by decide +kernel
    refine decide_eq_true ((Expr.holds_congr fun w hw => ?_).mp hzero)
    obtain rfl := List.mem_singleton.mp hw
    rfl
  rw [List.filter_eq_self.mpr hall]
  exact (List.length_map _).trans List.length_range

/-- Behind the quote of `a'--` there is no page, and five hundred articles have no end. -/
theorem not_pagesAll_dbSearch_quote :
    ∃ p, dbCondition sampleEngine sampleSettings "a'--".toList = some p ∧
      ¬ PagesAll
        (dbSearch sampleEngine (sampleArticleTable 500).toTable sampleSettings "a'--".toList)
        ((sampleArticleTable 500).rows.filter p) := by
  obtain ⟨cond, hstatement, hread, hopen⟩ : ∃ cond,
      queryString sampleSettings "a'--".toList = selectWhere ++ cond ∧
        (lex cond).bind readWhere = some quoteExpr ∧ ¬ Closed cond :=
    ⟨(queryString sampleSettings "a'--".toList).drop selectWhere.length, by decide +kernel,
      by decide +kernel, by decide +kernel⟩
  have hmeaning : sampleEngine.meaning cond = some fun row => decide (quoteExpr.Holds row) :=
    congrArg (Option.map fun (e : Expr) (row : Env) => decide (e.Holds row)) hread
  refine ⟨fun row => decide (quoteExpr.Holds row), ?_, ?_⟩
  · rw [dbCondition, hstatement, List.dropPrefix?_append_of_beq _ (beq_self_eq_true _),
      Option.bind_some, hmeaning]
  · rintro ⟨rows, hrows, -⟩
    have hsearch : dbSearch sampleEngine (sampleArticleTable 500).toTable sampleSettings
        "a'--".toList = sampleEngine.queryPage (sampleArticleTable 500).toTable .byId
          (selectWhere ++ cond) := by
      funext offset
      rw [dbSearch, hstatement]
    rw [hsearch, collects_open_iff hmeaning hopen, length_filter_quoteExpr] at hrows
    exact absurd hrows.1 (Nat.lt_irrefl itemsPerPage)

end Violet
