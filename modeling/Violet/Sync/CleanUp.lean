import Violet.Search.Filters
import Violet.Sql.Negation

/-!
# The deletion of excluded articles

The synchronisation and the rebuilding of the database delete the articles that the settings do not
select. The condition of the deletion is made from the text of the selection: what stands behind its
`WHERE`, in parentheses behind `NOT`. A comment that is open at the end of this text takes in the
closing parenthesis.
-/

namespace Violet

open Dart Sql

/-! ### Statements -/

/-- `indexOf`: the place of the first occurrence. -/
def indexOf (s pat : Str) : ℤ := ((go s).map Int.ofNat).getD (-1)
where
  go : Str → Option ℕ
    | [] => if pat = [] then some 0 else none
    | c :: s => if pat.isPrefixOf (c :: s) then some 0 else (go s).map (· + 1)

/-- `substring`, which throws when the start is not in the text. -/
def substring (s : Str) (start : ℤ) : Option Str :=
  if 0 ≤ start ∧ start ≤ s.length then some (s.drop start.toNat) else none

/-- The text of the settings. -/
def Settings.filterText (settings : Settings) : Str :=
  settings.includeTags ++ ' ' ::
    join [' '] ((settings.excludeTags.filter fun e => trim e ≠ []).map fun e => '-' :: e)

/-- The selection of the settings. -/
def Settings.sql (settings : Settings) : Str := translate2query settings.filterText

/-- The condition of the deletion. -/
def Settings.deleteWhere (settings : Settings) : Option Str :=
  (substring settings.sql (indexOf settings.sql "WHERE".toList + 6)).map fun cond =>
    "NOT (".toList ++ cond ++ ")".toList

/-- The condition of a selection from the articles, when it is valid. -/
def selectCondition (sql : Str) : Option Expr := (sql.dropPrefix? selectWhere).bind readCondition

/-- The rows that a statement selects from the table. -/
def rawQuery (rows : List Env) (sql : Str) : Option (List Env) :=
  (selectCondition sql).map fun e => rows.filter fun row => e.Holds row

/-- `delete`: the rows that remain in the table. -/
def delete (rows : List Env) (cond : Str) : Option (List Env) :=
  (readCondition cond).map fun e => rows.filter fun row => ¬ e.Holds row

/-- The deletion of what the settings exclude. -/
def cleanUp (settings : Settings) (rows : List Env) : Option (List Env) :=
  settings.deleteWhere.bind (delete rows)

/-- The rows that remain in the table. A statement that is no SQL deletes nothing. -/
def remaining (settings : Settings) (rows : List Env) : List Env :=
  (cleanUp settings rows).getD rows

/-- The text of the selection leaves no comment open and its condition is `NULL` on no row, or the
condition holds of every row. -/
def DeletesTheRest (settings : Settings) (rows : List Env) (e : Expr) : Prop :=
  (Closed settings.sql ∧ ∀ row ∈ rows, ¬ e.IsNull row) ∨ ∀ row ∈ rows, e.Holds row

/-! ### What remains -/

variable {settings : Settings} {rows : List Env} {e : Expr}

/-- The first `WHERE` is the one in front of the condition. -/
lemma substring_selectWhere (cond : Str) :
    substring (selectWhere ++ cond) (indexOf (selectWhere ++ cond) "WHERE".toList + 6) =
      some cond := by
  have hindex : indexOf (selectWhere ++ cond) "WHERE".toList + 6 = 38 := rfl
  have hlength : (38 : ℤ) ≤ (selectWhere ++ cond).length := by
    have hselect : selectWhere.length = 38 := rfl
    rw [List.length_append, hselect]
    omega
  rw [hindex, substring, if_pos ⟨by decide, hlength⟩]
  rfl

lemma exists_cond_of_selectCondition {sql : Str} (h : selectCondition sql = some e) :
    ∃ cond, sql = selectWhere ++ cond ∧ readCondition cond = some e := by
  obtain ⟨cond, hcond, he⟩ := Option.bind_eq_some_iff.mp h
  obtain ⟨pre, hpre, heq⟩ := List.dropPrefix?_eq_some_iff.mp hcond
  exact ⟨cond, hpre.trans (congrArg (· ++ cond) (eq_of_beq heq)), he⟩

/-- The deletion keeps the rows that do not violate the condition, unless a comment is open. -/
lemma cleanUp_eq (h : selectCondition settings.sql = some e) (rows : List Env) :
    cleanUp settings rows =
      if Closed settings.sql then some (rows.filter fun row => ¬ e.Fails row) else none := by
  obtain ⟨cond, hsql, he⟩ := exists_cond_of_selectCondition h
  have hwhere : settings.deleteWhere = some (negated cond) := by
    rw [Settings.deleteWhere, hsql, substring_selectWhere]
    rfl
  rw [cleanUp, hwhere, Option.bind_some, delete, hsql]
  split_ifs with hclosed
  · rw [readCondition_negated he ((closed_append read_selectWhere cond).mp hclosed)]
    simp only [Option.map_some, Expr.holds_not]
  · have hopen : ¬ Closed cond := fun hc => hclosed ((closed_append read_selectWhere cond).mpr hc)
    rw [readCondition_negated_of_open he hopen]
    rfl

/-- What is not violated is what holds, where the condition is not `NULL`. -/
lemma filter_not_fails_iff : rows.filter (fun row => decide (¬ e.Fails row)) =
    rows.filter (fun row => decide (e.Holds row)) ↔ ∀ row ∈ rows, ¬ e.IsNull row := by
  constructor
  · intro heq row hrow hnull
    have hmem : row ∈ rows.filter fun row => decide (¬ e.Fails row) :=
      List.mem_filter.mpr ⟨hrow, decide_eq_true (Expr.not_fails_iff.mpr (.inr hnull))⟩
    rw [heq, List.mem_filter, decide_eq_true_eq] at hmem
    exact Expr.not_isNull_of_holds hmem.2 hnull
  · intro hnull
    refine List.filter_congr fun row hrow => decide_eq_decide.mpr ?_
    rw [Expr.not_fails_iff]
    exact or_iff_left (hnull row hrow)

/-- The rows that remain after the deletion are those that the settings select, if and only if the
condition of the settings is `NULL` on no row and leaves no comment open, or every row is
selected. -/
theorem remaining_eq_rawQuery_iff (settings : Settings) (rows : List Env) {e : Expr}
    (h : selectCondition settings.sql = some e) :
    some (remaining settings rows) = rawQuery rows settings.sql ↔
      DeletesTheRest settings rows e := by
  rw [remaining, cleanUp_eq h, rawQuery, h, Option.map_some, Option.some.injEq, DeletesTheRest]
  by_cases hclosed : Closed settings.sql
  · simp only [hclosed, if_true, Option.getD_some, true_and]
    rw [filter_not_fails_iff]
    refine ⟨.inl, fun hrows => hrows.elim id fun hall row hrow => ?_⟩
    exact Expr.not_isNull_of_holds (hall row hrow)
  · simp only [hclosed, if_false, Option.getD_none, false_and, false_or]
    rw [eq_comm, List.filter_eq_self]
    simp only [decide_eq_true_eq]

/-- Without `NULL` in the columns that the settings name, only the selected rows remain. -/
lemma remaining_eq_rawQuery_of_columns (h : selectCondition settings.sql = some e)
    (hclosed : Closed settings.sql) (hrows : ∀ row ∈ rows, ∀ w ∈ e.columns, row w ≠ .null) :
    some (remaining settings rows) = rawQuery rows settings.sql :=
  (remaining_eq_rawQuery_iff settings rows h).mpr
    (.inl ⟨hclosed, fun row hrow => Expr.not_isNull_of_columns (hrows row hrow)⟩)

/-- Settings that require a tag. -/
def requireTag : Settings where
  includeTags := "tag:a".toList
  excludeTags := []
  searchNetwork := false

/-- An article without tags. -/
def untagged : Env := fun column => if column = existColumn then .int 1 else .null

theorem remaining_eq_rawQuery_iff_untagged : ∃ e, selectCondition requireTag.sql = some e ∧
    (some (remaining requireTag [untagged]) = rawQuery [untagged] requireTag.sql ↔
      DeletesTheRest requireTag [untagged] e) := by
  have hvalid : (selectCondition requireTag.sql).isSome = true := by decide +kernel
  obtain ⟨e, he⟩ := Option.isSome_iff_exists.mp hvalid
  exact ⟨e, he, remaining_eq_rawQuery_iff requireTag [untagged] he⟩

/-- An article without tags is not selected, and is not deleted. -/
theorem not_remaining_eq_rawQuery :
    ¬ ∀ (settings : Settings) (rows : List Env), (selectCondition settings.sql).isSome = true →
      some (remaining settings rows) = rawQuery rows settings.sql := by
  intro h
  have hlength := congrArg (Option.map List.length) (h requireTag [untagged] (by decide +kernel))
  revert hlength
  decide +kernel

/-- Behind a quote and two minus signs, the rest of the deletion is a comment. -/
example : ∀ settings : Settings, settings = ⟨"a'--".toList, [], false⟩ →
    selectCondition settings.sql =
        some (.binary .like (.column titleColumn) (.text "%a".toList)) ∧
      cleanUp settings [untagged] = none := by
  rintro settings rfl
  decide +kernel

end Violet
