import Mathlib.Logic.Function.Basic
import Violet.Search.UserPart

/-!
# The filters of the settings

A search in the database appends the tags of the settings to the text of the user: an expression
that every result has to satisfy, and excluded tags with a minus sign. The filters are text like the
rest, so whether they bind is decided by the SQL precedence around them. They bind the tokens since
the last `or` of the user outside parentheses; what stands in front of that `or` is an alternative
that the filters do not reach.
-/

namespace Violet

open Dart Sql

/-! ### The text of a search -/

structure Settings where
  includeTags : Str
  excludeTags : List Str
  searchNetwork : Bool
  deriving DecidableEq, Repr

/-- The text that `_dbSearch` hands to `translate2query`. -/
def searchText (settings : Settings) (what : Str) : Str :=
  what ++ ' ' :: settings.includeTags ++ ' ' ::
    trim (join [' '] ((settings.excludeTags.filter fun e => trim e ≠ []).map fun e => '-' :: e))

def queryString (settings : Settings) (what : Str) : Str :=
  translate2query (searchText settings what)

/-- The statement selects the row from the table. -/
def Selects (statement : Str) (row : Env) : Prop :=
  ∃ cond e, statement = selectWhere ++ cond ∧ readCondition cond = some e ∧ e.Holds row

/-! ### Filters -/

/-- What the settings mean to require: a condition, and tags that are excluded. -/
structure Filters where
  included : Query .disjunction
  excluded : List (Prefix × PlainText)

def excludedAtom (t : Prefix × PlainText) : Atom := .tag t.1 t.2

/-- The settings spell the filters: the expression in parentheses, and one token for each tag. -/
def Settings.Spell (settings : Settings) (f : Filters) : Prop :=
  Spells (Query.paren f.included).tokens settings.includeTags ∧
    (settings.excludeTags.filter fun e => trim e ≠ []) =
      f.excluded.map fun t => (excludedAtom t).text

def existColumn : List Char := "ExistOnHitomi".toList

/-- The row satisfies the filters. -/
def Filters.Admits (f : Filters) (row : Env) : Prop :=
  row existColumn = .int 1 ∧ f.included.expr.Holds row ∧
    ∀ t ∈ f.excluded, ¬ ((excludedAtom t).expr false).Holds row

/-- The filters as an expression. -/
def Filters.query (f : Filters) : Query .conjunction :=
  f.excluded.foldl (fun c t => .juxt c (.atom true (excludedAtom t)))
    (.single (.paren f.included))

/-- Every row of a result satisfies the filters. -/
def FiltersBind (settings : Settings) (f : Filters) (what : Str) : Prop :=
  ∀ row, Selects (queryString settings what) row → f.Admits row

/-! ### Searches that keep to the filters -/

/-- The condition of the tokens by themselves. -/
def readTokens (ts : List Str) : Option Expr :=
  readCondition (render ((items ts).flatMap Item.pieces))

/-- The row satisfies all that stands in front of an `or` outside parentheses. -/
def Escapes (ts : List Str) (row : Env) : Prop :=
  ∃ l kw r e, ts = l ++ kw :: r ∧ isOr kw = true ∧ readTokens l = some e ∧ e.Holds row

def tagName (tok : Str) : Str := ((unsigned tok).splitOn ':').headD []

/-- The text of the user leaves the filters in force: it asks for no identifier and no recent
articles, leaves no quote open in which filters would disappear, and has no alternative in front of
an `or` that some article satisfies. -/
def KeepsFilters (f : Filters) (what : Str) : Prop :=
  intTryParse (firstWord what) = none ∧
    match (words what).find? (NamesNoColumn ·) with
    | some tok => tagName tok = "recent".toList → ∀ row, row existColumn = .int 1 → f.Admits row
    | none => (∀ tok ∈ words what, paired (copied tok) = true) ∧
        ((readTokens (words what ++ f.query.tokens)).isSome → ∀ row, ¬ Escapes (words what) row)

lemma KeepsFilters.quotesPaired {f : Filters} {what : Str} (h : KeepsFilters f what) :
    QuotesPaired what := by
  obtain ⟨-, h⟩ := h
  split at h
  · rename_i tok ht
    exact .inr (.inl ⟨tok, List.mem_of_find?_eq_some ht, by simpa using List.find?_some ht⟩)
  · exact .inr (.inr h.1)

/-! ### Tokens of the text -/

lemma words_join (ts : List Str) (h : ∀ tok ∈ ts, IsToken tok) : words (join [' '] ts) = ts := by
  induction ts with
  | nil => exact words_nil
  | cons tok ts ih =>
    have hrest := ih fun t ht => h t (by simp [ht])
    have hsep : Separated tok ([] : Str) := .inr (by simp)
    have htok : words tok = [tok] := by
      simpa using words_append_of_isToken (h tok (by simp)) hsep
    cases ts with
    | nil => simpa [join] using htok
    | cons t ts =>
      rw [join, List.intercalate_cons_cons, ← join, List.append_assoc, List.singleton_append,
        words_append_space, htok, hrest, List.singleton_append]

lemma Filters.tokens_query (f : Filters) : f.query.tokens =
    (Query.paren f.included).tokens ++ f.excluded.map fun t => '-' :: (excludedAtom t).text := by
  have hfold (ts : List (Prefix × PlainText)) (c : Query .conjunction) :
      (ts.foldl (fun c t => Query.juxt c (.atom true (excludedAtom t))) c).tokens =
        c.tokens ++ ts.map fun t => '-' :: (excludedAtom t).text := by
    induction ts generalizing c with
    | nil => simp
    | cons t ts ih => simp [ih, Query.tokens, signed]
  exact hfold _ _

variable {settings : Settings} {f : Filters} {what : Str}

/-- The tokens of the filters follow those of the user. -/
lemma words_searchText (hs : settings.Spell f) :
    words (searchText settings what) = words what ++ f.query.tokens := by
  have htokens : ∀ tok ∈ f.excluded.map (fun t => '-' :: (excludedAtom t).text), IsToken tok := by
    simp only [List.mem_map]
    rintro _ ⟨t, -, rfl⟩
    exact (excludedAtom t).isToken_signed true
  have hexcluded : (settings.excludeTags.filter fun e => trim e ≠ []).map (fun e => '-' :: e) =
      f.excluded.map fun t => '-' :: (excludedAtom t).text := by
    rw [hs.2, List.map_map]
    rfl
  rw [searchText, words_append_space, words_append_space, words_trim, hexcluded,
    words_join _ htokens, hs.1.words_eq (Query.paren f.included).isToken, f.tokens_query,
    List.append_assoc]

/-- Behind the text of the user no number is looked for. -/
lemma intTryParse_searchText (hs : settings.Spell f) :
    intTryParse (firstWord (searchText settings what)) = intTryParse (firstWord what) := by
  have hinclude : intTryParse (firstWord settings.includeTags) = none :=
    hs.1.intTryParse_firstWord (.delimiter rfl) (by decide)
  have hne : trim settings.includeTags ≠ [] := fun h => by
    have hnil : words settings.includeTags = [] := words_of_trim_trim (by rw [h, trim_nil])
    rw [hs.1.words_eq (Query.paren f.included).isToken] at hnil
    cases hnil
  rw [searchText, List.append_assoc, List.cons_append, intTryParse_firstWord_append,
    intTryParse_firstWord_append, if_neg hne, hinclude]
  split_ifs with h
  · rw [intTryParse_firstWord, trimLeft_eq_nil_iff.mpr h]
    decide
  · rfl

/-! ### The meaning of the filters -/

def existExpr : Expr := .binary .eq (.column existColumn) (.number 1)

variable {row : Env}

lemma holds_eq_number {w : List Char} {n : ℤ} :
    (Expr.binary .eq (.column w) (.number n)).Holds row ↔ row w = .int n := by
  rw [Expr.Holds, Expr.eval, Value.truth_ofTruth, Expr.eval, Expr.eval, BinaryOp.eval]
  cases row w <;> simp [compareTruth]

lemma holds_existExpr : existExpr.Holds row ↔ row existColumn = .int 1 := holds_eq_number

@[simp] lemma Prefix.eval_collated (p : Prefix) (e : Expr) :
    (p.collated e).eval row = e.eval row := by
  unfold collated
  split_ifs <;> rfl

/-- A minus sign negates the tag behind it. -/
lemma holds_excluded (t : Prefix × PlainText) :
    ((excludedAtom t).expr true).Holds row ↔ ¬ ((excludedAtom t).expr false).Holds row := by
  refine (Expr.holds_isNot_one (Prefix.eval_collated _ _)).trans (not_congr ?_)
  simp only [Expr.Holds, Expr.eval, excludedAtom, Atom.expr, Bool.false_eq_true, if_false,
    Prefix.eval_collated]

lemma Filters.holds_query (f : Filters) : f.query.expr.Holds row ↔
    f.included.expr.Holds row ∧ ∀ t ∈ f.excluded, ¬ ((excludedAtom t).expr false).Holds row := by
  have hfold (ts : List (Prefix × PlainText)) (c : Query .conjunction) :
      (ts.foldl (fun c t => Query.juxt c (.atom true (excludedAtom t))) c).expr.Holds row ↔
        c.expr.Holds row ∧ ∀ t ∈ ts, ¬ ((excludedAtom t).expr false).Holds row := by
    induction ts generalizing c with
    | nil => simp
    | cons t ts ih => simp [ih, Query.expr, holds_excluded, and_assoc]
  exact hfold _ _

lemma Filters.admits_iff : f.Admits row ↔ f.query.expr.Holds row ∧ existExpr.Holds row := by
  rw [f.holds_query, holds_existExpr, Filters.Admits, and_comm]

/-! ### The filters behind the text of the user -/

/-- A conjunction behind an operand and `AND`. -/
lemma Query.exists_read_and : (c : Query .conjunction) → (stack : List (List Pending)) →
    (pend : List Pending) → (x : Expr) → Loose 2 pend →
      ∃ s y, readItems (items c.tokens) stack (.binary .and x :: pend) = some s ∧
        s.Carries 2 stack pend y ∧ ∀ row, y.Holds row ↔ x.Holds row ∧ c.expr.Holds row
  | .single u, stack, pend, x, _ => by
    have hl4 : Loose 4 (.binary .and x :: pend) := loose_binary (by decide) x pend
    obtain ⟨s, hs, hc⟩ := u.readsAs.parse stack _ hl4
    exact ⟨s, _, hs, (hc.mono (by decide)).apply (by decide), fun row => Expr.holds_and⟩
  | .juxt c u, stack, pend, x, hl => by
    obtain ⟨s, y, hs, hc, hy⟩ := c.exists_read_and stack pend x hl
    have hl4 : Loose 4 (.binary .and y :: pend) := loose_binary (by decide) y pend
    obtain ⟨s', hs', hc'⟩ := u.readsAs.parse stack _ hl4
    refine ⟨s', .binary .and y u.expr, ?_, (hc'.mono (by decide)).apply (by decide), fun row => ?_⟩
    · have hitems : items (c.tokens ++ u.tokens) = items c.tokens ++ .and :: items u.tokens :=
        c.readsAs.items_juxt u.readsAs
      simp only [readItems] at hs hs' ⊢
      rw [Query.tokens, hitems, List.flatMap_append, List.flatMap_cons, ParseState.read_append, hs,
        Option.bind_some, Item.tokens, ParseState.read_append, ParseState.read_cons,
        hc.step_and_of_loose le_rfl hl]
      simpa using hs'
    · rw [Expr.holds_and, hy, Query.expr, Expr.holds_and, and_assoc]

lemma read_exist {s : ParseState} {stack : List (List Pending)} {pend : List Pending} {y : Expr}
    (h : s.Carries 2 stack pend y) (hl : Loose 2 pend) :
    ∃ s', s.read (.keyword .and :: existTokens) = some s' ∧
      s'.Carries 2 stack pend (.binary .and y existExpr) := by
  refine ⟨⟨stack, .binary .eq (.column existColumn) :: .binary .and y :: pend,
    .got (.number 1)⟩, ?_, ?_⟩
  · rw [ParseState.read_cons, h.step_and_of_loose le_rfl hl]
    rfl
  · exact ((ParseState.carries_got ..).apply (by decide)).apply (by decide)

lemma items_filters (f : Filters) (ts : List Str) : items (ts ++ f.query.tokens) =
    items ts ++
      (if endsOpen (items ts) then items f.query.tokens else .and :: items f.query.tokens) := by
  obtain ⟨t, rest, ht, hor, hclose⟩ := f.query.readsAs.exists_head
  rw [ht, items_append]
  simp [hor, hclose]

variable {ts : List Str} {s : ParseState} {stack : List (List Pending)} {pend : List Pending}

/-- The filters and the last condition join the tokens since the last `or`. -/
lemma Frame.read_filters (hf : Frame ts s stack pend) (f : Filters)
    (hs : ParseState.init.read ((items ts).flatMap Item.tokens) = some s) :
    ∃ s' y, ParseState.init.read ((items (ts ++ f.query.tokens)).flatMap Item.tokens) = some s' ∧
      s'.Carries 2 stack pend y ∧ ∀ row, y.Holds row → f.query.expr.Holds row := by
  have hl : Loose 2 pend := hf.top.loose le_rfl
  have hmode := hf.mode
  rw [items_filters, List.flatMap_append, ParseState.read_append, hs, Option.bind_some]
  split_ifs at hmode ⊢ with hopen
  · obtain ⟨s', hs', hc⟩ := f.query.readsAs.parse stack pend hl
    exact ⟨s', _, hmode ▸ hs', hc, fun _ h => h⟩
  · obtain ⟨x, hx⟩ := hmode
    obtain ⟨s', y, hs', hc, hy⟩ := f.query.exists_read_and stack pend x hl
    refine ⟨s', y, ?_, hc, fun row h => ((hy row).mp h).2⟩
    rw [List.flatMap_cons, Item.tokens, List.singleton_append, ParseState.read_cons,
      hx.step_and_of_loose le_rfl hl]
    exact hs'

section

variable (hne : ∀ tok ∈ ts, tok ≠ []) (hok : ∀ tok ∈ ts, (Item.token tok).error = none)

include hne hok

/-- The last condition neither breaks nor repairs a condition. -/
lemma isSome_parse_filters (f : Filters) :
    (parse ((items (ts ++ f.query.tokens)).flatMap Item.tokens)).isSome = true ↔
      (parse ((items (ts ++ f.query.tokens)).flatMap Item.tokens ++
        .keyword .and :: existTokens)).isSome = true := by
  cases hs : ParseState.init.read ((items ts).flatMap Item.tokens) with
  | none =>
    simp [parse, items_filters, List.flatMap_append, ParseState.read_append, hs]
  | some s =>
    obtain ⟨stack, pend, hf⟩ := exists_frame hne hok hs
    obtain ⟨s', y, hs', hc, -⟩ := hf.read_filters f hs
    obtain ⟨s'', hs'', hc'⟩ := read_exist hc (hf.top.loose le_rfl)
    rw [parse, parse, ParseState.read_append, hs', Option.bind_some, Option.bind_some, hs'',
      Option.bind_some, hc.isSome_result, hc'.isSome_result]

/-- A row of the result passes the filters, unless it satisfies an alternative in front of them. -/
lemma admits_or_source {e : Expr}
    (he : parse ((items (ts ++ f.query.tokens)).flatMap Item.tokens ++
      .keyword .and :: existTokens) = some e) (hrow : e.Holds row) :
    f.Admits row ∨ ∃ a, Source ts a ∧ a.Holds row := by
  cases hs : ParseState.init.read ((items ts).flatMap Item.tokens) with
  | none =>
    simp [parse, items_filters, List.flatMap_append, ParseState.read_append, hs] at he
  | some s =>
    obtain ⟨stack, pend, hf⟩ := exists_frame hne hok hs
    obtain ⟨s', y, hs', hc, hy⟩ := hf.read_filters f hs
    obtain ⟨s'', hs'', hc'⟩ := read_exist hc (hf.top.loose le_rfl)
    rw [parse, ParseState.read_append, hs', Option.bind_some, hs'', Option.bind_some] at he
    obtain rfl : stack = [] := hc'.isSome_result.mp (by rw [he]; rfl)
    rw [hc'.result_eq] at he
    have hadmits (h : (Expr.binary .and y existExpr).Holds row) : f.Admits row := by
      rw [Expr.holds_and] at h
      exact Filters.admits_iff.mpr ⟨hy row h.1, h.2⟩
    rcases hf.top with rfl | ⟨a, rfl⟩
    · cases he
      exact .inl (hadmits hrow)
    · cases he
      rcases Expr.holds_or.mp hrow with ha | h
      · exact .inr ⟨a, hf.source a (by simp), ha⟩
      · exact .inl (hadmits h)

end

/-! ### Alternatives in front of the filters -/

lemma endsOpen_of_parse {e : Expr} (h : parse ((items ts).flatMap Item.tokens) = some e) :
    endsOpen (items ts) = false := by
  by_contra hopen
  rcases List.eq_nil_or_concat (items ts) with hnil | ⟨is, i, hi⟩
  · rw [hnil] at h
    cases h
  · have hlast : ∃ t, i.tokens = [t] ∧
        (t = .keyword .and ∨ t = .keyword .or ∨ t = .symbol '(') := by
      rw [hi, List.concat_eq_append, ReadsAs.endsOpen_append (by simp)] at hopen
      cases i with
      | and => exact ⟨_, rfl, .inl rfl⟩
      | or => exact ⟨_, rfl, .inr (.inl rfl)⟩
      | token tok =>
        obtain rfl : tok = openParen := by simpa using hopen
        exact ⟨.symbol '(', by decide, .inr (.inr rfl)⟩
    obtain ⟨t, ht, hcases⟩ := hlast
    rw [hi, List.concat_eq_append, List.flatMap_append, List.flatMap_cons, List.flatMap_nil,
      List.append_nil, ht, parse_append_singleton hcases] at h
    cases h

lemma Source.holds {a e : Expr} (ha : Source ts a) (us : List Str) {rest : List Sql.Token}
    (he : parse ((items (ts ++ us)).flatMap Item.tokens ++ rest) = some e)
    (hrow : a.Holds row) : e.Holds row := by
  obtain ⟨l, kw, r, rfl, hkw, hl⟩ := ha
  have hitems : items (l ++ kw :: r ++ us) = items l ++ .or :: items (r ++ us) := by
    rw [List.append_assoc, List.cons_append, items_append, endsOpen_of_parse hl,
      if_neg Bool.false_ne_true, if_pos hkw]
  rw [hitems, List.flatMap_append, List.flatMap_cons, List.append_assoc, List.append_assoc] at he
  exact holds_of_parse_or hl he row hrow

lemma readTokens_eq (hok : ∀ tok ∈ ts, ¬ NamesNoColumn tok)
    (hp : ∀ tok ∈ ts, paired (copied tok) = true) :
    readTokens ts = parse ((items ts).flatMap Item.tokens) := by
  have hitems := items_ok_iff.mpr hok
  rw [readTokens, readCondition,
    lex_eq_of_reads (reads_items hitems ((pairedItems_iff hitems).mpr hp) (.inl rfl)),
    Option.bind_some]

lemma escapes_iff (hok : ∀ tok ∈ ts, ¬ NamesNoColumn tok)
    (hp : ∀ tok ∈ ts, paired (copied tok) = true) :
    Escapes ts row ↔ ∃ a, Source ts a ∧ a.Holds row := by
  have hread {l r : List Str} {kw : Str} (hts : ts = l ++ kw :: r) :
      readTokens l = parse ((items l).flatMap Item.tokens) :=
    readTokens_eq (fun tok h => hok tok (by simp [hts, h])) fun tok h => hp tok (by simp [hts, h])
  constructor
  · rintro ⟨l, kw, r, e, hts, hkw, he, hrow⟩
    exact ⟨e, ⟨l, kw, r, hts, hkw, hread hts ▸ he⟩, hrow⟩
  · rintro ⟨e, ⟨l, kw, r, hts, hkw, he⟩, hrow⟩
    exact ⟨l, kw, r, e, hts, hkw, (hread hts).trans he, hrow⟩

/-- No condition of the user reads the column of the last condition. -/
lemma existColumn_notMem {a : Expr} (h : Source ts a) : existColumn ∉ a.columns := by
  intro hmem
  obtain ⟨l, kw, r, -, -, ha⟩ := h
  obtain ⟨i, -, hi⟩ := List.mem_flatMap.mp (name_mem_of_parse ha hmem)
  have hnames : ∀ t ∈ i.tokens, t ≠ .name existColumn := by
    cases i with
    | and => decide
    | or => decide
    | token tok =>
      simp only [Item.tokens]
      split
      · simp
      · rename_i cl _
        cases cl with
        | symbol tok => simp [Clause.tokens]
        | title negative val =>
          have htitle : titleColumn ≠ existColumn := by decide
          cases negative <;> simp [Clause.tokens, htitle]
        | column negative p val ss1 =>
          have hcolumn : p.column ≠ existColumn := by
            cases p <;> decide
          have hnocase : nocase ≠ existColumn := by decide
          cases negative <;> by_cases hu : p = .uploader <;>
            simp [Clause.tokens, hcolumn, hnocase, hu] <;> (subst hu; decide)
  exact hnames _ hi rfl

/-! ### The statement of a search -/

lemma selects_append {cond : Str} :
    Selects (selectWhere ++ cond) row ↔ ∃ e, readCondition cond = some e ∧ e.Holds row := by
  constructor
  · rintro ⟨cond', e, heq, he, hrow⟩
    rw [List.append_cancel_left heq]
    exact ⟨e, he, hrow⟩
  · rintro ⟨e, he, hrow⟩
    exact ⟨cond, e, rfl, he, hrow⟩

lemma not_selects_nil : ¬ Selects [] row := by
  rintro ⟨cond, e, heq, -⟩
  have hnil := (List.nil_eq_append_iff.mp heq).1
  cases hnil

lemma readCondition_id (n : ℤ) : readCondition ("Id=".toList ++ intToString n) =
    some (.binary .eq (.column "Id".toList) (.number n)) := by
  rw [readCondition, lex_eq_of_reads (reads_id n []), Option.bind_some]
  cases n with
  | ofNat k =>
    rw [idTokens, if_neg (by simp)]
    rfl
  | negSucc k =>
    rw [idTokens, if_pos (Int.negSucc_lt_zero k)]
    rfl

/-- A number in front selects the article with this identifier, whatever the filters are. -/
lemma not_filtersBind_of_id {n : ℤ}
    (hn : intTryParse (firstWord (searchText settings what)) = some n) :
    ¬ FiltersBind settings f what := by
  intro h
  have hstatement : queryString settings what = selectWhere ++ ("Id=".toList ++ intToString n) := by
    simp [queryString, translate2query, translatePieces, hn, render, Piece.text]
  let row : Env := fun w => if w = "Id".toList then .int n else .null
  have hrow : (Expr.binary .eq (.column "Id".toList) (.number n)).Holds row :=
    holds_eq_number.mpr (if_pos rfl)
  have hexist := (h row (hstatement ▸ selects_append.mpr ⟨_, readCondition_id n, hrow⟩)).1
  cases hexist

lemma selects_exist :
    Selects (selectWhere ++ "ExistOnHitomi=1".toList) row ↔ row existColumn = .int 1 := by
  have hread : readCondition "ExistOnHitomi=1".toList = some existExpr := rfl
  rw [selects_append, ← holds_existExpr, hread]
  simp

section

variable (hs : settings.Spell f) (hn : intTryParse (firstWord what) = none)

include hs hn

lemma translatePieces_searchText : translatePieces (searchText settings what) =
    match emit [] (items (words what ++ f.query.tokens)) with
      | .error s => [.sql s]
      | .ok ps => .sql selectWhere :: ps ++ [.sql " AND ExistOnHitomi=1".toList] := by
  have hwords : words (searchText settings what) = words what ++ f.query.tokens :=
    words_searchText hs
  have htrim : trim (trim (searchText settings what)) ≠ [] := fun h => by
    obtain ⟨t, rest, ht, -⟩ := f.query.readsAs.exists_head
    rw [words_of_trim_trim h, ht] at hwords
    exact absurd hwords.symm (by simp)
  have hpieces := translatePieces_eq htrim ((intTryParse_searchText hs).trans hn)
  rw [hwords, whereLoop_eq] at hpieces
  refine hpieces.trans ?_
  cases emit [] (items (words what ++ f.query.tokens)) <;> rfl

/-- A tag without a column ends the translation before the filters. -/
lemma filtersBind_iff_of_tag {tok : Str} (ht : (words what).find? (NamesNoColumn ·) = some tok) :
    FiltersBind settings f what ↔
      (tagName tok = "recent".toList → ∀ row, row existColumn = .int 1 → f.Admits row) := by
  have hno : NamesNoColumn tok := by simpa using List.find?_some ht
  have hstatement : queryString settings what =
      if tagName tok = "recent".toList then selectWhere ++ "ExistOnHitomi=1".toList else [] := by
    have hfind : (words what ++ f.query.tokens).find? (NamesNoColumn ·) = some tok := by
      rw [List.find?_append, ht]
      rfl
    rw [queryString, translate2query, translatePieces_searchText hs hn, emit, findSome_error_items,
      hfind, Option.bind_some, Item.error_of_namesNoColumn hno]
    exact List.append_nil _
  rw [FiltersBind, hstatement]
  split_ifs with hrecent
  · simp only [selects_exist, hrecent, true_implies]
  · exact iff_of_true (fun row h => absurd h not_selects_nil) fun h => absurd h hrecent

/-- Without such a tag, only what stands in front of an `or` is out of reach. -/
lemma filtersBind_iff_of_loop (hok : ∀ tok ∈ words what, ¬ NamesNoColumn tok)
    (hp : ∀ tok ∈ words what, paired (copied tok) = true) :
    FiltersBind settings f what ↔ ((readTokens (words what ++ f.query.tokens)).isSome →
      ∀ row, ¬ Escapes (words what) row) := by
  have hfok := items_ok_iff.mp f.query.readsAs.ok
  have hfp := (pairedItems_iff f.query.readsAs.ok).mp f.query.readsAs.paired
  have hallok : ∀ tok ∈ words what ++ f.query.tokens, ¬ NamesNoColumn tok := fun tok ht =>
    (List.mem_append.mp ht).elim (hok tok) (hfok tok)
  have hallp : ∀ tok ∈ words what ++ f.query.tokens, paired (copied tok) = true := fun tok ht =>
    (List.mem_append.mp ht).elim (hp tok) (hfp tok)
  have hitems := items_ok_iff.mpr hallok
  have hne : ∀ tok ∈ words what, tok ≠ [] := fun tok ht => by
    simpa using (List.mem_filter.mp ht).2
  have herr : ∀ tok ∈ words what, (Item.token tok).error = none := fun tok ht =>
    error_eq_none_iff.mpr (hok tok ht)
  set tokens := (items (words what ++ f.query.tokens)).flatMap Item.tokens with htokens
  have hselects (row : Env) : Selects (queryString settings what) row ↔
      ∃ e, parse (tokens ++ .keyword .and :: existTokens) = some e ∧ e.Holds row := by
    have hstatement : queryString settings what = selectWhere ++
        (render ((items (words what ++ f.query.tokens)).flatMap Item.pieces) ++
          " AND ExistOnHitomi=1".toList) := by
      rw [queryString, translate2query, translatePieces_searchText hs hn, emit,
        List.findSome?_eq_none_iff.mpr hitems]
      simp only [render, List.nil_append, List.cons_append, List.flatMap_cons,
        List.flatMap_append, List.flatMap_nil, List.append_nil, Piece.text]
    rw [hstatement, selects_append, readCondition,
      lex_eq_of_reads (reads_whereLoop hitems ((pairedItems_iff hitems).mpr hallp) rfl),
      Option.bind_some]
  rw [readTokens_eq hallok hallp, ← htokens, isSome_parse_filters hne herr f]
  simp only [escapes_iff hok hp, FiltersBind, hselects]
  constructor
  · rintro h hsome row ⟨a, ha, hrow⟩
    obtain ⟨e, he⟩ := Option.isSome_iff_exists.mp hsome
    -- the alternative does not see that the article is gone
    let row' : Env := Function.update row existColumn (.int 0)
    have hrow' : a.Holds row' := by
      refine (Expr.holds_congr fun w hw => ?_).mp hrow
      have hne : w ≠ existColumn := fun heq => existColumn_notMem ha (heq ▸ hw)
      exact (Function.update_of_ne hne _ _).symm
    have hexist := (h row' ⟨e, he, ha.holds f.query.tokens he hrow'⟩).1
    simp [row'] at hexist
  · rintro h row ⟨e, he, hrow⟩
    refine (admits_or_source hne herr he hrow).resolve_right fun hsource => ?_
    exact h (by rw [he]; rfl) row hsource

end

/-- The results of a search keep to the filters when its text does. Where the quotes of the text are
paired, they do so for no other reason. -/
theorem filtersBind_of_keepsFilters (settings : Settings) (f : Filters) (what : Str)
    (hs : settings.Spell f) :
    (KeepsFilters f what → FiltersBind settings f what) ∧
      (QuotesPaired what → FiltersBind settings f what → KeepsFilters f what) := by
  have hiff (hq : QuotesPaired what) : FiltersBind settings f what ↔ KeepsFilters f what := by
    cases hn : intTryParse (firstWord what) with
    | some n =>
      have hid : intTryParse (firstWord (searchText settings what)) = some n :=
        (intTryParse_searchText hs).trans hn
      simp [KeepsFilters, hn, not_filtersBind_of_id hid]
    | none =>
      simp only [KeepsFilters, hn, true_and]
      cases ht : (words what).find? (NamesNoColumn ·) with
      | some tok => exact filtersBind_iff_of_tag hs hn ht
      | none =>
        have hok : ∀ tok ∈ words what, ¬ NamesNoColumn tok := by simpa using ht
        have hp : ∀ tok ∈ words what, paired (copied tok) = true := by
          refine (hq.resolve_left (by simp [hn])).resolve_left ?_
          rintro ⟨tok, hmem, hno⟩
          exact hok tok hmem hno
        rw [filtersBind_iff_of_loop hs hn hok hp]
        exact (and_iff_right hp).symm
  exact ⟨fun h => (hiff h.quotesPaired).mpr h, fun hq => (hiff hq).mp⟩

/-- The shipped expression for one language, and one excluded tag. -/
def sampleSettings : Settings :=
  ⟨"(lang:english or lang:n/a)".toList, ["female:x".toList], false⟩

def sampleFilters : Filters where
  included :=
    .or (.all (.single
        (.atom false (.tag .lang ⟨"english".toList, by decide, forall_mem_of_all (by decide)⟩))))
      ⟨"or".toList, isOr_or⟩ (.single
        (.atom false (.tag .lang ⟨"n/a".toList, by decide, forall_mem_of_all (by decide)⟩)))
  excluded := [(.female, ⟨"x".toList, by decide, forall_mem_of_all (by decide)⟩)]

lemma sampleSettings_spell : sampleSettings.Spell sampleFilters :=
  ⟨.cons 0 _ (.cons 0 _ (.cons 1 _ (.cons 1 _ (.cons 0 _ (.nil 0) (.inl ⟨')', rfl, rfl⟩))
    (separated_cons (.inr rfl))) (separated_cons (.inl rfl))) (separated_cons (.inl rfl)))
    (.inl ⟨'(', rfl, rfl⟩), by decide⟩

theorem filtersBind_word : sampleSettings.Spell sampleFilters ∧
    FiltersBind sampleSettings sampleFilters "a -b".toList := by
  have hwords : words "a -b".toList = ["a".toList, "-b".toList] := by decide
  have hfind : (words "a -b".toList).find? (NamesNoColumn ·) = none := by decide
  have hkeeps : KeepsFilters sampleFilters "a -b".toList := by
    refine ⟨by decide, ?_⟩
    rw [hfind]
    refine ⟨by decide, ?_⟩
    rintro - row ⟨l, kw, r, e, hts, hkw, -⟩
    have hmem : kw ∈ words "a -b".toList := by
      rw [hts]
      simp
    rw [hwords] at hmem
    have hno : ∀ tok ∈ ["a".toList, "-b".toList], isOr tok = false := by decide
    simp [hno kw hmem] at hkw
  exact ⟨sampleSettings_spell,
    (filtersBind_of_keepsFilters _ _ _ sampleSettings_spell).1 hkeeps⟩

/-- Behind the quote of `a'--` all filters are a comment. -/
example : (readCondition ((queryString sampleSettings "a'--".toList).drop
    selectWhere.length)).map Expr.columns = some [titleColumn] := by
  decide +kernel

/-- An article that is gone, with the title `a`, is a result of `a or b`. -/
theorem not_filtersBind_or : ¬ FiltersBind sampleSettings sampleFilters "a or b".toList := by
  intro h
  let row : Env := fun w => if w = titleColumn then .text "a".toList else .int 0
  let statement := queryString sampleSettings "a or b".toList
  have hstatement : statement = selectWhere ++ statement.drop selectWhere.length := by
    decide +kernel
  have hread : (readCondition (statement.drop selectWhere.length)).any
      (fun e => decide (e.Holds row)) = true := by decide +kernel
  obtain ⟨e, he, hrow⟩ := (Option.any_eq_true _ _).mp hread
  have hexist := (h row ⟨_, e, hstatement, he, of_decide_eq_true hrow⟩).1
  cases hexist

end Violet
