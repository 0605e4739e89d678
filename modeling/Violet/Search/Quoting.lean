import Violet.Search.ClauseReading

/-!
# Quoting of the values

`translate2query` copies the values of the user between the quotes of `LIKE` literals as they are.
A value stays inside its literal exactly when its quotes come in adjacent pairs, which SQLite reads
as one quote each. As long as all values are of this kind, the SQL tokens outside the literals are
the translator's own.
-/

namespace Violet

open Dart Sql

/-! ### Statement -/

/-- Reading the pieces from a state, each piece of the user stands inside a literal that is open
where it begins and still open where it ends. -/
def Sealed (s : LexState) : List Piece → Prop
  | [] => True
  | .sql t :: ps => Sealed (s.read t) ps
  | .user v :: ps => s.Contains v ∧ Sealed (s.read v) ps

/-- The tokens that the translator writes itself. -/
def vocabulary : List Sql.Token :=
  selectTokens ++ existTokens ++ "=<>()".toList.map .symbol ++
    [.keyword .and, .keyword .or, .keyword .not, .keyword .like, .keyword .is, .keyword .collate,
      .name nocase, .name titleColumn] ++ Prefix.all.map fun p => .name p.column

/-- A token that the translator writes itself, or a literal. -/
def isTemplate : Sql.Token → Bool
  | .text _ => true
  | t => t ∈ vocabulary

/-- The tokens of the condition on one identifier. -/
def idTokens (n : ℤ) : List Sql.Token :=
  [.name "Id".toList, .symbol '='] ++
    if n < 0 then [.symbol '-', .number n.natAbs] else [.number n.natAbs]

/-- The values of the user lie in their literals, and the rest is the translator's own. -/
structure StaysQuoted (text : Str) : Prop where
  sealed : Sealed LexState.init (translatePieces text)
  template : ∃ ts, lex (translate2query text) = some ts ∧
    (ts.all isTemplate = true ∨ ∃ n, ts = selectTokens ++ idTokens n)

/-- The part of a token that is copied. -/
def copied (tok : Str) : Str :=
  if ':' ∈ tok then
    let val := unsigned tok
    let ss := val.splitOn ':'
    if ss.headD [] = "male".toList ∨ ss.headD [] = "female".toList then val else ss.getD 1 []
  else unsigned tok

/-- A tag whose prefix names no column. The translation of a text with such a tag is a fixed text,
for `recent` as for an unknown prefix. -/
def NamesNoColumn (tok : Str) : Prop :=
  ':' ∈ tok ∧ Prefix.ofName (((unsigned tok).splitOn ':').headD []) = none

instance (tok : Str) : Decidable (NamesNoColumn tok) := inferInstanceAs (Decidable (_ ∧ _))

/-- Nothing is copied, or all that is copied has its quotes in pairs. -/
def QuotesPaired (text : Str) : Prop :=
  (intTryParse (firstWord text)).isSome ∨ (∃ tok ∈ words text, NamesNoColumn tok) ∨
    ∀ tok ∈ words text, paired (copied tok) = true

instance (text : Str) : Decidable (QuotesPaired text) := inferInstanceAs (Decidable (_ ∨ _ ∨ _))

/-! ### Pieces -/

lemma sealed_append {s : LexState} {ps qs : List Piece} :
    Sealed s (ps ++ qs) ↔ Sealed s ps ∧ Sealed (s.read (render ps)) qs := by
  induction ps generalizing s with
  | nil => simp [Sealed, render]
  | cons p ps ih => cases p <;> simp [Sealed, ih, render, Piece.text, and_assoc]

def Piece.isSql : Piece → Bool
  | .sql _ => true
  | .user _ => false

lemma sealed_of_isSql {ps : List Piece} (h : ps.all Piece.isSql = true) (s : LexState) :
    Sealed s ps := by
  induction ps generalizing s with
  | nil => trivial
  | cons p ps ih =>
    rw [List.all_cons, Bool.and_eq_true] at h
    cases p with
    | sql t => exact ih h.2 _
    | user v => cases h.1

lemma sealed_between {head mid tail : List Piece} (hh : head.all Piece.isSql = true)
    (ht : tail.all Piece.isSql = true) (s : LexState) :
    Sealed s (head ++ (mid ++ tail)) ↔ Sealed (s.read (render head)) mid := by
  simp only [sealed_append, sealed_of_isSql hh, sealed_of_isSql ht, true_and, and_true]

lemma paired_underscoreToBlank (v : Str) : paired (underscoreToBlank v) = paired v := by
  refine paired_map (fun c => ?_) v
  have hblank : ' ' ≠ quote := by decide
  split_ifs with h
  · simp [hblank, h, show '_' ≠ quote by decide]
  · rfl

/-- Inside a literal, the text searched for is sealed when its quotes are in pairs. -/
lemma sealed_postfixPieces (p : Prefix) (val ss1 : Str) (out : List Sql.Token) (t : List Char) :
    Sealed ⟨out, .text t⟩ (p.postfixPieces val ss1) ↔
      paired (render (p.postfixPieces val ss1)) = true := by
  have hbar : '|' ≠ quote := by decide
  cases p <;>
    simp [Prefix.postfixPieces, Sealed, LexState.step_text out t hbar,
      LexState.contains_iff_paired, render, Piece.text, paired_cons hbar,
      paired_append_singleton hbar]

lemma sealed_columnPieces (negative : Bool) (p : Prefix) (val ss1 : Str) (out : List Sql.Token) :
    Sealed ⟨out, .blank⟩ (columnPieces negative p val ss1) ↔
      paired (render (p.postfixPieces val ss1)) = true := by
  set head : List Piece := (if negative then [Piece.sql "(".toList] else []) ++
    [.sql (p.column ++ " LIKE '%".toList)] with hhead
  set tail : List Piece := .sql "%'".toList ::
    ((if negative then [.sql ") IS NOT 1".toList] else []) ++
      (if p = .uploader then [.sql " COLLATE NOCASE".toList] else [])) with htail
  have hpieces : columnPieces negative p val ss1 = head ++ (p.postfixPieces val ss1 ++ tail) := by
    simp only [columnPieces, hhead, htail, List.append_assoc, List.cons_append, List.nil_append]
  have hsql : head.all Piece.isSql = true ∧ tail.all Piece.isSql = true := by
    cases negative <;> cases p <;> exact ⟨rfl, rfl⟩
  obtain ⟨ts, hread⟩ : ∃ ts, LexState.read ⟨[], .blank⟩ (render head) = ⟨ts, .text ['%']⟩ := by
    cases negative <;> cases p <;> exact ⟨_, rfl⟩
  rw [hpieces, sealed_between hsql.1 hsql.2, LexState.read_of_nil hread, sealed_postfixPieces]

lemma sealed_titlePieces (negative : Bool) (val : Str) (out : List Sql.Token) :
    Sealed ⟨out, .blank⟩ (titlePieces negative val) ↔ paired val = true := by
  have hread : ∃ ts, LexState.read ⟨[], .blank⟩
      (if negative then "Title NOT LIKE '%".toList else "Title LIKE '%".toList) =
        ⟨ts, .text ['%']⟩ := by
    cases negative <;> exact ⟨_, rfl⟩
  obtain ⟨ts, hread⟩ := hread
  cases negative <;>
    simp only [Bool.false_eq_true, if_true, if_false] at hread <;>
    simp only [titlePieces, Bool.false_eq_true, if_true, if_false, Sealed, and_true,
      LexState.read_of_nil hread, LexState.contains_iff_paired]

/-! ### The loop -/

lemma sealed_token {tok : Str} {rest : List Str} {cl : Clause} (hr : readToken tok = .ok cl)
    {s : LexState} (hs : ReadyFor s (tok :: rest)) : Sealed s cl.pieces ↔ cl.Paired := by
  have hblank (h : tok ≠ closeParen) : ∃ out, s = ⟨out, .blank⟩ := by
    obtain ⟨out, mode⟩ := s
    rcases hs with rfl | ⟨-, _, heq⟩
    · exact ⟨out, rfl⟩
    · exact absurd (List.cons.inj heq).1 h
  cases cl with
  | symbol t => simp [Clause.pieces, Sealed, Clause.Paired, Clause.body, paired]
  | column negative p val ss1 =>
    obtain ⟨out, rfl⟩ := hblank (by rintro rfl; simp [readToken_closeParen] at hr)
    exact sealed_columnPieces negative p val ss1 out
  | title negative val =>
    obtain ⟨out, rfl⟩ := hblank (by rintro rfl; simp [readToken_closeParen] at hr)
    exact sealed_titlePieces negative val out

lemma pairedItems_cons {i : Item} {is : List Item} :
    PairedItems (i :: is) ↔
      (∀ tok cl, i = .token tok → readToken tok = .ok cl → cl.Paired) ∧ PairedItems is := by
  simp only [PairedItems, List.mem_cons, or_imp, forall_and]
  exact and_congr_left' ⟨fun h tok cl ht => h tok cl ht.symm, fun h tok cl ht => h tok cl ht.symm⟩

lemma sealed_token_cons {tok : Str} {rest : List Str} {is : List Item} {ps : List Piece}
    {s : LexState} (hok : (Item.token tok).error = none) (hs : ReadyFor s (tok :: rest))
    (hrest : (s.read (render (Item.token tok).pieces)).Settled →
      (Sealed (s.read (render (Item.token tok).pieces)) ps ↔ PairedItems is)) :
    Sealed s ((Item.token tok).pieces ++ ps) ↔ PairedItems (.token tok :: is) := by
  cases hr : readToken tok with
  | error e => simp [Item.error, hr] at hok
  | ok cl =>
    have htok : (∀ tok' cl', Item.token tok = .token tok' → readToken tok' = .ok cl' → cl'.Paired) ↔
        cl.Paired := by
      constructor
      · exact fun h => h tok cl rfl hr
      · rintro h _ cl' ⟨⟩ hr'
        rw [hr] at hr'
        exact Except.ok.inj hr' ▸ h
    have hpieces : (Item.token tok).pieces = cl.pieces := by simp [Item.pieces, hr]
    rw [sealed_append, pairedItems_cons, htok, hpieces, sealed_token hr hs]
    refine and_congr_right fun hp => ?_
    rw [← hpieces]
    exact hrest (reads_token hok (fun cl' hr' => Except.ok.inj (hr.symm.trans hr') ▸ hp) hs).settled

/-- The text of the loop is sealed exactly when all that it copies has its quotes in pairs. -/
theorem sealed_items {ts : List Str} (hok : ∀ i ∈ items ts, i.error = none) {s : LexState}
    (hs : ReadyFor s ts) :
    Sealed s ((items ts).flatMap Item.pieces) ↔ PairedItems (items ts) := by
  induction ts using items.induct generalizing s with
  | case1 => simp [items, Sealed, PairedItems]
  | case2 tok =>
    rw [items, List.flatMap_cons]
    exact sealed_token_cons (hok _ (by simp [items])) hs fun _ => by simp [Sealed, PairedItems]
  | case3 next rest ih =>
    rw [items_open] at hok ⊢
    refine sealed_token_cons (hok _ (by simp)) hs fun _ => ?_
    exact ih (fun i hi => hok i (by simp [hi])) (.inl (read_openParen hs.settled))
  | case4 tok next rest htok hor ih =>
    rw [items_or htok hor] at hok ⊢
    rw [List.flatMap_cons, List.flatMap_cons]
    refine sealed_token_cons (hok _ (by simp)) hs fun hset => ?_
    rw [sealed_append, pairedItems_cons, read_or hset,
      ih (fun i hi => hok i (by simp [hi])) (.inl rfl)]
    simp [Item.pieces, Sealed]
  | case5 tok next rest htok hor hnext ih =>
    rw [items_and htok (Bool.eq_false_iff.mpr hor) hnext] at hok ⊢
    rw [List.flatMap_cons, List.flatMap_cons]
    refine sealed_token_cons (hok _ (by simp)) hs fun hset => ?_
    rw [sealed_append, pairedItems_cons, read_and hset,
      ih (fun i hi => hok i (by simp [hi])) (.inl rfl)]
    simp [Item.pieces, Sealed]
  | case6 tok next rest htok hor hnext ih =>
    obtain rfl : next = closeParen := not_not.mp hnext
    rw [items_close htok] at hok ⊢
    refine sealed_token_cons (hok _ (by simp)) hs fun hset => ?_
    exact ih (fun i hi => hok i (by simp [hi])) (.inr ⟨hset, rest, rfl⟩)

/-! ### The copied values -/

lemma readToken_error {tok s : Str} (h : readToken tok = .error s) :
    NamesNoColumn tok ∧ (s = [] ∨ s = selectWhere ++ "ExistOnHitomi=1".toList) := by
  simp only [readToken] at h
  split at h
  · rename_i hcolon
    split at h
    · rename_i hrecent
      refine ⟨⟨hcolon, ?_⟩, .inr (Except.error.inj h).symm⟩
      rw [hrecent]
      rfl
    · split at h
      · rename_i hnone
        exact ⟨⟨hcolon, hnone⟩, .inl (Except.error.inj h).symm⟩
      · cases h
  · split at h <;> cases h

lemma Item.error_of_namesNoColumn {tok : Str} (h : NamesNoColumn tok) :
    (Item.token tok).error = some (if ((unsigned tok).splitOn ':').headD [] = "recent".toList
      then selectWhere ++ "ExistOnHitomi=1".toList else []) := by
  simp only [error, readToken, h.1, if_true, h.2]
  split_ifs <;> rfl

lemma Item.error_eq_some {i : Item} {s : Str} (h : i.error = some s) :
    s = [] ∨ s = selectWhere ++ "ExistOnHitomi=1".toList := by
  cases i with
  | token tok =>
    cases hr : readToken tok with
    | error s' =>
      simp only [error, hr, Option.some.injEq] at h
      exact h ▸ (readToken_error hr).2
    | ok cl => simp [error, hr] at h
  | and => cases h
  | or => cases h

lemma paired_render_postfixPieces (p : Prefix) (val ss1 : Str) :
    paired (render (p.postfixPieces val ss1)) =
      paired (if p = .male ∨ p = .female then val else ss1) := by
  have hbar : '|' ≠ quote := by decide
  cases p <;>
    simp [Prefix.postfixPieces, render, Piece.text, paired_cons hbar, paired_append_singleton hbar,
      paired_underscoreToBlank]

lemma Prefix.name_eq_iff (p : Prefix) :
    (p.name = "male".toList ∨ p.name = "female".toList) ↔ (p = .male ∨ p = .female) := by
  cases p <;> decide

lemma readToken_ok {tok : Str} {cl : Clause} (h : readToken tok = .ok cl) :
    ¬ NamesNoColumn tok ∧ (cl.Paired ↔ paired (copied tok) = true) := by
  simp only [readToken] at h
  split at h
  · rename_i hcolon
    split at h
    · cases h
    · split at h
      · cases h
      · rename_i p hp
        obtain rfl := Except.ok.inj h
        have hname := (Prefix.name_of_ofName hp).symm
        constructor
        · intro hno
          rw [hno.2] at hp
          cases hp
        · simp only [Clause.Paired, Clause.body, paired_render_postfixPieces, copied, hcolon,
            if_true, hname, p.name_eq_iff]
  · rename_i hcolon
    refine ⟨fun hno => hcolon hno.1, ?_⟩
    split at h
    · rename_i hsym
      obtain rfl := Except.ok.inj h
      have hquote : quote ∉ unsigned tok := fun hm => by
        have hin : quote ∈ "=<>()".toList := hsym.subset (by
          unfold unsigned at hm
          split_ifs at hm
          exacts [List.mem_of_mem_tail hm, hm])
        exact absurd hin (by decide)
      simp [Clause.Paired, Clause.body, copied, hcolon, paired_of_notMem hquote, paired]
    · obtain rfl := Except.ok.inj h
      simp [Clause.Paired, Clause.body, copied, hcolon]

lemma error_eq_none_iff {tok : Str} : (Item.token tok).error = none ↔ ¬ NamesNoColumn tok := by
  cases hr : readToken tok with
  | error s => simp [Item.error, hr, (readToken_error hr).1]
  | ok cl => simp [Item.error, hr, (readToken_ok hr).1]

/-- A connective has no colon and no quote. -/
lemma of_isOr {tok : Str} (h : isOr tok = true) :
    ¬ NamesNoColumn tok ∧ paired (copied tok) = true := by
  have hcolon : ':' ∉ tok := fun hm => by simp [isOr_eq_false_of_mem hm (by decide)] at h
  have hquote : quote ∉ tok := fun hm => by simp [isOr_eq_false_of_mem hm (by decide)] at h
  refine ⟨fun hno => hcolon hno.1, ?_⟩
  rw [copied, if_neg hcolon, unsigned]
  split_ifs
  · exact paired_of_notMem fun hm => hquote (List.mem_of_mem_tail hm)
  · exact paired_of_notMem hquote

lemma items_ok_iff {ts : List Str} :
    (∀ i ∈ items ts, i.error = none) ↔ ∀ tok ∈ ts, ¬ NamesNoColumn tok := by
  constructor
  · intro h tok htok
    by_cases hor : isOr tok = true
    · exact (of_isOr hor).1
    · exact error_eq_none_iff.mp (h _ (mem_items_of_mem (Bool.eq_false_iff.mpr hor) htok))
  · intro h i hi
    cases i with
    | token tok => exact error_eq_none_iff.mpr (h tok (mem_of_mem_items hi))
    | and => rfl
    | or => rfl

/-- The first tag without a column decides what the translation of the list ends with. -/
lemma findSome_error_items (ts : List Str) :
    (items ts).findSome? Item.error =
      (ts.find? (NamesNoColumn ·)).bind fun tok => (Item.token tok).error := by
  have hcons (tok : Str) (ts : List Str) {is : List Item}
      (h : is.findSome? Item.error =
        (ts.find? (NamesNoColumn ·)).bind fun tok => (Item.token tok).error) :
      (Item.token tok :: is).findSome? Item.error =
        ((tok :: ts).find? (NamesNoColumn ·)).bind fun tok => (Item.token tok).error := by
    by_cases htok : NamesNoColumn tok
    · obtain ⟨s, hs⟩ : ∃ s, (Item.token tok).error = some s := ⟨_, Item.error_of_namesNoColumn htok⟩
      simp [htok, hs]
    · simp [htok, error_eq_none_iff.mpr htok, h]
  induction ts using items.induct with
  | case1 => rfl
  | case2 tok => exact hcons tok [] rfl
  | case3 next rest ih => rw [items_open]; exact hcons _ _ ih
  | case4 tok next rest htok hor ih =>
    rw [items_or htok hor]
    refine hcons tok (next :: rest) ?_
    rw [List.findSome?_cons, List.find?_cons, decide_eq_false (of_isOr hor).1]
    exact ih
  | case5 tok next rest htok hor hnext ih =>
    rw [items_and htok (Bool.eq_false_iff.mpr hor) hnext]
    exact hcons tok (next :: rest) ih
  | case6 tok next rest htok hor hnext ih =>
    obtain rfl : next = closeParen := not_not.mp hnext
    rw [items_close htok]
    exact hcons tok (closeParen :: rest) ih

lemma pairedItems_iff {ts : List Str} (hok : ∀ i ∈ items ts, i.error = none) :
    PairedItems (items ts) ↔ ∀ tok ∈ ts, paired (copied tok) = true := by
  constructor
  · intro h tok htok
    by_cases hor : isOr tok = true
    · exact (of_isOr hor).2
    · have hmem := mem_items_of_mem (Bool.eq_false_iff.mpr hor) htok
      have herr := hok _ hmem
      cases hr : readToken tok with
      | error s => simp [Item.error, hr] at herr
      | ok cl => exact (readToken_ok hr).2.mp (h tok cl hmem hr)
  · exact fun h tok cl htok hr => (readToken_ok hr).2.mpr (h tok (mem_of_mem_items htok))

/-! ### The translator's own tokens -/

lemma isTemplate_of_readToken {tok : Str} {cl : Clause} (hr : readToken tok = .ok cl) :
    cl.tokens.all isTemplate = true := by
  cases cl with
  | symbol tok' =>
    obtain ⟨rfl, hsym⟩ := readToken_symbol hr
    have hin : ∀ c ∈ "=<>()".toList, isTemplate (.symbol c) = true := forall_mem_of_all (by decide)
    simp only [Clause.tokens, List.all_map, List.all_eq_true, Function.comp_apply]
    exact fun c hc => hin c (hsym.subset hc)
  | title negative val => cases negative <;> rfl
  | column negative p val ss1 => cases negative <;> cases p <;> rfl

lemma Item.isTemplate_tokens (i : Item) : i.tokens.all isTemplate = true := by
  cases i with
  | token tok =>
    cases hr : readToken tok with
    | error s => simp [tokens, hr]
    | ok cl => simpa [tokens, hr] using isTemplate_of_readToken hr
  | and => rfl
  | or => rfl

/-- The condition on one identifier. -/
lemma reads_id (n : ℤ) (out : List Sql.Token) :
    LexState.Reads ⟨out, .blank⟩ ("Id=".toList ++ intToString n) (idTokens n) := by
  set head : List Sql.Token := [.name "Id".toList, .symbol '=']
  have hstate : LexState.read ⟨out, .blank⟩ "Id=".toList = ⟨out ++ head, .blank⟩ :=
    LexState.read_of_nil rfl out
  have hreads : LexState.Reads ⟨out, .blank⟩ "Id=".toList head := by
    constructor <;> rw [hstate]
    exacts [LexState.settled_blank _, rfl]
  refine hreads.append ?_
  rw [hstate]
  cases n with
  | ofNat k =>
    rw [if_neg (by simp)]
    exact LexState.reads_toDigits (.inl rfl) k
  | negSucc k =>
    rw [if_pos (Int.negSucc_lt_zero k)]
    have hminus : LexState.Reads ⟨out ++ head, .blank⟩ ['-'] [.symbol '-'] := ⟨rfl, rfl⟩
    exact hminus.append (LexState.reads_toDigits (.inr rfl) (k + 1))

lemma lex_selectId (n : ℤ) :
    lex (selectWhere ++ ("Id=".toList ++ intToString n)) = some (selectTokens ++ idTokens n) := by
  rw [lex_append read_selectWhere, lex_eq_of_reads (reads_id n [])]
  rfl

/-! ### The statement -/

lemma staysQuoted_of_id {text : Str} {n : ℤ} (h : intTryParse (firstWord text) = some n) :
    StaysQuoted text := by
  have hpieces : translatePieces text = [.sql (selectWhere ++ "Id=".toList ++ intToString n)] := by
    rw [translatePieces, h]
  refine ⟨by rw [hpieces]; trivial, selectTokens ++ idTokens n, ?_, .inr ⟨n, rfl⟩⟩
  rw [translate2query, hpieces, ← lex_selectId]
  simp [render, Piece.text]

lemma staysQuoted_of_sql {text s : Str} (h : translatePieces text = [.sql s])
    (hs : s = [] ∨ s = selectWhere ++ "ExistOnHitomi=1".toList) : StaysQuoted text := by
  refine ⟨by rw [h]; trivial, ?_⟩
  have hrender : translate2query text = s := by simp [translate2query, h, render, Piece.text]
  rw [hrender]
  rcases hs with rfl | rfl
  · exact ⟨[], rfl, .inl rfl⟩
  · exact ⟨selectTokens ++ existTokens, rfl, .inl rfl⟩

lemma staysQuoted_of_words {text : Str} (htrim : trim (trim text) ≠ [])
    (hn : intTryParse (firstWord text) = none) (hok : ∀ tok ∈ words text, ¬ NamesNoColumn tok) :
    StaysQuoted text ↔ ∀ tok ∈ words text, paired (copied tok) = true := by
  have hitems := items_ok_iff.mpr hok
  have hpieces : translatePieces text = [Piece.sql selectWhere] ++
      ((items (words text)).flatMap Item.pieces ++ [Piece.sql " AND ExistOnHitomi=1".toList]) := by
    rw [translatePieces_eq htrim hn, whereLoop_eq, emit, List.findSome?_eq_none_iff.mpr hitems]
    rfl
  have hsealed : Sealed LexState.init (translatePieces text) ↔
      PairedItems (items (words text)) := by
    rw [hpieces, sealed_between rfl rfl]
    exact sealed_items hitems (.inl rfl)
  have hrender : translate2query text =
      selectWhere ++ (render ((items (words text)).flatMap Item.pieces) ++
        " AND ExistOnHitomi=1".toList) := by
    rw [translate2query, hpieces]
    simp only [render, List.flatMap_append, List.flatMap_cons, List.flatMap_nil, List.append_nil,
      Piece.text]
  rw [← pairedItems_iff hitems, ← hsealed]
  refine ⟨StaysQuoted.sealed, fun hs => ⟨hs, selectTokens ++
    ((items (words text)).flatMap Item.tokens ++ .keyword .and :: existTokens), ?_, .inl ?_⟩⟩
  · rw [hrender]
    exact lex_whereLoop hitems (hsealed.mp hs)
  · have htokens : ((items (words text)).flatMap Item.tokens).all isTemplate = true := by
      simp only [List.all_flatMap, List.all_eq_true]
      exact fun i _ t ht => List.all_eq_true.mp i.isTemplate_tokens t ht
    rw [List.all_append, List.all_append, htokens]
    rfl

/-- The values stay in their literals exactly when their quotes come in pairs. -/
theorem staysQuoted_iff_quotesPaired (text : Str) : StaysQuoted text ↔ QuotesPaired text := by
  cases hn : intTryParse (firstWord text) with
  | some n => simp [QuotesPaired, hn, staysQuoted_of_id hn]
  | none =>
    by_cases htrim : trim (trim text) = []
    · have hpieces : translatePieces text = [.sql (selectWhere ++ "ExistOnHitomi=1".toList)] := by
        simp only [translatePieces, hn, htrim, if_true]
      simp [QuotesPaired, words_of_trim_trim htrim, staysQuoted_of_sql hpieces (.inr rfl)]
    · by_cases hok : ∀ tok ∈ words text, ¬ NamesNoColumn tok
      · have hno : ¬ ∃ tok ∈ words text, NamesNoColumn tok := by simpa using hok
        simp only [QuotesPaired, hn, Option.isSome_none, Bool.false_eq_true, hno, false_or]
        exact staysQuoted_of_words htrim hn hok
      · have hex : ∃ tok ∈ words text, NamesNoColumn tok := by simpa using hok
        obtain ⟨s, hs, htext⟩ : ∃ s, translatePieces text = [.sql s] ∧
            (s = [] ∨ s = selectWhere ++ "ExistOnHitomi=1".toList) := by
          cases hfind : (items (words text)).findSome? Item.error with
          | none => exact absurd (items_ok_iff.mp (List.findSome?_eq_none_iff.mp hfind)) hok
          | some s =>
            refine ⟨s, by simp only [translatePieces_eq htrim hn, whereLoop_eq, emit, hfind], ?_⟩
            obtain ⟨i, -, hi⟩ := List.exists_of_findSome?_eq_some hfind
            exact Item.error_eq_some hi
        exact iff_of_true (staysQuoted_of_sql hs htext) (.inr (.inl hex))

/-- A single quote ends the literal of the word that it stands in. -/
theorem not_staysQuoted_apostrophe : ¬ StaysQuoted "it's".toList := by
  intro h
  have hpieces : translatePieces "it's".toList = [.sql selectWhere, .sql "Title LIKE '%".toList,
      .user "it's".toList, .sql "%'".toList, .sql " AND ExistOnHitomi=1".toList] := by
    decide +kernel
  have hstate : (LexState.init.read selectWhere).read "Title LIKE '%".toList =
      ⟨selectTokens ++ [Sql.Token.name titleColumn, .keyword .like], .text ['%']⟩ := rfl
  have hsealed := h.sealed
  rw [hpieces, Sealed, Sealed, hstate, Sealed, LexState.contains_iff_paired] at hsealed
  exact absurd hsealed.1 (by decide)

end Violet
