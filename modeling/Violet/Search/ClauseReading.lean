import Violet.Search.Clauses

/-!
# How SQLite reads the clauses

The tokens and the condition that the text of a clause is read as, when the text searched for keeps
its quotes in pairs. The readings of the clauses compose to the reading of the whole loop.
-/

namespace Violet

open Dart Sql

/-! ### Tokens and conditions of a clause -/

/-- The text between the outer `%` of the literal. -/
def Clause.body : Clause → Str
  | .column _ p val ss1 => render (p.postfixPieces val ss1)
  | .title _ val => val
  | .symbol _ => []

def Clause.Paired (cl : Clause) : Prop := paired cl.body = true

instance (cl : Clause) : Decidable cl.Paired := inferInstanceAs (Decidable (_ = _))

/-- The pattern that a literal with this body denotes. -/
def containsPattern (body : Str) : List Char := '%' :: unpair body ++ ['%']

def nocase : List Char := "NOCASE".toList

def titleColumn : List Char := "Title".toList

def Clause.tokens : Clause → List Sql.Token
  | .column negative p val ss1 =>
    (if negative then [.symbol '('] else []) ++
      [.name p.column, .keyword .like,
          .text (containsPattern (render (p.postfixPieces val ss1)))] ++
      (if negative then [.symbol ')', .keyword .is, .keyword .not, .number 1] else []) ++
      (if p = .uploader then [.keyword .collate, .name nocase] else [])
  | .title negative val =>
    .name titleColumn :: (if negative then [.keyword .not] else []) ++
      [.keyword .like, .text (containsPattern val)]
  | .symbol tok => tok.map .symbol

/-- `COLLATE NOCASE` follows the condition on the uploader, and so binds to its last operand. -/
def Prefix.collated (p : Prefix) (e : Expr) : Expr :=
  if p = .uploader then .collate e nocase else e

def columnExpr (negative : Bool) (p : Prefix) (body : Str) : Expr :=
  if negative then
    .binary .isNot (.binary .like (.column p.column) (.text (containsPattern body)))
      (p.collated (.number 1))
  else .binary .like (.column p.column) (p.collated (.text (containsPattern body)))

def titleExpr (negative : Bool) (body : Str) : Expr :=
  .binary (if negative then .notLike else .like) (.column titleColumn)
    (.text (containsPattern body))

/-- The condition of a clause; parentheses and comparison signs are none. -/
def Clause.expr? : Clause → Option Expr
  | .column negative p val ss1 => some (columnExpr negative p (render (p.postfixPieces val ss1)))
  | .title negative val => some (titleExpr negative val)
  | .symbol _ => none

/-! ### Lexing -/

lemma render_columnPieces (negative : Bool) (p : Prefix) (val ss1 : Str) :
    render (columnPieces negative p val ss1) =
      (if negative then "(".toList else []) ++
        ((p.column ++ " LIKE '%".toList) ++ render (p.postfixPieces val ss1) ++ "%'".toList) ++
        (if negative then ") IS NOT 1".toList else []) ++
        (if p = .uploader then " COLLATE NOCASE".toList else []) := by
  cases negative <;> by_cases hp : p = .uploader <;>
    simp [columnPieces, render, Piece.text, hp]

lemma render_titlePieces (negative : Bool) (val : Str) :
    render (titlePieces negative val) =
      (if negative then "Title NOT LIKE '%".toList else "Title LIKE '%".toList) ++ val ++
        "%'".toList := by
  cases negative <;> simp [titlePieces, render, Piece.text]

/-- A `LIKE` comparison whose literal has paired quotes. -/
lemma reads_like {before body : Str} (ts : List Sql.Token)
    (hb : LexState.read ⟨[], .blank⟩ before = ⟨ts, .text ['%']⟩) (h : paired body = true)
    (out : List Sql.Token) :
    LexState.Reads ⟨out, .blank⟩ (before ++ body ++ "%'".toList)
      (ts ++ [Sql.Token.text (containsPattern body)]) := by
  have hread : LexState.read ⟨out, .blank⟩ (before ++ body ++ "%'".toList) =
      ⟨out ++ ts, .quoted (containsPattern body)⟩ := by
    rw [LexState.read_append, LexState.read_append, LexState.read_of_nil hb,
      LexState.read_paired h]
    rfl
  constructor
  · rw [hread]
    exact LexState.settled_quoted _ _
  · rw [hread]
    exact List.append_assoc out ts _

lemma reads_notOne {s : LexState} (hs : s.Settled) :
    s.Reads ") IS NOT 1".toList [.symbol ')', .keyword .is, .keyword .not, .number 1] := by
  have hread : s.read ") IS NOT 1".toList =
      ⟨s.flush ++ [Sql.Token.symbol ')', .keyword .is, .keyword .not], .number ['1']⟩ := by
    calc s.read ") IS NOT 1".toList
        = (s.step ')').read " IS NOT 1".toList := rfl
      _ = LexState.read ⟨s.flush ++ [Sql.Token.symbol ')'], .blank⟩ " IS NOT 1".toList := by
          rw [LexState.step_symbol hs (by decide)]
      _ = _ := by
          have hnil : LexState.read ⟨[], .blank⟩ " IS NOT 1".toList =
              ⟨[.keyword .is, .keyword .not], .number ['1']⟩ := rfl
          rw [LexState.read_of_nil hnil, List.append_assoc]
          rfl
  constructor
  · rw [hread]
    exact LexState.settled_number _ _
  · rw [hread]
    exact List.append_assoc s.flush _ _

/-- A blank and words after it. -/
lemma reads_words {s : LexState} (hs : s.Settled) (cs : List Char) {w : List Char}
    {ts : List Sql.Token}
    (h : LexState.read ⟨[], .blank⟩ cs = ⟨ts, .word w⟩) :
    s.Reads (' ' :: cs) (ts ++ [Sql.Token.ofWord w]) := by
  have hread : s.read (' ' :: cs) = ⟨s.flush ++ ts, .word w⟩ := LexState.read_space hs h
  constructor
  · rw [hread]
    exact LexState.settled_word _ _
  · rw [hread]
    exact List.append_assoc s.flush _ _

lemma reads_collate {s : LexState} (hs : s.Settled) :
    s.Reads " COLLATE NOCASE".toList [.keyword .collate, .name nocase] := by
  have hread : LexState.read ⟨[], .blank⟩ "COLLATE NOCASE".toList =
      ⟨[.keyword .collate], .word nocase⟩ := rfl
  exact reads_words hs _ hread

lemma reads_column {negative : Bool} {p : Prefix} {val ss1 : Str}
    (h : paired (render (p.postfixPieces val ss1)) = true) (out : List Sql.Token) :
    LexState.Reads ⟨out, .blank⟩ (render (columnPieces negative p val ss1))
      (Clause.column negative p val ss1).tokens := by
  have hlike (out : List Sql.Token) : LexState.Reads ⟨out, .blank⟩
      ((p.column ++ " LIKE '%".toList) ++ render (p.postfixPieces val ss1) ++ "%'".toList)
      ([Sql.Token.name p.column, .keyword .like] ++
        [Sql.Token.text (containsPattern (render (p.postfixPieces val ss1)))]) := by
    refine reads_like _ ?_ h out
    cases p <;> rfl
  have hbody : LexState.Reads ⟨out, .blank⟩
      ((if negative then "(".toList else []) ++
        ((p.column ++ " LIKE '%".toList) ++ render (p.postfixPieces val ss1) ++ "%'".toList) ++
        (if negative then ") IS NOT 1".toList else []))
      ((if negative then [.symbol '('] else []) ++
        [.name p.column, .keyword .like,
          .text (containsPattern (render (p.postfixPieces val ss1)))] ++
        (if negative then [.symbol ')', .keyword .is, .keyword .not, .number 1] else [])) := by
    cases negative with
    | false => simpa using hlike out
    | true =>
      have hopen : LexState.Reads ⟨out, .blank⟩ "(".toList [.symbol '('] :=
        ⟨LexState.settled_blank _, rfl⟩
      have hop := hopen.append (hlike (out ++ [Sql.Token.symbol '(']))
      exact hop.append (reads_notOne hop.settled)
  have hcollate {s : LexState} (hs : s.Settled) :
      s.Reads (if p = .uploader then " COLLATE NOCASE".toList else [])
        (if p = .uploader then [.keyword .collate, .name nocase] else []) := by
    split_ifs
    · exact reads_collate hs
    · exact LexState.reads_nil hs
  rw [render_columnPieces]
  exact hbody.append (hcollate hbody.settled)

lemma reads_title {negative : Bool} {val : Str} (h : paired val = true) (out : List Sql.Token) :
    LexState.Reads ⟨out, .blank⟩ (render (titlePieces negative val))
      (Clause.title negative val).tokens := by
  rw [render_titlePieces]
  cases negative with
  | false => exact reads_like [.name titleColumn, .keyword .like] rfl h out
  | true => exact reads_like [.name titleColumn, .keyword .not, .keyword .like] rfl h out

lemma reads_operand {cl : Clause} {e : Expr} (he : cl.expr? = some e) (h : cl.Paired)
    (out : List Sql.Token) : LexState.Reads ⟨out, .blank⟩ (render cl.pieces) cl.tokens := by
  cases cl with
  | column negative p val ss1 => exact reads_column h out
  | title negative val => exact reads_title h out
  | symbol tok => cases he

lemma reads_symbol {s : LexState} (hs : s.Settled) {tok : Str}
    (h : tok <:+: "=<>()".toList) :
    s.Reads (render (Clause.symbol tok).pieces) (Clause.symbol tok).tokens := by
  have hc : ∀ c ∈ "=<>()".toList, isSymbol c = true := forall_mem_of_all (by decide)
  have ht : render (Clause.symbol tok).pieces = tok := by
    simp [Clause.pieces, render, Piece.text]
  rw [ht]
  exact LexState.reads_symbols hs fun c hm => hc c (h.subset hm)

/-- `SELECT * FROM HitomiColumnModel WHERE`. -/
def selectTokens : List Sql.Token :=
  [.name "SELECT".toList, .symbol '*', .name "FROM".toList, .name "HitomiColumnModel".toList,
    .name "WHERE".toList]

lemma read_selectWhere : LexState.init.read selectWhere = ⟨selectTokens, .blank⟩ := rfl

def existTokens : List Sql.Token := [.name "ExistOnHitomi".toList, .symbol '=', .number 1]

lemma reads_exist {s : LexState} (hs : s.Settled) :
    s.Reads " AND ExistOnHitomi=1".toList (.keyword .and :: existTokens) := by
  have hread : s.read " AND ExistOnHitomi=1".toList =
      ⟨s.flush ++ [Sql.Token.keyword .and, .name "ExistOnHitomi".toList, .symbol '='],
        .number ['1']⟩ := LexState.read_space hs rfl
  constructor
  · rw [hread]
    exact LexState.settled_number _ _
  · rw [hread]
    exact List.append_assoc s.flush _ _

/-! ### Lexing of the loop -/

def Item.tokens : Item → List Sql.Token
  | .token tok =>
    match readToken tok with
    | .error _ => []
    | .ok cl => cl.tokens
  | .and => [.keyword .and]
  | .or => [.keyword .or]

/-- Every text that the items copy keeps its quotes in pairs. -/
def PairedItems (is : List Item) : Prop :=
  ∀ tok cl, .token tok ∈ is → readToken tok = .ok cl → cl.Paired

lemma readToken_symbol {tok t : Str} (h : readToken tok = .ok (.symbol t)) :
    t = tok ∧ tok <:+: "=<>()".toList := by
  simp only [readToken] at h
  split at h
  · split at h
    · cases h
    · split at h <;> cases h
  · split at h
    · rename_i hsym
      cases h
      exact ⟨rfl, hsym⟩
    · cases h

lemma readToken_openParen : readToken openParen = .ok (.symbol openParen) := by decide

lemma readToken_closeParen : readToken closeParen = .ok (.symbol closeParen) := by decide

/-- Between two tokens, or at a token that may follow another directly. -/
def ReadyFor (s : LexState) (ts : List Str) : Prop :=
  s.mode = .blank ∨ s.Settled ∧ ∃ rest, ts = closeParen :: rest

lemma ReadyFor.settled {s : LexState} {ts : List Str} (h : ReadyFor s ts) : s.Settled := by
  rcases h with h | h
  · rw [LexState.Settled, h]
    rfl
  · exact h.1

lemma reads_token {tok : Str} {rest : List Str} (hok : (Item.token tok).error = none)
    (hp : ∀ cl, readToken tok = .ok cl → cl.Paired) {s : LexState}
    (hs : ReadyFor s (tok :: rest)) :
    s.Reads (render (Item.token tok).pieces) (Item.token tok).tokens := by
  cases hr : readToken tok with
  | error e => simp [Item.error, hr] at hok
  | ok cl =>
    simp only [Item.pieces, Item.tokens, hr]
    cases cl with
    | symbol t =>
      obtain ⟨rfl, hsym⟩ := readToken_symbol hr
      exact reads_symbol hs.settled hsym
    | column negative p val ss1 =>
      obtain ⟨out, mode⟩ := s
      rcases hs with rfl | ⟨-, _, heq⟩
      · exact reads_operand rfl (hp _ hr) out
      · rw [(List.cons.inj heq).1, readToken_closeParen] at hr
        cases hr
    | title negative val =>
      obtain ⟨out, mode⟩ := s
      rcases hs with rfl | ⟨-, _, heq⟩
      · exact reads_operand rfl (hp _ hr) out
      · rw [(List.cons.inj heq).1, readToken_closeParen] at hr
        cases hr

lemma read_openParen {s : LexState} (hs : s.Settled) :
    (s.read (render (Item.token openParen).pieces)).mode = .blank := by
  have : render (Item.token openParen).pieces = ['('] := by decide
  rw [this, LexState.read_cons, LexState.read_nil,
    LexState.step_symbol hs (by decide)]

lemma read_and {s : LexState} (hs : s.Settled) :
    s.read (render Item.and.pieces) = ⟨s.flush ++ [Sql.Token.keyword .and], .blank⟩ :=
  have h : LexState.read ⟨[], .blank⟩ "AND ".toList = ⟨[.keyword .and], .blank⟩ := rfl
  LexState.read_space hs h

lemma read_or {s : LexState} (hs : s.Settled) :
    s.read (render Item.or.pieces) = ⟨s.flush ++ [Sql.Token.keyword .or], .blank⟩ :=
  have h : LexState.read ⟨[], .blank⟩ "OR ".toList = ⟨[.keyword .or], .blank⟩ := rfl
  LexState.read_space hs h

lemma reads_cons {i : Item} {is : List Item} {s : LexState}
    (hi : s.Reads (render i.pieces) i.tokens)
    (his : (s.read (render i.pieces)).Reads (render (is.flatMap Item.pieces))
      (is.flatMap Item.tokens)) :
    s.Reads (render ((i :: is).flatMap Item.pieces)) ((i :: is).flatMap Item.tokens) := by
  have : render ((i :: is).flatMap Item.pieces) =
      render i.pieces ++ render (is.flatMap Item.pieces) := by simp [render]
  rw [this, List.flatMap_cons]
  exact hi.append his

lemma reads_and_cons {is : List Item} {s : LexState} (hs : s.Settled)
    (his : ∀ t : LexState, t.mode = .blank →
      t.Reads (render (is.flatMap Item.pieces)) (is.flatMap Item.tokens)) :
    s.Reads (render ((Item.and :: is).flatMap Item.pieces))
      ((Item.and :: is).flatMap Item.tokens) := by
  refine reads_cons ⟨?_, ?_⟩ (his _ ?_) <;> rw [read_and hs]
  · exact LexState.settled_blank _
  · rfl

lemma reads_or_cons {is : List Item} {s : LexState} (hs : s.Settled)
    (his : ∀ t : LexState, t.mode = .blank →
      t.Reads (render (is.flatMap Item.pieces)) (is.flatMap Item.tokens)) :
    s.Reads (render ((Item.or :: is).flatMap Item.pieces))
      ((Item.or :: is).flatMap Item.tokens) := by
  refine reads_cons ⟨?_, ?_⟩ (his _ ?_) <;> rw [read_or hs]
  · exact LexState.settled_blank _
  · rfl

/-- The text of the loop is read as the tokens of its items. -/
theorem reads_items {ts : List Str} (hok : ∀ i ∈ items ts, i.error = none)
    (hp : PairedItems (items ts)) {s : LexState} (hs : ReadyFor s ts) :
    s.Reads (render ((items ts).flatMap Item.pieces)) ((items ts).flatMap Item.tokens) := by
  induction ts using items.induct generalizing s with
  | case1 => exact LexState.reads_nil hs.settled
  | case2 tok =>
    have htok := reads_token (hok _ (by simp [items])) (fun cl => hp tok cl (by simp [items])) hs
    exact reads_cons htok (LexState.reads_nil htok.settled)
  | case3 next rest ih =>
    rw [items_open] at hok hp ⊢
    have htok := reads_token (hok _ (by simp)) (fun cl => hp openParen cl (by simp)) hs
    refine reads_cons htok (ih (fun i hi => hok i (by simp [hi]))
      (fun tok cl ht => hp tok cl (by simp [ht])) (.inl (read_openParen hs.settled)))
  | case4 tok next rest htok hor ih =>
    rw [items_or htok hor] at hok hp ⊢
    have ht := reads_token (hok _ (by simp)) (fun cl => hp tok cl (by simp)) hs
    refine reads_cons ht (reads_or_cons ht.settled fun t hblank => ?_)
    exact ih (fun i hi => hok i (by simp [hi])) (fun tok cl ht => hp tok cl (by simp [ht]))
      (.inl hblank)
  | case5 tok next rest htok hor hnext ih =>
    rw [items_and htok (Bool.eq_false_iff.mpr hor) hnext] at hok hp ⊢
    have ht := reads_token (hok _ (by simp)) (fun cl => hp tok cl (by simp)) hs
    refine reads_cons ht (reads_and_cons ht.settled fun t hblank => ?_)
    exact ih (fun i hi => hok i (by simp [hi])) (fun tok cl ht => hp tok cl (by simp [ht]))
      (.inl hblank)
  | case6 tok next rest htok hor hnext ih =>
    obtain rfl : next = closeParen := not_not.mp hnext
    rw [items_close htok] at hok hp ⊢
    have ht := reads_token (hok _ (by simp)) (fun cl => hp tok cl (by simp)) hs
    exact reads_cons ht (ih (fun i hi => hok i (by simp [hi]))
      (fun tok cl ht => hp tok cl (by simp [ht])) (.inr ⟨ht.settled, rest, rfl⟩))

/-- The text of the loop and the text after it. -/
lemma reads_whereLoop {ts : List Str} (hok : ∀ i ∈ items ts, i.error = none)
    (hp : PairedItems (items ts)) {s : LexState} (hs : s.mode = .blank) :
    s.Reads (render ((items ts).flatMap Item.pieces) ++ " AND ExistOnHitomi=1".toList)
      ((items ts).flatMap Item.tokens ++ .keyword .and :: existTokens) := by
  have hloop := reads_items hok hp (s := s) (.inl hs)
  exact hloop.append (reads_exist hloop.settled)

/-- The text of the whole statement. -/
theorem lex_whereLoop {ts : List Str} (hok : ∀ i ∈ items ts, i.error = none)
    (hp : PairedItems (items ts)) :
    lex (selectWhere ++ (render ((items ts).flatMap Item.pieces) ++
        " AND ExistOnHitomi=1".toList)) =
      some (selectTokens ++ ((items ts).flatMap Item.tokens ++ .keyword .and :: existTokens)) := by
  have hselect : LexState.init.read selectWhere = ⟨selectTokens, .blank⟩ := rfl
  refine lex_eq_of_reads (LexState.Reads.append ⟨?_, ?_⟩ ?_)
  · rw [hselect]
    exact LexState.settled_blank _
  · rw [hselect]
    rfl
  · rw [hselect]
    exact reads_whereLoop hok hp rfl

/-! ### Parsing of a clause -/

/-- An operand, read where one is needed. -/
lemma read_operand {cl : Clause} {e : Expr} (he : cl.expr? = some e) {pend : List Pending}
    (hl : Loose 4 pend) (stack : List (List Pending)) :
    ∃ s, ParseState.read ⟨stack, pend, .need⟩ cl.tokens = some s ∧ s.Carries 4 stack pend e := by
  cases cl with
  | symbol tok => cases he
  | title negative val =>
    cases he
    refine ⟨⟨stack, .binary (if negative then .notLike else .like) (.column titleColumn) :: pend,
      .got (.text (containsPattern val))⟩, ?_, ?_⟩
    · cases negative <;>
        simp [Clause.tokens, ParseState.step, ParseState.operand, ParseState.operator,
          BinaryOp.prec, hl _]
    · exact (ParseState.carries_got ..).apply (by cases negative <;> decide)
  | column negative p val ss1 =>
    cases he
    set pattern : Expr := .text (containsPattern (render (p.postfixPieces val ss1)))
    cases negative with
    | false =>
      refine ⟨⟨stack, .binary .like (.column p.column) :: pend, .got (p.collated pattern)⟩, ?_, ?_⟩
      · by_cases hu : p = .uploader <;>
          simp [Clause.tokens, ParseState.step, ParseState.operand, ParseState.operator,
            BinaryOp.prec, hl _, hu, Prefix.collated, pattern]
      · exact (ParseState.carries_got ..).apply (by decide)
    | true =>
      refine ⟨⟨stack, .binary .isNot (.binary .like (.column p.column) pattern) :: pend,
        .got (p.collated (.number 1))⟩, ?_, ?_⟩
      · by_cases hu : p = .uploader <;>
          simp [Clause.tokens, ParseState.step, ParseState.operand, ParseState.operator,
            BinaryOp.prec, reduce_binary, hl _, hu, Prefix.collated, pattern]
      · exact (ParseState.carries_got ..).apply (by decide)

/-! ### Conditions of token lists -/

/-- Read the tokens of a list of items where an operand is needed. -/
def readItems (is : List Item) (stack : List (List Pending)) (pend : List Pending) :
    Option ParseState :=
  ParseState.read ⟨stack, pend, .need⟩ (is.flatMap Item.tokens)

/-- The tokens `ts` translate to a text that SQL reads, next to operators of precedence at most `p`,
as the condition `e`. -/
structure ReadsAs (ts : List Str) (p : ℕ) (e : Expr) : Prop where
  exists_head : ∃ t rest, ts = t :: rest ∧ isOr t = false ∧ t ≠ closeParen
  closed : endsOpen (items ts) = false
  ok : ∀ i ∈ items ts, i.error = none
  paired : PairedItems (items ts)
  parse : ∀ stack pend, Loose p pend →
    ∃ s, readItems (items ts) stack pend = some s ∧ s.Carries p stack pend e

namespace ReadsAs

variable {ts us : List Str} {p q : ℕ} {a b : Expr}

lemma mono (h : ReadsAs ts p a) (hq : q ≤ p) : ReadsAs ts q a where
  exists_head := h.exists_head
  closed := h.closed
  ok := h.ok
  paired := h.paired
  parse stack pend hl := by
    obtain ⟨s, hs, hc⟩ := h.parse stack pend (hl.mono hq)
    exact ⟨s, hs, hc.mono hq⟩

lemma items_ne_nil (h : ReadsAs ts p a) : items ts ≠ [] := by
  obtain ⟨t, rest, rfl, -⟩ := h.exists_head
  exact Violet.items_ne_nil

lemma endsOpen_append {is js : List Item} (h : js ≠ []) : endsOpen (is ++ js) = endsOpen js := by
  rw [endsOpen, List.getLast?_append_of_ne_nil _ h, endsOpen]

/-- A clause that is an operand. -/
lemma of_clause {tok : Str} {cl : Clause} (hr : readToken tok = .ok cl) (he : cl.expr? = some a)
    (hp : cl.Paired) (hor : isOr tok = false) : ReadsAs [tok] 4 a where
  exists_head := ⟨tok, [], rfl, hor, by
    rintro rfl
    rw [readToken_closeParen] at hr
    cases hr
    cases he⟩
  closed := by
    have : tok ≠ openParen := by
      rintro rfl
      rw [readToken_openParen] at hr
      cases hr
      cases he
    simp [items, this]
  ok := by simp [items, Item.error, hr]
  paired t cl' ht hr' := by
    simp only [items, List.mem_singleton, Item.token.injEq] at ht
    subst ht
    rw [hr] at hr'
    cases hr'
    exact hp
  parse stack pend hl := by
    obtain ⟨s, hs, hc⟩ := read_operand he hl stack
    exact ⟨s, by simpa [readItems, items, Item.tokens, hr] using hs, hc⟩

lemma items_juxt (ha : ReadsAs ts p a) (hb : ReadsAs us q b) :
    items (ts ++ us) = items ts ++ .and :: items us := by
  obtain ⟨t, rest, rfl, hor, hclose⟩ := hb.exists_head
  simp [items_append, ha.closed, hor, hclose]

/-- Two lists side by side: `AND` is inserted between them. -/
lemma juxt (ha : ReadsAs ts 2 a) (hb : ReadsAs us 4 b) :
    ReadsAs (ts ++ us) 2 (.binary .and a b) := by
  have hitems := ha.items_juxt hb
  constructor
  · obtain ⟨u, rest', rfl, hu⟩ := ha.exists_head
    exact ⟨u, rest' ++ us, rfl, hu⟩
  · rw [hitems, endsOpen_append (by simp), endsOpen_cons _ hb.items_ne_nil, hb.closed]
  · rw [hitems]
    simp only [List.mem_append, List.mem_cons]
    rintro i (hi | rfl | hi)
    exacts [ha.ok i hi, rfl, hb.ok i hi]
  · rw [hitems]
    intro tok cl htok
    simp only [List.mem_append, List.mem_cons, reduceCtorEq, false_or] at htok
    exact htok.elim (ha.paired tok cl) (hb.paired tok cl)
  · intro stack pend hl
    obtain ⟨s, hs, hc⟩ := ha.parse stack pend hl
    obtain ⟨s', hs', hc'⟩ := hb.parse stack (.binary .and a :: pend) (loose_binary (by decide) _ _)
    refine ⟨s', ?_, (hc'.mono (by decide)).apply (by decide)⟩
    simp only [readItems] at hs hs' ⊢
    rw [hitems, List.flatMap_append, List.flatMap_cons, ParseState.read_append, hs,
      Option.bind_some, Item.tokens, ParseState.read_append, ParseState.read_cons,
      hc.step_and_of_loose (by decide) hl]
    simpa using hs'

/-- Two lists with `or` between them. -/
lemma or {kw : Str} (ha : ReadsAs ts 1 a) (hkw : isOr kw = true) (hb : ReadsAs us 2 b) :
    ReadsAs (ts ++ kw :: us) 1 (.binary .or a b) := by
  have hitems : items (ts ++ kw :: us) = items ts ++ .or :: items us := by
    simp [items_append, ha.closed, hkw]
  constructor
  · obtain ⟨u, rest', rfl, hu⟩ := ha.exists_head
    exact ⟨u, rest' ++ kw :: us, rfl, hu⟩
  · rw [hitems, endsOpen_append (by simp), endsOpen_cons _ hb.items_ne_nil, hb.closed]
  · rw [hitems]
    simp only [List.mem_append, List.mem_cons]
    rintro i (hi | rfl | hi)
    exacts [ha.ok i hi, rfl, hb.ok i hi]
  · rw [hitems]
    intro tok cl htok
    simp only [List.mem_append, List.mem_cons, reduceCtorEq, false_or] at htok
    exact htok.elim (ha.paired tok cl) (hb.paired tok cl)
  · intro stack pend hl
    obtain ⟨s, hs, hc⟩ := ha.parse stack pend hl
    obtain ⟨s', hs', hc'⟩ := hb.parse stack (.binary .or a :: pend) (loose_binary (by decide) _ _)
    refine ⟨s', ?_, (hc'.mono (by decide)).apply (by decide)⟩
    simp only [readItems] at hs hs' ⊢
    rw [hitems, List.flatMap_append, List.flatMap_cons, ParseState.read_append, hs,
      Option.bind_some, Item.tokens, ParseState.read_append, ParseState.read_cons,
      hc.step_or_of_loose (by decide) hl]
    simpa using hs'

/-- A list between parentheses. -/
lemma paren (ha : ReadsAs ts 1 a) : ReadsAs (openParen :: ts ++ [closeParen]) 4 a := by
  have hitems : items (openParen :: ts ++ [closeParen]) =
      Item.token openParen :: items ts ++ [Item.token closeParen] := by
    obtain ⟨t, rest, rfl, -⟩ := ha.exists_head
    have happ := items_append (t :: rest) closeParen []
    rw [if_neg (by simp [ha.closed]), if_neg (by decide), if_neg (by simp)] at happ
    rw [List.cons_append, List.cons_append, items_open, ← List.cons_append, happ]
    rfl
  constructor
  · exact ⟨openParen, ts ++ [closeParen], rfl, by decide, by decide⟩
  · rw [hitems, endsOpen_append (by simp)]
    decide
  · rw [hitems]
    simp only [List.cons_append, List.mem_cons, List.mem_append, List.not_mem_nil, or_false]
    rintro i (rfl | hi | rfl)
    exacts [by decide, ha.ok i hi, by decide]
  · rw [hitems]
    intro tok cl htok
    simp only [List.cons_append, List.mem_cons, List.mem_append, List.not_mem_nil, or_false,
      Item.token.injEq] at htok
    rcases htok with rfl | htok | rfl
    · rw [readToken_openParen]
      rintro ⟨⟩
      rfl
    · exact ha.paired tok cl htok
    · rw [readToken_closeParen]
      rintro ⟨⟩
      rfl
  · intro stack pend _
    obtain ⟨s, hs, hc⟩ := ha.parse (pend :: stack) [] (loose_nil 1)
    have hred : (reduce 0 [] a).2 = a := rfl
    refine ⟨⟨stack, pend, .got a⟩, ?_, ParseState.carries_got ..⟩
    simp only [readItems] at hs ⊢
    rw [hitems, List.cons_append, List.flatMap_cons, List.flatMap_append,
      ParseState.read_append]
    have hopen : ParseState.read ⟨stack, pend, .need⟩ (Item.token openParen).tokens =
        some ⟨pend :: stack, [], .need⟩ := rfl
    have hclose : [Item.token closeParen].flatMap Item.tokens = [.symbol ')'] := by decide
    rw [hopen, Option.bind_some, ParseState.read_append, hs, Option.bind_some, hclose,
      ParseState.read_cons, hc.step_close, hred]
    rfl

/-- A text whose tokens are read as `e` is a condition by itself. -/
lemma readCondition_eq (h : ReadsAs ts 1 a) :
    readCondition (render ((items ts).flatMap Item.pieces)) = some a := by
  have hlex : lex (render ((items ts).flatMap Item.pieces)) =
      some ((items ts).flatMap Item.tokens) :=
    lex_eq_of_reads (reads_items h.ok h.paired (.inl rfl))
  obtain ⟨s, hs, hc⟩ := h.parse [] [] (loose_nil 1)
  have hs' : ParseState.init.read ((items ts).flatMap Item.tokens) = some s := hs
  rw [readCondition, hlex, Option.bind_some, Sql.parse, hs', Option.bind_some, hc.result_eq]
  rfl

end ReadsAs

end Violet
