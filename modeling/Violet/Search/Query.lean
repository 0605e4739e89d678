import Violet.Search.ClauseReading
import Violet.Search.Layout

/-!
# Well-formed search expressions

The search language as a user means it: tags and words, each possibly negated, put side by side or
joined by `or`, with parentheses. `or` may be written in any letter case, and tokens are separated
by blanks, which may be missing next to a parenthesis.

An expression has its own syntax tree, in which juxtaposition binds tighter than `or`, and its own
meaning on a row. `translate2query` produces exactly this tree.
-/

namespace Violet

open Dart Sql

/-! ### Syntax -/

/-- A character without a meaning of its own to the translator or to SQL. -/
def isPlain (c : Char) : Bool :=
  !isWhitespace c && !isDelimiter c && c != ':' && c != '=' && c != '%' && c != quote

structure PlainText where
  text : Str
  nonempty : text ≠ []
  plain : ∀ c ∈ text, isPlain c = true

inductive Atom where
  | tag (p : Prefix) (value : PlainText)
  | word (w : PlainText) (not_or : isOr w.text = false) (not_negative : isNegative w.text = false)

structure OrWord where
  text : Str
  isOr : isOr text = true

lemma isOr_or : isOr "or".toList = true := rfl

inductive Level where
  | unit
  | conjunction
  | disjunction

/-- Search expressions, stratified by precedence. -/
inductive Query : Level → Type where
  | atom (negative : Bool) (a : Atom) : Query .unit
  | paren (q : Query .disjunction) : Query .unit
  | single (u : Query .unit) : Query .conjunction
  | juxt (c : Query .conjunction) (u : Query .unit) : Query .conjunction
  | all (c : Query .conjunction) : Query .disjunction
  | or (q : Query .disjunction) (kw : OrWord) (c : Query .conjunction) : Query .disjunction

def Atom.text : Atom → Str
  | .tag p value => p.name ++ ':' :: value.text
  | .word w _ _ => w.text

def signed (negative : Bool) (s : Str) : Str := if negative then '-' :: s else s

def Query.tokens : {l : Level} → Query l → List Str
  | _, .atom negative a => [signed negative a.text]
  | _, .paren q => openParen :: q.tokens ++ [closeParen]
  | _, .single u => u.tokens
  | _, .juxt c u => c.tokens ++ u.tokens
  | _, .all c => c.tokens
  | _, .or q kw c => q.tokens ++ kw.text :: c.tokens

/-! ### Conditions -/

def Atom.column : Atom → Str
  | .tag p _ => p.column
  | .word .. => titleColumn

/-- The text that the column has to contain. Columns with several values delimit each by bars, and
underscores stand for blanks, except in words and uploader names. -/
def Atom.searched : Atom → Str
  | .tag p value =>
    match p with
    | .male | .female => '|' :: underscoreToBlank (p.name ++ ':' :: value.text) ++ ['|']
    | .tag | .series | .artist | .group | .character =>
      '|' :: underscoreToBlank value.text ++ ['|']
    | .uploader => value.text
    | .lang | .type | .class => underscoreToBlank value.text
  | .word w _ _ => w.text

def Atom.expr (negative : Bool) (a : Atom) : Expr :=
  let pattern := .text ('%' :: a.searched ++ ['%'])
  match a with
  | .tag p _ =>
    if negative then
      .binary .isNot (.binary .like (.column a.column) pattern) (p.collated (.number 1))
    else .binary .like (.column a.column) (p.collated pattern)
  | .word .. => .binary (if negative then .notLike else .like) (.column a.column) pattern

/-- The syntax tree of an expression, as a condition. -/
def Query.expr : {l : Level} → Query l → Expr
  | _, .atom negative a => a.expr negative
  | _, .paren q => q.expr
  | _, .single u => u.expr
  | _, .juxt c u => .binary .and c.expr u.expr
  | _, .all c => c.expr
  | _, .or q _ c => .binary .or q.expr c.expr

def Level.prec : Level → ℕ
  | .unit => 4
  | .conjunction => 2
  | .disjunction => 1

/-! ### Tokens of an atom -/

lemma isPlain_iff {c : Char} : isPlain c = true ↔
    isWhitespace c = false ∧ isDelimiter c = false ∧ c ≠ ':' ∧ c ≠ '=' ∧ c ≠ '%' ∧ c ≠ quote := by
  simp [isPlain, and_assoc]

lemma PlainText.notMem {v : PlainText} {c : Char} (hc : isPlain c = false) : c ∉ v.text :=
  fun h => by simp [v.plain c h] at hc

lemma quote_notMem_underscoreToBlank {s : Str} (h : quote ∉ s) :
    quote ∉ underscoreToBlank s := by
  simp only [underscoreToBlank, replaceChar, List.mem_map, not_exists, not_and]
  intro c hc
  split_ifs
  · decide
  · exact fun hq => h (hq ▸ hc)

lemma unsigned_signed (negative : Bool) {s : Str} (h : isNegative s = false) :
    isNegative (signed negative s) = negative ∧ unsigned (signed negative s) = s := by
  cases negative with
  | true => exact ⟨rfl, rfl⟩
  | false => exact ⟨h, by simp [unsigned, signed, h]⟩

lemma Prefix.quote_notMem_name (p : Prefix) : quote ∉ p.name := by
  cases p <;> decide

lemma Prefix.ofName_name (p : Prefix) : Prefix.ofName p.name = some p := by
  cases p <;> rfl

lemma splitOn_colon {s t : Str} (hs : ':' ∉ s) (ht : ':' ∉ t) :
    (s ++ ':' :: t).splitOn ':' = [s, t] := by
  rw [List.splitOn_append_cons_self, List.splitOn_eq_singleton hs, List.splitOn_eq_singleton ht]
  rfl

/-- A tag is translated to the condition on its column. -/
lemma readsAs_tag (negative : Bool) (p : Prefix) (v : PlainText) :
    ReadsAs [signed negative (Atom.tag p v).text] 4 ((Atom.tag p v).expr negative) := by
  set val := (Atom.tag p v).text with hval
  have hneg : isNegative val = false := by
    cases p <;> rfl
  obtain ⟨hn, hu⟩ := unsigned_signed negative hneg
  have hcolon : ':' ∈ signed negative val := by
    cases negative <;> simp [signed, hval, Atom.text]
  have hsplit : val.splitOn ':' = [p.name, v.text] :=
    splitOn_colon (by cases p <;> decide) (PlainText.notMem (by decide))
  have hrecent : p.name ≠ "recent".toList := by
    cases p <;> decide
  have hread : readToken (signed negative val) = .ok (.column negative p val v.text) := by
    simp only [readToken, hcolon, if_true, hu, hsplit, List.headD_cons, hrecent, if_false,
      p.ofName_name, hn, List.getD_cons_succ, List.getD_cons_zero]
  have hv : quote ∉ v.text := PlainText.notMem (by decide)
  have hsearched : render (p.postfixPieces val v.text) = (Atom.tag p v).searched := by
    cases p <;> simp [Prefix.postfixPieces, render, Piece.text, Atom.searched, hval, Atom.text]
  have hq : quote ∉ (Atom.tag p v).searched := by
    have hname : quote ∉ p.name ++ ':' :: v.text := by
      simp only [List.mem_append, List.mem_cons, not_or]
      exact ⟨p.quote_notMem_name, by decide, hv⟩
    have hbar : quote ≠ '|' := by decide
    cases p <;>
      simp only [Atom.searched, List.mem_append, List.mem_cons, List.cons_append,
        List.not_mem_nil, or_false, hbar, false_or] <;>
      first
        | exact hv
        | exact quote_notMem_underscoreToBlank hv
        | exact quote_notMem_underscoreToBlank hname
  refine ReadsAs.of_clause hread ?_ ?_ ?_
  · simp only [Clause.expr?, columnExpr, hsearched, containsPattern, unpair_of_notMem hq]
    rfl
  · rw [Clause.Paired, Clause.body, hsearched]
    exact paired_of_notMem hq
  · exact isOr_eq_false_of_mem hcolon (by decide)

/-- A word is translated to a condition on the title. -/
lemma readsAs_word (negative : Bool) (w : PlainText) (hor : isOr w.text = false)
    (hneg : isNegative w.text = false) :
    ReadsAs [signed negative w.text] 4 ((Atom.word w hor hneg).expr negative) := by
  obtain ⟨hn, hu⟩ := unsigned_signed negative hneg
  have hcolon : ':' ∉ signed negative w.text := by
    cases negative <;> simp [signed, w.notMem (c := ':') (by decide)]
  have hsymbol : ¬ signed negative w.text <:+: "=<>()".toList := by
    intro hin
    obtain ⟨c, hc⟩ := List.exists_mem_of_ne_nil _ w.nonempty
    have hmem : c ∈ "=<>()".toList :=
      hin.subset (by cases negative <;> simp [signed, hc])
    have hplain : ∀ d ∈ "=<>()".toList, isPlain d = false := forall_mem_of_all (by decide)
    exact w.notMem (hplain c hmem) hc
  have hread : readToken (signed negative w.text) = .ok (.title negative w.text) := by
    simp only [readToken, hcolon, hsymbol, if_false, hn, hu]
  have hq : quote ∉ w.text := w.notMem (by decide)
  refine ReadsAs.of_clause hread ?_ ?_ ?_
  · simp only [Clause.expr?, titleExpr, containsPattern, unpair_of_notMem hq]
    rfl
  · exact paired_of_notMem hq
  · cases negative with
    | false => exact hor
    | true => exact isOr_eq_false_of_mem (c := '-') (by simp [signed]) (by decide)

/-- The tokens of an expression are read as its syntax tree. -/
theorem Query.readsAs : {l : Level} → (q : Query l) → ReadsAs q.tokens l.prec q.expr
  | _, .atom negative (.tag p v) => readsAs_tag negative p v
  | _, .atom negative (.word w hor hneg) => readsAs_word negative w hor hneg
  | _, .paren q => q.readsAs.paren
  | _, .single u => u.readsAs.mono (by decide)
  | _, .juxt c u => c.readsAs.juxt u.readsAs
  | _, .all c => c.readsAs.mono (by decide)
  | _, .or q kw c => q.readsAs.or kw.isOr c.readsAs

/-! ### The translation of a layout -/

lemma isTokenChar_of_isPlain {c : Char} (h : isPlain c = true) : isTokenChar c = true :=
  isTokenChar_iff.mpr ⟨(isPlain_iff.mp h).1, (isPlain_iff.mp h).2.1⟩

lemma isToken_signed {negative : Bool} {s : Str} (hne : s ≠ [])
    (h : ∀ c ∈ s, isTokenChar c = true) : IsToken (signed negative s) := by
  cases negative with
  | false => exact .word hne h
  | true =>
    refine .word (by simp [signed]) fun c hc => ?_
    rcases List.mem_cons.mp hc with rfl | hc
    · rfl
    · exact h c hc

lemma Atom.isToken_signed (negative : Bool) (a : Atom) : IsToken (signed negative a.text) := by
  cases a with
  | tag p value =>
    refine Violet.isToken_signed (by simp [Atom.text]) fun c hc => ?_
    have hname : ∀ c ∈ p.name, isTokenChar c = true := by
      cases p <;> exact forall_mem_of_all (by decide)
    simp only [Atom.text, List.mem_append, List.mem_cons] at hc
    rcases hc with hc | rfl | hc
    · exact hname c hc
    · rfl
    · exact isTokenChar_of_isPlain (value.plain c hc)
  | word w =>
    exact Violet.isToken_signed w.nonempty fun c hc => isTokenChar_of_isPlain (w.plain c hc)

/-- Only letters have a lower case of their own. -/
lemma toLower_eq_self {c : Char} (h : isTokenChar c = false) : c.toLower = c := by
  refine dif_neg ?_
  rintro ⟨hA, hZ⟩
  have hA' : 65 ≤ c.toNat := UInt32.le_iff_toNat_le.mp hA
  have hZ' : c.toNat ≤ 90 := UInt32.le_iff_toNat_le.mp hZ
  have hw : isWhitespace c = false := by
    simp only [isWhitespace]
    grind
  have hd : isDelimiter c = true := by
    by_contra hd
    simp [isTokenChar, hw, hd] at h
  simp only [isDelimiter, Bool.or_eq_true, beq_iff_eq] at hd
  rcases hd with ((rfl | rfl) | rfl) | rfl <;> simp at hA'

lemma OrWord.isToken (kw : OrWord) : IsToken kw.text := by
  have hkw : toLowerCase kw.text = "or".toList := by simpa [Violet.isOr] using kw.isOr
  refine .word ?_ fun c hc => ?_
  · rintro hnil
    simp [hnil, toLowerCase] at hkw
  · have hmem : c.toLower ∈ "or".toList := hkw ▸ List.mem_map_of_mem hc
    have hor : ∀ d ∈ "or".toList, isTokenChar d = true := forall_mem_of_all (by decide)
    by_contra hchar
    rw [toLower_eq_self (Bool.eq_false_iff.mpr hchar)] at hmem
    exact hchar (hor c hmem)

lemma Query.isToken {l : Level} (q : Query l) : ∀ tok ∈ q.tokens, IsToken tok := by
  induction q with
  | atom negative a => simpa [tokens] using a.isToken_signed negative
  | paren q ih =>
    simp only [tokens, List.cons_append, List.mem_cons, List.mem_append, List.not_mem_nil, or_false]
    rintro tok (rfl | h | rfl)
    exacts [.delimiter rfl, ih tok h, .delimiter rfl]
  | single u ih => exact ih
  | juxt c u ihc ihu =>
    simp only [tokens, List.mem_append]
    rintro tok (h | h)
    exacts [ihc tok h, ihu tok h]
  | all c ih => exact ih
  | or q kw c ihq ihc =>
    simp only [tokens, List.mem_append, List.mem_cons]
    rintro tok (h | rfl | h)
    exacts [ihq tok h, kw.isToken, ihc tok h]

/-- The condition that a well-formed expression is translated to is read as the expression's own
syntax tree, however the expression is laid out. -/
theorem readCondition_translate2query (q : Query .disjunction) (text : Str)
    (h : Spells q.tokens text)
    (hn : intTryParse (q.tokens.headD []) = none) :
    ∃ cond, translate2query text = selectWhere ++ cond ++ " AND ExistOnHitomi=1".toList ∧
      readCondition cond = some q.expr := by
  obtain ⟨tok, ts, hts, -⟩ := q.readsAs.exists_head
  have hfirst : intTryParse (firstWord text) = none := by
    rw [hts] at h hn
    exact h.intTryParse_firstWord (q.isToken tok (by simp [hts])) hn
  have hok : (items q.tokens).findSome? Item.error = none :=
    List.findSome?_eq_none_iff.mpr q.readsAs.ok
  refine ⟨render ((items q.tokens).flatMap Item.pieces), ?_, q.readsAs.readCondition_eq⟩
  have hwords := h.words_eq q.isToken
  have htrim : trim (trim text) ≠ [] := fun hnil => by
    rw [words_of_trim_trim hnil, hts] at hwords
    cases hwords
  rw [translate2query, translatePieces_eq htrim hfirst, hwords, whereLoop_eq, emit, hok]
  simp [render, Piece.text]

/-- The expression `(a or -tag:b_c) d`. -/
def sampleQuery : Query .disjunction :=
  let a : Query .unit :=
    .atom false (.word ⟨"a".toList, by decide, forall_mem_of_all (by decide)⟩ rfl rfl)
  let b : Query .unit :=
    .atom true (.tag .tag ⟨"b_c".toList, by decide, forall_mem_of_all (by decide)⟩)
  let d : Query .unit :=
    .atom false (.word ⟨"d".toList, by decide, forall_mem_of_all (by decide)⟩ rfl rfl)
  .all (.juxt (.single (.paren (.or (.all (.single a)) ⟨"or".toList, isOr_or⟩ (.single b)))) d)

theorem readCondition_translate2query_sampleQuery :
    intTryParse (sampleQuery.tokens.headD []) = none ∧
      ∃ cond, translate2query " (a or  -tag:b_c)d".toList =
          selectWhere ++ cond ++ " AND ExistOnHitomi=1".toList ∧
        readCondition cond = some sampleQuery.expr := by
  have hspells : Spells sampleQuery.tokens " (a or  -tag:b_c)d".toList :=
    .cons 1 _ (.cons 0 _ (.cons 1 _ (.cons 2 _ (.cons 0 _ (.cons 0 _ (.nil 0)
      (separated_nil _)) (.inl ⟨')', rfl, rfl⟩)) (separated_cons (.inr rfl)))
      (separated_cons (.inl rfl))) (separated_cons (.inl rfl))) (.inl ⟨'(', rfl, rfl⟩)
  exact ⟨by decide, readCondition_translate2query sampleQuery _ hspells (by decide)⟩

end Violet
