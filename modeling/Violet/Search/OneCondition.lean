import Violet.Dart.Split
import Violet.Search.Layout
import Violet.Search.Quoting
import Violet.Sql.Like

/-!
# Queries with one condition

A text is translated to a query with a single condition on a column when its first token is read as
that column and nothing stands behind it. What the pattern of the condition finds is compared with
what contains a name, and with what has the name as a value.
-/

open Dart Sql

namespace Violet

/-! ### Columns -/

/-- The query whose one condition is on the column of the prefix. -/
def columnQuery (p : Prefix) (body : Str) : Str :=
  selectWhere ++ (p.column ++ " LIKE '%".toList ++ body ++ "%'".toList ++
    (if p = .uploader then " COLLATE NOCASE".toList else [])) ++ " AND ExistOnHitomi=1".toList

/-- The columns with several values delimit each by bars. -/
def Prefix.delimited : Prefix → Bool
  | .male | .female | .tag | .series | .artist | .group | .character => true
  | .uploader | .lang | .type | .class => false

/-- A value as it stands in the column. -/
def Prefix.bars (p : Prefix) (value : Str) : Str :=
  if p.delimited then '|' :: value ++ ['|'] else value

/-- The name is a part of the text of the column, in either letter case. -/
def Contains (p : Prefix) (name text : Str) : Prop :=
  toLowerCase (p.bars name) <:+: toLowerCase text

/-- The name is a value of the column, in either letter case. -/
def IsValue (p : Prefix) (name text : Str) : Prop :=
  if p.delimited then toLowerCase name ∈ innerParts ((toLowerCase text).splitOn '|')
  else toLowerCase text = toLowerCase name

variable {p : Prefix} {name text tok body s x : Str} {c : Char} {ws : List Str}

/-! ### The first token -/

/-- Neither a blank nor a token of its own. -/
def staysInToken (c : Char) : Bool := c ≠ ' ' && !isDelimiter c

lemma splitLoop_eq (builder s : Str) : ∃ ws,
    splitLoop builder s = (builder ++ s.takeWhile staysInToken) :: ws ∧
      ((∀ c ∈ s, staysInToken c = true) → ws = []) := by
  induction s generalizing builder with
  | nil => exact ⟨[], by simp [splitLoop], fun _ => rfl⟩
  | cons c s ih =>
    by_cases hc : staysInToken c = true
    · obtain ⟨ws, hsplit, hnil⟩ := ih (builder ++ [c])
      have hc' := hc
      simp only [staysInToken, Bool.and_eq_true, decide_eq_true_eq, Bool.not_eq_true'] at hc'
      refine ⟨ws, ?_, fun h => hnil fun d hd => h d (List.mem_cons_of_mem c hd)⟩
      rw [splitLoop, if_neg hc'.1, hc'.2, if_neg Bool.false_ne_true, hsplit,
        List.takeWhile_cons_of_pos hc, List.append_assoc]
      rfl
    · have hne : ∀ ws : List Str, (∀ d ∈ c :: s, staysInToken d = true) → ws = [] :=
        fun _ h => absurd (h c List.mem_cons_self) hc
      rw [splitLoop, List.takeWhile_cons_of_neg hc, List.append_nil]
      by_cases hblank : c = ' '
      · exact ⟨_, if_pos hblank, hne _⟩
      · have hdelimiter : isDelimiter c = true := by simpa [staysInToken, hblank] using hc
        exact ⟨_, by rw [if_neg hblank, if_pos hdelimiter], hne _⟩

lemma words_eq (h : trim (tok.takeWhile staysInToken) ≠ []) : ∃ ws,
    words tok = trim (tok.takeWhile staysInToken) :: ws ∧
      ((∀ c ∈ tok, staysInToken c = true) → ws = []) := by
  obtain ⟨ws, hsplit, hnil⟩ := splitLoop_eq [] tok
  refine ⟨(ws.map trim).filter (· ≠ []), ?_, fun hall => by rw [hnil hall]; rfl⟩
  rw [words, splitTokens, hsplit, List.map_cons, List.filter_cons_of_pos (by simpa using h)]
  rfl

/-- A text without blanks and with a character that is no part of a number. -/
lemma translatePieces_of_mem (hblank : ' ' ∉ tok) (hc : c ∈ tok) (hc' : isWhitespace c = false)
    (hnumeral : isNumeral c = false) :
    translatePieces tok = match whereLoop [] (words tok) with
      | .error s => [.sql s]
      | .ok ps => .sql selectWhere :: ps ++ [.sql " AND ExistOnHitomi=1".toList] := by
  have hmem : c ∈ trim (trim tok) := mem_trim hc' (mem_trim hc' hc)
  refine translatePieces_eq (List.ne_nil_of_mem hmem) (Option.eq_none_iff_forall_ne_some.mpr ?_)
  intro n hn
  have hfirst : firstWord tok = trim tok := by
    have hblank' : ' ' ∉ trim tok := fun h => hblank
      ((List.dropWhile_suffix _).subset ((List.rdropWhile_prefix _ _).subset h))
    rw [firstWord, List.splitOn_eq_singleton hblank', List.headD_cons]
  rw [hfirst] at hn
  exact Bool.false_ne_true (hnumeral.symm.trans (isNumeral_of_intTryParse hn c hmem))

/-! ### One condition -/

lemma Prefix.blank_notMem_column (p : Prefix) : ' ' ∉ p.column := by
  cases p <;> decide

/-- Behind the pieces of the first token stands no quote. -/
lemma head_ne_quote {is : List Item} {w : Str} (hw : w ≠ openParen)
    (his : items (w :: ws) = .token w :: is) :
    (render (is.flatMap Item.pieces) ++ " AND ExistOnHitomi=1".toList).head? ≠ some quote := by
  cases ws with
  | nil =>
    obtain rfl : is = [] := (List.cons.inj his).2.symm
    decide
  | cons next rest =>
    by_cases hor : isOr next = true
    · rw [items_or hw hor] at his
      obtain rfl := (List.cons.inj his).2
      exact fun h => absurd (Option.some.inj h) (by decide)
    by_cases hclose : next = closeParen
    · subst hclose
      rw [items_close hw] at his
      obtain rfl := (List.cons.inj his).2
      obtain ⟨is, hclosed⟩ := exists_items_cons closeParen rest
      have hpieces : (Item.token closeParen).pieces = [.sql closeParen] := by decide
      rw [hclosed, List.flatMap_cons, hpieces]
      exact fun h => absurd (Option.some.inj h) (by decide)
    · rw [items_and hw (Bool.eq_false_iff.mpr hor) hclose] at his
      obtain rfl := (List.cons.inj his).2
      exact fun h => absurd (Option.some.inj h) (by decide)

lemma like_eq : " LIKE '%".toList = ' ' :: "LIKE '%".toList := by decide

lemma percentQuote_eq : "%'".toList = ['%', quote] := by decide

/-- What stands in front of the query's last condition, behind the literal. -/
def Prefix.collation (p : Prefix) : Str := if p = .uploader then " COLLATE NOCASE".toList else []

/-- What stands behind the name of the column. -/
def afterColumn (p : Prefix) (body : Str) : Str :=
  ' ' :: ("LIKE '%".toList ++ (body ++ '%' :: quote ::
    (p.collation ++ " AND ExistOnHitomi=1".toList)))

lemma columnQuery_eq (p : Prefix) (body : Str) :
    columnQuery p body = selectWhere ++ (p.column ++ afterColumn p body) := by
  unfold columnQuery afterColumn
  rw [← Prefix.collation, like_eq, percentQuote_eq]
  generalize "LIKE '%".toList = like, " AND ExistOnHitomi=1".toList = exist
  simp only [List.append_assoc, List.cons_append, List.nil_append]

lemma columnQuery_injective : Function.Injective (columnQuery p) := by
  intro a b h
  rw [columnQuery_eq, columnQuery_eq, afterColumn, afterColumn] at h
  have h' := List.append_cancel_left (List.cons.inj
    (List.append_cancel_left (List.append_cancel_left h))).2
  exact List.append_cancel_right h'

lemma Prefix.head_column (p : Prefix) : p.column ≠ [] ∧ p.column.head? ≠ some 'E' := by
  cases p <;> decide

/-- A translation that ends early has no condition on a column. -/
lemma columnQuery_ne_of_error {i : Item} (h : i.error = some s) (p : Prefix) (body : Str) :
    s ≠ columnQuery p body := by
  rw [columnQuery_eq]
  intro heq
  rcases Item.error_eq_some h with rfl | rfl
  · exact absurd (List.append_eq_nil_iff.mp heq.symm).1 (by decide)
  · have hhead := congrArg List.head? (List.append_cancel_left heq)
    rw [List.head?_append_of_ne_nil _ p.head_column.1] at hhead
    exact p.head_column.2 hhead.symm

/-- A query with one condition is made of the clause of the first token and nothing else. -/
lemma exists_clause {w : Str}
    (hpieces : translatePieces tok = match whereLoop [] (words tok) with
      | .error s => [.sql s]
      | .ok ps => .sql selectWhere :: ps ++ [.sql " AND ExistOnHitomi=1".toList])
    (hwords : words tok = w :: ws) (hw : w ≠ openParen)
    (h : translate2query tok = columnQuery p body) :
    ∃ cl rest, readToken w = .ok cl ∧ rest.head? ≠ some quote ∧
      render cl.pieces ++ rest = p.column ++ afterColumn p body := by
  obtain ⟨is, his⟩ := exists_items_cons w ws
  rw [translate2query, hpieces, hwords, whereLoop_eq, emit] at h
  cases herror : (items (w :: ws)).findSome? Item.error with
  | some s =>
    obtain ⟨i, -, hi⟩ := List.exists_of_findSome?_eq_some herror
    rw [herror] at h
    refine absurd ?_ (columnQuery_ne_of_error hi p body)
    rw [← h]
    exact (List.append_nil s).symm
  | none =>
    rw [herror] at h
    cases hread : readToken w with
    | error s =>
      rw [his, List.findSome?_cons, Item.error, hread] at herror
      cases herror
    | ok cl =>
      refine ⟨cl, _, rfl, head_ne_quote hw his, ?_⟩
      have hitem : (Item.token w).pieces = cl.pieces := by rw [Item.pieces, hread]
      rw [his, List.flatMap_cons, hitem, columnQuery_eq] at h
      apply List.append_cancel_left
      rw [← h]
      simp only [render, List.nil_append, List.cons_append, List.flatMap_cons, List.flatMap_append,
        List.flatMap_nil, List.append_nil, List.append_assoc, Piece.text]

/-- A literal with paired quotes ends where the literal of the code ends. -/
lemma body_eq {P R C : Str} (hbody : paired body = true) (hle : P.length ≤ body.length)
    (hR : R.head? ≠ some quote) (h : P ++ '%' :: quote :: R = body ++ '%' :: quote :: C) :
    body = P := by
  have hpre : P <+: body := by
    refine List.prefix_of_prefix_length_le (List.prefix_append P ('%' :: quote :: R)) ?_ hle
    rw [h]
    exact List.prefix_append body _
  obtain ⟨X, rfl⟩ := hpre
  rw [List.append_assoc] at h
  have hX := List.append_cancel_left h
  cases X with
  | nil => exact List.append_nil P
  | cons c X =>
    obtain ⟨rfl, hquote⟩ := List.cons.inj hX
    cases X with
    | nil => exact absurd (List.cons.inj hquote).1 (by decide)
    | cons d X =>
      obtain ⟨rfl, rfl⟩ := List.cons.inj hquote
      -- the quote that ends the literal of the code would be the first one of a pair
      have hpaired : paired (quote :: X) = true := paired_of_append_cons (by decide) hbody
      cases X with
      | nil => cases hpaired
      | cons e X =>
        simp only [paired, if_true, Bool.and_eq_true, decide_eq_true_eq] at hpaired
        exact absurd (congrArg some hpaired.1) hR

/-- What is searched for of a text. -/
def Prefix.searched (p : Prefix) (x : Str) : Str :=
  if p = .uploader then x else underscoreToBlank x

lemma render_postfixPieces (p : Prefix) (val ss1 : Str) :
    render (p.postfixPieces val ss1) =
      p.bars (p.searched (if p = .male ∨ p = .female then val else ss1)) := by
  cases p <;> simp [Prefix.postfixPieces, render, Piece.text, Prefix.bars, Prefix.delimited,
    Prefix.searched]

lemma render_column (p : Prefix) (val ss1 rest : Str) :
    render (Clause.column false p val ss1).pieces ++ rest =
      p.column ++ ' ' :: ("LIKE '%".toList ++ (render (p.postfixPieces val ss1) ++ '%' :: quote ::
        (p.collation ++ rest))) := by
  rw [Clause.pieces, render_columnPieces, ← Prefix.collation, like_eq, percentQuote_eq]
  generalize "LIKE '%".toList = like
  simp only [Bool.false_eq_true, if_false, List.append_assoc, List.cons_append, List.nil_append,
    List.append_nil]

lemma render_title (negative : Bool) (val : Str) :
    ∃ s, render (Clause.title negative val).pieces = "Title".toList ++ ' ' :: s := by
  have hnegative : "Title NOT LIKE '%".toList = "Title".toList ++ ' ' :: "NOT LIKE '%".toList := by
    decide
  have hpositive : "Title LIKE '%".toList = "Title".toList ++ ' ' :: "LIKE '%".toList := by decide
  rw [Clause.pieces, render_titlePieces, hnegative, hpositive]
  generalize "Title".toList = title, "NOT LIKE '%".toList = notLike, "LIKE '%".toList = like
  cases negative <;> simp

/-- No title is asked for. -/
lemma title_ne (negative : Bool) (val rest : Str) :
    render (Clause.title negative val).pieces ++ rest ≠ p.column ++ afterColumn p body := by
  obtain ⟨s, hs⟩ := render_title negative val
  intro h
  rw [hs, List.append_assoc] at h
  have hcolumn := (eq_of_append_separator (by decide) p.blank_notMem_column h).1
  revert hcolumn
  cases p <;> decide

/-- A clause of a column is the condition when its column and the text that is searched for are. -/
lemma column_pieces_eq {q : Prefix} {val ss1 rest : Str} (hrest : rest.head? ≠ some quote)
    (hbody : paired body = true) (hle : (render (q.postfixPieces val ss1)).length ≤ body.length)
    (h : render (Clause.column false q val ss1).pieces ++ rest = p.column ++ afterColumn p body) :
    q.column = p.column ∧ body = render (q.postfixPieces val ss1) := by
  rw [render_column] at h
  obtain ⟨hcolumn, h⟩ := eq_of_append_separator q.blank_notMem_column p.blank_notMem_column h
  refine ⟨hcolumn, body_eq hbody hle ?_ (List.append_cancel_left h)⟩
  rw [Prefix.collation]
  split_ifs with hq
  · exact fun h => absurd (Option.some.inj h) (by decide)
  · exact hrest

lemma holds_columnExpr (p : Prefix) (body : Str) (row : Env) :
    (columnExpr false p body).Holds row ↔
      row p.column ≠ .null ∧ likeMatch (containsPattern body) (row p.column).toText = true := by
  have hcollated : (p.collated (.text (containsPattern body))).eval row =
      .text (containsPattern body) := by
    rw [Prefix.collated]
    split_ifs <;> rfl
  rw [columnExpr, if_neg Bool.false_ne_true, Expr.Holds, Expr.eval, hcollated, Value.truth_ofTruth]
  simp only [Expr.eval, BinaryOp.eval]
  cases row p.column <;> simp [likeTruth, Value.toText]

/-! ### The pattern -/

lemma Prefix.map_bars {g : Char → Char} (hg : g '|' = '|') (s : Str) :
    (p.bars s).map g = p.bars (s.map g) := by
  rw [bars, bars]
  split_ifs <;> simp [hg]

lemma Prefix.bars_injective : Function.Injective p.bars := by
  intro a b h
  rw [bars, bars] at h
  split_ifs at h
  · exact List.append_cancel_right (List.cons.inj h).2
  · exact h

lemma Prefix.length_bars_le_iff {a b : Str} :
    (p.bars a).length ≤ (p.bars b).length ↔ a.length ≤ b.length := by
  rw [bars, bars]
  split_ifs <;> simp

lemma Prefix.subset_bars (p : Prefix) (s : Str) : s ⊆ p.bars s := by
  rw [bars]
  split_ifs
  · exact fun c hc => List.mem_append_left _ (List.mem_cons_of_mem _ hc)
  · exact List.Subset.refl s

lemma Prefix.notMem_bars (hc : c ∉ name) (hbar : c ≠ '|') : c ∉ p.bars name := by
  rw [bars]
  split_ifs
  · simp [hc, hbar]
  · exact hc

lemma Prefix.length_searched (p : Prefix) (x : Str) : (p.searched x).length = x.length := by
  rw [searched, underscoreToBlank, replaceChar]
  split_ifs <;> simp

/-- A text in which the `%` of the pattern are left out and its `_` are filled. -/
lemma contains_fill {finds : Str → Prop}
    (h : ∀ text, likeMatch (containsPattern body) text = true → finds text) {g : Char → Char}
    (hg : ∀ c, c ≠ '_' → g c = c) : finds (((unpair body).filter (· ≠ '%')).map g) := by
  refine h _ ?_
  have hfill := likeMatch_fill hg (containsPattern body)
  rwa [containsPattern, List.cons_append, List.filter_cons_of_neg (by simp), List.filter_append,
    List.filter_cons_of_neg (by simp), List.filter_nil, List.append_nil] at hfill

lemma length_bars_le (h : ∀ text, likeMatch (containsPattern body) text = true →
    Contains p name text) :
    (p.bars name).length ≤ ((unpair body).filter (· ≠ '%')).length := by
  have hpart := contains_fill h (g := id) fun _ _ => rfl
  simpa [Contains, toLowerCase] using hpart.length_le

/-! ### Values of a column -/

lemma toLower_eq_bar_iff : c.toLower = '|' ↔ c = '|' := by
  constructor
  · intro h
    by_cases hupper : c.val ≥ 'A'.val ∧ c.val ≤ 'Z'.val
    · have hZ : c.val.toNat ≤ 90 := UInt32.le_iff_toNat_le.mp hupper.2
      have hcode : c.toLower.val.toNat = 124 := congrArg (fun d : Char => d.val.toNat) h
      have hval : c.toLower.val = c.val + 32 := congrArg Char.val (dif_pos hupper)
      rw [hval, UInt32.toNat_add, show (32 : UInt32).toNat = 32 from rfl] at hcode
      omega
    · exact (dif_neg hupper).symm.trans h
  · rintro rfl
    rfl

lemma bar_mem_toLowerCase_iff : '|' ∈ toLowerCase s ↔ '|' ∈ s := by
  simp [toLowerCase, toLower_eq_bar_iff]

lemma contains_iff : Contains p name text ↔ p.bars (toLowerCase name) <:+: toLowerCase text := by
  rw [Contains, toLowerCase, Prefix.map_bars rfl]
  rfl

lemma IsValue.contains (h : IsValue p name text) : Contains p name text := by
  rw [contains_iff, Prefix.bars]
  rw [IsValue] at h
  split_ifs at h ⊢ with hp
  · have hbar : '|' ∉ toLowerCase name :=
      notMem_of_mem_splitOn (List.mem_of_mem_tail (List.mem_of_mem_dropLast h))
    exact (infix_iff_mem_innerParts hbar).mpr h
  · rw [h]

/-- Only where bars stand around the values, and not in the name, is a name that is contained a
value. -/
lemma isValue_of_contains_iff : (∀ text, Contains p name text → IsValue p name text) ↔
    p.delimited = true ∧ '|' ∉ name := by
  constructor
  · intro h
    by_cases hp : p.delimited = true
    · refine ⟨hp, fun hbar => ?_⟩
      have hvalue := h (p.bars name) List.infix_rfl
      rw [IsValue, if_pos hp] at hvalue
      refine notMem_of_mem_splitOn (List.mem_of_mem_tail (List.mem_of_mem_dropLast hvalue)) ?_
      exact bar_mem_toLowerCase_iff.mpr hbar
    · have hcontains : Contains p name (name ++ ['x']) := by
        rw [Contains, Prefix.bars, if_neg hp, toLowerCase, toLowerCase, List.map_append]
        exact (List.prefix_append _ _).isInfix
      have hvalue := h _ hcontains
      rw [IsValue, if_neg hp] at hvalue
      simpa [toLowerCase] using congrArg List.length hvalue
  · rintro ⟨hp, hbar⟩ text h
    rw [contains_iff, Prefix.bars, if_pos hp] at h
    rw [IsValue, if_pos hp]
    exact (infix_iff_mem_innerParts fun hmem => hbar (bar_mem_toLowerCase_iff.mp hmem)).mp h

end Violet
