import Violet.Search.Translate
import Violet.Sql.Semantics

/-!
# The clauses of a translated text

The loop of `translate2query` emits one clause for each token that is not taken as a connective, and
chooses the connectives by looking one token ahead. `items` is that choice alone: the text of the
loop is the concatenation of the texts of its items. Each item is read by the SQL lexer and the SQL
parser on its own, and the readings compose.
-/

namespace Violet

open Dart Sql

/-! ### Items -/

inductive Item where
  | token (tok : Str)
  | and
  | or
  deriving DecidableEq, Repr

/-- The clauses and connectives that the loop emits. -/
def items : List Str → List Item
  | [] => []
  | [tok] => [.token tok]
  | tok :: next :: rest =>
    if tok = openParen then .token tok :: items (next :: rest)
    else if isOr next then .token tok :: .or :: items rest
    else if next ≠ closeParen then .token tok :: .and :: items (next :: rest)
    else .token tok :: items (next :: rest)

/-- The text with which the translation ends early at this item. -/
def Item.error : Item → Option Str
  | .token tok =>
    match readToken tok with
    | .error s => some s
    | .ok _ => none
  | .and | .or => none

def Item.pieces : Item → List Piece
  | .token tok =>
    match readToken tok with
    | .error _ => []
    | .ok cl => cl.pieces
  | .and => [.sql " AND ".toList]
  | .or => [.sql " OR ".toList]

section

variable {tok next : Str} {rest : List Str}

@[simp] lemma items_open : items (openParen :: next :: rest) =
    .token openParen :: items (next :: rest) := by simp [items]

lemma items_or (ht : tok ≠ openParen) (ho : isOr next = true) :
    items (tok :: next :: rest) = .token tok :: .or :: items rest := by simp [items, ht, ho]

lemma items_and (ht : tok ≠ openParen) (ho : isOr next = false) (hc : next ≠ closeParen) :
    items (tok :: next :: rest) = .token tok :: .and :: items (next :: rest) := by
  simp [items, ht, ho, hc]

lemma items_close (ht : tok ≠ openParen) :
    items (tok :: closeParen :: rest) = .token tok :: items (closeParen :: rest) := by
  have ho : isOr closeParen = false := by decide
  simp [items, ht, ho]

/-- The first token is emitted first. -/
lemma exists_items_cons (tok : Str) (rest : List Str) :
    ∃ is, items (tok :: rest) = .token tok :: is := by
  cases rest with
  | nil => exact ⟨[], rfl⟩
  | cons next rest =>
    simp only [items]
    split_ifs <;> exact ⟨_, rfl⟩

lemma items_ne_nil : items (tok :: rest) ≠ [] := by
  obtain ⟨is, h⟩ := exists_items_cons tok rest
  rw [h]
  exact List.cons_ne_nil _ _

end

/-- The pieces of the items, or the text of the first item that ends the translation. -/
def emit (acc : List Piece) (is : List Item) : Except Str (List Piece) :=
  match is.findSome? Item.error with
  | some s => .error s
  | none => .ok (acc ++ is.flatMap Item.pieces)

@[simp] lemma emit_nil (acc : List Piece) : emit acc [] = .ok acc := by simp [emit]

@[simp] lemma emit_and (acc : List Piece) (is : List Item) :
    emit acc (.and :: is) = emit (acc ++ [.sql " AND ".toList]) is := by
  simp [emit, List.findSome?_cons, Item.error, Item.pieces]

@[simp] lemma emit_or (acc : List Piece) (is : List Item) :
    emit acc (.or :: is) = emit (acc ++ [.sql " OR ".toList]) is := by
  simp [emit, List.findSome?_cons, Item.error, Item.pieces]

lemma emit_token_ok {tok : Str} {cl : Clause} (h : readToken tok = .ok cl) (acc : List Piece)
    (is : List Item) : emit acc (.token tok :: is) = emit (acc ++ cl.pieces) is := by
  simp [emit, Item.error, Item.pieces, h]

lemma emit_token_error {tok s : Str} (h : readToken tok = .error s) (acc : List Piece)
    (is : List Item) : emit acc (.token tok :: is) = .error s := by
  simp [emit, Item.error, h]

/-- The loop emits its items. -/
theorem whereLoop_eq (acc : List Piece) (ts : List Str) :
    whereLoop acc ts = emit acc (items ts) := by
  induction acc, ts using whereLoop.induct with
  | case1 acc => simp [whereLoop, items]
  | case2 acc tok =>
    cases h : readToken tok with
    | error s => simp [whereLoop, items, h, emit_token_error h, Except.map]
    | ok cl => simp [whereLoop, items, h, emit_token_ok h, Except.map]
  | case3 acc tok next rest s h =>
    obtain ⟨is, hi⟩ := exists_items_cons tok (next :: rest)
    simp only [whereLoop, h, hi, emit_token_error h]
  | case4 acc next rest cl acc' h ih =>
    simp only [whereLoop, h, if_true, items_open, emit_token_ok h]
    exact ih
  | case5 acc tok next rest cl h acc' htok hor ih =>
    simp only [whereLoop, h, htok, if_false, hor, if_true, items_or htok hor, emit_token_ok h,
      emit_or]
    exact ih
  | case6 acc tok next rest cl h acc' htok hor hnext ih =>
    simp only [whereLoop, h, htok, if_false, hor, Bool.false_eq_true, hnext, ne_eq,
      not_false_eq_true, if_true, items_and htok (Bool.eq_false_iff.mpr hor) hnext,
      emit_token_ok h, emit_and]
    exact ih
  | case7 acc tok next rest cl h acc' htok hor hnext ih =>
    obtain rfl : next = closeParen := not_not.mp hnext
    simp only [whereLoop, h, htok, if_false, hor, Bool.false_eq_true, ne_eq, not_true_eq_false,
      items_close htok, emit_token_ok h]
    exact ih

lemma mem_of_mem_items {tok : Str} {ts : List Str} (h : .token tok ∈ items ts) : tok ∈ ts := by
  induction ts using items.induct with
  | case1 => cases h
  | case2 => simpa [items] using h
  | case3 next rest ih =>
    rw [items_open, List.mem_cons, Item.token.injEq] at h
    exact h.elim (fun h => by simp [h]) fun h => List.mem_cons_of_mem _ (ih h)
  | case4 t next rest ht hor ih =>
    simp only [items_or ht hor, List.mem_cons, Item.token.injEq, reduceCtorEq, false_or] at h
    exact h.elim (fun h => by simp [h]) fun h => by simp [ih h]
  | case5 t next rest ht hor hnext ih =>
    simp only [items_and ht (Bool.eq_false_iff.mpr hor) hnext, List.mem_cons, Item.token.injEq,
      reduceCtorEq, false_or] at h
    exact h.elim (fun h => by simp [h]) fun h => List.mem_cons_of_mem _ (ih h)
  | case6 t next rest ht hor hnext ih =>
    obtain rfl : next = closeParen := not_not.mp hnext
    rw [items_close ht, List.mem_cons, Item.token.injEq] at h
    exact h.elim (fun h => by simp [h]) fun h => List.mem_cons_of_mem _ (ih h)

/-- Only connectives are left out. -/
lemma mem_items_of_mem {tok : Str} (hor : isOr tok = false) {ts : List Str} (h : tok ∈ ts) :
    .token tok ∈ items ts := by
  induction ts using items.induct with
  | case1 => cases h
  | case2 => simpa [items] using h
  | case3 next rest ih =>
    rw [items_open, List.mem_cons, Item.token.injEq]
    exact (List.mem_cons.mp h).imp_right ih
  | case4 t next rest ht hor' ih =>
    simp only [items_or ht hor', List.mem_cons, Item.token.injEq, reduceCtorEq, false_or]
    refine (List.mem_cons.mp h).imp_right fun h => ih ((List.mem_cons.mp h).resolve_left ?_)
    rintro rfl
    simp [hor] at hor'
  | case5 t next rest ht hor' hnext ih =>
    simp only [items_and ht (Bool.eq_false_iff.mpr hor') hnext, List.mem_cons, Item.token.injEq,
      reduceCtorEq, false_or]
    exact (List.mem_cons.mp h).imp_right ih
  | case6 t next rest ht hor' hnext ih =>
    obtain rfl : next = closeParen := not_not.mp hnext
    rw [items_close ht, List.mem_cons, Item.token.injEq]
    exact (List.mem_cons.mp h).imp_right ih

/-- A token with a character that is no letter of `or` is not a connective. -/
lemma isOr_eq_false_of_mem {tok : Str} {c : Char} (h : c ∈ tok)
    (hc : c.toLower ∉ "or".toList) : isOr tok = false := by
  rw [isOr, decide_eq_false_iff_not]
  intro heq
  exact hc (heq ▸ List.mem_map_of_mem h)

/-- The items end where an operand is needed: at the start, after an `or` or an opening
parenthesis. -/
def endsOpen (is : List Item) : Bool :=
  match is.getLast? with
  | some (.token tok) => tok = openParen
  | _ => true

@[simp] lemma endsOpen_nil : endsOpen [] = true := rfl

@[simp] lemma endsOpen_token (tok : Str) : endsOpen [.token tok] = decide (tok = openParen) := rfl

@[simp] lemma endsOpen_or : endsOpen [.or] = true := rfl

lemma endsOpen_cons (i : Item) {is : List Item} (h : is ≠ []) :
    endsOpen (i :: is) = endsOpen is := by
  rw [endsOpen, List.getLast?_cons_of_ne_nil h, endsOpen]

/-- The items of a longer token list. -/
lemma items_append (as : List Str) (b : Str) (bs : List Str) :
    items (as ++ b :: bs) = items as ++
      (if endsOpen (items as) then items (b :: bs)
        else if isOr b then .or :: items bs
        else if b ≠ closeParen then .and :: items (b :: bs)
        else items (b :: bs)) := by
  induction as using items.induct with
  | case1 => simp [items]
  | case2 tok =>
    by_cases h : tok = openParen
    · simp [items, h]
    · simp only [List.cons_append, List.nil_append, items, h, if_false, endsOpen_token,
        decide_false,
        Bool.false_eq_true]
      split_ifs <;> rfl
  | case3 next rest ih =>
    simp only [List.cons_append] at ih ⊢
    simp [ih, endsOpen_cons _ items_ne_nil]
  | case4 tok next rest htok hor ih =>
    rw [items_or htok hor, List.cons_append, List.cons_append, items_or htok hor, ih]
    cases rest with
    | nil => simp [items, endsOpen_cons]
    | cons r rest => simp [endsOpen_cons _ items_ne_nil, endsOpen_cons]
  | case5 tok next rest htok hor hnext ih =>
    simp only [List.cons_append] at ih ⊢
    rw [items_and htok (Bool.eq_false_iff.mpr hor) hnext,
      items_and htok (Bool.eq_false_iff.mpr hor) hnext, ih]
    simp [endsOpen_cons _ items_ne_nil, endsOpen_cons]
  | case6 tok next rest htok hor hnext ih =>
    obtain rfl : next = closeParen := not_not.mp hnext
    simp only [List.cons_append] at ih ⊢
    rw [items_close htok, items_close htok, ih]
    simp [endsOpen_cons _ items_ne_nil]

end Violet
