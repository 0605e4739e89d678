import Mathlib.Data.List.TakeWhile
import Violet.Sql.Parser

/-!
# SQL selections

What stands behind the `WHERE` of a selection: a condition, and the order and the page that are
asked for. All of it is one text, so a comment that the condition leaves open takes in the rest.
-/

namespace Sql

/-- The word, in any letter case. -/
def Token.isWord (k : List Char) : Token → Bool
  | .name w => w.map Char.toUpper = k
  | _ => false

/-- `ORDER` ends a condition. -/
def Token.isOrder (t : Token) : Bool := t.isWord "ORDER".toList

structure Page where
  order : List Token
  limit : ℕ
  offset : ℕ
  deriving DecidableEq, Repr

/-- The order and the page behind a condition. -/
def readPage (ts : List Token) : Option Page :=
  match ts.reverse with
  | .number offset :: o :: .number limit :: l :: order =>
    if o.isWord "OFFSET".toList && l.isWord "LIMIT".toList then
      some ⟨order.reverse, limit, offset⟩
    else none
  | _ => none

/-- What stands behind a condition: nothing, or an order and a page. -/
def readTail : List Token → Option (Option Page)
  | [] => some none
  | t :: ts => (readPage (t :: ts)).map some

structure Selection where
  cond : Expr
  page : Option Page
  deriving DecidableEq, Repr

def readSelection (ts : List Token) : Option Selection :=
  (parse (ts.takeWhile fun t => !t.isOrder)).bind fun e =>
    (readTail (ts.dropWhile fun t => !t.isOrder)).map fun page => ⟨e, page⟩

/-- The tokens of an order and a page. -/
def pageTokens (order : List Token) (limit offset : ℕ) : List Token :=
  order ++ [.name "LIMIT".toList, .number limit, .name "OFFSET".toList, .number offset]

lemma readPage_pageTokens (order : List Token) (limit offset : ℕ) :
    readPage (pageTokens order limit offset) = some ⟨order, limit, offset⟩ := by
  have hreverse : (pageTokens order limit offset).reverse =
      .number offset :: .name "OFFSET".toList :: .number limit :: .name "LIMIT".toList ::
        order.reverse := by
    rw [pageTokens, List.reverse_append]
    rfl
  have hwords : (Token.isWord "OFFSET".toList (.name "OFFSET".toList) &&
      Token.isWord "LIMIT".toList (.name "LIMIT".toList)) = true := by decide
  rw [readPage, hreverse]
  simp only [hwords, if_true, List.reverse_reverse]

variable {ts : List Token}

/-- A condition alone. -/
lemma readSelection_self (h : ∀ t ∈ ts, t.isOrder = false) :
    readSelection ts = (parse ts).map (⟨·, none⟩) := by
  have hcond : ∀ t ∈ ts, (!t.isOrder) = true := fun t ht => by rw [h t ht]; rfl
  rw [readSelection, List.takeWhile_eq_self_iff.mpr hcond, List.dropWhile_eq_nil_iff.mpr hcond]
  cases parse ts <;> rfl

/-- A condition with a page behind it. -/
lemma readSelection_append (h : ∀ t ∈ ts, t.isOrder = false) {t : Token} (ht : t.isOrder = true)
    (order : List Token) (limit offset : ℕ) :
    readSelection (ts ++ pageTokens (t :: order) limit offset) =
      (parse ts).map (⟨·, some ⟨t :: order, limit, offset⟩⟩) := by
  have hcond : ∀ t ∈ ts, (!t.isOrder) = true := fun t ht => by rw [h t ht]; rfl
  have htail : readTail (pageTokens (t :: order) limit offset) =
      some (some ⟨t :: order, limit, offset⟩) :=
    congrArg (Option.map some) (readPage_pageTokens (t :: order) limit offset)
  rw [readSelection, List.takeWhile_append_of_pos hcond, List.dropWhile_append_of_pos hcond,
    pageTokens, List.cons_append, List.takeWhile_cons_of_neg (by simp [ht]),
    List.dropWhile_cons_of_neg (by simp [ht]), List.append_nil, ← List.cons_append, ← pageTokens,
    htail]
  cases parse ts <;> rfl

end Sql
