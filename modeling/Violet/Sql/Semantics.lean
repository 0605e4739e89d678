import Violet.Sql.Parser

/-!
# The meaning of SQL conditions

A condition is evaluated on a row to a value. Comparisons with `NULL` give `NULL`; the connectives
follow the three-valued logic of SQL; a row is selected when its condition is true, not when it is
`NULL`.
-/

namespace Sql

inductive Value where
  | null
  | int (n : ℤ)
  | text (s : List Char)
  deriving DecidableEq, Repr

/-- A row, as the value of each column name. -/
abbrev Env := List Char → Value

/-! ### Truth values -/

/-- Does the number that a text begins with differ from zero? -/
def nonzeroText (s : List Char) : Bool :=
  let s := s.dropWhile isBlank
  let s := match s with
    | '-' :: s | '+' :: s => s
    | s => s
  let whole := s.takeWhile Char.isDigit
  let fraction := match s.dropWhile Char.isDigit with
    | '.' :: s => s.takeWhile Char.isDigit
    | _ => []
  (whole ++ fraction).any (· ≠ '0')

/-- The truth of a value; `none` is `NULL`. -/
def Value.truth : Value → Option Bool
  | .null => none
  | .int n => some (n ≠ 0)
  | .text s => some (nonzeroText s)

def Value.ofTruth : Option Bool → Value
  | none => .null
  | some b => .int (if b then 1 else 0)

@[simp] lemma Value.truth_ofTruth (t : Option Bool) : (Value.ofTruth t).truth = t := by
  rcases t with _ | (_ | _) <;> rfl

@[simp] lemma Value.ofTruth_eq_one {t : Option Bool} :
    Value.ofTruth t = .int 1 ↔ t = some true := by
  rcases t with _ | (_ | _) <;> simp [Value.ofTruth]

def andTruth : Option Bool → Option Bool → Option Bool
  | some false, _ | _, some false => some false
  | some true, some true => some true
  | _, _ => none

def orTruth : Option Bool → Option Bool → Option Bool
  | some true, _ | _, some true => some true
  | some false, some false => some false
  | _, _ => none

@[simp] lemma andTruth_eq_true {a b : Option Bool} :
    andTruth a b = some true ↔ a = some true ∧ b = some true := by
  rcases a with _ | (_ | _) <;> rcases b with _ | (_ | _) <;> simp [andTruth]

@[simp] lemma orTruth_eq_true {a b : Option Bool} :
    orTruth a b = some true ↔ a = some true ∨ b = some true := by
  rcases a with _ | (_ | _) <;> rcases b with _ | (_ | _) <;> simp [orTruth]

/-! ### LIKE -/

/-- Does `f` hold of the text or of one of its tails? -/
def anyTail (f : List Char → Bool) : List Char → Bool
  | [] => f []
  | c :: s => f (c :: s) || anyTail f s

/-- `LIKE`: `%` stands for any text, `_` for any character, and letters match in either case. -/
def likeMatch : List Char → List Char → Bool
  | [], s => s.isEmpty
  | c :: p, s =>
    if c = '%' then anyTail (likeMatch p) s
    else match s with
      | [] => false
      | d :: s => (c = '_' || c.toLower = d.toLower) && likeMatch p s

/-! ### Evaluation -/

def Value.toText : Value → List Char
  | .null => []
  | .int (.ofNat n) => Nat.toDigits 10 n
  | .int (.negSucc n) => '-' :: Nat.toDigits 10 (n + 1)
  | .text s => s

/-- `LIKE`, with `NULL` for a `NULL` operand. -/
def likeTruth : Value → Value → Option Bool
  | .null, _ | _, .null => none
  | v, p => some (likeMatch p.toText v.toText)

def Value.lt : Value → Value → Bool
  | .int a, .int b => a < b
  | .int _, .text _ => true
  | .text a, .text b => a < b
  | _, _ => false

/-- A comparison, with `NULL` for a `NULL` operand. -/
def compareTruth (r : Value → Value → Bool) : Value → Value → Option Bool
  | .null, _ | _, .null => none
  | a, b => some (r a b)

def BinaryOp.eval : BinaryOp → Value → Value → Option Bool
  | .or, a, b => orTruth a.truth b.truth
  | .and, a, b => andTruth a.truth b.truth
  | .is, a, b => some (a = b)
  | .isNot, a, b => some (a ≠ b)
  | .like, a, b => likeTruth a b
  | .notLike, a, b => (likeTruth a b).map fun t => !t
  | .eq, a, b => compareTruth (fun a b => a = b) a b
  | .lt, a, b => compareTruth Value.lt a b
  | .gt, a, b => compareTruth (fun a b => Value.lt b a) a b

def Expr.eval (row : Env) : Expr → Value
  | .column w => row w
  | .text s => .text s
  | .number n => .int n
  | .binary op a b => .ofTruth (op.eval (a.eval row) (b.eval row))
  | .not a => .ofTruth ((a.eval row).truth.map fun t => !t)
  | .collate a _ => a.eval row

/-- The row satisfies the condition. -/
def Expr.Holds (e : Expr) (row : Env) : Prop := (e.eval row).truth = some true

instance (e : Expr) (row : Env) : Decidable (e.Holds row) :=
  inferInstanceAs (Decidable (_ = _))

section

variable {row : Env} {a b : Expr}

@[simp] lemma Expr.holds_and :
    (Expr.binary .and a b).Holds row ↔ a.Holds row ∧ b.Holds row := by
  simp [Holds, eval, BinaryOp.eval]

@[simp] lemma Expr.holds_or :
    (Expr.binary .or a b).Holds row ↔ a.Holds row ∨ b.Holds row := by
  simp [Holds, eval, BinaryOp.eval]

/-- `a IS NOT 1` holds when the condition `a` does not: a `NULL` condition counts as false. -/
lemma Expr.holds_isNot_one {op : BinaryOp} {c d : Expr} (hb : b.eval row = .int 1) :
    (Expr.binary .isNot (.binary op c d) b).Holds row ↔ ¬ (Expr.binary op c d).Holds row := by
  have eval_isNot (u v : Value) : BinaryOp.isNot.eval u v = some (decide (u ≠ v)) := rfl
  simp only [Holds, eval, hb, Value.truth_ofTruth, eval_isNot, Value.ofTruth_eq_one, ne_eq,
    Option.some.injEq, decide_eq_true_eq]

end

/-! ### Columns -/

/-- The names that an expression reads. -/
def Expr.columns : Expr → List (List Char)
  | .column w => [w]
  | .text _ | .number _ => []
  | .binary _ a b => a.columns ++ b.columns
  | .not a | .collate a _ => a.columns

/-- An expression depends on the columns it reads and on nothing else of the row. -/
lemma Expr.eval_congr {r r' : Env} {e : Expr} (h : ∀ w ∈ e.columns, r w = r' w) :
    e.eval r = e.eval r' := by
  induction e with
  | column w => exact h w (by simp [columns])
  | text s => rfl
  | number n => rfl
  | binary op a b iha ihb =>
    simp only [columns, List.mem_append] at h
    rw [eval, eval, iha fun w hw => h w (.inl hw), ihb fun w hw => h w (.inr hw)]
  | not a ih => rw [eval, eval, ih h]
  | collate a s ih => rw [eval, eval, ih h]

lemma Expr.holds_congr {r r' : Env} {e : Expr} (h : ∀ w ∈ e.columns, r w = r' w) :
    e.Holds r ↔ e.Holds r' := by
  rw [Holds, Holds, eval_congr h]

end Sql
