import Violet.Sql.Lexer
import Mathlib.Order.Basic
import Mathlib.Order.Nat

/-!
# SQL conditions

The conditions of SQLite and their reading under its operator precedence: `COLLATE` binds tightest,
then the order comparisons, then `=`, `IS`, `LIKE` and their negations, then `NOT`, `AND`, `OR`.
Binary operators associate to the left.

The parser is a precedence machine. It keeps, for each open parenthesis, the operands that wait for
their right neighbour; an operator first reduces what binds at least as tightly as itself. Being a
machine over tokens, it reads a concatenation piece by piece.
-/

namespace Sql

inductive BinaryOp where
  | or
  | and
  | is
  | isNot
  | like
  | notLike
  | eq
  | lt
  | gt
  deriving DecidableEq, Repr

def BinaryOp.prec : BinaryOp → ℕ
  | .or => 1
  | .and => 2
  | .is | .isNot | .like | .notLike | .eq => 4
  | .lt | .gt => 5

/-- The precedence of the prefix operator `NOT`. -/
def notPrec : ℕ := 3

inductive Expr where
  | column (w : List Char)
  | text (s : List Char)
  | number (n : ℤ)
  | binary (op : BinaryOp) (a b : Expr)
  | not (a : Expr)
  | collate (a : Expr) (sequence : List Char)
  deriving DecidableEq, Repr

/-- An operator that waits for its right operand. -/
inductive Pending where
  | binary (op : BinaryOp) (left : Expr)
  | not
  deriving DecidableEq, Repr

/-- Apply the pending operators of precedence `p` and more to the operand `e`, innermost first. -/
def reduce (p : ℕ) : List Pending → Expr → List Pending × Expr
  | [], e => ([], e)
  | .binary op left :: pend, e =>
    if p ≤ op.prec then reduce p pend (.binary op left e) else (.binary op left :: pend, e)
  | .not :: pend, e => if p ≤ notPrec then reduce p pend (.not e) else (.not :: pend, e)

/-- What the parser has just read: it needs an operand, has one, or is inside an operator or
operand of several tokens. -/
inductive ParseMode where
  | need
  | minus
  | got (e : Expr)
  | gotNot (e : Expr)
  | gotIs (e : Expr)
  | gotCollate (e : Expr)
  deriving DecidableEq, Repr

structure ParseState where
  /-- The pending operators around each open parenthesis. -/
  stack : List (List Pending)
  pend : List Pending
  mode : ParseMode
  deriving DecidableEq, Repr

def ParseState.init : ParseState := ⟨[], [], .need⟩

/-- A binary operator after the operand `e`. -/
def ParseState.operator (s : ParseState) (op : BinaryOp) (e : Expr) : ParseState :=
  let r := reduce op.prec s.pend e
  { s with pend := .binary op r.2 :: r.1, mode := .need }

/-- A token where an operand is needed. -/
def ParseState.operand (s : ParseState) : Token → Option ParseState
  | .name w => some { s with mode := .got (.column w) }
  | .text t => some { s with mode := .got (.text t) }
  | .number n => some { s with mode := .got (.number n) }
  | .keyword .not => some { s with pend := .not :: s.pend, mode := .need }
  | .symbol c =>
    if c = '(' then some ⟨s.pend :: s.stack, [], .need⟩
    else if c = '-' then some { s with mode := .minus }
    else none
  | _ => none

def ParseState.step (s : ParseState) (t : Token) : Option ParseState :=
  match s.mode with
  | .need => s.operand t
  | .minus =>
    match t with
    | .number n => some { s with mode := .got (.number (-n)) }
    | _ => none
  | .got e =>
    match t with
    | .keyword .or => some (s.operator .or e)
    | .keyword .and => some (s.operator .and e)
    | .keyword .like => some (s.operator .like e)
    | .keyword .is => some { s with mode := .gotIs e }
    | .keyword .not => some { s with mode := .gotNot e }
    | .keyword .collate => some { s with mode := .gotCollate e }
    | .symbol c =>
      if c = '=' then some (s.operator .eq e)
      else if c = '<' then some (s.operator .lt e)
      else if c = '>' then some (s.operator .gt e)
      else if c = ')' then
        match s.stack with
        | [] => none
        | pend :: stack => some ⟨stack, pend, .got (reduce 0 s.pend e).2⟩
      else none
    | _ => none
  | .gotNot e =>
    match t with
    | .keyword .like => some (s.operator .notLike e)
    | _ => none
  | .gotIs e =>
    match t with
    | .keyword .not => some (s.operator .isNot e)
    | _ => (s.operator .is e).operand t
  | .gotCollate e =>
    match t with
    | .name w => some { s with mode := .got (.collate e w) }
    | _ => none

/-- Read tokens from a state. -/
def ParseState.read (s : ParseState) (ts : List Token) : Option ParseState :=
  ts.foldlM ParseState.step s

/-- The expression at the end of the tokens, when every parenthesis is closed. -/
def ParseState.result (s : ParseState) : Option Expr :=
  match s.stack, s.mode with
  | [], .got e => some (reduce 0 s.pend e).2
  | _, _ => none

def parse (ts : List Token) : Option Expr :=
  (ParseState.init.read ts).bind ParseState.result

/-- The condition that a text is read as. -/
def readCondition (cs : List Char) : Option Expr := (lex cs).bind parse

@[simp] lemma ParseState.read_nil (s : ParseState) : s.read [] = some s := rfl

@[simp] lemma ParseState.read_cons (s : ParseState) (t : Token) (ts : List Token) :
    s.read (t :: ts) = (s.step t).bind (·.read ts) := rfl

@[simp] lemma ParseState.read_append (s : ParseState) (as bs : List Token) :
    s.read (as ++ bs) = (s.read as).bind (·.read bs) := List.foldlM_append

/-! ### Pending operators -/

@[simp] lemma reduce_nil (p : ℕ) (e : Expr) : reduce p [] e = ([], e) := rfl

lemma reduce_binary (p : ℕ) (op : BinaryOp) (left : Expr) (pend : List Pending) (e : Expr) :
    reduce p (.binary op left :: pend) e =
      if p ≤ op.prec then reduce p pend (.binary op left e)
      else (.binary op left :: pend, e) := rfl

/-- Nothing pending binds as tightly as `p`. -/
def Loose (p : ℕ) (pend : List Pending) : Prop := ∀ e, reduce p pend e = (pend, e)

@[simp] lemma loose_nil (p : ℕ) : Loose p [] := fun _ => rfl

lemma loose_binary {p : ℕ} {op : BinaryOp} (h : op.prec < p) (left : Expr)
    (pend : List Pending) : Loose p (.binary op left :: pend) := fun e => by
  rw [reduce_binary, if_neg (by omega)]

lemma Loose.mono {p q : ℕ} {pend : List Pending} (h : Loose p pend) (hq : p ≤ q) :
    Loose q pend := fun e => by
  have length_le (x : Expr) : ∀ l, (reduce p l x).1.length ≤ l.length := fun l => by
    induction l generalizing x with
    | nil => simp
    | cons a l ih =>
      cases a <;> simp only [reduce] <;> split_ifs <;> simp only [List.length_cons, le_refl] <;>
        exact Nat.le_succ_of_le (ih _)
  cases pend with
  | nil => rfl
  | cons a l =>
    have ha := h e
    cases a with
    | binary op left =>
      have hp : ¬ p ≤ op.prec := fun hp => by
        rw [reduce_binary, if_pos hp] at ha
        have := length_le (.binary op left e) l
        rw [ha, List.length_cons] at this
        omega
      rw [reduce_binary, if_neg (by omega)]
    | not =>
      have hp : ¬ p ≤ notPrec := fun hp => by
        simp only [reduce, if_pos hp] at ha
        have := length_le (.not e) l
        rw [ha, List.length_cons] at this
        omega
      simp only [reduce, if_neg (show ¬ q ≤ notPrec by omega)]

/-- The state has read an operand that, for every operator of precedence at most `p`, is the
operand `e` under the pending operators `pend`. -/
structure ParseState.Carries (s : ParseState) (p : ℕ) (stack : List (List Pending))
    (pend : List Pending) (e : Expr) : Prop where
  stack_eq : s.stack = stack
  exists_operand : ∃ x, s.mode = .got x ∧ ∀ q ≤ p, reduce q s.pend x = reduce q pend e

namespace ParseState

variable {s : ParseState} {p : ℕ} {stack : List (List Pending)} {pend : List Pending} {e : Expr}

lemma carries_got (p : ℕ) (stack : List (List Pending)) (pend : List Pending) (e : Expr) :
    (⟨stack, pend, .got e⟩ : ParseState).Carries p stack pend e :=
  ⟨rfl, e, rfl, fun _ _ => rfl⟩

lemma Carries.mono {q : ℕ} (h : s.Carries p stack pend e) (hq : q ≤ p) :
    s.Carries q stack pend e := by
  obtain ⟨hs, x, hm, hx⟩ := h
  exact ⟨hs, x, hm, fun r hr => hx r (Nat.le_trans hr hq)⟩

/-- A pending operator that binds at least as tightly as `p` may be taken as applied. -/
lemma Carries.apply {op : BinaryOp} {left : Expr}
    (h : s.Carries p stack (.binary op left :: pend) e)
    (hp : p ≤ op.prec) : s.Carries p stack pend (.binary op left e) := by
  obtain ⟨hs, x, hm, hx⟩ := h
  refine ⟨hs, x, hm, fun q hq => ?_⟩
  rw [hx q hq, reduce_binary, if_pos (by omega)]

lemma Carries.step_or (h : s.Carries p stack pend e) (hp : 1 ≤ p) :
    s.step (.keyword .or) = some (operator ⟨stack, pend, .got e⟩ .or e) := by
  obtain ⟨rfl, x, hm, hx⟩ := h
  simp [step, hm, operator, hx 1 hp, BinaryOp.prec]

lemma Carries.step_and (h : s.Carries p stack pend e) (hp : 2 ≤ p) :
    s.step (.keyword .and) = some (operator ⟨stack, pend, .got e⟩ .and e) := by
  obtain ⟨rfl, x, hm, hx⟩ := h
  simp [step, hm, operator, hx 2 hp, BinaryOp.prec]

lemma Carries.step_close {outer : List Pending} (h : s.Carries p (outer :: stack) pend e) :
    s.step (.symbol ')') = some ⟨stack, outer, .got (reduce 0 pend e).2⟩ := by
  obtain ⟨hs, x, hm, hx⟩ := h
  simp [step, hm, hs, hx 0 (Nat.zero_le p)]

lemma Carries.step_close_nil (h : s.Carries p [] pend e) : s.step (.symbol ')') = none := by
  obtain ⟨hs, x, hm, -⟩ := h
  simp [step, hm, hs]

lemma Carries.result_eq (h : s.Carries p [] pend e) : s.result = some (reduce 0 pend e).2 := by
  obtain ⟨hs, x, hm, hx⟩ := h
  simp [result, hm, hs, hx 0 (Nat.zero_le p)]

lemma Carries.isSome_result (h : s.Carries p stack pend e) :
    s.result.isSome = true ↔ stack = [] := by
  obtain ⟨rfl, x, hm, -⟩ := h
  cases hs : s.stack <;> simp [result, hm, hs]

/-- `AND` after an operand under loose pending operators. -/
lemma Carries.step_and_of_loose (h : s.Carries p stack pend e) (hp : 2 ≤ p) (hl : Loose 2 pend) :
    s.step (.keyword .and) = some ⟨stack, .binary .and e :: pend, .need⟩ := by
  rw [h.step_and hp]
  simp [operator, BinaryOp.prec, hl e]

lemma Carries.step_or_of_loose (h : s.Carries p stack pend e) (hp : 1 ≤ p) (hl : Loose 1 pend) :
    s.step (.keyword .or) = some ⟨stack, .binary .or e :: pend, .need⟩ := by
  rw [h.step_or hp]
  simp [operator, BinaryOp.prec, hl e]

lemma step_open (stack : List (List Pending)) (pend : List Pending) :
    step ⟨stack, pend, .need⟩ (.symbol '(') = some ⟨pend :: stack, [], .need⟩ := rfl

/-- A parser that has an operand, or needs one, refuses a comparison sign or a closing parenthesis
where an operand is needed. -/
lemma step_symbol_of_need {c : Char} (hopen : c ≠ '(') (hminus : c ≠ '-') :
    step ⟨stack, pend, .need⟩ (.symbol c) = none := by
  simp [step, operand, hopen, hminus]

end ParseState

end Sql
