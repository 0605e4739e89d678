import Violet.Sql.Semantics

/-!
# Alternatives of a condition

`OR` binds loosest, so whatever stands in front of an `OR` outside all parentheses is an alternative
of the whole condition, however the text goes on. And a condition reads no column that its text does
not name.
-/

namespace Sql

/-! ### Alternatives -/

/-- The outermost pending operator is an `OR` with a left operand that is true wherever `e` is. -/
def Alternative (e : Expr) (pend : List Pending) : Prop :=
  ∃ l a, pend = l ++ [.binary .or a] ∧ ∀ row, e.Holds row → a.Holds row

variable {e x : Expr} {s s' : ParseState} {t : Token}

lemma Alternative.cons {pend : List Pending} (h : Alternative e pend) (p : Pending) :
    Alternative e (p :: pend) := by
  obtain ⟨l, a, rfl, ha⟩ := h
  exact ⟨p :: l, a, rfl, ha⟩

/-- An alternative stays pending, or it becomes one of the operand. -/
lemma Alternative.reduce {pend : List Pending} (h : Alternative e pend) (p : ℕ) (x : Expr) :
    Alternative e (reduce p pend x).1 ∨
      (reduce p pend x).1 = [] ∧ p ≤ 1 ∧ ∀ row, e.Holds row → (reduce p pend x).2.Holds row := by
  obtain ⟨l, a, rfl, ha⟩ := h
  induction l generalizing x with
  | nil =>
    rw [List.nil_append, reduce_binary]
    split_ifs with hp
    · exact .inr ⟨rfl, hp, fun row hrow => Expr.holds_or.mpr (.inl (ha row hrow))⟩
    · exact .inl ⟨[], a, rfl, ha⟩
  | cons q l ih =>
    cases q with
    | binary op left =>
      rw [List.cons_append, reduce_binary]
      split_ifs with hp
      · exact ih _
      · exact .inl ⟨.binary op left :: l, a, rfl, ha⟩
    | not =>
      rw [List.cons_append, Sql.reduce]
      split_ifs with hp
      · exact ih _
      · exact .inl ⟨.not :: l, a, rfl, ha⟩

lemma reduce_zero_fst (l : List Pending) (x : Expr) : (reduce 0 l x).1 = [] := by
  induction l generalizing x with
  | nil => rfl
  | cons p l ih => cases p <;> exact ih _

/-- All operators bind at least as tightly as `OR`. -/
lemma reduce_one (l : List Pending) (x : Expr) : reduce 1 l x = reduce 0 l x := by
  induction l generalizing x with
  | nil => rfl
  | cons p l ih =>
    cases p with
    | binary op left =>
      have hop : 1 ≤ op.prec := by cases op <;> decide
      rw [reduce_binary, reduce_binary, if_pos hop, if_pos (Nat.zero_le _), ih]
    | not => exact ih _

namespace ParseState

/-- The operators that are pending outside all parentheses. -/
def base (s : ParseState) : List Pending := s.stack.getLast?.getD s.pend

/-- Whatever is still read, `e` is an alternative of the condition. -/
def Offers (s : ParseState) (e : Expr) : Prop := Alternative e s.base

lemma base_cons (q p : List Pending) (stack : List (List Pending)) (m n : ParseMode) :
    base ⟨q :: stack, p, m⟩ = base ⟨stack, q, n⟩ := by
  cases stack <;> simp [base, List.getLast?_cons]

lemma Offers.of_pend (h : s.Offers e) {pend : List Pending} {m : ParseMode}
    (hp : Alternative e s.pend → Alternative e pend) : Offers ⟨s.stack, pend, m⟩ e := by
  obtain ⟨stack, p, n⟩ := s
  cases stack with
  | nil => exact hp h
  | cons q stack =>
    rw [Offers, base_cons q _ stack n .need] at h
    rw [Offers, base_cons q _ stack m .need]
    exact h

lemma Offers.operator (h : s.Offers e) (op : BinaryOp) (x : Expr) :
    (s.operator op x).Offers e := by
  refine h.of_pend fun hp => ?_
  rcases hp.reduce op.prec x with h1 | ⟨hnil, hop, hr⟩
  · exact h1.cons _
  · have hor : op = .or := by
      cases op <;> first | rfl | exact absurd hop (by decide)
    subst hor
    rw [hnil]
    exact ⟨[], _, rfl, hr⟩

lemma Offers.operand (h : s.Offers e) (hs : s.operand t = some s') : s'.Offers e := by
  obtain ⟨stack, pend, m⟩ := s
  cases t with
  | symbol c =>
    simp only [ParseState.operand] at hs
    split_ifs at hs <;> cases hs
    · rw [Offers, base_cons pend [] stack .need m]
      exact h
    · exact h.of_pend id
  | keyword k =>
    cases k <;> cases hs
    exact h.of_pend fun hp => hp.cons _
  | name w => cases hs; exact h.of_pend id
  | text w => cases hs; exact h.of_pend id
  | number n => cases hs; exact h.of_pend id
  | illegal => cases hs

lemma Offers.step (h : s.Offers e) (hs : s.step t = some s') : s'.Offers e := by
  obtain ⟨stack, pend, mode⟩ := s
  have moved (m : ParseMode) : Offers ⟨stack, pend, m⟩ e := h.of_pend id
  cases mode with
  | need => exact h.operand hs
  | minus =>
    cases t <;> cases hs
    exact moved _
  | got x =>
    cases t with
    | keyword k =>
      cases k <;> cases hs
      exacts [h.operator _ _, h.operator _ _, moved _, h.operator _ _, moved _, moved _]
    | symbol c =>
      simp only [ParseState.step] at hs
      split_ifs at hs
      · cases hs; exact h.operator _ _
      · cases hs; exact h.operator _ _
      · cases hs; exact h.operator _ _
      · cases stack with
        | nil => cases hs
        | cons q stack =>
          cases hs
          rw [Offers, base_cons q _ stack _ (.got (Sql.reduce 0 pend x).2)] at h
          exact h
    | _ => cases hs
  | gotNot x =>
    cases t with
    | keyword k =>
      cases k <;> cases hs
      exact h.operator _ _
    | _ => cases hs
  | gotIs x =>
    have hother (ho : (ParseState.operator ⟨stack, pend, .gotIs x⟩ .is x).operand t = some s') :
        s'.Offers e := (h.operator _ _).operand ho
    cases t with
    | keyword k =>
      cases k with
      | not => cases hs; exact h.operator _ _
      | _ => exact hother hs
    | _ => exact hother hs
  | gotCollate x =>
    cases t <;> cases hs
    exact moved _

lemma Offers.read {ts : List Token} (h : s.Offers e) (hs : s.read ts = some s') :
    s'.Offers e := by
  induction ts generalizing s with
  | nil => cases hs; exact h
  | cons t ts ih =>
    obtain ⟨s₁, hstep, hrest⟩ := Option.bind_eq_some_iff.mp hs
    exact ih (h.step hstep) hrest

lemma exists_of_result {E : Expr} (h : s.result = some E) :
    s.stack = [] ∧ ∃ x, s.mode = .got x ∧ E = (Sql.reduce 0 s.pend x).2 := by
  obtain ⟨stack, pend, mode⟩ := s
  cases stack <;> cases mode <;> cases h
  exact ⟨rfl, _, rfl, rfl⟩

lemma Offers.result {E : Expr} (h : s.Offers e) (hs : s.result = some E) (row : Env)
    (hrow : e.Holds row) : E.Holds row := by
  obtain ⟨hstack, x, -, rfl⟩ := exists_of_result hs
  have hpend : Alternative e s.pend := by simpa [Offers, base, hstack] using h
  rcases hpend.reduce 0 x with ⟨l, a, heq, -⟩ | ⟨-, -, hr⟩
  · simp [reduce_zero_fst] at heq
  · exact hr row hrow

end ParseState

/-- A condition is an alternative of any condition that goes on with `OR` after it. -/
theorem holds_of_parse_or {ts us : List Token} {a E : Expr} (ha : parse ts = some a)
    (hE : parse (ts ++ .keyword .or :: us) = some E) (row : Env) (hrow : a.Holds row) :
    E.Holds row := by
  obtain ⟨s, hs, hres⟩ := Option.bind_eq_some_iff.mp ha
  obtain ⟨s', hs', hres'⟩ := Option.bind_eq_some_iff.mp hE
  obtain ⟨hstack, x, hmode, rfl⟩ := ParseState.exists_of_result hres
  rw [ParseState.read_append, hs, Option.bind_some, ParseState.read_cons] at hs'
  obtain ⟨s₁, hstep, hrest⟩ := Option.bind_eq_some_iff.mp hs'
  have hs₁ : s₁ = s.operator .or x := by
    simpa [ParseState.step, hmode] using hstep.symm
  have hoffers : s₁.Offers (reduce 0 s.pend x).2 := by
    rw [hs₁, ParseState.Offers, ParseState.base]
    simp only [ParseState.operator, hstack, List.getLast?_nil, Option.getD_none, BinaryOp.prec,
      reduce_one, reduce_zero_fst]
    exact ⟨[], _, rfl, fun _ h => h⟩
  exact (hoffers.read hrest).result hres' row hrow

/-- A condition does not end with a connective or an opening parenthesis. -/
lemma parse_append_singleton {ts : List Token}
    (ht : t = .keyword .and ∨ t = .keyword .or ∨ t = .symbol '(') : parse (ts ++ [t]) = none := by
  have hneed {s s' : ParseState} (hs : s.step t = some s') : s'.mode = .need := by
    obtain ⟨stack, pend, mode⟩ := s
    rcases ht with rfl | rfl | rfl <;> cases mode <;> cases hs <;> rfl
  rw [parse, ParseState.read_append]
  cases hr : ParseState.init.read ts with
  | none => rfl
  | some s =>
    cases hs : s.step t with
    | none => simp [hs]
    | some s' =>
      obtain ⟨stack, pend, mode⟩ := s'
      obtain rfl : mode = .need := hneed hs
      cases stack <;> simp [hs, ParseState.result]

/-! ### Columns -/

def Pending.columns : Pending → List (List Char)
  | .binary _ left => left.columns
  | .not => []

def ParseMode.columns : ParseMode → List (List Char)
  | .need | .minus => []
  | .got e | .gotNot e | .gotIs e | .gotCollate e => e.columns

/-- The columns that the expressions read so far mention. -/
def ParseState.columns (s : ParseState) : List (List Char) :=
  (s.stack.flatten ++ s.pend).flatMap Pending.columns ++ s.mode.columns

lemma mem_columns_reduce {p : ℕ} {l : List Pending} {x : Expr} {w : List Char}
    (h : w ∈ (reduce p l x).1.flatMap Pending.columns ++ (reduce p l x).2.columns) :
    w ∈ l.flatMap Pending.columns ++ x.columns := by
  induction l generalizing x with
  | nil => exact h
  | cons q l ih =>
    cases q with
    | binary op left =>
      rw [reduce_binary] at h
      split_ifs at h
      · have := ih h
        simp only [Expr.columns, List.flatMap_cons, Pending.columns, List.mem_append] at this ⊢
        tauto
      · exact h
    | not =>
      rw [reduce] at h
      split_ifs at h
      · simpa [Expr.columns, Pending.columns] using ih h
      · exact h

namespace ParseState

variable {w : List Char}

lemma mem_columns_operator (op : BinaryOp) {x : Expr} (h : w ∈ (s.operator op x).columns) :
    w ∈ (s.stack.flatten ++ s.pend).flatMap Pending.columns ++ x.columns := by
  have := mem_columns_reduce (p := op.prec) (l := s.pend) (x := x) (w := w)
  simp only [columns, operator, ParseMode.columns, List.flatMap_append, List.flatMap_cons,
    Pending.columns, List.mem_append, List.not_mem_nil, or_false] at h this ⊢
  tauto

lemma mem_columns_operand (hs : s.operand t = some s') (h : w ∈ s'.columns) :
    w ∈ (s.stack.flatten ++ s.pend).flatMap Pending.columns ∨ t = .name w := by
  cases t with
  | symbol c =>
    simp only [operand] at hs
    split_ifs at hs <;> cases hs <;> simp_all [columns, ParseMode.columns, or_comm]
  | keyword k =>
    cases k <;> cases hs
    simpa [columns, ParseMode.columns, Pending.columns] using h
  | name v =>
    cases hs
    simp only [columns, ParseMode.columns, Expr.columns, List.mem_append, List.mem_singleton] at h
    exact h.imp_right fun hw => by rw [hw]
  | text v => cases hs; simpa [columns, ParseMode.columns, Expr.columns] using h
  | number n => cases hs; simpa [columns, ParseMode.columns, Expr.columns] using h
  | illegal => cases hs

lemma mem_columns_step (hs : s.step t = some s') (h : w ∈ s'.columns) :
    w ∈ s.columns ∨ t = .name w := by
  obtain ⟨stack, pend, mode⟩ := s
  have hop {op : BinaryOp} {x : Expr} (hx : mode.columns = x.columns)
      (hw : w ∈ (operator ⟨stack, pend, mode⟩ op x).columns) :
      w ∈ columns ⟨stack, pend, mode⟩ ∨ t = .name w := by
    rw [columns, hx]
    exact .inl (mem_columns_operator _ hw)
  cases mode with
  | need =>
    refine (mem_columns_operand hs h).imp_left fun hw => ?_
    simpa [columns, ParseMode.columns] using hw
  | minus =>
    cases t <;> cases hs
    exact .inl h
  | got x =>
    cases t with
    | keyword k =>
      cases k <;> cases hs
      exacts [hop rfl h, hop rfl h, .inl h, hop rfl h, .inl h, .inl h]
    | symbol c =>
      simp only [step] at hs
      split_ifs at hs
      · cases hs; exact hop rfl h
      · cases hs; exact hop rfl h
      · cases hs; exact hop rfl h
      · cases stack with
        | nil => cases hs
        | cons q stack =>
          cases hs
          have := mem_columns_reduce (p := 0) (l := pend) (x := x) (w := w)
          simp only [columns, ParseMode.columns, reduce_zero_fst, List.flatMap_nil,
            List.nil_append, List.flatten_cons, List.flatMap_append, List.mem_append] at h this ⊢
          tauto
    | _ => cases hs
  | gotNot x =>
    cases t with
    | keyword k =>
      cases k <;> cases hs
      exact hop rfl h
    | _ => cases hs
  | gotIs x =>
    have hother (ho : (operator ⟨stack, pend, .gotIs x⟩ .is x).operand t = some s') :
        w ∈ columns ⟨stack, pend, .gotIs x⟩ ∨ t = .name w := by
      refine (mem_columns_operand ho h).imp_left fun hw => mem_columns_operator .is ?_
      simp only [columns, List.mem_append]
      exact .inl hw
    cases t with
    | keyword k =>
      cases k with
      | not => cases hs; exact hop rfl h
      | _ => exact hother hs
    | _ => exact hother hs
  | gotCollate x =>
    cases t <;> cases hs
    exact .inl h

lemma mem_columns_read {ts : List Token} (hs : s.read ts = some s') (h : w ∈ s'.columns) :
    w ∈ s.columns ∨ .name w ∈ ts := by
  induction ts generalizing s with
  | nil => cases hs; exact .inl h
  | cons t ts ih =>
    obtain ⟨s₁, hstep, hrest⟩ := Option.bind_eq_some_iff.mp hs
    rcases ih hrest with hw | hw
    · exact (mem_columns_step hstep hw).imp_right fun ht => by simp [ht]
    · exact .inr (List.mem_cons_of_mem _ hw)

end ParseState

/-- A condition reads only columns that its text names. -/
theorem name_mem_of_parse {ts : List Token} {e : Expr} (h : parse ts = some e) {w : List Char}
    (hw : w ∈ e.columns) : .name w ∈ ts := by
  obtain ⟨s, hs, hres⟩ := Option.bind_eq_some_iff.mp h
  obtain ⟨hstack, x, hmode, rfl⟩ := ParseState.exists_of_result hres
  refine (ParseState.mem_columns_read hs (w := w) ?_).resolve_left List.not_mem_nil
  have := mem_columns_reduce (p := 0) (l := s.pend) (x := x) (w := w)
  simp only [ParseState.columns, hstack, hmode, ParseMode.columns, reduce_zero_fst] at this ⊢
  simpa [hw] using this

end Sql
