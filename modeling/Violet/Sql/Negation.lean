import Violet.Sql.Semantics

/-!
# Negated conditions

A condition in parentheses behind `NOT` is read as the negation of the condition. It is true where
the condition is false, and neither of the two is true where the condition is `NULL`.
-/

namespace Sql

/-! ### Reading -/

/-- A state of the parser inside further parentheses. -/
def ParseState.under (outer : List (List Pending)) (s : ParseState) : ParseState :=
  { s with stack := s.stack ++ outer }

namespace ParseState

variable {s s' : ParseState} {t : Token} (outer : List (List Pending))

lemma operand_under (s : ParseState) (t : Token) :
    (s.under outer).operand t = (s.operand t).map (under outer) := by
  cases t with
  | keyword k => cases k <;> rfl
  | symbol c =>
    simp only [operand]
    split_ifs <;> rfl
  | name w => rfl
  | text w => rfl
  | number n => rfl
  | illegal => rfl

/-- What is read inside parentheses does not depend on what is around them. -/
lemma step_under (h : s.step t = some s') : (s.under outer).step t = some (s'.under outer) := by
  obtain ⟨stack, pend, mode⟩ := s
  cases mode with
  | need =>
    have hoperand := operand_under outer ⟨stack, pend, .need⟩ t
    have h' : operand ⟨stack, pend, .need⟩ t = some s' := h
    rw [h'] at hoperand
    exact hoperand
  | minus =>
    cases t with
    | number n =>
      cases h
      rfl
    | _ => cases h
  | got e =>
    cases t with
    | keyword k =>
      cases k <;>
        · cases h
          rfl
    | symbol c =>
      simp only [step] at h
      simp only [step, under]
      split_ifs at h ⊢
      · cases h
        rfl
      · cases h
        rfl
      · cases h
        rfl
      · cases stack with
        | nil => cases h
        | cons p stack =>
          cases h
          rfl
    | name w => cases h
    | text w => cases h
    | number n => cases h
    | illegal => cases h
  | gotNot e =>
    cases t with
    | keyword k =>
      cases k with
      | like =>
        cases h
        rfl
      | _ => cases h
    | _ => cases h
  | gotIs e =>
    have hoperand := operand_under outer (operator ⟨stack, pend, .gotIs e⟩ .is e) t
    cases t with
    | keyword k =>
      cases k with
      | not =>
        cases h
        rfl
      | _ => cases h
    | symbol c =>
      have h' : operand (operator ⟨stack, pend, .gotIs e⟩ .is e) (.symbol c) = some s' := h
      rw [h'] at hoperand
      exact hoperand
    | illegal => cases h
    | _ =>
      cases h
      rfl
  | gotCollate e =>
    cases t with
    | name w =>
      cases h
      rfl
    | _ => cases h

lemma read_under {ts : List Token} (h : s.read ts = some s') :
    (s.under outer).read ts = some (s'.under outer) := by
  induction ts generalizing s with
  | nil =>
    cases h
    rfl
  | cons t ts ih =>
    rw [read_cons] at h
    obtain ⟨u, hu, hrest⟩ := Option.bind_eq_some_iff.mp h
    rw [read_cons, step_under outer hu, Option.bind_some]
    exact ih hrest

end ParseState

variable {cs : List Char} {ts : List Token} {e : Expr}

/-- `NOT (` in front of the tokens and `)` behind them. -/
def negatedTokens (ts : List Token) : List Token :=
  .keyword .not :: .symbol '(' :: (ts ++ [.symbol ')'])

/-- The negation of a text. -/
def negated (cs : List Char) : List Char := "NOT (".toList ++ cs ++ ")".toList

lemma read_not : LexState.init.read "NOT (".toList = ⟨[.keyword .not, .symbol '('], .blank⟩ := rfl

lemma lex_negated (h : lex cs = some ts) (hc : Closed cs) :
    lex (negated cs) = some (negatedTokens ts) := by
  have hopened :
      LexState.Reads .init ("NOT (".toList ++ cs) (.keyword .not :: .symbol '(' :: ts) := by
    have hclosed := (closed_append read_not cs).mpr hc
    have hlex : lex ("NOT (".toList ++ cs) = (lex cs).map ([.keyword .not, .symbol '('] ++ ·) :=
      lex_append read_not
    rw [h, lex_eq_some hclosed] at hlex
    exact ⟨hclosed, Option.some.inj hlex⟩
  refine lex_eq_of_reads (hopened.append (LexState.reads_symbols hopened.settled ?_))
  intro c hc
  obtain rfl := List.mem_singleton.mp hc
  decide

/-- A comment that is left open takes in the closing parenthesis. -/
lemma lex_negated_of_open (h : lex cs = some ts) (hc : ¬ Closed cs) :
    lex (negated cs) = some (.keyword .not :: .symbol '(' :: ts) := by
  have hlex : lex ("NOT (".toList ++ cs) = (lex cs).map ([.keyword .not, .symbol '('] ++ ·) :=
    lex_append read_not
  rw [h] at hlex
  refine lex_append_of_open hlex (fun hclosed => hc ((closed_append read_not cs).mp hclosed)) ?_
  intro c hc
  obtain rfl := List.mem_singleton.mp hc
  decide

/-- Behind the opening parenthesis, the condition is read as it is by itself. -/
lemma read_not_open (h : parse ts = some e) : ∃ pend x,
    ParseState.init.read (.keyword .not :: .symbol '(' :: ts) =
      some ⟨[[.not]], pend, .got x⟩ ∧ (reduce 0 pend x).2 = e := by
  obtain ⟨⟨stack, pend, mode⟩, hs, hresult⟩ := Option.bind_eq_some_iff.mp h
  have hinner : ParseState.init.read (.keyword .not :: .symbol '(' :: ts) =
      some (ParseState.under [[.not]] ⟨stack, pend, mode⟩) := ParseState.read_under [[.not]] hs
  cases stack with
  | cons p stack => cases hresult
  | nil =>
    cases mode with
    | got x => exact ⟨pend, x, hinner, Option.some.inj hresult⟩
    | _ => cases hresult

lemma parse_negated (h : parse ts = some e) : parse (negatedTokens ts) = some (.not e) := by
  obtain ⟨pend, x, hread, rfl⟩ := read_not_open h
  have hsplit : negatedTokens ts =
      (.keyword .not :: .symbol '(' :: ts) ++ [Token.symbol ')'] := rfl
  rw [parse, hsplit, ParseState.read_append, hread]
  rfl

/-- The negation of a text is read as the negation of its condition. -/
lemma readCondition_negated (h : readCondition cs = some e) (hc : Closed cs) :
    readCondition (negated cs) = some (.not e) := by
  obtain ⟨ts, hts, he⟩ := Option.bind_eq_some_iff.mp h
  rw [readCondition, lex_negated hts hc, Option.bind_some, parse_negated he]

/-- The negation of a text that leaves a comment open is no condition: its parenthesis is never
closed. -/
lemma readCondition_negated_of_open (h : readCondition cs = some e) (hc : ¬ Closed cs) :
    readCondition (negated cs) = none := by
  obtain ⟨ts, hts, he⟩ := Option.bind_eq_some_iff.mp h
  obtain ⟨pend, x, hread, -⟩ := read_not_open he
  rw [readCondition, lex_negated_of_open hts hc, Option.bind_some, parse, hread]
  rfl

/-! ### Truth -/

/-- The row violates the condition: the condition is false, and not `NULL`. -/
def Expr.Fails (e : Expr) (row : Env) : Prop := (e.eval row).truth = some false

instance (e : Expr) (row : Env) : Decidable (e.Fails row) := inferInstanceAs (Decidable (_ = _))

lemma Expr.holds_not {row : Env} : (Expr.not e).Holds row ↔ e.Fails row := by
  rw [Holds, Fails, eval, Value.truth_ofTruth]
  rcases (e.eval row).truth with _ | (_ | _) <;> simp

/-- The condition is `NULL` on the row. A comparison is `NULL` when an operand is, unless it is
`IS`; a connective is `NULL` when an operand is and the other one does not decide. -/
def Expr.IsNull (row : Env) : Expr → Prop
  | .column w => row w = .null
  | .text _ | .number _ => False
  | .binary .and a b => (a.IsNull row ∨ b.IsNull row) ∧ ¬ a.Fails row ∧ ¬ b.Fails row
  | .binary .or a b => (a.IsNull row ∨ b.IsNull row) ∧ ¬ a.Holds row ∧ ¬ b.Holds row
  | .binary .is _ _ | .binary .isNot _ _ => False
  | .binary .like a b | .binary .notLike a b | .binary .eq a b | .binary .lt a b
  | .binary .gt a b => a.IsNull row ∨ b.IsNull row
  | .not a | .collate a _ => a.IsNull row

lemma Value.truth_eq_none {v : Value} : v.truth = none ↔ v = .null := by
  cases v <;> simp [Value.truth]

lemma Value.ofTruth_eq_null {t : Option Bool} : Value.ofTruth t = .null ↔ t = none := by
  cases t <;> simp [Value.ofTruth]

lemma andTruth_eq_none {a b : Option Bool} : andTruth a b = none ↔
    (a = none ∨ b = none) ∧ a ≠ some false ∧ b ≠ some false := by
  rcases a with _ | (_ | _) <;> rcases b with _ | (_ | _) <;> simp [andTruth]

lemma orTruth_eq_none {a b : Option Bool} : orTruth a b = none ↔
    (a = none ∨ b = none) ∧ a ≠ some true ∧ b ≠ some true := by
  rcases a with _ | (_ | _) <;> rcases b with _ | (_ | _) <;> simp [orTruth]

lemma likeTruth_eq_none {a b : Value} : likeTruth a b = none ↔ a = .null ∨ b = .null := by
  cases a <;> cases b <;> simp [likeTruth]

lemma compareTruth_eq_none {r : Value → Value → Bool} {a b : Value} :
    compareTruth r a b = none ↔ a = .null ∨ b = .null := by
  cases a <;> cases b <;> simp [compareTruth]

lemma Expr.isNull_iff {row : Env} : e.IsNull row ↔ e.eval row = .null := by
  induction e with
  | column w => exact Iff.rfl
  | text s => simp [IsNull, eval]
  | number n => simp [IsNull, eval]
  | not a ih =>
    rw [IsNull, ih, eval, Value.ofTruth_eq_null, Option.map_eq_none_iff, Value.truth_eq_none]
  | collate a w ih => exact ih
  | binary op a b iha ihb =>
    rw [eval, Value.ofTruth_eq_null]
    cases op with
    | and =>
      rw [IsNull, BinaryOp.eval, andTruth_eq_none, iha, ihb, Value.truth_eq_none,
        Value.truth_eq_none]
      rfl
    | or =>
      rw [IsNull, BinaryOp.eval, orTruth_eq_none, iha, ihb, Value.truth_eq_none,
        Value.truth_eq_none]
      rfl
    | is => simp [IsNull, BinaryOp.eval]
    | isNot => simp [IsNull, BinaryOp.eval]
    | like => rw [IsNull, BinaryOp.eval, likeTruth_eq_none, iha, ihb]
    | notLike => rw [IsNull, BinaryOp.eval, Option.map_eq_none_iff, likeTruth_eq_none, iha, ihb]
    | eq => rw [IsNull, BinaryOp.eval, compareTruth_eq_none, iha, ihb]
    | lt => rw [IsNull, BinaryOp.eval, compareTruth_eq_none, iha, ihb]
    | gt => rw [IsNull, BinaryOp.eval, compareTruth_eq_none, iha, ihb]

/-- A condition that is not violated holds, unless it is `NULL`. -/
lemma Expr.not_fails_iff {row : Env} : ¬ e.Fails row ↔ e.Holds row ∨ e.IsNull row := by
  rw [isNull_iff, ← Value.truth_eq_none, Fails, Holds]
  rcases (e.eval row).truth with _ | (_ | _) <;> simp

lemma Expr.not_isNull_of_holds {row : Env} (h : e.Holds row) : ¬ e.IsNull row := by
  rw [isNull_iff, ← Value.truth_eq_none, (h : (e.eval row).truth = some true)]
  simp

/-- Without `NULL` in the columns that it names, a condition is not `NULL`. -/
lemma Expr.not_isNull_of_columns {row : Env} (h : ∀ w ∈ e.columns, row w ≠ .null) :
    ¬ e.IsNull row := by
  induction e with
  | column w => exact h w (List.mem_singleton.mpr rfl)
  | text s => exact id
  | number n => exact id
  | not a ih => exact ih h
  | collate a w ih => exact ih h
  | binary op a b iha ihb =>
    have ha := iha fun w hw => h w (List.mem_append_left _ hw)
    have hb := ihb fun w hw => h w (List.mem_append_right _ hw)
    cases op <;> simp [IsNull, ha, hb]

end Sql
