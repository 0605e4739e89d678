import Violet.Script.ScriptRunner

/-!
# The operators of numbers

Most operators only reject two operands that are both no numbers. All else is left to the casts,
which accept null, and which are not always reached.
-/

namespace Violet

open Dart Program ScriptBuiltIn ScriptIsolate

/-! ### Types -/

namespace RunVariable

/-- The value has the flag of one type, or it is not ready and has none. -/
def Typed (v : RunVariable) : Prop :=
  [v.isString, v.isInteger, v.isList, v.isMap].count true = v.isReady.toNat

instance (v : RunVariable) : Decidable v.Typed := inferInstanceAs (Decidable (_ = _))

def IsReadyInteger (v : RunVariable) : Prop := v.isReady ∧ v.isInteger

/-- All that tells the type of a value. -/
def flags (v : RunVariable) : List Bool := [v.isReady, v.isString, v.isInteger, v.isList, v.isMap]

/-- Equal values of one type, where `E` is equality of values that are neither numbers nor texts. -/
def SameValue (E : RunVariable → RunVariable → Prop) (v w : RunVariable) : Prop :=
  v.flags = w.flags ∧ if v.isInteger ∨ v.isString then v.value = w.value else E v w

variable {v w : RunVariable}

lemma WellFormed.typed (h : v.WellFormed) : v.Typed := by
  cases h <;> rfl

lemma Typed.flags_of_isInteger (h : v.Typed) (hv : v.isInteger) :
    v.flags = [true, false, true, false, false] := by
  rw [Typed, hv] at h
  rw [flags, hv]
  revert h
  cases v.isReady <;> cases v.isString <;> cases v.isList <;> cases v.isMap <;> decide

lemma Typed.flags_of_isString (h : v.Typed) (hv : v.isString) :
    v.flags = [true, true, false, false, false] := by
  rw [Typed, hv] at h
  rw [flags, hv]
  revert h
  cases v.isReady <;> cases v.isInteger <;> cases v.isList <;> cases v.isMap <;> decide

lemma Typed.isReadyInteger (h : v.Typed) (hv : v.isInteger) : v.IsReadyInteger := by
  have hflags := h.flags_of_isInteger hv
  exact ⟨(List.cons.inj hflags).1, hv⟩

end RunVariable

/-! ### What a call returns -/

/-- A call of the function of a name returns the value. -/
def Returns (P : ScriptPlatform) (s : ScriptIsolate) (name : Units) (args : List Ref)
    (v : RunVariable) : Prop :=
  ∃ r s', (runBuiltIn P name args).Completes s r s' ∧ s'.memory.deref r = some v

section

variable {P : ScriptPlatform} {s : ScriptIsolate} {name : Units} {args : List Ref}
  {f : Args → Except ScriptError ℤ} {k : ℕ} {v : RunVariable}

lemma cell_append (m : Memory) (v : RunVariable) :
    { m with cells := m.cells ++ [v] }.cell m.cells.length = v := by
  simp [Memory.cell]

/-- A function that computes a number. -/
lemma returns_integer_iff (h : (refMap P).lookup name = some (.integer f, some k)) :
    Returns P s name args v ↔
      args.length = k ∧ ∃ n, f (args.map s.memory.deref) = .ok n ∧ v = .fromInt n := by
  by_cases hk : args.length = k
  · have hselect : select P name args.length = .ok (.integer f) := by
      unfold select
      rw [h]
      exact if_pos (decide_eq_true hk.symm)
    have hop : onMemory (do ScriptCall.newVariable (.fromInt (← f (← read args)))) s =
        (f (args.map s.memory.deref)).map fun n => (some s.memory.cells.length,
          { s with memory := { s.memory with cells := s.memory.cells ++ [.fromInt n] } }) := by
      have hrun : (do ScriptCall.newVariable (.fromInt (← f (← read args)))) s.memory =
          (liftM (f (args.map s.memory.deref)) : ScriptCall ℤ) s.memory >>= fun r =>
            ScriptCall.newVariable (.fromInt r.1) r.2 := rfl
      rw [onMemory, hrun, Operation.lift_run]
      cases f (args.map s.memory.deref) <;> rfl
    rw [Returns, runBuiltIn, hselect]
    simp only [Prog.completes_perform, hop]
    constructor
    · rintro ⟨r, s', hrun, hv⟩
      cases hf : f (args.map s.memory.deref) with
      | error e =>
        rw [hf] at hrun
        cases hrun
      | ok n =>
        rw [hf] at hrun
        cases hrun
        exact ⟨hk, n, rfl, Option.some.inj (hv.symm.trans (congrArg some (cell_append _ _)))⟩
    · rintro ⟨-, n, hf, rfl⟩
      rw [hf]
      exact ⟨_, _, rfl, congrArg some (cell_append _ _)⟩
  · have hselect : ∃ e, select P name args.length = .error e := by
      unfold select
      rw [h]
      exact ⟨_, if_neg fun hall => hk (of_decide_eq_true hall).symm⟩
    obtain ⟨e, he⟩ := hselect
    rw [Returns, runBuiltIn, he]
    constructor
    · rintro ⟨r, s', hrun, -⟩
      exact absurd hrun Prog.not_completes_raise
    · rintro ⟨hk', -⟩
      exact absurd hk' hk

lemma returns_fromInt_iff {n : ℤ} (h : (refMap P).lookup name = some (.integer f, some k)) :
    Returns P s name args (.fromInt n) ↔
      args.length = k ∧ f (args.map s.memory.deref) = .ok n := by
  rw [returns_integer_iff h]
  refine and_congr_right fun _ => ⟨?_, fun hn => ⟨n, hn, rfl⟩⟩
  rintro ⟨m, hm, hv⟩
  cases hv
  exact hm

end

/-! ### Operands -/

/-- The operand is a value whose cast to a number gives this. -/
def Casts (v : Option RunVariable) (n : Option ℤ) : Prop := ∃ r, v = some r ∧ r.asInt = .ok n

lemma Casts.ne_none {v : Option RunVariable} {n : Option ℤ} (h : Casts v n) : v ≠ none := by
  rintro rfl
  obtain ⟨_, ⟨⟩, -⟩ := h

/-- The operand is a number by its flag. -/
def IsInteger (v : Option RunVariable) : Prop := ∃ r, v = some r ∧ r.isInteger

variable {args : Args} {v w : Option RunVariable} {text : String} {i : ℕ} {n : ℤ}

lemma intAt_eq_ok {n : Option ℤ} : intAt args i = .ok n ↔ ∃ v, args[i]? = some v ∧ Casts v n := by
  rw [intAt, bind_eq_ok, argument]
  rcases args[i]? with _ | _ | r
  · exact ⟨fun ⟨_, h, _⟩ => (nomatch h), fun ⟨_, h, _⟩ => (nomatch h)⟩
  · constructor
    · rintro ⟨_, ⟨⟩, _⟩
    · rintro ⟨_, ⟨⟩, r, ⟨⟩, _⟩
  · constructor
    · rintro ⟨_, ⟨⟩, h⟩
      exact ⟨_, rfl, r, rfl, h⟩
    · rintro ⟨_, ⟨⟩, _, ⟨⟩, h⟩
      exact ⟨r, rfl, h⟩

lemma intAt_zero {n : Option ℤ} : intAt (v :: args) 0 = .ok n ↔ Casts v n := by
  rw [intAt_eq_ok]
  exact ⟨fun ⟨_, hv, h⟩ => Option.some.inj hv ▸ h, fun h => ⟨v, rfl, h⟩⟩

lemma intAt_one {n : Option ℤ} : intAt (v :: w :: args) 1 = .ok n ↔ Casts w n :=
  @intAt_zero args w n

/-- The check of two operands. -/
lemma checkEither_eq_ok {u : Unit} :
    checkEither (·.isInteger) (·.isInteger) (v :: w :: args) text = .ok u ↔
      v ≠ none ∧ (IsInteger v ∨ IsInteger w) := by
  have hnone : ¬ IsInteger none := fun ⟨_, h, _⟩ => nomatch h
  have hsome (r : RunVariable) : IsInteger (some r) ↔ r.isInteger :=
    ⟨fun ⟨_, h, hr⟩ => Option.some.inj h ▸ hr, fun hr => ⟨r, rfl, hr⟩⟩
  rcases v with _ | r
  · exact ⟨fun h => (nomatch h), fun h => absurd rfl h.1⟩
  · rw [hsome]
    cases hr : r.isInteger with
    | true => simp [checkEither, argument, hr, bind, Except.bind, pure, Except.pure]
    | false =>
      rcases w with _ | r'
      · simp [checkEither, argument, hr, bind, Except.bind, hnone]
      · rw [hsome]
        cases hr' : r'.isInteger <;>
          simp [checkEither, argument, hr, hr', bind, Except.bind, pure, Except.pure, throw,
            throwThe, MonadExceptOf.throw]

/-- The operands of the function are read as numbers. -/
lemma ofInts_eq_ok {f : ℤ → ℤ → Except ScriptError ℤ} :
    ofInts [v, w] text f = .ok n ↔
      (IsInteger v ∨ IsInteger w) ∧ ∃ a b, Casts v (some a) ∧ Casts w (some b) ∧ f a b = .ok n := by
  simp only [ofInts, bind_eq_ok, checkEither_eq_ok, intAt_zero, intAt_one]
  constructor
  · rintro ⟨_, ⟨-, hcheck⟩, a, ha, b, hb, h⟩
    cases a with
    | none => cases h
    | some a =>
      cases b with
      | none => cases h
      | some b => exact ⟨hcheck, a, b, ha, hb, h⟩
  · rintro ⟨hcheck, a, b, ha, hb, h⟩
    exact ⟨(), ⟨ha.ne_none, hcheck⟩, some a, ha, some b, hb, h⟩

/-! ### The operators -/

/-- The operators of numbers. -/
inductive IntOperator where
  | add | sub | mul | div | mod | gr | gre | ls | lse | and | or | xor | not

namespace IntOperator

def name : IntOperator → Units
  | add => units "add"
  | sub => units "sub"
  | mul => units "mul"
  | div => units "div"
  | mod => units "mod"
  | gr => units "gr"
  | gre => units "gre"
  | ls => units "ls"
  | lse => units "lse"
  | and => units "and"
  | or => units "or"
  | xor => units "xor"
  | not => units "not"

def builtIn : IntOperator → Args → Except ScriptError ℤ
  | add => intAdd
  | sub => intSub
  | mul => intMul
  | div => intDiv
  | mod => intRemain
  | gr => logicGr
  | gre => logicGre
  | ls => logicLs
  | lse => logicLse
  | and => logicAnd
  | or => logicOr
  | xor => logicXor
  | not => logicNot

def arity : IntOperator → ℕ
  | not => 1
  | _ => 2

lemma lookup_name (P : ScriptPlatform) (op : IntOperator) :
    (refMap P).lookup op.name = some (.integer op.builtIn, some op.arity) := by
  cases op <;> rfl

/-- The operands that the operator reads can be read. Null can be read as no number, and the first
operand of `and` and of `or` may decide. -/
def Reads : IntOperator → Option RunVariable → Option RunVariable → Prop
  | not, _, _ => False
  | and, v, w => ∃ a, Casts v a ∧ (a = some 0 ∨ ∃ b, Casts w b)
  | or, v, w => ∃ a, Casts v a ∧ (a ≠ some 0 ∨ ∃ b, Casts w b)
  | xor, v, w => ∃ a b, Casts v a ∧ Casts w b
  | div, v, w | mod, v, w => ∃ a b, Casts v (some a) ∧ Casts w (some b) ∧ b ≠ 0
  | _, v, w => ∃ a b, Casts v (some a) ∧ Casts w (some b)

variable {op : IntOperator}

/-- A calculation that never fails. -/
lemma ofInts_returns (f : ℤ → ℤ → ℤ) :
    (∃ n, ofInts [v, w] text (fun a b => return f a b) = .ok n) ↔
      (IsInteger v ∨ IsInteger w) ∧ ∃ a b, Casts v (some a) ∧ Casts w (some b) := by
  simp only [ofInts_eq_ok]
  constructor
  · rintro ⟨n, hcheck, a, b, ha, hb, -⟩
    exact ⟨hcheck, a, b, ha, hb⟩
  · rintro ⟨hcheck, a, b, ha, hb⟩
    exact ⟨_, hcheck, a, b, ha, hb, rfl⟩

/-- A division. -/
lemma ofInts_returns_div (f : ℤ → ℤ → ℤ) :
    (∃ n, ofInts [v, w] text
      (fun a b => if b = 0 then throw .divisionByZero else return f a b) = .ok n) ↔
      (IsInteger v ∨ IsInteger w) ∧ ∃ a b, Casts v (some a) ∧ Casts w (some b) ∧ b ≠ 0 := by
  simp only [ofInts_eq_ok]
  constructor
  · rintro ⟨n, hcheck, a, b, ha, hb, h⟩
    refine ⟨hcheck, a, b, ha, hb, ?_⟩
    rintro rfl
    cases h
  · rintro ⟨hcheck, a, b, ha, hb, hne⟩
    exact ⟨_, hcheck, a, b, ha, hb, if_neg hne⟩

/-- Behind the check the first operand is read. -/
lemma first_returns (g : Bool → Except ScriptError ℤ) :
    (∃ n, (do
      checkEither (·.isInteger) (·.isInteger) [v, w] text
      g (← nonZeroAt [v, w] 0)) = .ok n) ↔
      (IsInteger v ∨ IsInteger w) ∧ ∃ a, Casts v a ∧ ∃ n, g (a ≠ some 0) = .ok n := by
  simp only [bind_eq_ok, checkEither_eq_ok, nonZeroAt, intAt_zero, pure_eq_ok]
  constructor
  · rintro ⟨n, _, ⟨-, hcheck⟩, _, ⟨a, ha, rfl⟩, h⟩
    exact ⟨hcheck, a, ha, n, h⟩
  · rintro ⟨hcheck, a, ha, n, h⟩
    exact ⟨n, (), ⟨ha.ne_none, hcheck⟩, _, ⟨a, ha, rfl⟩, h⟩

/-- Whether the second operand is read does not depend on what is made of it. -/
lemma second_returns (g : Bool → ℤ) :
    (∃ n, (do return g (← nonZeroAt [v, w] 1) : Except ScriptError ℤ) = .ok n) ↔
      ∃ b, Casts w b := by
  simp only [bind_eq_ok, nonZeroAt, intAt_one, pure_eq_ok]
  constructor
  · rintro ⟨_, _, ⟨b, hb, -⟩, -⟩
    exact ⟨b, hb⟩
  · rintro ⟨b, hb⟩
    exact ⟨_, _, ⟨b, hb, rfl⟩, rfl⟩

/-- When an operator of two numbers returns. -/
lemma returns_iff (hop : op.arity = 2) :
    (∃ n, op.builtIn [v, w] = .ok n) ↔ (IsInteger v ∨ IsInteger w) ∧ op.Reads v w := by
  cases op with
  | add | sub | mul | gr | gre | ls | lse => exact ofInts_returns _
  | div | mod => exact ofInts_returns_div _
  | not => cases hop
  | and =>
    refine (first_returns _).trans (and_congr_right fun _ => exists_congr fun a =>
      and_congr_right fun _ => ?_)
    by_cases ha : a = some 0
    · simp [ha, pure, Except.pure]
    · simp only [ha, ne_eq, not_false_eq_true, decide_true, if_true, false_or]
      exact second_returns _
  | or =>
    refine (first_returns _).trans (and_congr_right fun _ => exists_congr fun a =>
      and_congr_right fun _ => ?_)
    by_cases ha : a = some 0
    · simp only [ha, ne_eq, not_true_eq_false, decide_false, false_or]
      exact second_returns _
    · simp [ha, pure, Except.pure]
  | xor =>
    refine (first_returns fun c => do return ofBool (c != (← nonZeroAt [v, w] 1))).trans
      (and_congr_right fun _ => exists_congr fun a => ?_)
    rw [second_returns]
    exact exists_and_left.symm

lemma logicNot_returns {n : ℤ} (h : logicNot [v] = .ok n) : IsInteger v := by
  obtain ⟨_, hcheck, -⟩ := bind_eq_ok.mp h
  obtain ⟨r, hr, hif⟩ := bind_eq_ok.mp hcheck
  rcases v with _ | r'
  · cases hr
  · cases hr
    refine ⟨r, rfl, ?_⟩
    by_contra hflag
    rw [if_neg hflag] at hif
    cases hif

/-- All operands are ready numbers. -/
def AllIntegers (args : Args) : Prop := ∀ v ∈ args, ∃ r, v = some r ∧ r.IsReadyInteger

/-- For two operands one of which is no number the operator cannot read what it needs. -/
def Rejects (op : IntOperator) (args : Args) : Prop :=
  ∀ v w, args = [v, w] → (IsInteger v ↔ IsInteger w) ∨ ¬ op.Reads v w

lemma allIntegers_iff_rejects (hargs : ∀ r, some r ∈ args → r.Typed) :
    (args.length = op.arity → (∃ n, op.builtIn args = .ok n) → AllIntegers args) ↔
      op.Rejects args := by
  have hready {v : Option RunVariable} (hv : v ∈ args) (h : IsInteger v) :
      ∃ r, v = some r ∧ r.IsReadyInteger := by
    obtain ⟨r, rfl, hr⟩ := h
    exact ⟨r, rfl, (hargs r hv).isReadyInteger hr⟩
  constructor
  · rintro h v w rfl
    refine or_iff_not_imp_right.mpr fun hreads => ?_
    have hop : op.arity = 2 := by
      cases op with
      | not => exact absurd id hreads
      | _ => rfl
    have hall (hcheck : IsInteger v ∨ IsInteger w) : IsInteger v ∧ IsInteger w := by
      have hint := h hop.symm ((returns_iff hop).mpr ⟨hcheck, not_not.mp hreads⟩)
      obtain ⟨r, hr, hv⟩ := hint v (by simp)
      obtain ⟨r', hr', hw⟩ := hint w (by simp)
      exact ⟨⟨r, hr, hv.2⟩, r', hr', hw.2⟩
    exact ⟨fun hv => (hall (.inl hv)).2, fun hw => (hall (.inr hw)).1⟩
  · intro h hlen hreturns
    by_cases hop : op.arity = 2
    · obtain ⟨v, w, rfl⟩ := List.length_eq_two.mp (hlen.trans hop)
      obtain ⟨hcheck, hreads⟩ := (returns_iff hop).mp hreturns
      have hiff := (h v w rfl).resolve_right (not_not.mpr hreads)
      have hboth : IsInteger v ∧ IsInteger w := by
        rcases hcheck with hv | hw
        · exact ⟨hv, hiff.mp hv⟩
        · exact ⟨hiff.mpr hw, hw⟩
      intro u hu
      rcases List.mem_pair.mp hu with rfl | rfl
      · exact hready hu hboth.1
      · exact hready hu hboth.2
    · have hnot : op = .not := by
        cases op with
        | not => rfl
        | _ => exact absurd rfl hop
      subst hnot
      obtain ⟨v, rfl⟩ := List.length_eq_one_iff.mp hlen
      obtain ⟨n, hn⟩ := hreturns
      intro u hu
      obtain rfl := List.mem_singleton.mp hu
      exact hready hu (logicNot_returns hn)

end IntOperator

/-! ### Comparison -/

section

variable {a b : RunVariable}

lemma asInt_eq_ok {x : Option ℤ} : a.asInt = .ok x ↔ a.value = x.map .int := by
  rw [RunVariable.asInt]
  rcases a.value with _ | _ | _ | _ <;> cases x <;> simp

lemma asString_eq_ok {x : Option Units} : a.asString = .ok x ↔ a.value = x.map .string := by
  rw [RunVariable.asString]
  rcases a.value with _ | _ | _ | _ <;> cases x <;> simp

lemma decide_eq_ok_true {α : Type} [DecidableEq α] {x y : Except ScriptError α} :
    (do return decide ((← x) = (← y))) = Except.ok true ↔ ∃ c, x = .ok c ∧ y = .ok c := by
  simp only [bind_eq_ok, pure_eq_ok, decide_eq_true_eq]
  exact ⟨fun ⟨c, hx, _, hy, h⟩ => ⟨c, hx, h ▸ hy⟩, fun ⟨c, hx, hy⟩ => ⟨c, hx, c, hy, rfl⟩⟩

/-- The comparison finds the two equal: it reads both as numbers, or else as texts. -/
def FoundEqual (a b : RunVariable) : Prop :=
  a.isInteger = b.isInteger ∧ a.isString = b.isString ∧
    if a.isInteger then ∃ x, a.asInt = .ok x ∧ b.asInt = .ok x
    else ∃ x, a.asString = .ok x ∧ b.asString = .ok x

/-- The comparison of two values. -/
lemma sameAt_run (a b : RunVariable) (text : String) : sameAt [some a, some b] text =
    if a.isInteger ≠ b.isInteger ∨ a.isString ≠ b.isString then throw (.exception (units text))
    else if a.isInteger then (do return decide ((← a.asInt) = (← b.asInt)))
    else (do return decide ((← a.asString) = (← b.asString))) := by
  unfold sameAt
  change (if a.isInteger ≠ b.isInteger ∨ a.isString ≠ b.isString then _ else _) = _
  split_ifs <;> rfl

lemma sameAt_some : sameAt [some a, some b] text = .ok true ↔ FoundEqual a b := by
  rw [sameAt_run]
  by_cases hflags : a.isInteger = b.isInteger ∧ a.isString = b.isString
  · have hsame : ¬ (a.isInteger ≠ b.isInteger ∨ a.isString ≠ b.isString) := by
      rw [not_or, not_not, not_not]
      exact hflags
    rw [if_neg hsame, FoundEqual]
    simp only [hflags, true_and]
    split_ifs
    · exact decide_eq_ok_true
    · exact decide_eq_ok_true
  · rw [if_pos (Classical.not_and_iff_not_or_not.mp hflags)]
    constructor
    · intro h
      cases h
    · rintro ⟨hi, hs, -⟩
      exact absurd ⟨hi, hs⟩ hflags

lemma sameAt_eq_true :
    sameAt [v, w] text = .ok true ↔ ∃ a b, v = some a ∧ w = some b ∧ FoundEqual a b := by
  rcases v with _ | a
  · exact ⟨fun h => (nomatch h), fun ⟨_, _, h, _⟩ => (nomatch h)⟩
  rcases w with _ | b
  · exact ⟨fun h => (nomatch h), fun ⟨_, _, _, h, _⟩ => (nomatch h)⟩
  rw [sameAt_some]
  constructor
  · intro h
    exact ⟨a, b, rfl, rfl, h⟩
  · rintro ⟨_, _, ⟨⟩, ⟨⟩, h⟩
    exact h

lemma logicEq_eq_one :
    logicEq [v, w] = .ok 1 ↔ ∃ a b, v = some a ∧ w = some b ∧ FoundEqual a b := by
  rw [logicEq, bind_eq_ok, ← sameAt_eq_true]
  constructor
  · rintro ⟨c, hc, h⟩
    cases c with
    | true => exact hc
    | false => cases h
  · intro h
    exact ⟨true, h, rfl⟩

lemma logicNeq_eq_zero :
    logicNeq [v, w] = .ok 0 ↔ ∃ a b, v = some a ∧ w = some b ∧ FoundEqual a b := by
  rw [logicNeq, bind_eq_ok, ← sameAt_eq_true]
  constructor
  · rintro ⟨c, hc, h⟩
    cases c with
    | true => exact hc
    | false => cases h
  · intro h
    exact ⟨true, h, rfl⟩

variable {E : RunVariable → RunVariable → Prop}

/-- Two values are compared as they ought to be: one of them is a number or a text, they are equal,
or they are not both read as the same text or as null. -/
def Compared (E : RunVariable → RunVariable → Prop) (a b : RunVariable) : Prop :=
  (a.isInteger ∨ a.isString ∨ b.isInteger ∨ b.isString) ∨ a.SameValue E b ∨
    ∀ x, a.asString = .ok x → b.asString ≠ .ok x

lemma compared_iff (ha : a.Typed) (hb : b.Typed) :
    (FoundEqual a b → a.SameValue E b) ↔ Compared E a b := by
  constructor
  · intro h
    refine or_iff_not_imp_left.mpr fun hnone => or_iff_not_imp_right.mpr fun hread => h ?_
    simp only [not_or, Bool.not_eq_true] at hnone
    obtain ⟨hai, has, hbi, hbs⟩ := hnone
    simp only [not_forall, not_not, exists_prop] at hread
    refine ⟨hai.trans hbi.symm, has.trans hbs.symm, ?_⟩
    rw [if_neg (by simp [hai])]
    exact hread
  · rintro h ⟨hi, hs, hread⟩
    by_cases hai : a.isInteger
    · rw [if_pos hai] at hread
      obtain ⟨x, hax, hbx⟩ := hread
      refine ⟨(ha.flags_of_isInteger hai).trans (hb.flags_of_isInteger (hi ▸ hai)).symm, ?_⟩
      rw [if_pos (.inl hai)]
      exact (asInt_eq_ok.mp hax).trans (asInt_eq_ok.mp hbx).symm
    · rw [if_neg hai] at hread
      obtain ⟨x, hax, hbx⟩ := hread
      by_cases has : a.isString
      · refine ⟨(ha.flags_of_isString has).trans (hb.flags_of_isString (hs ▸ has)).symm, ?_⟩
        rw [if_pos (.inr has)]
        exact (asString_eq_ok.mp hax).trans (asString_eq_ok.mp hbx).symm
      · rcases h with hflag | hsame | hno
        · rw [← hi, ← hs] at hflag
          tauto
        · exact hsame
        · exact absurd hbx (hno x hax)

end

/-- A well-formed value that is cast to a number is one. -/
lemma Casts.isInteger {n : ℤ} (h : Casts v (some n)) (hv : ∀ r, v = some r → r.WellFormed) :
    IsInteger v := by
  obtain ⟨r, rfl, hr⟩ := h
  refine ⟨r, rfl, ?_⟩
  have hvalue := asInt_eq_ok.mp hr
  cases hv r rfl with
  | fromInt n => rfl
  | _ => cases hvalue

/-- Of well-formed operands only `and`, `or` and `xor` accept some that are no numbers. -/
theorem IntOperator.rejects_of_wellFormed {op : IntOperator}
    (hop : op ≠ .and ∧ op ≠ .or ∧ op ≠ .xor) (hargs : ∀ r, some r ∈ args → r.WellFormed) :
    op.Rejects args := by
  rintro v w rfl
  refine or_iff_not_imp_right.mpr fun hreads => ?_
  have hboth : ∃ a b, Casts v (some a) ∧ Casts w (some b) := by
    obtain ⟨hand, hor, hxor⟩ := hop
    cases op with
    | and => exact absurd rfl hand
    | or => exact absurd rfl hor
    | xor => exact absurd rfl hxor
    | not => exact absurd id hreads
    | div | mod =>
      obtain ⟨a, b, ha, hb, -⟩ := not_not.mp hreads
      exact ⟨a, b, ha, hb⟩
    | _ => exact not_not.mp hreads
  obtain ⟨a, b, ha, hb⟩ := hboth
  have hv := ha.isInteger fun r hr => hargs r (by simp [hr])
  have hw := hb.isInteger fun r hr => hargs r (by simp [hr])
  exact ⟨fun _ => hw, fun _ => hv⟩

/-! ### Both together -/

variable {s : ScriptIsolate}

lemma typed_of_deref (hs : ∀ v ∈ s.memory.cells, v.Typed) {r : Ref} {v : RunVariable}
    (h : s.memory.deref r = some v) : v.Typed := by
  obtain ⟨a, -, rfl⟩ := Option.map_eq_some_iff.mp h
  rw [Memory.cell, List.getD_eq_getElem?_getD]
  cases ha : s.memory.cells[a]? with
  | none => exact RunVariable.WellFormed.notReady.typed
  | some v => exact hs v (List.mem_of_getElem? ha)

/-- Where all values have a type, an operator of numbers returns for ready numbers only, unless it
can read what it needs of two operands of which just one is a number. Two values are found equal
only if they are, unless neither is a number or a text and both are read as the same. -/
theorem operators_typed_iff (P : ScriptPlatform) (E : RunVariable → RunVariable → Prop)
    (s : ScriptIsolate) (hs : ∀ v ∈ s.memory.cells, v.Typed) (op : IntOperator) (args : List Ref)
    (r r' : Ref) :
    (((∃ v, Returns P s op.name args v) → IntOperator.AllIntegers (args.map s.memory.deref)) ↔
      op.Rejects (args.map s.memory.deref)) ∧
    ((Returns P s (units "eq") [r, r'] (.fromInt 1) ∨
        Returns P s (units "neq") [r, r'] (.fromInt 0) →
      ∃ a b, s.memory.deref r = some a ∧ s.memory.deref r' = some b ∧ a.SameValue E b) ↔
    ∀ a b, s.memory.deref r = some a → s.memory.deref r' = some b → Compared E a b) := by
  constructor
  · rw [← IntOperator.allIntegers_iff_rejects fun r hr => ?_]
    · simp only [returns_integer_iff (op.lookup_name P), List.length_map]
      constructor
      · rintro h hlen ⟨n, hn⟩
        exact h ⟨_, hlen, n, hn, rfl⟩
      · rintro h ⟨_, hlen, n, hn, -⟩
        exact h hlen ⟨n, hn⟩
    · obtain ⟨a, -, ha⟩ := List.mem_map.mp hr
      exact typed_of_deref hs ha
  · have heq : (refMap P).lookup (units "eq") = some (.integer logicEq, some 2) := rfl
    have hneq : (refMap P).lookup (units "neq") = some (.integer logicNeq, some 2) := rfl
    have hfound : Returns P s (units "eq") [r, r'] (.fromInt 1) ∨
        Returns P s (units "neq") [r, r'] (.fromInt 0) ↔
        ∃ a b, s.memory.deref r = some a ∧ s.memory.deref r' = some b ∧ FoundEqual a b := by
      rw [returns_fromInt_iff heq, returns_fromInt_iff hneq]
      exact (or_congr (and_iff_right rfl) (and_iff_right rfl)).trans
        ((or_congr logicEq_eq_one logicNeq_eq_zero).trans (or_self_iff))
    rw [hfound]
    constructor
    · intro h a b ha hb
      refine (compared_iff (typed_of_deref hs ha) (typed_of_deref hs hb)).mp fun hab => ?_
      obtain ⟨a', b', ha', hb', hsame⟩ := h ⟨a, b, ha, hb, hab⟩
      rw [ha, Option.some.injEq] at ha'
      rw [hb, Option.some.injEq] at hb'
      rwa [ha', hb']
    · rintro h ⟨a, b, ha, hb, hab⟩
      exact ⟨a, b, ha, hb,
        (compared_iff (typed_of_deref hs ha) (typed_of_deref hs hb)).mpr (h a b ha hb) hab⟩

/-- Zero, a text, a list and a map. -/
def mixed : ScriptIsolate where
  memory :=
    { cells := [.fromInt 0, .fromString (some (units "x")), .ofList 0, .ofMap 0]
      lists := [[]]
      maps := [[]] }

theorem operators_typed_iff_mixed :
    (((∃ v, Returns .offline mixed IntOperator.and.name [some 0, some 1] v) →
        IntOperator.AllIntegers ([some 0, some 1].map mixed.memory.deref)) ↔
      IntOperator.and.Rejects ([some 0, some 1].map mixed.memory.deref)) ∧
    ((Returns .offline mixed (units "eq") [some 2, some 3] (.fromInt 1) ∨
        Returns .offline mixed (units "neq") [some 2, some 3] (.fromInt 0) →
      ∃ a b, mixed.memory.deref (some 2) = some a ∧ mixed.memory.deref (some 3) = some b ∧
        a.SameValue Eq b) ↔
    ∀ a b, mixed.memory.deref (some 2) = some a → mixed.memory.deref (some 3) = some b →
      Compared Eq a b) :=
  operators_typed_iff .offline Eq mixed (by decide) .and [some 0, some 1] (some 2) (some 3)

/-- Zero and a text are 0. A list equals a map, also where all lists and all maps are equal. -/
theorem not_operators_mixed :
    ¬ (∀ (P : ScriptPlatform) (s : ScriptIsolate), (∀ v ∈ s.memory.cells, v.WellFormed) →
      ∀ (op : IntOperator) (args : List Ref), (∃ v, Returns P s op.name args v) →
        IntOperator.AllIntegers (args.map s.memory.deref)) ∧
    ¬ ∀ (P : ScriptPlatform) (s : ScriptIsolate), (∀ v ∈ s.memory.cells, v.WellFormed) →
      ∀ r r', Returns P s (units "eq") [r, r'] (.fromInt 1) →
        ∃ a b, s.memory.deref r = some a ∧ s.memory.deref r' = some b ∧
          a.SameValue (fun _ _ => True) b := by
  have hmixed : ∀ v ∈ mixed.memory.cells, v.WellFormed := by
    intro v hv
    simp only [mixed, List.mem_cons, List.not_mem_nil, or_false] at hv
    rcases hv with rfl | rfl | rfl | rfl
    · exact .fromInt 0
    · exact .fromString _
    · exact .ofList 0
    · exact .ofMap 0
  constructor
  · intro h
    have hand : Returns .offline mixed IntOperator.and.name [some 0, some 1] (.fromInt 0) :=
      (returns_fromInt_iff (IntOperator.lookup_name .offline .and)).mpr ⟨rfl, rfl⟩
    obtain ⟨r, hr, hready⟩ := h .offline mixed hmixed .and [some 0, some 1] ⟨_, hand⟩
      (mixed.memory.deref (some 1)) (by simp)
    cases hr
    exact Bool.false_ne_true hready.2
  · intro h
    have heq : Returns .offline mixed (units "eq") [some 2, some 3] (.fromInt 1) :=
      (returns_fromInt_iff rfl).mpr ⟨rfl, rfl⟩
    obtain ⟨a, b, ha, hb, hflags, -⟩ := h .offline mixed hmixed (some 2) (some 3) heq
    cases ha
    cases hb
    revert hflags
    decide

end Violet
