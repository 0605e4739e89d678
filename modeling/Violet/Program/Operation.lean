import Mathlib.Tactic.Lemma

/-!
# Operations

An operation reads and writes a state and may throw. What it has written before an exception is
lost, so an operation that is to be modelled in this way throws before it writes.
-/

namespace Program

/-- An operation on the states `σ` that returns an `α` or throws an `ε`. -/
abbrev Operation (σ ε α : Type) := StateT σ (Except ε) α

section

variable {ε α β : Type}

lemma bind_eq_ok {x : Except ε α} {f : α → Except ε β} {b : β} :
    x >>= f = .ok b ↔ ∃ a, x = .ok a ∧ f a = .ok b := by
  cases x with
  | error e => exact ⟨fun h => (nomatch h), fun ⟨_, h, _⟩ => (nomatch h)⟩
  | ok a =>
    constructor
    · intro h
      exact ⟨a, rfl, h⟩
    · rintro ⟨_, ⟨⟩, h⟩
      exact h

lemma pure_eq_ok {a b : α} : (pure a : Except ε α) = .ok b ↔ a = b :=
  ⟨Except.ok.inj, fun h => h ▸ rfl⟩

/-! ### Exceptions -/

/-- A computation throws none but these exceptions. -/
def ThrowsOnly (E : ε → Prop) (x : Except ε α) : Prop := ∀ e, x = .error e → E e

variable {E : ε → Prop} {x : Except ε α} {f : α → Except ε β}

lemma throwsOnly_ok (a : α) : ThrowsOnly E (.ok a) := by
  rintro e ⟨⟩

lemma throwsOnly_error_iff {e : ε} : ThrowsOnly E (.error e : Except ε α) ↔ E e := by
  constructor
  · intro h
    exact h e rfl
  · rintro h _ ⟨⟩
    exact h

lemma throwsOnly_bind_iff :
    ThrowsOnly E (x >>= f) ↔ ThrowsOnly E x ∧ ∀ a, x = .ok a → ThrowsOnly E (f a) := by
  cases x with
  | error e =>
    constructor
    · intro h
      exact ⟨throwsOnly_error_iff.mpr (h e rfl), by rintro a ⟨⟩⟩
    · intro h
      exact throwsOnly_error_iff.mpr (h.1 e rfl)
  | ok a =>
    constructor
    · intro h
      refine ⟨throwsOnly_ok a, ?_⟩
      rintro _ ⟨⟩
      exact h
    · intro h
      exact h.2 a rfl

/-- A part that throws other exceptions only has to return. -/
lemma throwsOnly_bind_of_not (h : ∀ e, x = .error e → ¬ E e) :
    ThrowsOnly E (x >>= f) ↔ ∃ a, x = .ok a ∧ ThrowsOnly E (f a) := by
  rw [throwsOnly_bind_iff]
  cases x with
  | error e =>
    constructor
    · intro hx
      exact absurd (hx.1 e rfl) (h e rfl)
    · rintro ⟨_, ⟨⟩, _⟩
  | ok a =>
    constructor
    · intro hx
      exact ⟨a, rfl, hx.2 a rfl⟩
    · rintro ⟨_, ⟨⟩, hf⟩
      refine ⟨throwsOnly_ok a, ?_⟩
      rintro _ ⟨⟩
      exact hf

end

namespace Operation

variable {σ ε α β : Type} {I : σ → Prop} {Q : α → Prop} {R : β → Prop}

lemma lift_run (r : Except ε α) (s : σ) :
    (liftM r : Operation σ ε α) s = r.map fun a => (a, s) := by
  cases r <;> rfl

lemma lift_bind_run (r : Except ε α) (f : α → Operation σ ε β) (s : σ) :
    (liftM r >>= f) s = r >>= fun a => f a s := by
  cases r <;> rfl

lemma lift_run_eq_ok {r : Except ε α} {s s' : σ} {a : α} :
    (liftM r : Operation σ ε α) s = .ok (a, s') ↔ r = .ok a ∧ s = s' := by
  cases r with
  | error e => exact ⟨fun h => (nomatch h), fun h => (nomatch h.1)⟩
  | ok b =>
    constructor
    · rintro ⟨⟩
      exact ⟨rfl, rfl⟩
    · rintro ⟨⟨⟩, rfl⟩
      rfl

lemma get_bind_run (f : σ → Operation σ ε α) (s : σ) : (get >>= f) s = f s s := rfl

lemma bind_run_eq_ok {op : Operation σ ε α} {f : α → Operation σ ε β} {s s'' : σ} {b : β} :
    (op >>= f) s = .ok (b, s'') ↔ ∃ a s', op s = .ok (a, s') ∧ f a s' = .ok (b, s'') := by
  constructor
  · intro h
    obtain ⟨r, hr, hf⟩ := bind_eq_ok.mp (show (op s >>= fun r => f r.1 r.2) = _ from h)
    exact ⟨r.1, r.2, hr, hf⟩
  · rintro ⟨a, s', ha, hf⟩
    exact bind_eq_ok.mpr ⟨(a, s'), ha, hf⟩

/-- A check that throws has been passed. -/
lemma check_run_eq_ok {c : Prop} [Decidable c] {e : ε} {f : Unit → Operation σ ε α} {s s' : σ}
    {a : α} :
    (if c then throw e >>= f else f ()) s = .ok (a, s') ↔ ¬ c ∧ f () s = .ok (a, s') := by
  by_cases h : c
  · rw [if_pos h]
    exact ⟨fun hrun => (nomatch hrun), fun hrun => absurd h hrun.1⟩
  · rw [if_neg h]
    exact (and_iff_right h).symm

lemma pure_run_eq_ok {a b : α} {s s' : σ} :
    (pure a : Operation σ ε α) s = .ok (b, s') ↔ a = b ∧ s = s' := by
  constructor
  · rintro ⟨⟩
    exact ⟨rfl, rfl⟩
  · rintro ⟨rfl, rfl⟩
    rfl

/-- Whenever the operation returns, it has kept `I`, and `Q` holds of the result. -/
def Keeps (I : σ → Prop) (Q : α → Prop) (op : Operation σ ε α) : Prop :=
  ∀ s a s', I s → op s = .ok (a, s') → I s' ∧ Q a

lemma keeps_pure {a : α} (ha : Q a) : Keeps I Q (pure a : Operation σ ε α) := by
  rintro s _ _ hs ⟨⟩
  exact ⟨hs, ha⟩

lemma keeps_throw (e : ε) : Keeps I Q (throw e : Operation σ ε α) := by
  rintro s a s' - ⟨⟩

lemma Keeps.bind {op : Operation σ ε α} {f : α → Operation σ ε β} (h : Keeps I Q op)
    (hf : ∀ a, Q a → Keeps I R (f a)) : Keeps I R (op >>= f) := by
  intro s b s'' hs hrun
  change (op s >>= fun r => f r.1 r.2) = _ at hrun
  cases hop : op s with
  | error e =>
    rw [hop] at hrun
    cases hrun
  | ok r =>
    rw [hop] at hrun
    obtain ⟨hs', ha⟩ := h s r.1 r.2 hs hop
    exact hf r.1 ha r.2 b s'' hs' hrun

lemma Keeps.mono {op : Operation σ ε α} {Q' : α → Prop} (h : Keeps I Q op)
    (hQ : ∀ a, Q a → Q' a) : Keeps I Q' op := by
  intro s a s' hs hrun
  obtain ⟨hs', ha⟩ := h s a s' hs hrun
  exact ⟨hs', hQ a ha⟩

lemma keeps_check {c : Prop} [Decidable c] (e : ε) {f : Unit → Operation σ ε α}
    (h : ¬ c → Keeps I Q (f ())) : Keeps I Q (if c then throw e >>= f else f ()) := by
  intro s a s' hs hrun
  obtain ⟨hc, hf⟩ := check_run_eq_ok.mp hrun
  exact h hc s a s' hs hf

lemma keeps_ite {c : Prop} [Decidable c] {op op' : Operation σ ε α} (h : c → Keeps I Q op)
    (h' : ¬ c → Keeps I Q op') : Keeps I Q (if c then op else op') := by
  by_cases hc : c
  · rw [if_pos hc]
    exact h hc
  · rw [if_neg hc]
    exact h' hc

lemma keeps_lift {r : Except ε α} (h : ∀ a, r = .ok a → Q a) :
    Keeps I Q (liftM r : Operation σ ε α) := by
  intro s a s' hs hrun
  cases r with
  | error e => cases hrun
  | ok a' =>
    cases hrun
    exact ⟨hs, h a rfl⟩

/-! ### Exceptions of operations -/

section

variable {E : ε → Prop} {op : Operation σ ε α} {f : α → Operation σ ε β} {x : Except ε α} {s : σ}

lemma throwsOnly_lift_iff : ThrowsOnly E ((liftM x : Operation σ ε α) s) ↔ ThrowsOnly E x := by
  rw [lift_run]
  cases x with
  | error e => exact throwsOnly_error_iff.trans throwsOnly_error_iff.symm
  | ok a => exact iff_of_true (throwsOnly_ok _) (throwsOnly_ok a)

/-- An operation that returns in every state. -/
def Total (op : Operation σ ε α) : Prop := ∀ s, ∃ r, op s = .ok r

lemma Total.throwsOnly (h : Total op) : ThrowsOnly E (op s) := by
  obtain ⟨r, hr⟩ := h s
  rw [hr]
  exact throwsOnly_ok r

lemma total_pure (a : α) : Total (pure a : Operation σ ε α) := fun s => ⟨(a, s), rfl⟩

lemma Total.bind (h : Total op) (hf : ∀ a, Total (f a)) : Total (op >>= f) := by
  intro s
  obtain ⟨⟨a, s'⟩, hop⟩ := h s
  obtain ⟨⟨b, s''⟩, hb⟩ := hf a s'
  exact ⟨(b, s''), bind_run_eq_ok.mpr ⟨a, s', hop, hb⟩⟩

lemma Total.mapM {f : α → Operation σ ε β} (h : ∀ a, Total (f a)) (as : List α) :
    Total (as.mapM f) := by
  induction as with
  | nil => exact total_pure []
  | cons a as ih =>
    rw [List.mapM_cons]
    exact (h a).bind fun b => ih.bind fun bs => total_pure (b :: bs)

/-- Nothing else is thrown behind the operation. -/
lemma throwsOnly_bind_of_forall (hf : ∀ a s, ThrowsOnly E (f a s)) :
    ThrowsOnly E ((op >>= f) s) ↔ ThrowsOnly E (op s) := by
  change ThrowsOnly E (op s >>= fun r => f r.1 r.2) ↔ _
  rw [throwsOnly_bind_iff]
  exact and_iff_left fun r _ => hf r.1 r.2

/-- A check may throw its exception. -/
lemma throwsOnly_check_iff {c : Prop} [Decidable c] {e : ε} (he : E e)
    {f : Unit → Operation σ ε α} :
    ThrowsOnly E ((if c then throw e >>= f else f ()) s) ↔ (¬ c → ThrowsOnly E (f () s)) := by
  by_cases hc : c
  · rw [if_pos hc]
    exact iff_of_true (throwsOnly_error_iff.mpr he) fun h => absurd hc h
  · rw [if_neg hc]
    exact ⟨fun h _ => h, fun h => h hc⟩

end

end Operation

end Program
