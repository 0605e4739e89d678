import Violet.Transition.Run

/-!
# Programs over a state

A program carries out operations on a state, which may raise an exception, and repeats a body until
it is told to stop. It is run step by step, so that one can speak of all states that a run reaches,
also of a run that never ends.
-/

namespace Program

/-- Programs over the states `σ` with the exceptions `ε`. An operation has a label in `ι`. -/
inductive Prog (σ ι ε : Type) : Type → Type 1 where
  | ret {α : Type} (a : α) : Prog σ ι ε α
  | raise {α : Type} (e : ε) : Prog σ ι ε α
  | act {α β : Type} (l : ι) (op : σ → Except ε (β × σ)) (k : β → Prog σ ι ε α) : Prog σ ι ε α
  | iterate {α β γ : Type} (body : β → Prog σ ι ε (β ⊕ γ)) (b : β) (k : γ → Prog σ ι ε α) :
      Prog σ ι ε α

namespace Prog

variable {σ ι ε α β γ : Type}

def bind : Prog σ ι ε α → (α → Prog σ ι ε β) → Prog σ ι ε β
  | ret a, g => g a
  | raise e, _ => raise e
  | act l op k, g => act l op fun b => (k b).bind g
  | iterate body b k, g => iterate body b fun c => (k c).bind g

instance : Monad (Prog σ ι ε) where
  pure := ret
  bind := bind

@[simp] lemma monad_pure (a : α) : (pure a : Prog σ ι ε α) = ret a := rfl

@[simp] lemma monad_bind (p : Prog σ ι ε α) (g : α → Prog σ ι ε β) : p >>= g = p.bind g := rfl

/-- One operation. -/
def perform (l : ι) (op : σ → Except ε (α × σ)) : Prog σ ι ε α := act l op ret

/-- A body that is repeated until it returns a result. -/
def loop (body : β → Prog σ ι ε (β ⊕ γ)) (b : β) : Prog σ ι ε γ := iterate body b ret

/-- What comes behind the body. -/
def again (body : β → Prog σ ι ε (β ⊕ γ)) (k : γ → Prog σ ι ε α) : β ⊕ γ → Prog σ ι ε α
  | .inl b => iterate body b k
  | .inr c => k c

lemma bind_ret (p : Prog σ ι ε α) : p.bind ret = p := by
  induction p with
  | ret a => rfl
  | raise e => rfl
  | act l op k ih => exact congrArg (act l op) (funext ih)
  | iterate body b k _ ih => exact congrArg (iterate body b) (funext ih)

lemma bind_bind (p : Prog σ ι ε α) (g : α → Prog σ ι ε β) (h : β → Prog σ ι ε γ) :
    (p.bind g).bind h = p.bind fun a => (g a).bind h := by
  induction p with
  | ret a => rfl
  | raise e => rfl
  | act l op k ih => exact congrArg (act l op) (funext fun b => ih b g)
  | iterate body b k _ ih => exact congrArg (iterate body b) (funext fun c => ih c g)

lemma again_bind {δ : Type} (body : β → Prog σ ι ε (β ⊕ γ)) (k : γ → Prog σ ι ε α)
    (g : α → Prog σ ι ε δ) (r : β ⊕ γ) :
    again body (fun c => (k c).bind g) r = (again body k r).bind g := by
  cases r <;> rfl

/-! ### Runs -/

/-- The label of the operation that is carried out next. -/
def label : Prog σ ι ε α → Option ι
  | act l _ _ => some l
  | _ => none

/-- One step. -/
def next : Prog σ ι ε α × σ → Option (Prog σ ι ε α × σ)
  | (ret _, _) | (raise _, _) => none
  | (act _ op k, s) =>
    match op s with
    | .ok (b, s') => some (k b, s')
    | .error _ => none
  | (iterate body b k, s) => some ((body b).bind (again body k), s)

/-- The exception that stops the program here. -/
def raised : Prog σ ι ε α × σ → Option ε
  | (raise e, _) => some e
  | (act _ op _, s) =>
    match op s with
    | .ok _ => none
    | .error e => some e
  | _ => none

/-- A run that is over has returned, or an exception has stopped it. -/
lemma ret_or_raised {c : Prog σ ι ε α × σ} (h : next c = none) :
    (∃ a, c.1 = ret a) ∨ ∃ e, raised c = some e := by
  obtain ⟨p, s⟩ := c
  cases p with
  | ret a => exact .inl ⟨a, rfl⟩
  | raise e => exact .inr ⟨e, rfl⟩
  | act l op k =>
    rw [next] at h
    cases hop : op s with
    | ok r =>
      rw [hop] at h
      cases h
    | error e =>
      refine .inr ⟨e, ?_⟩
      rw [raised, hop]
  | iterate body b k => cases h

lemma next_eq_none_of_raised {c : Prog σ ι ε α × σ} {e : ε} (h : raised c = some e) :
    next c = none := by
  obtain ⟨p, s⟩ := c
  cases p with
  | ret a => rfl
  | raise e' => rfl
  | act l op k =>
    rw [raised] at h
    rw [next]
    cases hop : op s with
    | ok r =>
      rw [hop] at h
      cases h
    | error e' => rfl
  | iterate body b k => cases h

/-- Steps of which the guard admits all operations. -/
def Admits (guard : ι → σ → Prop) (c : Prog σ ι ε α × σ) (_ : Unit) : Prop :=
  ∀ l, c.1.label = some l → guard l c.2

/-- `c'` is reached from `c` in a run of which the guard admits all operations. -/
def Reaches (guard : ι → σ → Prop) (c c' : Prog σ ι ε α × σ) : Prop :=
  Transition.Reaches (fun c (_ : Unit) => next c) (Admits guard) c c'

lemma step_reaches {guard : ι → σ → Prop} {c c' : Prog σ ι ε α × σ} (hg : Admits guard c ())
    (hc : next c = some c') : Reaches guard c c' :=
  Transition.Reaches.tail .refl hg hc

/-- All operations. -/
def anyLabel (_ : ι) (_ : σ) : Prop := True

/-- The program completes with a result. -/
def Completes (p : Prog σ ι ε α) (s : σ) (a : α) (s' : σ) : Prop :=
  Reaches anyLabel (p, s) (ret a, s')

lemma completes_ret {a b : α} {s s' : σ} :
    (ret a : Prog σ ι ε α).Completes s b s' ↔ a = b ∧ s = s' := by
  constructor
  · intro h
    rcases Transition.Reaches.cases_head h with h | ⟨_, c, -, hc, -⟩
    · cases h
      exact ⟨rfl, rfl⟩
    · cases hc
  · rintro ⟨rfl, rfl⟩
    exact .refl

/-- An operation completes in one step. -/
lemma completes_perform {l : ι} {op : σ → Except ε (α × σ)} {a : α} {s s' : σ} :
    (perform l op).Completes s a s' ↔ op s = .ok (a, s') := by
  constructor
  · intro h
    rcases Transition.Reaches.cases_head h with h | ⟨_, c, -, hc, hrest⟩
    · cases h
    · cases hop : op s with
      | ok r =>
        simp only [perform, next, hop, Option.some.injEq] at hc
        subst hc
        obtain ⟨ha, hs⟩ := completes_ret.mp hrest
        rw [← ha, ← hs]
      | error e =>
        simp only [perform, next, hop] at hc
        cases hc
  · intro h
    refine step_reaches (fun _ _ => trivial) ?_
    simp only [perform, next, h]

lemma not_completes_raise {e : ε} {a : α} {s s' : σ} :
    ¬ (raise e : Prog σ ι ε α).Completes s a s' := by
  intro h
  rcases Transition.Reaches.cases_head h with h | ⟨_, c, -, hc, -⟩
  · cases h
  · cases hc

/-- A step of the first program of a composition. -/
lemma next_bind {p p' : Prog σ ι ε α} {s s' : σ} (g : α → Prog σ ι ε β)
    (h : next (p, s) = some (p', s')) : next (p.bind g, s) = some (p'.bind g, s') := by
  cases p with
  | ret a => cases h
  | raise e => cases h
  | act l op k =>
    simp only [next, bind] at h ⊢
    cases hop : op s with
    | error e =>
      rw [hop] at h
      cases h
    | ok r =>
      rw [hop] at h
      cases h
      rfl
  | iterate body b k =>
    cases h
    simp only [next, bind, bind_bind]
    exact congrArg (fun f => some ((body b).bind f, s)) (funext (again_bind body k g))

/-- A composition completes when its parts do. -/
lemma Completes.bind {p : Prog σ ι ε α} {g : α → Prog σ ι ε β} {a : α} {b : β} {s t s' : σ}
    (h : p.Completes s a t) (hg : (g a).Completes t b s') : (p.bind g).Completes s b s' := by
  have hbind {c : Prog σ ι ε α × σ} (h : Reaches anyLabel (p, s) c) :
      Reaches anyLabel (p.bind g, s) (c.1.bind g, c.2) := by
    induction h with
    | refl => exact .refl
    | tail _ _ hc ih => exact ih.trans (step_reaches (fun _ _ => trivial) (next_bind g hc))
  exact (hbind h).trans hg

lemma completes_loop_stop {body : β → Prog σ ι ε (β ⊕ γ)} {b : β} {c : γ} {s s' : σ}
    (h : (body b).Completes s (.inr c) s') : (loop body b).Completes s c s' :=
  (step_reaches (fun _ _ => trivial) rfl).trans (h.bind (completes_ret.mpr ⟨rfl, rfl⟩))

lemma completes_loop_again {body : β → Prog σ ι ε (β ⊕ γ)} {b b' : β} {c : γ} {s t s' : σ}
    (h : (body b).Completes s (.inl b') t) (hrest : (loop body b').Completes t c s') :
    (loop body b).Completes s c s' :=
  (step_reaches (fun _ _ => trivial) rfl).trans (h.bind hrest)

/-- The run of the program stops, by a result or by an exception. -/
def Ends (p : Prog σ ι ε α) (s : σ) : Prop :=
  ∃ c, Reaches anyLabel (p, s) c ∧ next c = none

lemma ends_ret (a : α) (s : σ) : (ret a : Prog σ ι ε α).Ends s := ⟨_, .refl, rfl⟩

lemma ends_of_next {p : Prog σ ι ε α} {s : σ} {c : Prog σ ι ε α × σ} (h : next (p, s) = some c)
    (hc : c.1.Ends c.2) : p.Ends s := by
  obtain ⟨c', hreaches, hend⟩ := hc
  exact ⟨c', (step_reaches (fun _ _ => trivial) h).trans hreaches, hend⟩

lemma ends_act {l : ι} {op : σ → Except ε (β × σ)} {k : β → Prog σ ι ε α} {s : σ}
    (h : ∀ b s', op s = .ok (b, s') → (k b).Ends s') : (act l op k).Ends s := by
  cases hop : op s with
  | error e =>
    refine ⟨_, .refl, ?_⟩
    rw [next, hop]
  | ok r =>
    refine ends_of_next (c := (k r.1, r.2)) ?_ (h r.1 r.2 hop)
    rw [next, hop]

/-- At most `n` steps. -/
def exec : ℕ → Prog σ ι ε α × σ → Prog σ ι ε α × σ
  | 0, c => c
  | n + 1, c =>
    match next c with
    | some c' => exec n c'
    | none => c

lemma reaches_exec (n : ℕ) (c : Prog σ ι ε α × σ) : Reaches anyLabel c (exec n c) := by
  induction n generalizing c with
  | zero => exact .refl
  | succ n ih =>
    rw [exec]
    cases hc : next c with
    | none => exact .refl
    | some c' =>
      exact (step_reaches (fun _ _ => trivial) hc).trans (ih c')

/-- The operations of the first `n` steps pass a check. -/
def passes (check : ι → σ → Bool) : ℕ → Prog σ ι ε α × σ → Bool
  | 0, _ => true
  | n + 1, c =>
    c.1.label.all (fun l => check l c.2) &&
      match next c with
      | some c' => passes check n c'
      | none => true

lemma reaches_exec_of_passes {guard : ι → σ → Prop} {check : ι → σ → Bool}
    (hcheck : ∀ l s, check l s = true → guard l s) (n : ℕ) {c : Prog σ ι ε α × σ}
    (h : passes check n c = true) : Reaches guard c (exec n c) := by
  induction n generalizing c with
  | zero => exact .refl
  | succ n ih =>
    rw [passes, Bool.and_eq_true] at h
    rw [exec]
    cases hc : next c with
    | none => exact .refl
    | some c' =>
      rw [hc] at h
      refine (step_reaches (fun l hl => hcheck l _ ?_) hc).trans (ih h.2)
      rw [hl] at h
      exact h.1

end Prog

/-! ### Contracts -/

/-- What is to hold of the runs of a program whose operations the guard admits. -/
structure Contract (σ ι ε : Type) where
  guard : ι → σ → Prop
  /-- in every state -/
  always : σ → Prop
  /-- when an operation is about to be carried out -/
  before : ι → σ → Prop
  /-- of every exception -/
  raises : ε → Prop

namespace Contract

open Prog

variable {σ ι ε α β γ : Type} {C : Contract σ ι ε} {Q Q' : α → σ → Prop} {p : Prog σ ι ε α}
  {s : σ} {m n : ℕ}

/-- The contract is kept for `n` steps, and `Q` holds of the result. -/
def MeetsFor (C : Contract σ ι ε) (Q : α → σ → Prop) : ℕ → Prog σ ι ε α → σ → Prop
  | 0, _, _ => True
  | n + 1, p, s => C.always s ∧
    match p with
    | ret a => Q a s
    | raise e => C.raises e
    | act l op k => C.before l s ∧ (C.guard l s →
        match op s with
        | .ok (b, s') => MeetsFor C Q n (k b) s'
        | .error e => C.raises e)
    | iterate body b k => MeetsFor C Q n ((body b).bind (again body k)) s

/-- The contract is kept in all runs from `s`, and `Q` holds of the result. -/
def Meets (C : Contract σ ι ε) (Q : α → σ → Prop) (p : Prog σ ι ε α) (s : σ) : Prop :=
  ∀ n, C.MeetsFor Q n p s

lemma Meets.always (h : C.Meets Q p s) : C.always s := (h 1).1

lemma meets_ret {a : α} (hs : C.always s) (ha : Q a s) : C.Meets Q (ret a) s := by
  intro n
  cases n with
  | zero => trivial
  | succ n => exact ⟨hs, ha⟩

lemma meets_raise {e : ε} (hs : C.always s) (he : C.raises e) : C.Meets Q (raise e) s := by
  intro n
  cases n with
  | zero => trivial
  | succ n => exact ⟨hs, he⟩

lemma meets_perform {l : ι} {op : σ → Except ε (α × σ)} (hs : C.always s) (hl : C.before l s)
    (hok : ∀ a s', C.guard l s → op s = .ok (a, s') → C.always s' ∧ Q a s')
    (herror : ∀ e, C.guard l s → op s = .error e → C.raises e) : C.Meets Q (perform l op) s := by
  intro n
  cases n with
  | zero => trivial
  | succ n =>
    refine ⟨hs, hl, fun hg => ?_⟩
    cases hop : op s with
    | ok r =>
      obtain ⟨hs', ha⟩ := hok r.1 r.2 hg hop
      exact meets_ret hs' ha n
    | error e => exact herror e hg hop

lemma MeetsFor.bind {Q : β → σ → Prop} {g : α → Prog σ ι ε β} (h : C.MeetsFor Q' n p s)
    (hg : ∀ m ≤ n, ∀ a s', C.always s' → Q' a s' → C.MeetsFor Q m (g a) s') :
    C.MeetsFor Q n (p.bind g) s := by
  induction n generalizing p s with
  | zero => trivial
  | succ n ih =>
    have hg' : ∀ m ≤ n, ∀ a s', C.always s' → Q' a s' → C.MeetsFor Q m (g a) s' :=
      fun m hm => hg m (Nat.le_succ_of_le hm)
    obtain ⟨hs, h⟩ := h
    cases p with
    | ret a => exact hg (n + 1) (Nat.le_refl _) a s hs h
    | raise e => exact ⟨hs, h⟩
    | act l op k =>
      refine ⟨hs, h.1, fun hl => ?_⟩
      have hk := h.2 hl
      cases hop : op s with
      | ok r =>
        simp only [hop] at hk
        exact ih hk hg'
      | error e =>
        simp only [hop] at hk
        exact hk
    | iterate body b k =>
      refine ⟨hs, ?_⟩
      have heq : (body b).bind (again body fun c => (k c).bind g) =
          ((body b).bind (again body k)).bind g := by
        rw [bind_bind]
        exact congrArg _ (funext (again_bind body k g))
      show C.MeetsFor Q n ((body b).bind (again body fun c => (k c).bind g)) s
      rw [heq]
      exact ih h hg'

/-- The rule of composition. -/
theorem meets_bind {Q : β → σ → Prop} {g : α → Prog σ ι ε β} (h : C.Meets Q' p s)
    (hg : ∀ a s', C.always s' → Q' a s' → C.Meets Q (g a) s') : C.Meets Q (p.bind g) s :=
  fun n => (h n).bind fun m _ a s' hs' ha => hg a s' hs' ha m

/-- The rule of loops: the invariant `J` holds before each repetition. -/
theorem meets_loop {body : β → Prog σ ι ε (β ⊕ γ)} {b : β} {Q : γ → σ → Prop}
    (J : β → σ → Prop) (hJ : J b s)
    (hbody : ∀ b s, J b s → C.Meets (fun r s' => r.elim (J · s') (Q · s')) (body b) s) :
    C.Meets Q (loop body b) s := by
  intro n
  induction n using Nat.strongRecOn generalizing b s with
  | ind n ih =>
    cases n with
    | zero => trivial
    | succ n =>
      refine ⟨(hbody b s hJ).always, (hbody b s hJ n).bind fun m hm r s' hs' hr => ?_⟩
      cases r with
      | inl b' => exact ih m (Nat.lt_succ_of_le hm) hr
      | inr c => exact meets_ret hs' hr m

lemma Meets.mono (h : C.Meets Q' p s) (hQ : ∀ a s', C.always s' → Q' a s' → Q a s') :
    C.Meets Q p s := by
  have hbind : C.Meets Q (p.bind ret) s :=
    meets_bind h fun a s' hs' ha => meets_ret hs' (hQ a s' hs' ha)
  rwa [bind_ret] at hbind

/-- Nothing is asked for. -/
def any : Contract σ ι ε where
  guard := anyLabel
  always _ := True
  before _ _ := True
  raises _ := True

/-- A program that completes has no other result. -/
lemma meets_of_completes {a : α} {s' : σ} (h : p.Completes s a s') :
    any.Meets (fun b t => b = a ∧ t = s') p s := by
  intro n
  induction n generalizing p s with
  | zero => trivial
  | succ n ih =>
    refine ⟨trivial, ?_⟩
    rcases Transition.Reaches.cases_head h with h | ⟨_, c, -, hc, hrest⟩
    · cases h
      exact ⟨rfl, rfl⟩
    · cases p with
      | ret b => cases hc
      | raise e => cases hc
      | act l op k =>
        refine ⟨trivial, fun _ => ?_⟩
        rw [next] at hc
        cases hop : op s with
        | error e =>
          rw [hop] at hc
          cases hc
        | ok r =>
          rw [hop] at hc
          cases hc
          exact ih hrest
      | iterate body b k =>
        cases hc
        exact ih hrest

/-! ### What a contract says of a run -/

lemma Meets.step {c c' : Prog σ ι ε α × σ} (h : C.Meets Q c.1 c.2) (hg : Admits C.guard c ())
    (hc : next c = some c') : C.Meets Q c'.1 c'.2 := by
  obtain ⟨p, s⟩ := c
  intro n
  obtain ⟨-, hn⟩ := h (n + 1)
  cases p with
  | ret a => cases hc
  | raise e => cases hc
  | act l op k =>
    have hop := hn.2 (hg l rfl)
    rw [next] at hc
    cases hs : op s with
    | ok r =>
      simp only [hs] at hop hc
      cases hc
      exact hop
    | error e =>
      simp only [hs] at hc
      cases hc
  | iterate body b k =>
    cases hc
    exact hn

/-- The contract is kept in all states of the run. -/
theorem Meets.reaches {c : Prog σ ι ε α × σ} (h : C.Meets Q p s)
    (hc : Reaches C.guard (p, s) c) : C.Meets Q c.1 c.2 :=
  Transition.Reaches.invariant (P := fun c => C.Meets Q c.1 c.2) hc h
    fun _ _ _ ht hg hs => ht.step hg hs

lemma Meets.always_of_reaches {c : Prog σ ι ε α × σ} (h : C.Meets Q p s)
    (hc : Reaches C.guard (p, s) c) : C.always c.2 :=
  (h.reaches hc).always

lemma Meets.before_of_reaches {c : Prog σ ι ε α × σ} {l : ι} (h : C.Meets Q p s)
    (hc : Reaches C.guard (p, s) c) (hl : c.1.label = some l) : C.before l c.2 := by
  obtain ⟨-, hbefore⟩ := h.reaches hc 1
  obtain ⟨p', s'⟩ := c
  cases p' with
  | act l' op k =>
    cases hl
    exact hbefore.1
  | ret _ | raise _ | iterate _ _ _ => cases hl

lemma Meets.raises_of_reaches {c : Prog σ ι ε α × σ} {e : ε} (h : C.Meets Q p s)
    (hc : Reaches C.guard (p, s) c) (hg : Admits C.guard c ()) (he : raised c = some e) :
    C.raises e := by
  obtain ⟨-, hn⟩ := h.reaches hc 1
  obtain ⟨p', s'⟩ := c
  cases p' with
  | ret a => cases he
  | raise e' =>
    cases he
    exact hn
  | act l op k =>
    have hop := hn.2 (hg l rfl)
    rw [raised] at he
    cases hs : op s' with
    | ok r =>
      simp only [hs] at he
      cases he
    | error e' =>
      simp only [hs] at hop he
      cases he
      exact hop
  | iterate _ _ _ => cases he

lemma Meets.result {a : α} {s' : σ} (h : C.Meets Q p s) (hc : Reaches C.guard (p, s) (ret a, s')) :
    Q a s' :=
  (h.reaches hc 1).2

end Contract

end Program
