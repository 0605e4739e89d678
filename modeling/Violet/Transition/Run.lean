import Mathlib.Data.List.Basic
import Mathlib.Tactic.Lemma

/-!
# Runs of a transition system

A system takes an event in a state, or refuses it. A state is reached from another by events that
are taken one after the other; a guard restricts the events that a run may take in each state. What
holds in the first state and is kept by every guarded step holds in all states of guarded runs.
-/

namespace Transition

variable {σ ε : Type*} {step : σ → ε → Option σ} {guard guard' : σ → ε → Prop}

/-- `t` is reached from `s` by events that the system takes and the guard admits. -/
inductive Reaches (step : σ → ε → Option σ) (guard : σ → ε → Prop) (s : σ) : σ → Prop where
  | refl : Reaches step guard s s
  | tail {t u : σ} {e : ε} (h : Reaches step guard s t) (hg : guard t e) (hs : step t e = some u) :
      Reaches step guard s u

/-- No restriction. -/
def anyEvent (_ : σ) (_ : ε) : Prop := True

namespace Reaches

variable {s t u : σ}

/-- A property of the first state that every guarded step keeps. -/
theorem invariant {P : σ → Prop} (h : Reaches step guard s t) (h0 : P s)
    (hstep : ∀ t e u, P t → guard t e → step t e = some u → P u) : P t := by
  induction h with
  | refl => exact h0
  | tail _ hg hs ih => exact hstep _ _ _ ih hg hs

lemma mono (h : Reaches step guard s t) (hg : ∀ t e, guard t e → guard' t e) :
    Reaches step guard' s t := by
  induction h with
  | refl => exact refl
  | tail _ hge hs ih => exact tail ih (hg _ _ hge) hs

lemma trans (h : Reaches step guard s t) (h' : Reaches step guard t u) :
    Reaches step guard s u := by
  induction h' with
  | refl => exact h
  | tail _ hg hs ih => exact tail ih hg hs

/-- A state that is reached is the first one, or is reached by way of a successor of it. -/
lemma cases_head (h : Reaches step guard s t) :
    s = t ∨ ∃ e u, guard s e ∧ step s e = some u ∧ Reaches step guard u t := by
  induction h with
  | refl => exact .inl rfl
  | tail _ hg hs ih =>
    rcases ih with rfl | ⟨e, u, hge, hse, hu⟩
    · exact .inr ⟨_, _, hg, hs, refl⟩
    · exact .inr ⟨e, u, hge, hse, tail hu hg hs⟩

/-- Without a choice of events, of two reached states one is reached from the other. -/
lemma linear [Subsingleton ε] (h : Reaches step guard s t) (h' : Reaches step guard s u) :
    Reaches step guard t u ∨ Reaches step guard u t := by
  induction h with
  | refl => exact .inl h'
  | tail _ hg hs ih =>
    rcases ih with h | h
    · rcases h.cases_head with rfl | ⟨e, v, -, hs', hv⟩
      · exact .inr (tail refl hg hs)
      · rw [Subsingleton.elim e _, hs] at hs'
        cases hs'
        exact .inl hv
    · exact .inr (tail h hg hs)

/-- A system that comes closer to a goal, as long as it is not there, gets there. -/
lemma exists_of_measure {P Q : σ → Prop} (μ : σ → ℕ)
    (hstep : ∀ s, P s → Q s ∨ ∃ e u, guard s e ∧ step s e = some u ∧ P u ∧ μ u < μ s) (hs : P s) :
    ∃ t, Reaches step guard s t ∧ Q t := by
  induction hn : μ s using Nat.strongRecOn generalizing s with
  | ind n ih =>
    rcases hstep s hs with hq | ⟨e, u, hg, hse, hu, hlt⟩
    · exact ⟨s, refl, hq⟩
    · obtain ⟨t, ht, hq⟩ := ih (μ u) (hn ▸ hlt) hu rfl
      exact ⟨t, (tail refl hg hse).trans ht, hq⟩

end Reaches

instance (s : σ) (e : ε) : Decidable (anyEvent s e) := .isTrue trivial

/-- Take the events one after the other, as long as the guard admits them. -/
def run (step : σ → ε → Option σ) (guard : σ → ε → Prop) [∀ s e, Decidable (guard s e)] (s : σ)
    (es : List ε) : Option σ :=
  es.foldlM (fun s e => if guard s e then step s e else none) s

lemma reaches_of_run [∀ s e, Decidable (guard s e)] {s t : σ} {es : List ε}
    (h : run step guard s es = some t) : Reaches step guard s t := by
  induction es generalizing s with
  | nil =>
    cases h
    exact .refl
  | cons e es ih =>
    obtain ⟨u, hu, hrest⟩ := Option.bind_eq_some_iff.mp h
    obtain ⟨hg, hs⟩ := Option.ite_none_right_eq_some.mp hu
    exact (Reaches.tail .refl hg hs).trans (ih hrest)

end Transition
