import Violet.Thread.Semaphore
import Violet.Transition.Run

/-!
# Callers of a semaphore

Callers acquire a permit, give up waiting for it, and release it once they have it. A caller that
gives up stays in the queue, and the permit that a later `release` hands to it is lost. As long as
no permit is handed to such a caller, the permits held and the free permits add up to `maxCount`.
-/

namespace Thread

open Transition

structure Callers where
  sem : Semaphore
  phases : List Phase
  deriving DecidableEq, Repr

inductive CallerEvent where
  /-- A new caller calls `acquire`. -/
  | acquire
  /-- The future that the caller waits for times out. -/
  | abandon (i : ℕ)
  | release (i : ℕ)
  deriving DecidableEq, Repr

def Callers.step (s : Callers) : CallerEvent → Option Callers
  | .acquire =>
    let r := s.sem.acquire s.phases.length
    some ⟨r.1, s.phases ++ [if r.2 then .holding else .waiting]⟩
  | .abandon i =>
    if s.phases[i]? = some .waiting then some { s with phases := s.phases.set i .left } else none
  | .release i =>
    if s.phases[i]? = some .holding then
      let r := s.sem.release
      some ⟨r.1, complete (s.phases.set i .out) r.2⟩
    else none

def Callers.init (maxCount : ℤ) : Callers := ⟨{ maxCount := maxCount }, []⟩

/-- The permits held by live callers and the free permits add up. -/
def Callers.Conserved (s : Callers) (maxCount : ℤ) : Prop :=
  s.phases.count .holding + (s.sem.maxCount - s.sem.currentCount) = maxCount

/-- A release does not find a caller that has given up in front of the queue. -/
def HandsOver (s : Callers) : CallerEvent → Prop
  | .release _ => ∀ j ∈ s.sem.waitQueue.head?, s.phases[j]? ≠ some .left
  | _ => True

instance (s : Callers) (e : CallerEvent) : Decidable (HandsOver s e) :=
  match e with
  | .release _ => inferInstanceAs (Decidable (∀ j ∈ s.sem.waitQueue.head?, _))
  | .acquire | .abandon _ => .isTrue trivial

variable {s t : Callers} {e : CallerEvent} {lost : ℕ} {maxCount : ℤ}

/-- A step loses a permit exactly when the guard fails. -/
lemma Callers.step_accounts (h : Accounts s.sem s.phases lost) (hs : s.step e = some t) :
    t.sem.maxCount = s.sem.maxCount ∧
      (HandsOver s e ∧ Accounts t.sem t.phases lost ∨
        ¬ HandsOver s e ∧ Accounts t.sem t.phases (lost + 1)) := by
  cases e with
  | acquire =>
    cases hs
    exact ⟨by simp, .inl ⟨trivial, h.acquire⟩⟩
  | abandon i =>
    simp only [step, Option.ite_none_right_eq_some] at hs
    obtain ⟨hi, hs⟩ := hs
    cases hs
    exact ⟨rfl, .inl ⟨trivial, h.leave hi⟩⟩
  | release i =>
    simp only [step, Option.ite_none_right_eq_some] at hs
    obtain ⟨hi, hs⟩ := hs
    cases hs
    refine ⟨by simp, ?_⟩
    rcases h.release hi with ⟨hw, hacc⟩ | ⟨⟨j, hj, hl⟩, hacc⟩
    · refine .inl ⟨fun j hj hl => ?_, hacc⟩
      rw [hw j hj] at hl
      cases hl
    · exact .inr ⟨fun hg => hg j hj hl, hacc⟩

/-- The semaphore keeps its size, and no permit is lost while every release finds a live caller in
front of the queue, or none. -/
lemma Callers.accounts_of_handsOver (h : Reaches step HandsOver (init maxCount) s) :
    s.sem.maxCount = maxCount ∧ Accounts s.sem s.phases 0 := by
  refine h.invariant (P := fun t => t.sem.maxCount = maxCount ∧ Accounts t.sem t.phases 0)
    ⟨rfl, accounts_nil maxCount⟩ ?_
  rintro t e u ⟨hmax, hacc⟩ hg hs
  obtain ⟨hmax', hcases⟩ := step_accounts hacc hs
  exact ⟨hmax'.trans hmax, (hcases.resolve_right fun h => h.1 hg).2⟩

/-- Permits are conserved in every run in which no release hands its permit to a caller that has
given up. When nobody holds one, `maxCount` further calls are complete at once. -/
theorem Callers.conserved_of_handsOver (maxCount : ℤ) (s : Callers)
    (h : Reaches step HandsOver (init maxCount) s) :
    s.Conserved maxCount ∧ (s.phases.count .holding = 0 →
      ∀ n : ℕ, (n : ℤ) ≤ maxCount → s.sem.GrantsAtOnce n) := by
  obtain ⟨hmax, hacc⟩ := accounts_of_handsOver h
  have hcount := hacc.count
  refine ⟨?_, fun hfree n hn => Semaphore.grantsAtOnce ?_⟩
  · rw [Conserved, hcount]
    omega
  · rw [hcount, hfree, hmax]
    simpa using hn

theorem Callers.conserved_of_handsOver_twice :
    (⟨⟨1, 0, []⟩, [.out, .out]⟩ : Callers).Conserved 1 ∧
      (⟨1, 0, []⟩ : Semaphore).GrantsAtOnce 1 := by
  let events : List CallerEvent := [.acquire, .acquire, .release 0, .release 1]
  have hrun : run step HandsOver (init 1) events = some ⟨⟨1, 0, []⟩, [.out, .out]⟩ := by decide
  obtain ⟨hconserved, hatonce⟩ := conserved_of_handsOver 1 _ (reaches_of_run hrun)
  exact ⟨hconserved, hatonce (by decide) 1 (by decide)⟩

/-- A caller gives up behind another, whose permit is then lost. -/
theorem Callers.not_conserved_of_abandon :
    ¬ ∀ s, Reaches step anyEvent (init 1) s → s.Conserved 1 := by
  intro h
  let events : List CallerEvent := [.acquire, .acquire, .abandon 1, .release 0]
  have hrun : run step anyEvent (init 1) events = some ⟨⟨1, 1, []⟩, [.out, .left]⟩ := by decide
  exact absurd (h _ (reaches_of_run hrun)) (by unfold Conserved; decide)

/-- Conversely, a lost permit stays lost: where permits are conserved, every release of the run has
handed its permit to a live caller. -/
theorem Callers.handsOver_of_conserved (h : Reaches step anyEvent (init maxCount) s)
    (hs : s.Conserved maxCount) : Reaches step HandsOver (init maxCount) s := by
  have hexists : s.sem.maxCount = maxCount ∧ ∃ lost, Accounts s.sem s.phases lost ∧
      (lost = 0 → Reaches step HandsOver (init maxCount) s) := by
    clear hs
    induction h with
    | refl => exact ⟨rfl, 0, accounts_nil maxCount, fun _ => .refl⟩
    | @tail t u e _ _ hstep ih =>
      obtain ⟨hmax, lost, hacc, hlost⟩ := ih
      obtain ⟨hmax', hcases⟩ := step_accounts hacc hstep
      refine ⟨hmax'.trans hmax, ?_⟩
      rcases hcases with ⟨hg, hacc'⟩ | ⟨-, hacc'⟩
      · exact ⟨lost, hacc', fun h0 => .tail (hlost h0) hg hstep⟩
      · exact ⟨lost + 1, hacc', fun h0 => absurd h0 (by omega)⟩
  obtain ⟨hmax, lost, hacc, hreach⟩ := hexists
  refine hreach ?_
  have := hacc.count
  rw [Conserved] at hs
  omega

end Thread
