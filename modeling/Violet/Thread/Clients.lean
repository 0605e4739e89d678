import Violet.Thread.Semaphore
import Mathlib.Logic.Function.Basic

/-!
# Clients of several semaphores

The clients of a family of semaphores are kept in one list. A client deals with one semaphore at
most, so the accounts of all semaphores can be balanced at the same time: an operation on one of
them leaves the others as they are.
-/

namespace Thread

variable {κ α : Type*}

/-- The client whose future is completed goes on. -/
def wakeUp (wake : α → α) (clients : List α) : Option ℕ → List α
  | none => clients
  | some j => clients.modify j wake

lemma mem_wakeUp {wake : α → α} {clients : List α} {woken : Option ℕ} {a : α}
    (h : a ∈ wakeUp wake clients woken) : a ∈ clients ∨ ∃ b ∈ clients, wake b = a := by
  cases woken with
  | none => exact .inl h
  | some j =>
    rw [wakeUp, List.modify_eq_set_getElem?] at h
    cases hj : clients[j]? with
    | none => exact .inl (by simpa [hj] using h)
    | some b =>
      simp only [hj, Option.map_eq_map, Option.map_some, Option.getD_some] at h
      exact (List.mem_or_eq_of_mem_set h).imp_right fun h => ⟨b, List.mem_of_getElem? hj, h.symm⟩

lemma map_wakeUp {phase : α → Phase} {wake : α → α}
    (hwake : ∀ a, phase (wake a) = if phase a = .waiting then .holding else phase a)
    (clients : List α) (woken : Option ℕ) :
    (wakeUp wake clients woken).map phase = complete (clients.map phase) woken := by
  cases woken with
  | none => rfl
  | some j =>
    rw [wakeUp, complete, List.getElem?_map, List.modify_eq_set_getElem?]
    cases hj : clients[j]? with
    | none => simp
    | some a =>
      obtain ⟨hlen, rfl⟩ := List.getElem?_eq_some_iff.mp hj
      simp only [Option.map_eq_map, Option.map_some, Option.getD_some, Option.some.injEq,
        List.map_set, hwake]
      split_ifs with hw
      · rfl
      · rw [← List.map_set, List.set_getElem_self]

lemma complete_eq_self {ps : List Phase} {woken : Option ℕ}
    (h : ∀ j ∈ woken, ps[j]? ≠ some .waiting) : complete ps woken = ps := by
  cases woken with
  | none => rfl
  | some j => exact if_neg (h j rfl)

/-- What the clients of the semaphores are doing, and how one of them goes on with a permit. -/
structure Clients (κ α : Type*) where
  phase : κ → α → Phase
  wake : α → α
  phase_wake : ∀ k a, phase k (wake a) = if phase k a = .waiting then .holding else phase k a
  /-- A client deals with one semaphore at most. -/
  eq_of_ne_out : ∀ {a k k'}, phase k a ≠ .out → phase k' a ≠ .out → k = k'

namespace Clients

variable (C : Clients κ α)

/-- The accounts of all semaphores balance. -/
def Balanced (sems : κ → Semaphore) (clients : List α) (lost : κ → ℕ) : Prop :=
  ∀ k, Accounts (sems k) (clients.map (C.phase k)) (lost k)

variable {C} {sems : κ → Semaphore} {clients : List α} {lost : κ → ℕ} {k k' : κ} {a a' : α} {i : ℕ}

lemma phase_eq_out (h : C.phase k a ≠ .out) (hne : k' ≠ k) : C.phase k' a = .out := by
  by_contra h'
  exact hne (C.eq_of_ne_out h' h)

lemma getElem?_map_phase (h : clients[i]? = some a) :
    (clients.map (C.phase k))[i]? = some (C.phase k a) := by
  rw [List.getElem?_map, h, Option.map_some]

namespace Balanced

lemma append (h : C.Balanced sems clients lost) (hout : ∀ k, C.phase k a = .out) :
    C.Balanced sems (clients ++ [a]) lost := by
  intro k
  rw [List.map_append, List.map_singleton, hout]
  exact (h k).append_out

/-- A new client of one of the semaphores. -/
lemma acquire [DecidableEq κ] (h : C.Balanced sems clients lost) {client : Bool → α}
    (hclient : ∀ b, C.phase k (client b) = if b then .holding else .waiting) :
    C.Balanced (Function.update sems k ((sems k).acquire clients.length).1)
      (clients ++ [client ((sems k).acquire clients.length).2]) lost := by
  intro k'
  rw [List.map_append, List.map_singleton]
  by_cases hk : k' = k
  · subst hk
    rw [Function.update_self, hclient]
    have hacc := (h k').acquire
    rwa [List.length_map] at hacc
  · rw [Function.update_of_ne hk, phase_eq_out ?_ hk]
    · exact (h k').append_out
    · rw [hclient]
      split_ifs <;> decide

/-- A client goes on without a word to the semaphores. -/
lemma set (h : C.Balanced sems clients lost) (hi : clients[i]? = some a)
    (hphase : ∀ k, C.phase k a' = C.phase k a) : C.Balanced sems (clients.set i a') lost := by
  intro k
  obtain ⟨hlen, rfl⟩ := List.getElem?_eq_some_iff.mp hi
  rw [List.map_set, hphase, ← List.map_set, List.set_getElem_self]
  exact h k

/-- A client ends and takes its permit along. -/
lemma crash [DecidableEq κ] (h : C.Balanced sems clients lost) (hi : clients[i]? = some a)
    (hk : C.phase k a = .holding) (hout : ∀ k, C.phase k a' = .out) :
    C.Balanced sems (clients.set i a') (Function.update lost k (lost k + 1)) := by
  intro k'
  by_cases hkk : k' = k
  · subst hkk
    rw [Function.update_self, List.map_set, hout]
    exact (h k').crash (hk ▸ getElem?_map_phase hi)
  · rw [Function.update_of_ne hkk]
    have hout' : C.phase k' a = .out := phase_eq_out (by rw [hk]; decide) hkk
    obtain ⟨hlen, rfl⟩ := List.getElem?_eq_some_iff.mp hi
    rw [List.map_set, hout, ← hout', ← List.map_set, List.set_getElem_self]
    exact h k'

/-- A client gives its permit back. When no client has left the queue, nothing is lost. -/
lemma release [DecidableEq κ] (h : C.Balanced sems clients lost) (hi : clients[i]? = some a)
    (hk : C.phase k a = .holding) (hout : ∀ k, C.phase k a' = .out)
    (hleft : ∀ a, C.phase k a ≠ .left) :
    C.Balanced (Function.update sems k (sems k).release.1)
      (wakeUp C.wake (clients.set i a') (sems k).release.2) lost := by
  have hi' : (clients.map (C.phase k))[i]? = some .holding := hk ▸ getElem?_map_phase hi
  have hstay {j : ℕ} (hj : (clients.map (C.phase k))[j]? = some .left) : False := by
    rw [List.getElem?_map] at hj
    obtain ⟨a, -, ha⟩ := Option.map_eq_some_iff.mp hj
    exact hleft a ha
  intro k'
  rw [map_wakeUp (C.phase_wake k'), List.map_set, hout]
  by_cases hkk : k' = k
  · subst hkk
    rw [Function.update_self]
    rcases (h k').release hi' with ⟨-, hacc⟩ | ⟨⟨j, -, hj⟩, -⟩
    · exact hacc
    · exact absurd hj hstay
  · rw [Function.update_of_ne hkk]
    have hout' : C.phase k' a = .out := phase_eq_out (by rw [hk]; decide) hkk
    have hset : (clients.map (C.phase k')).set i .out = clients.map (C.phase k') := by
      obtain ⟨hlen, rfl⟩ := List.getElem?_eq_some_iff.mp hi
      rw [← hout', ← List.map_set, List.set_getElem_self]
    rw [hset, complete_eq_self]
    · exact h k'
    intro j hj hwaiting
    have hqueue : j ∈ (sems k).waitQueue := by
      rw [Semaphore.snd_release] at hj
      exact List.mem_of_mem_head? hj
    rw [List.getElem?_map] at hwaiting
    obtain ⟨b, hb, hwaiting⟩ := Option.map_eq_some_iff.mp hwaiting
    have hbk : C.phase k b ≠ .out := by
      intro hbk
      have hb' : (clients.map (C.phase k))[j]? = some .out := hbk ▸ getElem?_map_phase hb
      rcases (h k).queued j hqueue with hq | hq <;> rw [hb'] at hq <;> cases hq
    rw [phase_eq_out hbk hkk] at hwaiting
    cases hwaiting

end Balanced

end Clients

end Thread
