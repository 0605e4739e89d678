import Mathlib.Data.Finset.Card
import Mathlib.Data.Set.Operations
import Mathlib.Logic.Function.Iterate
import Mathlib.Tactic.Lemma

/-!
# Orbits of finite size

A function that is iterated over finitely many values comes back to where it has been: what it
reaches at all, it reaches in fewer steps than there are values. So a loop whose course depends on
finitely many values either ends in as many turns or has no end.
-/

namespace Transition

section

variable {α : Type*} {size : ℕ} {number : α → ℕ}

lemma exists_iterate_eq (hnumber : number.Injective) (hlt : ∀ x, number x < size) (f : α → α)
    (x : α) (n : ℕ) : ∃ m < size, f^[m] x = f^[n] x := by
  induction n using Nat.strongRecOn with
  | ind n ih =>
    rcases Nat.lt_or_ge n size with hn | hn
    · exact ⟨n, hn, rfl⟩
    · have hcard : (Finset.range size).card < (Finset.range (size + 1)).card := by simp
      have hmaps : ∀ i ∈ Finset.range (size + 1), number (f^[i] x) ∈ Finset.range size :=
        fun i _ => Finset.mem_range.mpr (hlt _)
      obtain ⟨i, hi, j, hj, hne, heq⟩ :=
        Finset.exists_ne_map_eq_of_card_lt_of_maps_to hcard hmaps
      rw [hnumber.eq_iff] at heq
      wlog hij : i < j generalizing i j
      · exact this j hj i hi hne.symm heq.symm (by omega)
      rw [Finset.mem_range] at hj
      obtain ⟨m, hm, hreach⟩ := ih (n - j + i) (by omega)
      refine ⟨m, hm, hreach.trans ?_⟩
      rw [Function.iterate_add_apply, heq, ← Function.iterate_add_apply,
        Nat.sub_add_cancel (by omega)]

end

/-! ### Loops -/

variable {σ : Type*} {next : σ → Option σ} {s t : σ} {n m size : ℕ} {key : σ → ℕ}

/-- The state in which a loop ends, if it does in less than so many turns. -/
def loop (next : σ → Option σ) : ℕ → σ → Option σ
  | 0, _ => none
  | fuel + 1, s => (next s).elim (some s) (loop next fuel)

lemma loop_succ_of_none (h : next s = none) : loop next (n + 1) s = some s := by rw [loop, h]; rfl

lemma loop_succ_of_some (h : next s = some t) : loop next (n + 1) s = loop next n t := by
  rw [loop, h]
  rfl

lemma loop_mono (h : loop next n s = some t) (hle : n ≤ m) : loop next m s = some t := by
  induction n generalizing s m with
  | zero => cases h
  | succ n ih =>
    obtain ⟨m, rfl⟩ : ∃ k, m = k + 1 := ⟨m - 1, by omega⟩
    cases hnext : next s with
    | none =>
      rw [loop_succ_of_none hnext] at h ⊢
      exact h
    | some u =>
      rw [loop_succ_of_some hnext] at h ⊢
      exact ih h (Nat.le_of_succ_le_succ hle)

lemma loop_eq_none_iff :
    loop next n s = none ↔ ∀ i < n, next ((fun s => (next s).getD s)^[i] s) ≠ none := by
  induction n generalizing s with
  | zero => simp [loop]
  | succ n ih =>
    cases hnext : next s with
    | none =>
      rw [loop_succ_of_none hnext]
      refine iff_of_false (Option.some_ne_none s) fun hall => ?_
      exact hall 0 (Nat.succ_pos n) hnext
    | some u =>
      have hu : (next s).getD s = u := by rw [hnext]; rfl
      rw [loop_succ_of_some hnext, ih]
      constructor
      · intro hall i hi
        cases i with
        | zero => exact hnext ▸ Option.some_ne_none u
        | succ i =>
          rw [Function.iterate_succ_apply, hu]
          exact hall i (Nat.lt_of_succ_lt_succ hi)
      · intro hall i hi
        have := hall (i + 1) (Nat.succ_lt_succ hi)
        rwa [Function.iterate_succ_apply, hu] at this

section

variable (hkey : ∀ s t, key s = key t → (next s).map key = (next t).map key)

include hkey

/-- One turn of the loop, seen by the number. -/
lemma key_getD_eq (h : key s = key t) : key ((next s).getD s) = key ((next t).getD t) := by
  have hmap := hkey s t h
  cases hs : next s with
  | none =>
    have ht : next t = none := by simpa [hs] using hmap.symm
    simp [ht, h]
  | some u =>
    obtain ⟨v, hv, huv⟩ : ∃ v, next t = some v ∧ key v = key u := by simpa [hs] using hmap.symm
    simp [hv, huv]

/-- Where the numbers have been equal, they are equal after any number of turns. -/
lemma exists_key_iterate_eq (hlt : ∀ s, key s < size) (s : σ) (n : ℕ) :
    ∃ m < size,
      key ((fun s => (next s).getD s)^[m] s) = key ((fun s => (next s).getD s)^[n] s) := by
  have hstep : ∀ i, (fun k : Set.range key => (⟨_, (next k.2.choose).getD k.2.choose, rfl⟩ :
      Set.range key))^[i] ⟨key s, s, rfl⟩ = ⟨_, (fun s => (next s).getD s)^[i] s, rfl⟩ := by
    intro i
    induction i with
    | zero => rfl
    | succ i ih =>
      rw [Function.iterate_succ_apply', ih]
      apply Subtype.ext
      rw [Function.iterate_succ_apply']
      exact key_getD_eq hkey (Exists.choose_spec (⟨_, rfl⟩ : ∃ t, key t = key _))
  obtain ⟨m, hm, heq⟩ := exists_iterate_eq Subtype.val_injective
    (fun k : Set.range key => k.2.choose_spec ▸ hlt k.2.choose) _ ⟨key s, s, rfl⟩ n
  refine ⟨m, hm, ?_⟩
  rw [hstep m, hstep n] at heq
  exact congrArg Subtype.val heq

/-- A loop whose course depends on a number that is bounded ends in as many turns, if it ends. -/
theorem loop_of_bounded (hlt : ∀ s, key s < size) (h : loop next n s = some t) :
    loop next size s = some t := by
  cases hsize : loop next size s with
  | some u =>
    rcases Nat.le_total n size with hle | hle
    · rw [← hsize, loop_mono h hle]
    · rw [← h, loop_mono hsize hle]
  | none =>
    rw [loop_eq_none_iff] at hsize
    have hnone : loop next n s = none := loop_eq_none_iff.mpr fun i _ hend => by
      obtain ⟨m, hm, heq⟩ := exists_key_iterate_eq hkey hlt s i
      have hmap := hkey _ _ heq
      rw [hend, Option.map_none, Option.map_eq_none_iff] at hmap
      exact hsize m hm hmap
    rw [hnone] at h
    cases h

end

end Transition
