import Mathlib.Data.Nat.ModEq
import Mathlib.Data.List.Basic
import Mathlib.Algebra.BigOperators.Group.List.Basic
import Mathlib.Tactic.Ring
import Mathlib.Tactic.Lemma

/-!
# Ones' complement sums

The sum of words is folded: what is carried out of a word is added to it again, until nothing is
carried. A fold keeps a number modulo the greatest word, and is zero for zero only. So the words
whose sum is completed by the complement of its fold have the greatest word as their own fold.
-/

namespace Wire

variable {b : ℕ}

lemma carry_lt {n : ℕ} (hb : 1 < b) (hn : n / b ≠ 0) : n % b + n / b < n := by
  have hlt : n / b < n / b * b := lt_mul_of_one_lt_right (Nat.pos_of_ne_zero hn) hb
  have hsplit := Nat.div_add_mod' n b
  omega

/-- Add what is carried out of a word of base `b` to the word, until nothing is carried. -/
def fold (b n : ℕ) : ℕ :=
  if _h : n / b = 0 ∨ b ≤ 1 then n else fold b (n % b + n / b)
termination_by n
decreasing_by
  obtain ⟨hn, hb⟩ := not_or.mp _h
  exact carry_lt (not_le.mp hb) hn

lemma fold_of_lt {n : ℕ} (h : n < b) : fold b n = n := by
  rw [fold, dif_pos (.inl (Nat.div_eq_of_lt h))]

/-- What is carried weighs one more than the greatest word. -/
lemma carry_modEq (hb : 1 < b) (n : ℕ) : n % b + n / b ≡ n [MOD (b - 1)] := by
  have hone : 1 ≡ b [MOD (b - 1)] := (Nat.modEq_iff_dvd' hb.le).mpr dvd_rfl
  calc n % b + n / b = n % b + n / b * 1 := by rw [mul_one]
    _ ≡ n % b + n / b * b [MOD (b - 1)] := (hone.mul_left _).add_left _
    _ = n := by rw [add_comm, Nat.div_add_mod']

theorem fold_modEq (hb : 1 < b) (n : ℕ) : fold b n ≡ n [MOD (b - 1)] := by
  fun_induction fold b n with
  | case1 => rfl
  | case2 n _ ih => exact ih.trans (carry_modEq hb n)

theorem fold_lt (hb : 1 < b) (n : ℕ) : fold b n < b := by
  fun_induction fold b n with
  | case1 n h => exact Nat.lt_of_div_eq_zero (by omega) (h.resolve_right (by omega))
  | case2 n _ ih => exact ih

lemma fold_pos {n : ℕ} (h : 0 < n) : 0 < fold b n := by
  fun_induction fold b n with
  | case1 => exact h
  | case2 n hn ih => exact ih (Nat.add_pos_right _ (Nat.pos_of_ne_zero (not_or.mp hn).1))

/-- A positive number that the greatest word divides folds to that word. -/
lemma fold_of_dvd (hb : 1 < b) {n : ℕ} (hn : 0 < n) (h : b - 1 ∣ n) : fold b n = b - 1 := by
  have hzero : fold b n ≡ 0 [MOD (b - 1)] :=
    (fold_modEq hb n).trans (Nat.modEq_zero_iff_dvd.mpr h)
  have hdvd : b - 1 ∣ fold b n := Nat.modEq_zero_iff_dvd.mp hzero
  have hle : b - 1 ≤ fold b n := Nat.le_of_dvd (fold_pos hn) hdvd
  have hlt := fold_lt hb n
  omega

/-- A sum completed by the complement of its fold verifies. -/
theorem fold_complete (hb : 2 < b) (n : ℕ) : fold b (n + (b - 1 - fold b n)) = b - 1 := by
  have hb' : 1 < b := by omega
  have hlt := fold_lt hb' n
  apply fold_of_dvd hb'
  · rcases Nat.eq_zero_or_pos n with rfl | hn
    · rw [fold_of_lt (by omega)]
      omega
    · omega
  · rw [← Nat.modEq_zero_iff_dvd]
    calc n + (b - 1 - fold b n) ≡ fold b n + (b - 1 - fold b n) [MOD (b - 1)] :=
          (fold_modEq hb' n).symm.add_right _
      _ = b - 1 := by omega
      _ ≡ 0 [MOD (b - 1)] := Nat.modEq_zero_iff_dvd.mpr (dvd_refl _)

/-- A fold of a fold and more words is the fold of all of them. -/
theorem fold_add_fold (hb : 1 < b) (n m : ℕ) : fold b (fold b n + m) = fold b (n + m) := by
  rcases Nat.eq_zero_or_pos n with rfl | hn
  · rw [fold_of_lt (by omega : 0 < b)]
  have hmod : fold b (fold b n + m) ≡ fold b (n + m) [MOD (b - 1)] := by
    calc fold b (fold b n + m) ≡ fold b n + m [MOD (b - 1)] := fold_modEq hb _
      _ ≡ n + m [MOD (b - 1)] := (fold_modEq hb n).add_right m
      _ ≡ fold b (n + m) [MOD (b - 1)] := (fold_modEq hb _).symm
  have hpos := fold_pos (b := b) hn
  have h₁ : 0 < fold b (fold b n + m) := fold_pos (by omega)
  have h₂ : 0 < fold b (n + m) := fold_pos (by omega)
  -- two folds between one and the greatest word, equal modulo that word
  have hpred : fold b (fold b n + m) - 1 ≡ fold b (n + m) - 1 [MOD (b - 1)] := by
    apply Nat.ModEq.add_right_cancel' 1
    rwa [Nat.sub_add_cancel h₁, Nat.sub_add_cancel h₂]
  have hlt₁ := fold_lt hb (fold b n + m)
  have hlt₂ := fold_lt hb (n + m)
  have heq := Nat.ModEq.eq_of_lt_of_lt hpred (by omega) (by omega)
  omega

end Wire
