import Mathlib.Order.Lattice
import Mathlib.Tactic.Lemma

/-!
# Sorting

Lists that are sorted by a key.
-/

namespace Dart

variable {α κ : Type*} [LinearOrder κ]

/-- A list that is sorted by a key. -/
lemma pairwise_mergeSort (key : α → κ) (l : List α) :
    (l.mergeSort fun a b => decide (key a ≤ key b)).Pairwise fun a b => key a ≤ key b := by
  have htrans (a b c : α) (hab : decide (key a ≤ key b) = true)
      (hbc : decide (key b ≤ key c) = true) : decide (key a ≤ key c) = true :=
    decide_eq_true (le_trans (of_decide_eq_true hab) (of_decide_eq_true hbc))
  have htotal (a b : α) : (decide (key a ≤ key b) || decide (key b ≤ key a)) = true := by
    simpa using le_total (key a) (key b)
  exact (List.pairwise_mergeSort htrans htotal l).imp of_decide_eq_true

/-- There is one way to sort a list by a key that tells its elements apart. -/
lemma eq_of_pairwise_key {key : α → κ} {l l' : List α} (hperm : l.Perm l')
    (hinj : ∀ a ∈ l, ∀ b ∈ l, key a = key b → a = b)
    (hl : l.Pairwise fun a b => key a ≤ key b) (hl' : l'.Pairwise fun a b => key a ≤ key b) :
    l = l' :=
  hperm.eq_of_pairwise
    (fun a b ha hb hab hba => hinj a ha b (hperm.mem_iff.mpr hb) (le_antisymm hab hba)) hl hl'

end Dart
