import Mathlib.Data.List.GetD
import Violet.Edit.Edits

/-!
# Levenshtein distance

`Distance.levenshteinDistance` fills a table row by row. One array holds two rows: the last one and,
behind it, the one that is being filled.
-/

namespace Violet

namespace Distance

variable {T : Type*} [BEq T]

/-- The first row: the distances from the empty list. -/
def firstRow (y : ℕ) : List ℕ :=
  (List.range (y + 1)).foldl (fun v0 i => v0.set i i) (List.replicate ((y + 1) * 2) 0)

/-- The row of `l1[i]` is filled up to `m`. -/
def fillRow (l1 l2 : List T) (i m : ℕ) (v0 : List ℕ) : List ℕ :=
  let y := l2.length
  (List.range m).foldl (fun v0 j =>
    v0.set (y + j + 2) (min (min (v0.getD (y + j + 1) 0) (v0.getD (j + 1) 0) + 1)
      (v0.getD j 0 + if l1[i]? == l2[j]? then 0 else 1))) (v0.set (y + 1) (i + 1))

/-- The row that has been filled becomes the last one, up to `m`. -/
def copyRow (y m : ℕ) (v0 : List ℕ) : List ℕ :=
  (List.range m).foldl (fun v0 j => v0.set j (v0.getD (y + j + 1) 0)) v0

/-- The rows of the first `m` elements. -/
def rows (l1 l2 : List T) (m : ℕ) (v0 : List ℕ) : List ℕ :=
  let y := l2.length
  (List.range m).foldl (fun v0 i => copyRow y (y + 1) (fillRow l1 l2 i y v0)) v0

def levenshteinDistance (l1 l2 : List T) : ℕ :=
  let x := l1.length
  let y := l2.length
  if x = 0 then x
  else if y = 0 then y
  else (rows l1 l2 x (firstRow y)).getD (y + y + 1) 0

/-- The same code, for elements that can be compared. -/
def levenshteinDistanceComparable (l1 l2 : List T) : ℕ := levenshteinDistance l1 l2

/-! ### The rows hold distances -/

open Edit

variable {l1 l2 : List T} {v0 : List ℕ} {i j k m y : ℕ}

/-- From the place `off` on, the array holds the distances of the first `i` elements of `l1` from
the first elements of `l2`, at less than `m` places. -/
def HoldsRow (l1 l2 : List T) (i m off : ℕ) (v0 : List ℕ) : Prop :=
  ∀ k < m, IsDistance (l1.take i).reverse (l2.take k).reverse (v0.getD (off + k) 0)

lemma getD_set (v : List ℕ) (i n k : ℕ) (hi : i < v.length) :
    (v.set i n).getD k 0 = if i = k then n else v.getD k 0 := by
  simp only [List.getD_eq_getElem?_getD, List.getElem?_set]
  split_ifs <;> simp

lemma firstRow_spec (y m : ℕ) (hm : m ≤ y + 1) :
    ((List.range m).foldl (fun v0 i => v0.set i i) (List.replicate ((y + 1) * 2) 0)).length =
      (y + 1) * 2 ∧
    ∀ k < m, ((List.range m).foldl (fun v0 i => v0.set i i)
      (List.replicate ((y + 1) * 2) 0)).getD k 0 = k := by
  induction m with
  | zero => simp
  | succ m ih =>
    obtain ⟨hlen, hcells⟩ := ih (by omega)
    rw [List.range_succ, List.foldl_append]
    refine ⟨by simpa using hlen, fun k hk => ?_⟩
    rw [List.foldl_cons, List.foldl_nil, getD_set _ _ _ _ (by omega)]
    split_ifs with h
    · exact h
    · exact hcells k (by omega)

lemma holdsRow_firstRow (l1 l2 : List T) :
    (firstRow l2.length).length = (l2.length + 1) * 2 ∧
      HoldsRow l1 l2 0 (l2.length + 1) 0 (firstRow l2.length) := by
  obtain ⟨hlen, hcells⟩ := firstRow_spec l2.length (l2.length + 1) le_rfl
  refine ⟨hlen, fun k hk => ?_⟩
  rw [firstRow, Nat.zero_add, hcells k hk]
  have hnil := IsDistance.nil_left (l2.take k).reverse
  rwa [List.length_reverse, List.length_take, Nat.min_eq_left (by omega)] at hnil

omit [BEq T] in
lemma reverse_take_succ {l : List T} (hi : i < l.length) :
    (l.take (i + 1)).reverse = l[i] :: (l.take i).reverse := by
  rw [List.take_add_one, List.getElem?_eq_getElem hi]
  simp

/-- One cell is filled from its neighbours. -/
lemma isDistance_cell {p q r : ℕ} (hi : i < l1.length) (hj : j < l2.length)
    (hq : IsDistance (l1.take (i + 1)).reverse (l2.take j).reverse q)
    (hp : IsDistance (l1.take i).reverse (l2.take (j + 1)).reverse p)
    (hr : IsDistance (l1.take i).reverse (l2.take j).reverse r) :
    IsDistance (l1.take (i + 1)).reverse (l2.take (j + 1)).reverse
      (min (min q p + 1) (r + if l1[i]? == l2[j]? then 0 else 1)) := by
  rw [List.getElem?_eq_getElem hi, List.getElem?_eq_getElem hj]
  rw [reverse_take_succ hi] at hq ⊢
  rw [reverse_take_succ hj] at hp ⊢
  exact IsDistance.cons hp hq hr

lemma fillRow_succ (l1 l2 : List T) (i m : ℕ) (v0 : List ℕ) :
    fillRow l1 l2 i (m + 1) v0 =
      (fillRow l1 l2 i m v0).set (l2.length + m + 2)
        (min (min ((fillRow l1 l2 i m v0).getD (l2.length + m + 1) 0)
          ((fillRow l1 l2 i m v0).getD (m + 1) 0) + 1)
          ((fillRow l1 l2 i m v0).getD m 0 + if l1[i]? == l2[m]? then 0 else 1)) := by
  simp only [fillRow, List.range_succ, List.foldl_append, List.foldl_cons, List.foldl_nil]

/-- Filling a row leaves the last row as it is. -/
lemma fillRow_spec (hi : i < l1.length) (hm : m ≤ l2.length)
    (hlen : v0.length = (l2.length + 1) * 2) (h : HoldsRow l1 l2 i (l2.length + 1) 0 v0) :
    (fillRow l1 l2 i m v0).length = (l2.length + 1) * 2 ∧
      HoldsRow l1 l2 i (l2.length + 1) 0 (fillRow l1 l2 i m v0) ∧
      HoldsRow l1 l2 (i + 1) (m + 1) (l2.length + 1) (fillRow l1 l2 i m v0) := by
  induction m with
  | zero =>
    refine ⟨by simpa [fillRow] using hlen, fun k hk => ?_, fun k hk => ?_⟩
    · rw [fillRow, List.range_zero, List.foldl_nil, getD_set _ _ _ _ (by omega), if_neg (by omega)]
      exact h k hk
    · obtain rfl : k = 0 := by omega
      rw [fillRow, List.range_zero, List.foldl_nil, getD_set _ _ _ _ (by omega), if_pos rfl]
      have hnil := IsDistance.nil_right (l1.take (i + 1)).reverse
      rwa [List.length_reverse, List.length_take, Nat.min_eq_left (by omega)] at hnil
  | succ m ih =>
    obtain ⟨hlen', hlast, hrow⟩ := ih (by omega)
    rw [fillRow_succ]
    refine ⟨by simpa using hlen', fun k hk => ?_, fun k hk => ?_⟩
    · rw [getD_set _ _ _ _ (by omega), if_neg (by omega)]
      exact hlast k hk
    · rw [getD_set _ _ _ _ (by omega)]
      by_cases hkm : l2.length + m + 2 = l2.length + 1 + k
      · rw [if_pos hkm]
        obtain rfl : k = m + 1 := by omega
        have hq := hrow m (by omega)
        have hp := hlast (m + 1) (by omega)
        have hr := hlast m (by omega)
        rw [Nat.zero_add] at hp hr
        rw [Nat.add_right_comm] at hq
        exact isDistance_cell hi (by omega) hq hp hr
      · rw [if_neg hkm]
        exact hrow k (by omega)

lemma copyRow_succ (y m : ℕ) (v0 : List ℕ) :
    copyRow y (m + 1) v0 = (copyRow y m v0).set m ((copyRow y m v0).getD (y + m + 1) 0) := by
  simp only [copyRow, List.range_succ, List.foldl_append, List.foldl_cons, List.foldl_nil]

lemma copyRow_spec (hm : m ≤ y + 1) (hlen : v0.length = (y + 1) * 2) :
    (copyRow y m v0).length = (y + 1) * 2 ∧
      (∀ k < m, (copyRow y m v0).getD k 0 = v0.getD (y + 1 + k) 0) ∧
      ∀ k, m ≤ k → (copyRow y m v0).getD k 0 = v0.getD k 0 := by
  induction m with
  | zero => exact ⟨by simpa [copyRow] using hlen, by simp, fun k _ => by simp [copyRow]⟩
  | succ m ih =>
    obtain ⟨hlen', hcopied, hrest⟩ := ih (by omega)
    rw [copyRow_succ]
    refine ⟨by simpa using hlen', fun k hk => ?_, fun k hk => ?_⟩
    · rw [getD_set _ _ _ _ (by omega)]
      split_ifs with hkm
      · rw [← hkm, hrest _ (by omega), Nat.add_right_comm]
      · exact hcopied k (by omega)
    · rw [getD_set _ _ _ _ (by omega), if_neg (by omega)]
      exact hrest k (by omega)

/-- Behind the loop over the rows, both rows hold the distances of the elements read so far. -/
lemma rows_spec (hm : m ≤ l1.length) :
    (rows l1 l2 m (firstRow l2.length)).length = (l2.length + 1) * 2 ∧
      HoldsRow l1 l2 m (l2.length + 1) 0 (rows l1 l2 m (firstRow l2.length)) ∧
      (0 < m → HoldsRow l1 l2 m (l2.length + 1) (l2.length + 1)
        (rows l1 l2 m (firstRow l2.length))) := by
  induction m with
  | zero =>
    obtain ⟨hlen, hrow⟩ := holdsRow_firstRow l1 l2
    exact ⟨hlen, hrow, fun h => absurd h (lt_irrefl 0)⟩
  | succ m ih =>
    obtain ⟨hlen, hrow, -⟩ := ih (by omega)
    obtain ⟨hlen', -, hfilled⟩ := fillRow_spec (by omega) le_rfl hlen hrow
    have hrows : rows l1 l2 (m + 1) (firstRow l2.length) =
        copyRow l2.length (l2.length + 1)
          (fillRow l1 l2 m l2.length (rows l1 l2 m (firstRow l2.length))) := by
      simp only [rows, List.range_succ, List.foldl_append, List.foldl_cons, List.foldl_nil]
    obtain ⟨hlen'', hcopied, hrest⟩ := copyRow_spec le_rfl hlen'
    rw [hrows]
    refine ⟨hlen'', fun k hk => ?_, fun _ k hk => ?_⟩
    · rw [Nat.zero_add, hcopied k hk]
      exact hfilled k hk
    · rw [hrest _ (by omega)]
      exact hfilled k hk

/-- The result is the least number of changes, when no list is empty. -/
theorem isDistance_levenshteinDistance (h1 : l1 ≠ []) (h2 : l2 ≠ []) :
    IsDistance l1 l2 (levenshteinDistance l1 l2) := by
  have hx : l1.length ≠ 0 := by simpa using h1
  have hy : l2.length ≠ 0 := by simpa using h2
  obtain ⟨-, -, hrow⟩ := @rows_spec T _ l1 l2 l1.length le_rfl
  have hlast := hrow (Nat.pos_of_ne_zero hx) l2.length (Nat.lt_succ_self _)
  rw [List.take_length, List.take_length, IsDistance.reverse_iff, Nat.add_right_comm] at hlast
  rw [levenshteinDistance]
  simpa only [if_neg hx, if_neg hy] using hlast

/-- Both functions return the least number of changes, when no list is empty. -/
theorem isDistance_both (h1 : l1 ≠ []) (h2 : l2 ≠ []) :
    IsDistance l1 l2 (levenshteinDistance l1 l2) ∧
      IsDistance l1 l2 (levenshteinDistanceComparable l1 l2) := by
  constructor
  · exact isDistance_levenshteinDistance h1 h2
  · rw [levenshteinDistanceComparable]
    exact isDistance_levenshteinDistance h1 h2

/-- From `[1, 2]` to `[2]`. -/
theorem isDistance_both_ints :
    IsDistance [(1 : ℤ), 2] [2] (levenshteinDistance [(1 : ℤ), 2] [2]) ∧
      IsDistance [(1 : ℤ), 2] [2] (levenshteinDistanceComparable [(1 : ℤ), 2] [2]) :=
  isDistance_both (List.cons_ne_nil _ _) (List.cons_ne_nil _ _)

/-- An empty list has no distance from any list. -/
lemma levenshteinDistance_nil (h : l1 = [] ∨ l2 = []) : levenshteinDistance l1 l2 = 0 := by
  rw [levenshteinDistance]
  rcases h with rfl | rfl
  · rfl
  · split_ifs with hx
    · exact hx
    · rfl
    · exact absurd rfl ‹_›

/-! ### The laws of a metric -/

/-- The lists are equal when their elements are. -/
def ListEq (a b : List T) : Prop := List.Forall₂ (fun x y => (x == y) = true) a b

/-- The laws of a metric at three lists. -/
structure MetricAt (a b c : List T) : Prop where
  zero : levenshteinDistance a b = 0 ↔ ListEq a b
  symm : levenshteinDistance a b = levenshteinDistance b a
  triangle : levenshteinDistance a c ≤ levenshteinDistance a b + levenshteinDistance b c

variable [PartialEquivBEq T]

lemma levenshteinDistance_comm (a b : List T) :
    levenshteinDistance a b = levenshteinDistance b a := by
  by_cases h : a = [] ∨ b = []
  · rw [levenshteinDistance_nil h, levenshteinDistance_nil h.symm]
  · obtain ⟨ha, hb⟩ := not_or.mp h
    exact (isDistance_levenshteinDistance ha hb).eq (isDistance_levenshteinDistance hb ha).symm

/-- The laws hold at three lists exactly when the first two are both empty, or none of them is. -/
theorem metricAt_iff (a b c : List T) : MetricAt a b c ↔ (a = [] ↔ b = []) := by
  constructor
  · intro h
    constructor
    · rintro rfl
      exact List.forall₂_nil_left_iff.mp (h.zero.mp (levenshteinDistance_nil (.inl rfl)))
    · rintro rfl
      exact List.forall₂_nil_right_iff.mp (h.zero.mp (levenshteinDistance_nil (.inr rfl)))
  · intro hab
    by_cases ha : a = []
    · have hb := hab.mp ha
      subst ha hb
      refine ⟨iff_of_true rfl .nil, rfl, ?_⟩
      rw [levenshteinDistance_nil (.inl rfl)]
      exact Nat.zero_le _
    · have hb : b ≠ [] := fun hb => ha (hab.mpr hb)
      have hdist := isDistance_levenshteinDistance ha hb
      refine ⟨hdist.eq_zero_iff, levenshteinDistance_comm a b, ?_⟩
      by_cases hc : c = []
      · rw [levenshteinDistance_nil (.inr hc)]
        exact Nat.zero_le _
      · exact hdist.triangle (isDistance_levenshteinDistance hb hc)
          (isDistance_levenshteinDistance ha hc)

/-- The lists `[1]` and `[2]`, by way of `[2, 3]`. -/
theorem metricAt_ints : MetricAt [(1 : ℤ)] [2, 3] [2] :=
  (metricAt_iff [1] [2, 3] [2]).mpr (by decide)

/-- The empty list has no distance from `[1]`, and `[1]` and `[2]` are apart, but not by way of the
empty list. -/
theorem not_metricAt_nil : ¬ MetricAt ([] : List ℤ) [1] [] ∧ ¬ MetricAt [(1 : ℤ)] [] [2] := by
  constructor
  · intro h
    have hzero : levenshteinDistance ([] : List ℤ) [1] = 0 := by decide
    cases h.zero.mp hzero
  · intro h
    exact absurd h.triangle (by decide)

end Distance

end Violet
