import Violet.Dart.Split
import Violet.Dart.Units

/-!
# White space and parts of code units

`trim` and `split` on texts of code units, when a text is put together of two.
-/

namespace Dart

namespace Units

variable {u : UInt16} {s t w : Units}

/-! ### White space -/

lemma trimLeft_append (s t : Units) :
    trimLeft (s ++ t) = if trimLeft s = [] then trimLeft t else trimLeft s ++ t := by
  rw [trimLeft, trimLeft, List.dropWhile_append]
  cases s.dropWhile isBlank <;> rfl

lemma trimRight_append (s t : Units) :
    trimRight (s ++ t) = if trimRight t = [] then trimRight s else s ++ trimRight t := by
  simp only [trimRight, List.rdropWhile, List.reverse_append, List.dropWhile_append,
    List.isEmpty_iff, List.reverse_eq_nil_iff]
  split_ifs
  · rfl
  · rw [List.reverse_append, List.reverse_reverse]

lemma trimRight_eq_nil_iff : trimRight s = [] ↔ ∀ u ∈ s, isBlank u = true :=
  List.rdropWhile_eq_nil_iff

lemma trimLeft_cons (h : isBlank u = false) (t : Units) : trimLeft (u :: t) = u :: t :=
  List.dropWhile_cons_of_neg (by simp [h])

/-- White space in front of other units stays. -/
lemma trimLeft_append_cons (h : isBlank u = false) (s t : Units) :
    trimLeft (s ++ u :: t) = trimLeft s ++ u :: t := by
  rw [trimLeft_append, trimLeft_cons h]
  split_ifs with hs
  · rw [hs, List.nil_append]
  · rfl

lemma trimRight_append_cons (h : isBlank u = false) (s t : Units) :
    trimRight (s ++ u :: t) = s ++ u :: trimRight t := by
  have hu : trimRight [u] = [u] := by simp [trimRight, List.rdropWhile, h]
  rw [← List.singleton_append, trimRight_append, trimRight_append, hu]
  split_ifs <;> simp_all

lemma trimLeft_of_blank (hw : ∀ u ∈ w, isBlank u = true) (s : Units) :
    trimLeft (w ++ s) = trimLeft s := List.dropWhile_append_of_pos hw

/-- What is left begins with no white space. -/
lemma isBlank_of_trimLeft (h : trimLeft s = u :: t) : isBlank u = false := by
  have hhead := List.head?_dropWhile_not isBlank s
  rw [show s.dropWhile isBlank = u :: t from h] at hhead
  simpa using hhead

lemma takeWhile_append_trimLeft (s : Units) : s.takeWhile isBlank ++ trimLeft s = s :=
  List.takeWhile_append_dropWhile

/-- Both ends are trimmed in any order. -/
lemma trim_eq (s : Units) : trim s = trimLeft (trimRight s) := by
  have hblank : ∀ u ∈ s.takeWhile isBlank, isBlank u = true := fun _ => List.mem_takeWhile_imp
  conv_rhs => rw [← takeWhile_append_trimLeft s, trimRight_append]
  rw [trim]
  split_ifs with h
  · rw [h, trimRight_eq_nil_iff.mpr hblank]
    rfl
  · rw [trimLeft_of_blank hblank]
    cases hs : trimLeft s with
    | nil => rfl
    | cons u t =>
      have hu := isBlank_of_trimLeft hs
      rw [← List.nil_append (u :: t), trimRight_append_cons hu, List.nil_append, trimLeft_cons hu]

lemma trim_eq_nil_iff : trim s = [] ↔ ∀ u ∈ s, isBlank u = true := by
  rw [trim, trimRight_eq_nil_iff]
  constructor
  · intro h u hu
    rw [← takeWhile_append_trimLeft s] at hu
    rcases List.mem_append.mp hu with hu | hu
    · exact List.mem_takeWhile_imp hu
    · exact h u hu
  · intro h u hu
    exact h u ((List.dropWhile_sublist isBlank).subset hu)

/-! ### Parts -/

/-- The first occurrence of a unit. -/
lemma indexOf?_append_cons {a : UInt16} (h : a ∉ s) (t : Units) :
    indexOf? (s ++ a :: t) [a] = some s.length := by
  rw [indexOf?, List.find?_range_eq_some]
  refine ⟨by simp, ?_, fun j hj => ?_⟩
  · rw [List.mem_range, List.length_append, List.length_cons]
    omega
  · have hne : a ≠ s[j] := fun heq => h (heq ▸ List.getElem_mem hj)
    rw [List.drop_append_of_le_length hj.le, List.drop_eq_getElem_cons hj, List.cons_append,
      List.isPrefixOf, beq_false_of_ne hne]
    rfl

lemma split_go (a : UInt16) (part s : Units) :
    split.go [a] 0 part s = (s.splitOn a).modifyHead (part ++ ·) := by
  induction s generalizing part with
  | nil => simp [split.go]
  | cons u s ih =>
    by_cases hu : u = a
    · subst hu
      rw [splitOn_cons_self, split.go, if_pos (by simp), List.length_singleton, ih]
      cases hs : s.splitOn u <;> simp
    · obtain ⟨first, rest, hs, hcons⟩ := exists_splitOn_cons hu s
      rw [hcons, split.go, if_neg (by simpa [List.isPrefixOf] using fun h => hu h.symm), ih, hs]
      simp

lemma split_singleton (a : UInt16) (s : Units) : s.split [a] = s.splitOn a := by
  rw [split, if_neg (by simp), split_go]
  cases s.splitOn a <;> simp

lemma split_go_ne_nil (pat : Units) (skip : ℕ) (part s : Units) :
    split.go pat skip part s ≠ [] := by
  fun_induction split.go pat skip part s with
  | case1 => simp
  | case2 skip part u s ih => exact ih
  | case3 => simp
  | case4 part u s h ih => exact ih

lemma two_le_length_split_go {pat : Units} (hpat : pat ≠ []) {skip i : ℕ} {part s : Units}
    (h : pat.isPrefixOf (s.drop (skip + i)) = true) : 2 ≤ (split.go pat skip part s).length := by
  fun_induction split.go pat skip part s generalizing i with
  | case1 =>
    rw [List.drop_nil, List.isPrefixOf_iff_prefix] at h
    exact absurd (List.prefix_nil.mp h) hpat
  | case2 skip part u s ih =>
    rw [Nat.succ_add, List.drop_succ_cons] at h
    exact ih h
  | case3 part u s hprefix =>
    have hrest := List.length_pos_iff.mpr (split_go_ne_nil pat (pat.length - 1) [] s)
    simp only [List.length_cons]
    omega
  | case4 part u s hprefix ih =>
    obtain _ | i := i
    · exact absurd h hprefix
    · rw [Nat.zero_add, List.drop_succ_cons] at h
      exact ih (by rwa [Nat.zero_add])

/-- A text that occurs separates two parts. -/
lemma two_le_length_split {pat : Units} (hpat : pat ≠ []) (h : contains s pat = true) :
    2 ≤ (split s pat).length := by
  obtain ⟨i, hi⟩ := Option.isSome_iff_exists.mp h
  have hprefix := List.find?_some hi
  rw [split, if_neg hpat]
  exact two_le_length_split_go hpat (by rwa [Nat.zero_add])

end Units

end Dart
