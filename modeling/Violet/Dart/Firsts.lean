import Mathlib.Data.List.Nodup
import Mathlib.Tactic.Lemma

/-!
# The first of each key

A loop that keeps an element only when its key has not been seen before keeps the first element of
each key.
-/

namespace Dart

variable {α κ : Type*} [BEq κ] [LawfulBEq κ] {key : α → κ} {seen : List κ} {l : List α} {a b : α}
  {k : κ}

/-- The first element of each key that has not been seen. -/
def firsts (key : α → κ) : List κ → List α → List α
  | _, [] => []
  | seen, a :: l =>
    if key a ∈ seen then firsts key seen l else a :: firsts key (seen ++ [key a]) l

/-- The loop, with what it has seen and kept before. -/
lemma foldl_firsts (key : α → κ) (l : List α) (s : List κ × List α) :
    (l.foldl (fun s a => if key a ∈ s.1 then s else (s.1 ++ [key a], s.2 ++ [a])) s).2 =
      s.2 ++ firsts key s.1 l := by
  induction l generalizing s with
  | nil => exact (List.append_nil s.2).symm
  | cons a l ih =>
    rw [List.foldl_cons, ih, firsts]
    split_ifs with hseen
    · rfl
    · rw [List.append_assoc]
      rfl

lemma firsts_sublist (key : α → κ) (seen : List κ) (l : List α) :
    (firsts key seen l).Sublist l := by
  induction l generalizing seen with
  | nil => exact .slnil
  | cons a l ih =>
    rw [firsts]
    split_ifs
    · exact (ih seen).cons a
    · exact (ih _).cons_cons a

/-- The keys of the list that have not been seen. -/
lemma mem_map_firsts : k ∈ (firsts key seen l).map key ↔ k ∈ l.map key ∧ k ∉ seen := by
  induction l generalizing seen with
  | nil => simp [firsts]
  | cons a l ih =>
    rw [firsts, List.map_cons, List.mem_cons]
    split_ifs with hseen
    · rw [ih]
      refine and_congr_left fun hk => (or_iff_right ?_).symm
      rintro rfl
      exact hk hseen
    · rw [List.map_cons, List.mem_cons, ih, List.mem_append, List.mem_singleton]
      constructor
      · rintro (rfl | ⟨hk, hnot⟩)
        · exact ⟨.inl rfl, hseen⟩
        · exact ⟨.inr hk, fun h => hnot (.inl h)⟩
      · rintro ⟨hk, hnot⟩
        by_cases heq : k = key a
        · exact .inl heq
        · exact .inr ⟨hk.resolve_left heq, fun h => h.elim hnot heq⟩

lemma nodup_firsts (key : α → κ) (seen : List κ) (l : List α) :
    ((firsts key seen l).map key).Nodup := by
  induction l generalizing seen with
  | nil => exact List.nodup_nil
  | cons a l ih =>
    rw [firsts]
    split_ifs
    · exact ih seen
    · refine List.nodup_cons.mpr ⟨fun hmem => ?_, ih _⟩
      exact (mem_map_firsts.mp hmem).2 (by simp)

/-- Each key comes once. -/
lemma count_firsts : ((firsts key [] l).map key).count k = 1 ↔ k ∈ l.map key := by
  have hmem : k ∈ (firsts key [] l).map key ↔ k ∈ l.map key :=
    mem_map_firsts.trans (and_iff_left List.not_mem_nil)
  rw [← hmem, (nodup_firsts key [] l).count]
  split_ifs with h <;> simp [h]

/-- In a list that is in order, what is kept comes before everything else of its key. -/
lemma rel_of_mem_firsts {r : α → α → Prop} (hr : ∀ a, r a a) (hl : l.Pairwise r)
    (ha : a ∈ firsts key seen l) (hb : b ∈ l) (hkey : key a = key b) : r a b := by
  induction l generalizing seen with
  | nil => exact absurd hb List.not_mem_nil
  | cons c l ih =>
    obtain ⟨hc, hl⟩ := List.pairwise_cons.mp hl
    rw [firsts] at ha
    split_ifs at ha with hseen
    · rcases List.mem_cons.mp hb with rfl | hb
      · have hnot := (mem_map_firsts.mp (List.mem_map_of_mem ha)).2
        exact absurd hseen (hkey ▸ hnot)
      · exact ih hl ha hb
    · rcases List.mem_cons.mp ha with rfl | ha
      · rcases List.mem_cons.mp hb with rfl | hb
        · exact hr b
        · exact hc b hb
      · rcases List.mem_cons.mp hb with rfl | hb
        · have hnot := (mem_map_firsts.mp (List.mem_map_of_mem ha)).2
          exact absurd (List.mem_append_right _ (List.mem_singleton.mpr hkey)) hnot
        · exact ih hl ha hb

end Dart
