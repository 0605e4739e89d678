import Mathlib.Data.List.Basic
import Mathlib.Data.Int.Notation
import Mathlib.Tactic.Lemma

/-!
# Reading a list page by page

A source of pages gives, for a page number, the items of the page and the number of the next page,
`-1` after the last one. Following these numbers from a page on collects the items of all pages in
order. A list that is cut into pages of a fixed size is collected as a whole.
-/

namespace Paging

variable {α : Type*} {f : ℤ → Option (List α × ℤ)} {o : ℤ} {l : List α}

/-- The items of page `o`. A negative page number counts as zero. -/
def page (size : ℕ) (l : List α) (o : ℤ) : List α := (l.drop (size * o).toNat).take size

/-- The page and the number of the next one: a page that is not full is the last. -/
def fetch (size : ℕ) (l : List α) (o : ℤ) : List α × ℤ :=
  let p := page size l o
  (p, if size ≤ p.length then o + 1 else -1)

/-- Collect the pages from page `o` on, at most as many as the first argument says. -/
def follow (f : ℤ → Option (List α × ℤ)) : ℕ → ℤ → Option (List α)
  | 0, _ => none
  | fuel + 1, o =>
    (f o).bind fun r => if r.2 = -1 then some r.1 else (follow f fuel r.2).map (r.1 ++ ·)

/-- Following the page numbers from `o` ends, with the items `l`. -/
def Collects (f : ℤ → Option (List α × ℤ)) (o : ℤ) (l : List α) : Prop :=
  ∃ fuel, follow f fuel o = some l

lemma follow_succ {fuel : ℕ} (h : follow f fuel o = some l) :
    follow f (fuel + 1) o = some l := by
  induction fuel generalizing o l with
  | zero => cases h
  | succ fuel ih =>
    rw [follow] at h ⊢
    obtain ⟨r, hr, h⟩ := Option.bind_eq_some_iff.mp h
    rw [hr, Option.bind_some]
    split_ifs at h ⊢ with hend
    · exact h
    · obtain ⟨rest, hrest, rfl⟩ := Option.map_eq_some_iff.mp h
      rw [ih hrest, Option.map_some]

lemma follow_mono {m n : ℕ} (h : follow f m o = some l) (hmn : m ≤ n) :
    follow f n o = some l := by
  induction hmn with
  | refl => exact h
  | step _ ih => exact follow_succ ih

/-- What is collected does not depend on how far one is ready to go. -/
theorem Collects.unique {l' : List α} (h : Collects f o l) (h' : Collects f o l') : l = l' := by
  obtain ⟨m, hm⟩ := h
  obtain ⟨n, hn⟩ := h'
  have hm' := follow_mono hm (Nat.le_max_left m n)
  exact Option.some.inj (hm'.symm.trans (follow_mono hn (Nat.le_max_right m n)))

lemma Collects.of_last {p : List α} (h : f o = some (p, -1)) : Collects f o p :=
  ⟨1, by simp [follow, h]⟩

lemma Collects.of_next {p rest : List α} {next : ℤ} (h : f o = some (p, next)) (hn : next ≠ -1)
    (hrest : Collects f next rest) : Collects f o (p ++ rest) := by
  obtain ⟨fuel, hfuel⟩ := hrest
  exact ⟨fuel + 1, by simp [follow, h, hn, hfuel]⟩

/-- What is collected from a page that is the last one. -/
lemma collects_of_last_iff {p : List α} (h : f o = some (p, -1)) : Collects f o l ↔ l = p :=
  ⟨fun hl => hl.unique (.of_last h), fun hl => hl ▸ .of_last h⟩

/-- Nothing is collected when every page names another one. -/
lemma not_collects_of_endless {p : List α} (h : ∀ n : ℕ, f n = some (p, (n : ℤ) + 1)) :
    ¬ Collects f 0 l := by
  have hnone (fuel n : ℕ) : follow f fuel n = none := by
    induction fuel generalizing n with
    | zero => rfl
    | succ fuel ih =>
      have hnext : (n : ℤ) + 1 ≠ -1 := by omega
      rw [follow, h, Option.bind_some, if_neg hnext, Option.map_eq_none_iff]
      exact ih (n + 1)
  rintro ⟨fuel, hl⟩
  have hfirst : follow f fuel 0 = none := hnone fuel 0
  rw [hfirst] at hl
  cases hl

/-- The pages of a list make up the list, from wherever they come. -/
theorem collects_of_fetch {size : ℕ} (hs : 0 < size) {l : List α}
    (hf : ∀ n : ℕ, f n = some (fetch size l n)) : Collects f 0 l := by
  have hfrom (n : ℕ) : Collects f (n : ℤ) (l.drop (size * n)) := by
    induction hk : l.length - size * n using Nat.strongRecOn generalizing n with
    | ind k ih =>
      have hpage : page size l (n : ℤ) = (l.drop (size * n)).take size := by
        rw [page, ← Int.natCast_mul, Int.toNat_natCast]
      by_cases hfull : size ≤ (page size l (n : ℤ)).length
      · have hlen : size * n + size ≤ l.length := by
          rw [hpage, List.length_take, List.length_drop] at hfull
          omega
        have hnext := ih (l.length - size * (n + 1)) (by rw [Nat.mul_succ]; omega) (n + 1) rfl
        have hstep : f n = some (page size l (n : ℤ), ((n + 1 : ℕ) : ℤ)) := by
          rw [hf]
          simp only [fetch, hfull, if_true, Int.natCast_add, Int.cast_ofNat_Int]
        have h := Collects.of_next hstep (by omega) hnext
        have hdrop : l.drop (size * (n + 1)) = (l.drop (size * n)).drop size := by
          rw [List.drop_drop, Nat.mul_succ]
        rwa [hpage, hdrop, List.take_append_drop] at h
      · have hshort : (l.drop (size * n)).length ≤ size := by
          rw [hpage, List.length_take] at hfull
          omega
        have hstep : f n = some (l.drop (size * n), -1) := by
          rw [hf, fetch, if_neg hfull, hpage, List.take_of_length_le hshort]
        exact Collects.of_last hstep
  simpa using hfrom 0

/-- The pages of a list make up the list. -/
theorem collects_fetch {size : ℕ} (hs : 0 < size) (l : List α) :
    Collects (fun o => some (fetch size l o)) 0 l := collects_of_fetch hs fun _ => rfl

end Paging
