import Mathlib.Data.List.Infix
import Violet.Sql.Semantics

/-!
# Patterns

A pattern between two `%` without further wildcards asks for a part of the text. A pattern with
wildcards also matches texts in which the `%` are left out and the `_` are filled with anything, and
a literal with quotes in it stands for a shorter text: in both cases the text of the pattern need
not be a part of what is matched.
-/

namespace Sql

variable {f : List Char → Bool} {g : Char → Char} {p s : List Char}

lemma anyTail_iff : anyTail f s = true ↔ ∃ t, t <:+ s ∧ f t = true := by
  induction s with
  | nil => simp [anyTail]
  | cons c s ih => simp [anyTail, ih, List.suffix_cons_iff, or_and_right, exists_or]

lemma likeMatch_percent_cons_iff :
    likeMatch ('%' :: p) s = true ↔ ∃ t, t <:+ s ∧ likeMatch p t = true := by
  rw [← anyTail_iff]
  cases s <;> simp [likeMatch]

lemma likeMatch_cons {c d : Char} (hc : c ≠ '%') :
    likeMatch (c :: p) (d :: s) = ((c = '_' || c.toLower = d.toLower) && likeMatch p s) := by
  simp [likeMatch, hc]

lemma likeMatch_percent_nil (s : List Char) : likeMatch ['%'] s = true :=
  likeMatch_percent_cons_iff.mpr ⟨[], List.nil_suffix, rfl⟩

/-- Without wildcards, up to a `%` at the end. -/
lemma likeMatch_prefix_iff (hpercent : '%' ∉ p) (hany : '_' ∉ p) :
    likeMatch (p ++ ['%']) s = true ↔ p.map Char.toLower <+: s.map Char.toLower := by
  induction p generalizing s with
  | nil => simp [likeMatch_percent_nil]
  | cons c p ih =>
    have hc : c ≠ '%' := fun h => hpercent (by simp [h])
    have hc' : c ≠ '_' := fun h => hany (by simp [h])
    have hp := ih (s := s.tail) (fun h => hpercent (List.mem_cons_of_mem c h))
      fun h => hany (List.mem_cons_of_mem c h)
    cases s with
    | nil => simp [likeMatch, hc]
    | cons d s => simpa [likeMatch, hc, hc', List.cons_prefix_cons] using fun _ => hp

/-- Without wildcards between the two `%`, a pattern asks for a part of the text. -/
lemma likeMatch_infix_iff (hpercent : '%' ∉ p) (hany : '_' ∉ p) :
    likeMatch ('%' :: p ++ ['%']) s = true ↔ p.map Char.toLower <:+: s.map Char.toLower := by
  rw [List.cons_append, likeMatch_percent_cons_iff]
  simp only [likeMatch_prefix_iff hpercent hany]
  constructor
  · rintro ⟨t, ht, hp⟩
    exact hp.isInfix.trans (ht.map Char.toLower).isInfix
  · rintro ⟨a, b, h⟩
    refine ⟨s.drop a.length, List.drop_suffix _ _, b, ?_⟩
    rw [List.map_drop, ← h, List.append_assoc, List.drop_left]

/-- The `%` are left out, and each `_` is filled with a character. -/
lemma likeMatch_fill (hg : ∀ c, c ≠ '_' → g c = c) (p : List Char) :
    likeMatch p ((p.filter (· ≠ '%')).map g) = true := by
  induction p with
  | nil => rfl
  | cons c p ih =>
    by_cases hc : c = '%'
    · subst hc
      rw [List.filter_cons_of_neg (by simp), likeMatch_percent_cons_iff]
      exact ⟨_, List.suffix_rfl, ih⟩
    · rw [List.filter_cons_of_pos (by simpa using hc), List.map_cons, likeMatch_cons hc]
      by_cases hc' : c = '_'
      · simpa [hc'] using ih
      · simpa [hg c hc'] using ih

/-! ### Literals -/

lemma length_unpair_le (v : List Char) : (unpair v).length ≤ v.length := by
  induction v using unpair.induct with
  | case1 => exact le_rfl
  | case2 c => exact le_rfl
  | case3 d s ih =>
    rw [unpair, if_pos rfl, List.length_cons, List.length_cons, List.length_cons]
    omega
  | case4 c d s hc ih =>
    rw [unpair, if_neg hc, List.length_cons, List.length_cons]
    omega

/-- A quote in a paired literal takes the place of two. -/
lemma notMem_of_length_unpair {v : List Char} (h : paired v = true)
    (hlen : v.length ≤ (unpair v).length) : quote ∉ v := by
  induction v using unpair.induct with
  | case1 => exact List.not_mem_nil
  | case2 c =>
    rw [paired, decide_eq_true_iff] at h
    simpa using Ne.symm h
  | case3 d s ih =>
    rw [unpair, if_pos rfl, List.length_cons, List.length_cons, List.length_cons] at hlen
    have hs := length_unpair_le s
    omega
  | case4 c d s hc ih =>
    rw [paired, if_neg hc] at h
    rw [unpair, if_neg hc, List.length_cons, List.length_cons] at hlen
    rw [List.mem_cons, not_or]
    exact ⟨Ne.symm hc, ih h (Nat.le_of_succ_le_succ hlen)⟩

/-- What stands behind a character other than a quote is paired by itself. -/
lemma paired_of_append_cons {c : Char} (hc : c ≠ quote) {a b : List Char}
    (h : paired (a ++ c :: b) = true) : paired b = true := by
  induction a using paired.induct with
  | case1 => rwa [List.nil_append, paired_cons hc] at h
  | case2 d =>
    by_cases hd : d = quote
    · simp [paired, hd, hc] at h
    · rwa [List.singleton_append, paired_cons hd, paired_cons hc] at h
  | case3 d s ih =>
    simp only [List.cons_append, paired, if_true, Bool.and_eq_true] at h
    exact ih h.2
  | case4 d e s hd ih =>
    rw [List.cons_append, paired_cons hd] at h
    exact ih h

end Sql
