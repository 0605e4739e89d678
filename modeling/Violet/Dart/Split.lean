import Violet.Dart.Str

/-!
# Splitting

The parts of a text between the occurrences of a character.
-/

namespace Dart

section

variable {α : Type*} [DecidableEq α] {a b : α} {s part : List α}

lemma splitOn_cons_self (a : α) (s : List α) : (a :: s).splitOn a = [] :: s.splitOn a :=
  List.splitOn_append_cons_self_of_not_mem (List.not_mem_nil (a := a)) s

/-- Another character belongs to the first part. -/
lemma exists_splitOn_cons (h : b ≠ a) (s : List α) :
    ∃ part parts, s.splitOn a = part :: parts ∧ (b :: s).splitOn a = (b :: part) :: parts := by
  obtain ⟨part, parts, hparts⟩ := List.exists_cons_of_ne_nil (List.splitOn_ne_nil a s)
  refine ⟨part, parts, hparts, ?_⟩
  rw [List.splitOn_cons_eq_if_modifyHead, if_neg (by simpa using h), hparts]
  rfl

/-- The separator is in no part. -/
lemma notMem_of_mem_splitOn (h : part ∈ s.splitOn a) : a ∉ part := by
  induction s generalizing part with
  | nil =>
    rw [List.splitOn_nil, List.mem_singleton] at h
    rw [h]
    exact List.not_mem_nil
  | cons b s ih =>
    by_cases hb : b = a
    · subst hb
      rw [splitOn_cons_self] at h
      rcases List.mem_cons.mp h with rfl | h
      · exact List.not_mem_nil
      · exact ih h
    · obtain ⟨first, rest, hs, hcons⟩ := exists_splitOn_cons hb s
      rw [hcons] at h
      rw [hs] at ih
      rcases List.mem_cons.mp h with rfl | h
      · exact List.not_mem_cons_of_ne_of_not_mem (Ne.symm hb) (ih List.mem_cons_self)
      · exact ih (List.mem_cons_of_mem _ h)

end

variable {a b : Char} {s part : Str} {parts : List Str}

/-- All characters of a part are in the text. -/
lemma subset_of_mem_splitOn (h : part ∈ s.splitOn a) : part ⊆ s := by
  induction s generalizing part with
  | nil =>
    rw [List.splitOn_nil, List.mem_singleton] at h
    rw [h]
    exact List.Subset.refl []
  | cons b s ih =>
    by_cases hb : b = a
    · subst hb
      rw [splitOn_cons_self] at h
      rcases List.mem_cons.mp h with rfl | h
      · exact List.nil_subset _
      · exact List.subset_cons_of_subset b (ih h)
    · obtain ⟨first, rest, hs, hcons⟩ := exists_splitOn_cons hb s
      rw [hcons] at h
      rw [hs] at ih
      rcases List.mem_cons.mp h with rfl | h
      · exact List.cons_subset_cons b (ih List.mem_cons_self)
      · exact List.subset_cons_of_subset b (ih (List.mem_cons_of_mem _ h))

/-- Parts that are joined and split again. -/
lemma splitOn_join (h : ∀ part ∈ parts, a ∉ part) (hne : parts ≠ []) :
    (join [a] parts).splitOn a = parts := List.splitOn_intercalate a h hne

lemma notMem_join (hab : a ≠ b) (h : ∀ part ∈ parts, a ∉ part) : a ∉ join [b] parts := by
  induction parts with
  | nil => exact List.not_mem_nil
  | cons part parts ih =>
    have hpart := h part List.mem_cons_self
    cases parts with
    | nil =>
      rw [join, List.intercalate_singleton]
      exact hpart
    | cons part' parts =>
      rw [join, List.intercalate_cons_cons, List.mem_append, List.mem_append, List.mem_singleton]
      rintro ((hmem | heq) | hmem)
      · exact hpart hmem
      · exact hab heq
      · exact ih (fun q hq => h q (List.mem_cons_of_mem part hq)) hmem

/-- The first part ends where the separator first stands. -/
lemma headD_splitOn (a : Char) (s : Str) : (s.splitOn a).headD [] = s.takeWhile (· ≠ a) := by
  induction s with
  | nil => rfl
  | cons b s ih =>
    by_cases hb : b = a
    · subst hb
      rw [splitOn_cons_self, List.takeWhile_cons_of_neg (by simp)]
      rfl
    · obtain ⟨first, rest, hs, hcons⟩ := exists_splitOn_cons hb s
      rw [hs, List.headD_cons] at ih
      rw [hcons, List.takeWhile_cons_of_pos (by simpa using hb), List.headD_cons, ih]

lemma takeWhile_append_separator (h : a ∉ part) (s : Str) :
    (part ++ a :: s).takeWhile (· ≠ a) = part := by
  rw [List.takeWhile_append_of_pos fun c hc => ?_, List.takeWhile_cons_of_neg (by simp),
    List.append_nil]
  exact decide_eq_true fun hca => h (hca ▸ hc)

/-- The first parts of equal texts are equal, and so are the rests. -/
lemma eq_of_append_separator {part' t : Str} (h : a ∉ part) (h' : a ∉ part')
    (heq : part ++ a :: s = part' ++ a :: t) : part = part' ∧ s = t := by
  have hpart : part = part' := by
    rw [← takeWhile_append_separator h s, heq, takeWhile_append_separator h']
  rw [hpart] at heq
  exact ⟨hpart, (List.cons.inj (List.append_cancel_left heq)).2⟩

/-- A text without the separator that a text begins with lies in the first part. -/
lemma prefix_of_notMem {t : Str} (h : a ∉ part) (hpre : part <+: s ++ a :: t) : part <+: s := by
  rcases List.prefix_or_prefix_of_prefix hpre (List.prefix_append s (a :: t)) with hs | ⟨u, rfl⟩
  · exact hs
  · rw [List.prefix_append_right_inj] at hpre
    cases u with
    | nil => rw [List.append_nil]
    | cons b u =>
      obtain rfl := (List.cons_prefix_cons.mp hpre).1
      exact absurd (List.mem_append_right s List.mem_cons_self) h

/-! ### Inner parts -/

/-- The parts that have a separator on both sides. -/
def innerParts (parts : List Str) : List Str := parts.tail.dropLast

lemma mem_innerParts_iff :
    part ∈ innerParts parts ↔ ∃ l r, l ≠ [] ∧ r ≠ [] ∧ parts = l ++ part :: r := by
  constructor
  · intro h
    cases parts with
    | nil => cases h
    | cons first rest =>
      have hrest : rest ≠ [] := by
        rintro rfl
        cases h
      obtain ⟨l, r, hlr⟩ := List.append_of_mem h
      refine ⟨first :: l, r ++ [rest.getLast hrest], List.cons_ne_nil _ _, by simp, ?_⟩
      have hdrop : rest.dropLast = l ++ part :: r := hlr
      calc first :: rest
          = first :: (rest.dropLast ++ [rest.getLast hrest]) := by
            rw [List.dropLast_append_getLast]
        _ = first :: l ++ part :: (r ++ [rest.getLast hrest]) := by
            rw [hdrop]
            simp
  · rintro ⟨l, r, hl, hr, rfl⟩
    obtain ⟨first, l, rfl⟩ := List.exists_cons_of_ne_nil hl
    have hlast : (l ++ part :: r).dropLast = l ++ part :: r.dropLast := by
      rw [List.dropLast_append_of_ne_nil (List.cons_ne_nil _ _),
        List.dropLast_cons_of_ne_nil hr]
    rw [innerParts, List.cons_append, List.tail_cons, hlast]
    exact List.mem_append_right l List.mem_cons_self

lemma join_cons (sep part : Str) (hne : parts ≠ []) :
    join sep (part :: parts) = part ++ sep ++ join sep parts :=
  List.intercalate_cons_of_ne_nil hne

/-- Lists of parts are joined on both sides of a separator. -/
lemma intercalate_append {α : Type*} (sep : List α) {l r : List (List α)} (hl : l ≠ [])
    (hr : r ≠ []) : sep.intercalate (l ++ r) = sep.intercalate l ++ sep ++ sep.intercalate r := by
  induction l with
  | nil => exact absurd rfl hl
  | cons part l ih =>
    by_cases hnil : l = []
    · subst hnil
      rw [List.singleton_append, List.intercalate_cons_of_ne_nil hr, List.intercalate_singleton]
    · rw [List.cons_append, List.intercalate_cons_of_ne_nil (by simp [hnil]), ih hnil,
        List.intercalate_cons_of_ne_nil hnil]
      simp only [List.append_assoc]

lemma join_append (sep : Str) {l r : List Str} (hl : l ≠ []) (hr : r ≠ []) :
    join sep (l ++ r) = join sep l ++ sep ++ join sep r := intercalate_append sep hl hr

/-- A text without separators stands between two of them exactly as an inner part. -/
lemma infix_iff_mem_innerParts (h : a ∉ part) :
    a :: part ++ [a] <:+: s ↔ part ∈ innerParts (s.splitOn a) := by
  rw [mem_innerParts_iff]
  constructor
  · rintro ⟨x, y, rfl⟩
    refine ⟨x.splitOn a, y.splitOn a, List.splitOn_ne_nil _ _, List.splitOn_ne_nil _ _, ?_⟩
    have hassoc : x ++ (a :: part ++ [a]) ++ y = x ++ a :: (part ++ a :: y) := by simp
    rw [hassoc, List.splitOn_append_cons_self, List.splitOn_append_cons_self_of_not_mem h]
  · rintro ⟨l, r, hl, hr, hparts⟩
    refine ⟨join [a] l, join [a] r, ?_⟩
    calc join [a] l ++ (a :: part ++ [a]) ++ join [a] r
        = join [a] l ++ [a] ++ (part ++ [a] ++ join [a] r) := by simp
      _ = join [a] (l ++ part :: r) := by
          rw [join_append [a] hl (List.cons_ne_nil _ _), join_cons [a] part hr]
      _ = s := by
          rw [← hparts]
          exact List.intercalate_splitOn a

end Dart
