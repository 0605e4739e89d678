import Mathlib.Data.List.Infix
import Mathlib.Data.List.TakeWhile
import Mathlib.Tactic.Lemma

/-!
# Stretches

A stretch of a list is a part of it without separators that cannot be made longer.
-/

namespace Dart

variable {α : Type*} {a : α} {s before part after before' part' after' : List α} {place i : ℕ}

/-- The list is made up of three parts, of which the second one is a stretch without `a` that has
the element in front of the place. -/
structure IsStretch (a : α) (s : List α) (place : ℕ) (before part after : List α) : Prop where
  append : s = before ++ part ++ after
  notMem : a ∉ part
  before_eq : before = [] ∨ ∃ l, before = l ++ [a]
  after_eq : after = [] ∨ ∃ l, after = a :: l
  lt_place : before.length < place
  place_le : place ≤ before.length + part.length

lemma getElem?_append_cons (before part l : List α) :
    (before ++ part ++ a :: l)[before.length + part.length]? = some a := by
  rw [List.getElem?_append_right (by rw [List.length_append]), List.length_append, Nat.sub_self]
  rfl

namespace IsStretch

lemma getElem?_ne (h : IsStretch a s place before part after) (hi : before.length ≤ i)
    (hi' : i < before.length + part.length) : s[i]? ≠ some a := by
  intro hget
  rw [h.append, List.append_assoc, List.getElem?_append_right hi,
    List.getElem?_append_left (by omega)] at hget
  exact h.notMem (List.mem_of_getElem? hget)

/-- The place is not behind a separator. -/
lemma getElem?_place_ne (h : IsStretch a s place before part after) : s[place - 1]? ≠ some a := by
  have hlt := h.lt_place
  have hle := h.place_le
  exact h.getElem?_ne (by omega) (by omega)

/-- A separator ends the part before a stretch. -/
lemma getElem?_before (h : IsStretch a s place before part after) (hbefore : before ≠ []) :
    s[before.length - 1]? = some a := by
  obtain ⟨l, rfl⟩ := h.before_eq.resolve_left hbefore
  rw [h.append, List.append_assoc, List.append_assoc, List.length_append, List.length_singleton,
    Nat.add_sub_cancel, List.getElem?_append_right le_rfl, Nat.sub_self]
  rfl

lemma getElem?_after (h : IsStretch a s place before part after) (hafter : after ≠ []) :
    s[before.length + part.length]? = some a := by
  obtain ⟨l, rfl⟩ := h.after_eq.resolve_left hafter
  rw [h.append]
  exact getElem?_append_cons before part l

/-- No stretch around the place begins later. -/
lemma length_before_le (h : IsStretch a s place before part after)
    (h' : IsStretch a s place before' part' after') : before'.length ≤ before.length := by
  by_contra hlt
  have hlt' := h'.lt_place
  have hle := h.place_le
  refine h.getElem?_ne (i := before'.length - 1) (by omega) (by omega) (h'.getElem?_before ?_)
  exact List.ne_nil_of_length_pos (by omega)

/-- No stretch around the place ends earlier. -/
lemma length_part_le (h : IsStretch a s place before part after)
    (h' : IsStretch a s place before' part' after') :
    before.length + part.length ≤ before'.length + part'.length := by
  by_contra hlt
  have hlt' := h.lt_place
  have hle := h'.place_le
  refine h.getElem?_ne (i := before'.length + part'.length) (by omega) (by omega)
    (h'.getElem?_after ?_)
  rintro rfl
  have hlength := congrArg List.length (h.append.symm.trans h'.append)
  simp only [List.length_append, List.length_nil] at hlength
  omega

/-- There is one stretch around a place. -/
theorem unique (h : IsStretch a s place before part after)
    (h' : IsStretch a s place before' part' after') :
    before = before' ∧ part = part' ∧ after = after' := by
  have hbefore := (h'.length_before_le h).antisymm (h.length_before_le h')
  have hpart := (h.length_part_le h').antisymm (h'.length_part_le h)
  have happend := h.append.symm.trans h'.append
  have hlength : (before ++ part).length = (before' ++ part').length := by
    rw [List.length_append, List.length_append, hpart]
  obtain ⟨hfront, hafter⟩ := List.append_inj happend hlength
  obtain ⟨hbefore', hpart'⟩ := List.append_inj hfront hbefore
  exact ⟨hbefore', hpart', hafter⟩

end IsStretch

lemma dropWhile_ne_eq [DecidableEq α] (a : α) (l : List α) :
    l.dropWhile (· ≠ a) = [] ∨ ∃ rest, l.dropWhile (· ≠ a) = a :: rest := by
  cases hdrop : l.dropWhile (· ≠ a) with
  | nil => exact .inl rfl
  | cons b rest =>
    have hhead := List.head?_dropWhile_not (fun b => decide (b ≠ a)) l
    rw [hdrop] at hhead
    obtain rfl : b = a := by simpa using hhead
    exact .inr ⟨rest, rfl⟩

/-- What is behind a separator, or at the start of the list, up to the next separator. -/
lemma isStretch_takeWhile [DecidableEq α] {start : ℕ} (hstart : start = 0 ∨ s[start - 1]? = some a)
    (hne : ∀ i, start ≤ i → i < place → s[i]? ≠ some a) (hlt : start < place)
    (hplace : place ≤ s.length) :
    IsStretch a s place (s.take start) ((s.drop start).takeWhile (· ≠ a))
      ((s.drop start).dropWhile (· ≠ a)) := by
  have htake : (s.take start).length = start := List.length_take_of_le (by omega)
  have happend : s = s.take start ++ (s.drop start).takeWhile (· ≠ a) ++
      (s.drop start).dropWhile (· ≠ a) := by
    rw [List.append_assoc, List.takeWhile_append_dropWhile, List.take_append_drop]
  have hafter := dropWhile_ne_eq a (s.drop start)
  refine ⟨happend, fun hmem => ?_, ?_, hafter, by rwa [htake], ?_⟩
  · simpa using List.mem_takeWhile_imp hmem
  · obtain _ | start := start
    · exact .inl rfl
    · have hget := hstart.resolve_left (Nat.succ_ne_zero start)
      rw [Nat.add_sub_cancel] at hget
      refine .inr ⟨s.take start, ?_⟩
      rw [List.take_add_one, hget]
      rfl
  · by_contra hle
    have hlength := congrArg List.length happend
    simp only [List.length_append] at hlength
    rcases hafter with hnil | ⟨l, hl⟩
    · rw [hnil, List.length_nil] at hlength
      omega
    · refine hne (start + ((s.drop start).takeWhile (· ≠ a)).length) (by omega) (by omega) ?_
      rw [hl] at happend
      have hget := getElem?_append_cons (s.take start) ((s.drop start).takeWhile (· ≠ a)) l (a := a)
      rwa [← happend, htake] at hget

end Dart
