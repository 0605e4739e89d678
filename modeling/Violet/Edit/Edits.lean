import Mathlib.Data.List.Forall2
import Mathlib.Order.Bounds.Basic
import Mathlib.Order.MinMax
import Mathlib.Tactic.Lemma

/-!
# Edit distance

The number of changes that lead from one list to another: elements are deleted, inserted or
replaced. The least numbers of changes obey the laws of a metric, where lists are equal when their
elements are.
-/

namespace Edit

variable {α : Type*} [BEq α]

/-- So many changes lead from the one list to the other. -/
inductive Edits : List α → List α → ℕ → Prop where
  | nil : Edits [] [] 0
  | delete {x : α} {a b : List α} {n : ℕ} (h : Edits a b n) : Edits (x :: a) b (n + 1)
  | insert {y : α} {a b : List α} {n : ℕ} (h : Edits a b n) : Edits a (y :: b) (n + 1)
  | keep {x y : α} {a b : List α} {n : ℕ} (hxy : (x == y) = true) (h : Edits a b n) :
      Edits (x :: a) (y :: b) n
  | replace {x y : α} {a b : List α} {n : ℕ} (h : Edits a b n) : Edits (x :: a) (y :: b) (n + 1)

/-- The least number of changes. -/
def IsDistance (a b : List α) (n : ℕ) : Prop := IsLeast {m | Edits a b m} n

namespace Edits

variable {a b c d : List α} {m n : ℕ}

lemma deleteAll (a : List α) (h : Edits b c n) : Edits (a ++ b) c (a.length + n) := by
  induction a with
  | nil => simpa using h
  | cons x a ih =>
    have h' := ih.delete (x := x)
    rwa [Nat.add_right_comm] at h'

lemma insertAll (a : List α) (h : Edits b c n) : Edits b (a ++ c) (a.length + n) := by
  induction a with
  | nil => simpa using h
  | cons x a ih =>
    have h' := ih.insert (y := x)
    rwa [Nat.add_right_comm] at h'

lemma append (h : Edits a b m) (h' : Edits c d n) : Edits (a ++ c) (b ++ d) (m + n) := by
  induction h with
  | nil => simpa using h'
  | delete _ ih => exact Nat.add_right_comm _ _ _ ▸ ih.delete
  | insert _ ih => exact Nat.add_right_comm _ _ _ ▸ ih.insert
  | keep hxy _ ih => exact ih.keep hxy
  | replace _ ih => exact Nat.add_right_comm _ _ _ ▸ ih.replace

lemma reverse (h : Edits a b n) : Edits a.reverse b.reverse n := by
  induction h with
  | nil => exact .nil
  | @delete x _ _ _ _ ih =>
    rw [List.reverse_cons]
    simpa using ih.append (nil.delete (x := x))
  | @insert y _ _ _ _ ih =>
    rw [List.reverse_cons]
    simpa using ih.append (nil.insert (y := y))
  | keep hxy _ ih =>
    rw [List.reverse_cons, List.reverse_cons]
    exact ih.append (nil.keep hxy)
  | @replace x y _ _ _ _ ih =>
    rw [List.reverse_cons, List.reverse_cons]
    exact ih.append (nil.replace (x := x) (y := y))

lemma reverse_iff : Edits a.reverse b.reverse n ↔ Edits a b n :=
  ⟨fun h => by simpa using h.reverse, reverse⟩

/-- No change at all leads to a list with equal elements. -/
lemma zero_iff : Edits a b 0 ↔ List.Forall₂ (fun x y => (x == y) = true) a b := by
  constructor
  · intro h
    generalize hn : 0 = n at h
    induction h with
    | nil => exact .nil
    | delete _ _ | insert _ _ | replace _ _ => cases hn
    | keep hxy _ ih => exact .cons hxy (ih hn)
  · intro h
    induction h with
    | nil => exact .nil
    | cons hxy _ ih => exact ih.keep hxy

/-- What becomes of the first element: elements are inserted in front of it, and it is deleted, kept
or replaced. -/
lemma cons_left {y : α} (h : Edits (y :: b) c n) :
    ∃ ins c' k, c = ins ++ c' ∧
      ((Edits b c' k ∧ n = ins.length + (k + 1)) ∨
        (∃ z d, c' = z :: d ∧ (y == z) = true ∧ Edits b d k ∧ n = ins.length + k) ∨
        ∃ z d, c' = z :: d ∧ Edits b d k ∧ n = ins.length + (k + 1)) := by
  generalize hl : y :: b = l at h
  induction h with
  | nil => cases hl
  | @delete x a c n h _ =>
    obtain ⟨rfl, rfl⟩ := List.cons.inj hl
    exact ⟨[], c, n, rfl, .inl ⟨h, by simp⟩⟩
  | @insert z a c n h ih =>
    obtain ⟨ins, c', k, rfl, hk⟩ := ih hl
    refine ⟨z :: ins, c', k, rfl, ?_⟩
    rcases hk with ⟨hk, rfl⟩ | ⟨z', d, rfl, hz, hk, rfl⟩ | ⟨z', d, rfl, hk, rfl⟩
    · exact .inl ⟨hk, by simp [Nat.add_right_comm]⟩
    · exact .inr (.inl ⟨z', d, rfl, hz, hk, by simp [Nat.add_right_comm]⟩)
    · exact .inr (.inr ⟨z', d, rfl, hk, by simp [Nat.add_right_comm]⟩)
  | @keep x z a c n hxz h _ =>
    obtain ⟨rfl, rfl⟩ := List.cons.inj hl
    exact ⟨[], z :: c, n, rfl, .inr (.inl ⟨z, c, rfl, hxz, h, by simp⟩)⟩
  | @replace x z a c n h _ =>
    obtain ⟨rfl, rfl⟩ := List.cons.inj hl
    exact ⟨[], z :: c, n, rfl, .inr (.inr ⟨z, c, rfl, h, by simp⟩)⟩

/-- Without its first element, the list is one change more away at most. -/
lemma of_cons_left {x : α} (h : Edits (x :: a) b n) : ∃ k ≤ n + 1, Edits a b k := by
  generalize hl : x :: a = l at h
  induction h with
  | nil => cases hl
  | @delete z l' b n h _ =>
    obtain ⟨rfl, rfl⟩ := List.cons.inj hl
    exact ⟨n, by omega, h⟩
  | insert _ ih =>
    obtain ⟨k, hk, h⟩ := ih hl
    exact ⟨k + 1, by omega, h.insert⟩
  | @keep z y l' b n _ h _ =>
    obtain ⟨rfl, rfl⟩ := List.cons.inj hl
    exact ⟨n + 1, le_rfl, h.insert⟩
  | @replace z y l' b n h _ =>
    obtain ⟨rfl, rfl⟩ := List.cons.inj hl
    exact ⟨n + 1, by omega, h.insert⟩

lemma of_cons_right {y : α} (h : Edits a (y :: b) n) : ∃ k ≤ n + 1, Edits a b k := by
  generalize hl : y :: b = l at h
  induction h with
  | nil => cases hl
  | @insert z a l' n h _ =>
    obtain ⟨rfl, rfl⟩ := List.cons.inj hl
    exact ⟨n, by omega, h⟩
  | delete _ ih =>
    obtain ⟨k, hk, h⟩ := ih hl
    exact ⟨k + 1, by omega, h.delete⟩
  | @keep x z a l' n _ h _ =>
    obtain ⟨rfl, rfl⟩ := List.cons.inj hl
    exact ⟨n + 1, le_rfl, h.delete⟩
  | @replace x z a l' n h _ =>
    obtain ⟨rfl, rfl⟩ := List.cons.inj hl
    exact ⟨n + 1, by omega, h.delete⟩

section

variable [PartialEquivBEq α]

lemma symm (h : Edits a b n) : Edits b a n := by
  induction h with
  | nil => exact .nil
  | delete _ ih => exact ih.insert
  | insert _ ih => exact ih.delete
  | keep hxy _ ih => exact ih.keep (PartialEquivBEq.symm hxy)
  | replace _ ih => exact ih.replace

/-- Changes one after the other are done at once. -/
lemma trans (h : Edits a b m) (h' : Edits b c n) : ∃ k ≤ m + n, Edits a c k := by
  induction h generalizing c n with
  | nil => exact ⟨n, by simp, h'⟩
  | delete _ ih =>
    obtain ⟨k, hk, hac⟩ := ih h'
    exact ⟨k + 1, by omega, hac.delete⟩
  | insert _ ih =>
    obtain ⟨ins, c', k, rfl, ⟨hk, rfl⟩ | ⟨z, d, rfl, -, hk, rfl⟩ | ⟨z, d, rfl, hk, rfl⟩⟩ :=
      h'.cons_left
    · obtain ⟨l, hl, hac⟩ := ih hk
      exact ⟨_, by omega, hac.insertAll ins⟩
    · obtain ⟨l, hl, hac⟩ := ih hk
      exact ⟨_, by omega, (hac.insert (y := z)).insertAll ins⟩
    · obtain ⟨l, hl, hac⟩ := ih hk
      exact ⟨_, by omega, (hac.insert (y := z)).insertAll ins⟩
  | @keep x y a b m hxy _ ih =>
    obtain ⟨ins, c', k, rfl, ⟨hk, rfl⟩ | ⟨z, d, rfl, hyz, hk, rfl⟩ | ⟨z, d, rfl, hk, rfl⟩⟩ :=
      h'.cons_left
    · obtain ⟨l, hl, hac⟩ := ih hk
      exact ⟨_, by omega, (hac.delete (x := x)).insertAll ins⟩
    · obtain ⟨l, hl, hac⟩ := ih hk
      exact ⟨_, by omega, (hac.keep (PartialEquivBEq.trans hxy hyz)).insertAll ins⟩
    · obtain ⟨l, hl, hac⟩ := ih hk
      exact ⟨_, by omega, (hac.replace (x := x) (y := z)).insertAll ins⟩
  | @replace x y a b m _ ih =>
    obtain ⟨ins, c', k, rfl, ⟨hk, rfl⟩ | ⟨z, d, rfl, -, hk, rfl⟩ | ⟨z, d, rfl, hk, rfl⟩⟩ :=
      h'.cons_left
    · obtain ⟨l, hl, hac⟩ := ih hk
      exact ⟨_, by omega, (hac.delete (x := x)).insertAll ins⟩
    · obtain ⟨l, hl, hac⟩ := ih hk
      exact ⟨_, by omega, (hac.replace (x := x) (y := z)).insertAll ins⟩
    · obtain ⟨l, hl, hac⟩ := ih hk
      exact ⟨_, by omega, (hac.replace (x := x) (y := z)).insertAll ins⟩

end

end Edits

/-! ### Least numbers of changes -/

namespace IsDistance

variable {a b c : List α} {m n p q r : ℕ}

lemma nil_left (b : List α) : IsDistance [] b b.length := by
  constructor
  · simpa using Edits.nil.insertAll b
  · intro n h
    generalize ha : ([] : List α) = a at h
    induction h with
    | nil => exact le_refl 0
    | insert _ ih => exact Nat.succ_le_succ (ih ha)
    | delete _ _ | keep _ _ _ | replace _ _ => cases ha

lemma nil_right (a : List α) : IsDistance a [] a.length := by
  constructor
  · simpa using Edits.nil.deleteAll a
  · intro n h
    generalize hb : ([] : List α) = b at h
    induction h with
    | nil => exact le_refl 0
    | delete _ ih => exact Nat.succ_le_succ (ih hb)
    | insert _ _ | keep _ _ _ | replace _ _ => cases hb

/-- The recurrence of the distance. -/
lemma cons {x y : α} (hp : IsDistance a (y :: b) p) (hq : IsDistance (x :: a) b q)
    (hr : IsDistance a b r) :
    IsDistance (x :: a) (y :: b) (min (min q p + 1) (r + if x == y then 0 else 1)) := by
  constructor
  · have hdelete : Edits (x :: a) (y :: b) (p + 1) := hp.1.delete
    have hinsert : Edits (x :: a) (y :: b) (q + 1) := hq.1.insert
    have hsubst : Edits (x :: a) (y :: b) (r + if x == y then 0 else 1) := by
      split_ifs with hxy
      · exact hr.1.keep hxy
      · exact hr.1.replace
    rcases min_choice (min q p + 1) (r + if x == y then 0 else 1) with h | h
    · rw [h]
      rcases min_choice q p with h' | h'
      · rw [h']
        exact hinsert
      · rw [h']
        exact hdelete
    · rw [h]
      exact hsubst
  · intro n h
    cases h with
    | delete h =>
      have := hp.2 h
      omega
    | insert h =>
      have := hq.2 h
      omega
    | keep hxy h =>
      have := hr.2 h
      rw [if_pos hxy]
      omega
    | replace h =>
      have := hr.2 h
      split_ifs <;> omega

lemma le_cons_right {y : α} (hp : IsDistance a (y :: b) p) (hr : IsDistance a b r) : r ≤ p + 1 := by
  obtain ⟨k, hk, h⟩ := hp.1.of_cons_right
  exact (hr.2 h).trans hk

lemma le_cons_left {x : α} (hq : IsDistance (x :: a) b q) (hr : IsDistance a b r) : r ≤ q + 1 := by
  obtain ⟨k, hk, h⟩ := hq.1.of_cons_left
  exact (hr.2 h).trans hk

/-- Equal elements in front leave the distance as it is. -/
lemma keep {x y : α} (hxy : (x == y) = true) (hr : IsDistance a b r) :
    IsDistance (x :: a) (y :: b) r := by
  refine ⟨hr.1.keep hxy, fun n h => ?_⟩
  cases h with
  | delete h =>
    obtain ⟨k, hk, h⟩ := h.of_cons_right
    exact (hr.2 h).trans hk
  | insert h =>
    obtain ⟨k, hk, h⟩ := h.of_cons_left
    exact (hr.2 h).trans hk
  | keep _ h => exact hr.2 h
  | replace h => exact (hr.2 h).trans (Nat.le_succ _)

lemma reverse_iff : IsDistance a.reverse b.reverse n ↔ IsDistance a b n := by
  simp only [IsDistance, Edits.reverse_iff]

lemma eq (h : IsDistance a b m) (h' : IsDistance a b n) : m = n := h.unique h'

lemma eq_zero_iff (h : IsDistance a b n) :
    n = 0 ↔ List.Forall₂ (fun x y => (x == y) = true) a b := by
  rw [← Edits.zero_iff]
  constructor
  · rintro rfl
    exact h.1
  · exact fun h0 => Nat.le_zero.mp (h.2 h0)

variable [PartialEquivBEq α]

lemma symm (h : IsDistance a b n) : IsDistance b a n :=
  ⟨h.1.symm, fun _ h' => h.2 (Edits.symm h')⟩

/-- The triangle inequality. -/
theorem triangle (h : IsDistance a b m) (h' : IsDistance b c n) (h'' : IsDistance a c p) :
    p ≤ m + n := by
  obtain ⟨k, hk, hac⟩ := h.1.trans h'.1
  exact (h''.2 hac).trans hk

end IsDistance

end Edit
