import Mathlib.Data.List.Induction
import Mathlib.Tactic.Lemma

/-!
# Moving an element of a list

An element is moved to another place by exchanging neighbours, one after the other. The elements
between the two places move on by one.
-/

namespace Edit

variable {α : Type*}

/-- The element at one place is taken out and put in at another one. -/
def moveItem (l : List α) (source target : ℕ) : List α :=
  match l[source]? with
  | some x => (l.eraseIdx source).insertIdx target x
  | none => l

/-- The elements at two places change places. -/
def exchange (l : List α) (i j : ℕ) : List α :=
  match l[i]?, l[j]? with
  | some x, some y => (l.set i y).set j x
  | _, _ => l

/-- Exchanges with the next or with the previous neighbour, that many times. -/
def shift (up : Bool) : ℕ → ℕ → List α → List α
  | 0, _, l => l
  | steps + 1, place, l =>
    let next := if up then place + 1 else place - 1
    shift up steps next (exchange l place next)

lemma exchange_next (a c : List α) (x y : α) :
    exchange (a ++ x :: y :: c) a.length (a.length + 1) = a ++ y :: x :: c := by
  simp [exchange]

lemma exchange_previous (a c : List α) (x y : α) :
    exchange (a ++ y :: x :: c) (a.length + 1) a.length = a ++ x :: y :: c := by
  simp [exchange]

lemma shift_up (a b c : List α) (x : α) :
    shift true b.length a.length (a ++ x :: (b ++ c)) = a ++ (b ++ x :: c) := by
  induction b generalizing a with
  | nil => rfl
  | cons y b ih =>
    have h := ih (a ++ [y])
    rw [List.length_append, List.length_singleton] at h
    simp only [List.length_cons, shift, if_true, List.cons_append, exchange_next]
    simpa using h

lemma shift_down (a b c : List α) (x : α) :
    shift false b.length (a.length + b.length) (a ++ (b ++ x :: c)) = a ++ x :: (b ++ c) := by
  induction b using List.reverseRecOn generalizing c with
  | nil => rfl
  | append_singleton b y ih =>
    have hexchange : exchange (a ++ (b ++ [y] ++ x :: c)) (a.length + (b.length + 1))
        (a.length + b.length) = a ++ (b ++ x :: y :: c) := by
      have h := exchange_previous (a ++ b) c x y
      rw [List.length_append] at h
      simpa [Nat.add_assoc] using h
    rw [List.length_append, List.length_singleton, shift]
    simp only [Bool.false_eq_true, if_false, Nat.add_sub_cancel, ← Nat.add_assoc] at hexchange ⊢
    rw [hexchange, ih]
    simp

lemma insertIdx_length (a c : List α) (x : α) : (a ++ c).insertIdx a.length x = a ++ x :: c := by
  induction a with
  | nil => rfl
  | cons y a ih =>
    rw [List.cons_append, List.length_cons, List.insertIdx_succ_cons, ih]
    rfl

lemma eraseIdx_length (a c : List α) (x : α) : (a ++ x :: c).eraseIdx a.length = a ++ c := by
  rw [List.eraseIdx_append_of_length_le (Nat.le_refl _), Nat.sub_self]
  rfl

lemma moveItem_up (a b c : List α) (x : α) :
    moveItem (a ++ x :: (b ++ c)) a.length (a.length + b.length) = a ++ (b ++ x :: c) := by
  have hinsert := insertIdx_length (a ++ b) c x
  rw [List.length_append] at hinsert
  simpa [moveItem, eraseIdx_length] using hinsert

lemma moveItem_down (a b c : List α) (x : α) :
    moveItem (a ++ (b ++ x :: c)) (a.length + b.length) a.length = a ++ x :: (b ++ c) := by
  have herase := eraseIdx_length (a ++ b) c x
  rw [List.length_append, List.append_assoc] at herase
  simp [moveItem, herase, insertIdx_length]

/-- The exchanges from one place to the other move the element. -/
theorem shift_eq_moveItem (l : List α) {source target : ℕ} (hs : source < l.length)
    (ht : target < l.length) :
    (if source < target then shift true (target - source) source l
      else shift false (source - target) source l) = moveItem l source target := by
  by_cases hlt : source < target
  · obtain ⟨a, b, c, x, ha, hb, rfl⟩ : ∃ a b c x, a.length = source ∧
        b.length = target - source ∧ l = a ++ x :: (b ++ c) := by
      refine ⟨l.take source, (l.drop (source + 1)).take (target - source),
        (l.drop (source + 1)).drop (target - source), l[source], ?_, ?_, ?_⟩
      · exact List.length_take_of_le (Nat.le_of_lt hs)
      · rw [List.length_take_of_le]
        rw [List.length_drop]
        omega
      · rw [List.take_append_drop, ← List.drop_eq_getElem_cons hs, List.take_append_drop]
    obtain rfl : target = a.length + b.length := by omega
    rw [if_pos hlt, ← hb, ← ha, shift_up, moveItem_up]
  · obtain ⟨a, b, c, x, ha, hb, rfl⟩ : ∃ a b c x, a.length = target ∧
        b.length = source - target ∧ l = a ++ (b ++ x :: c) := by
      have hrest : source - target < (l.drop target).length := by
        rw [List.length_drop]
        omega
      refine ⟨l.take target, (l.drop target).take (source - target),
        (l.drop target).drop (source - target + 1), (l.drop target)[source - target], ?_, ?_, ?_⟩
      · exact List.length_take_of_le (Nat.le_of_lt ht)
      · exact List.length_take_of_le (Nat.le_of_lt hrest)
      · rw [← List.drop_eq_getElem_cons hrest, List.take_append_drop, List.take_append_drop]
    obtain rfl : source = a.length + b.length := by omega
    rw [if_neg hlt, ← hb, ← ha, shift_down, moveItem_down]

end Edit
