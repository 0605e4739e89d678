import Mathlib.Data.List.Basic
import Mathlib.Tactic.Lemma

/-!
# Streams with serial numbers

The elements of a stream are numbered by words of `w` bits, which wrap around. A slice of the stream
is given by its first number and its length.
-/

namespace Wire

variable {α : Type*} {w : ℕ}

/-- The `n` elements of the stream from the number `s` on. -/
def slice (stream : BitVec w → α) (s : BitVec w) : ℕ → List α
  | 0 => []
  | n + 1 => stream s :: slice stream (s + 1) n

section

variable (stream : BitVec w → α) (s : BitVec w) (m n : ℕ)

@[simp] lemma slice_zero : slice stream s 0 = [] := rfl

@[simp] lemma length_slice : (slice stream s n).length = n := by
  induction n generalizing s with
  | zero => rfl
  | succ n ih => rw [slice, List.length_cons, ih]

lemma add_one_add_ofNat : s + 1 + BitVec.ofNat w n = s + BitVec.ofNat w (n + 1) := by
  rw [BitVec.add_assoc, Nat.add_comm n 1, BitVec.ofNat_add]
  rfl

theorem slice_add :
    slice stream s (m + n) = slice stream s m ++ slice stream (s + BitVec.ofNat w m) n := by
  induction m generalizing s with
  | zero => simp
  | succ m ih =>
    rw [Nat.succ_add, slice, slice, ih, add_one_add_ofNat, List.cons_append]

theorem drop_slice :
    (slice stream s n).drop m = slice stream (s + BitVec.ofNat w m) (n - m) := by
  induction m generalizing s n with
  | zero => simp
  | succ m ih =>
    cases n with
    | zero => simp
    | succ n => rw [slice, List.drop_succ_cons, ih, add_one_add_ofNat, Nat.add_sub_add_right]

theorem take_slice : (slice stream s n).take m = slice stream s (min m n) := by
  induction m generalizing s n with
  | zero => simp
  | succ m ih =>
    cases n with
    | zero => simp
    | succ n => rw [slice, List.take_succ_cons, ih, Nat.add_min_add_right, slice]

end

end Wire
