import Violet.Wire.Bytes

/-!
# Reading from memory

A packet lies in a memory that does not end with it. What a program reads at a position is what was
put there, and a stretch of any length can be read.
-/

namespace Wire

variable {α : Type*} {mem : ℕ → α} {pos n : ℕ} {x : α} {xs ys : List α}

/-- `xs` stands in the memory from `pos` on. -/
def Reads (mem : ℕ → α) : ℕ → List α → Prop
  | _, [] => True
  | pos, x :: xs => mem pos = x ∧ Reads mem (pos + 1) xs

/-- The `n` elements from `pos` on. -/
def stretch (mem : ℕ → α) (pos n : ℕ) : List α := (List.range n).map fun i => mem (pos + i)

@[simp] lemma length_stretch : (stretch mem pos n).length = n := by simp [stretch]

lemma stretch_succ : stretch mem pos (n + 1) = mem pos :: stretch mem (pos + 1) n := by
  simp [stretch, List.range_succ_eq_map, Function.comp_def, Nat.add_assoc, Nat.add_comm 1]

lemma Reads.append_iff :
    Reads mem pos (xs ++ ys) ↔ Reads mem pos xs ∧ Reads mem (pos + xs.length) ys := by
  induction xs generalizing pos with
  | nil => simp [Reads]
  | cons x xs ih => simp [Reads, ih, and_assoc, Nat.add_assoc, Nat.add_comm 1]

lemma Reads.left (h : Reads mem pos (xs ++ ys)) : Reads mem pos xs := (append_iff.mp h).1

lemma Reads.right (h : Reads mem pos (xs ++ ys)) : Reads mem (pos + xs.length) ys :=
  (append_iff.mp h).2

lemma Reads.stretch_eq (h : Reads mem pos xs) : stretch mem pos xs.length = xs := by
  induction xs generalizing pos with
  | nil => rfl
  | cons x xs ih =>
    obtain ⟨hx, hxs⟩ := h
    rw [List.length_cons, stretch_succ, hx, ih hxs]

lemma Reads.getElem (h : Reads mem pos xs) {i : ℕ} (hi : i < xs.length) :
    mem (pos + i) = xs[i] := by
  induction xs generalizing pos i with
  | nil => exact absurd hi (Nat.not_lt_zero i)
  | cons x xs ih =>
    cases i with
    | zero => exact h.1
    | succ i =>
      have hnext : pos + (i + 1) = pos + 1 + i := by omega
      rw [List.getElem_cons_succ, hnext]
      exact ih h.2 (Nat.lt_of_succ_lt_succ hi)

/-! ### Words -/

/-- The word of two bytes at a position, the first the high one. -/
def word16 (mem : ℕ → Byte) (pos : ℕ) : BitVec 16 :=
  BitVec.ofNat 16 (uint16 (mem pos) (mem (pos + 1)))

def word32 (mem : ℕ → Byte) (pos : ℕ) : BitVec 32 :=
  BitVec.ofNat 32 (uint16 (mem pos) (mem (pos + 1)) * 2 ^ 16 +
    uint16 (mem (pos + 2)) (mem (pos + 3)))

variable {mem : ℕ → Byte}

lemma Reads.word16_eq {w : BitVec 16} (h : Reads mem pos (be16 w.toNat)) : word16 mem pos = w := by
  obtain ⟨hhigh, hlow, -⟩ := h
  rw [word16, hhigh, hlow, uint16_be16 w.isLt, BitVec.ofNat_toNat, BitVec.setWidth_eq]

lemma Reads.toNat_word16 {n : ℕ} (h : Reads mem pos (be16 n)) (hn : n < 2 ^ 16) :
    (word16 mem pos).toNat = n := by
  obtain ⟨hhigh, hlow, -⟩ := h
  rw [word16, hhigh, hlow, uint16_be16 hn, BitVec.toNat_ofNat, Nat.mod_eq_of_lt hn]

lemma Reads.word32_eq {w : BitVec 32} (h : Reads mem pos (be32 w.toNat)) : word32 mem pos = w := by
  obtain ⟨h₀, h₁, h₂, h₃, -⟩ := h
  have hlt := w.isLt
  apply BitVec.eq_of_toNat_eq
  rw [word32, h₀, h₁, h₂, h₃]
  simp only [uint16, BitVec.toNat_ofNat]
  omega

end Wire
