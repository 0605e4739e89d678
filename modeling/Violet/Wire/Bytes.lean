import Mathlib.Data.BitVec
import Mathlib.Data.List.Infix
import Mathlib.Tactic.Lemma

/-!
# Bytes of a packet

Bytes stand at a position of a packet. A program that follows positions reads what the writer of the
packet put there: each lemma moves the position over what has been read.
-/

namespace Wire

abbrev Byte := BitVec 8

variable {α : Type*} {data xs ys : List α} {x : α} {pos : ℕ}

/-! ### Positions -/

/-- `xs` stands in `data` from `pos` on. -/
def At (data : List α) (pos : ℕ) (xs : List α) : Prop := xs <+: data.drop pos

lemma At.start (xs rest : List α) : At (xs ++ rest) 0 xs := List.prefix_append xs rest

lemma At.append_iff : At data pos (xs ++ ys) ↔ At data pos xs ∧ At data (pos + xs.length) ys := by
  constructor
  · rintro ⟨rest, h⟩
    refine ⟨⟨ys ++ rest, by rw [← h, List.append_assoc]⟩, ⟨rest, ?_⟩⟩
    rw [← List.drop_drop, ← h, List.append_assoc, List.drop_left]
  · rintro ⟨⟨rest, h⟩, ⟨rest', h'⟩⟩
    rw [← List.drop_drop, ← h, List.drop_left] at h'
    exact ⟨rest', by rw [← h, ← h', List.append_assoc]⟩

lemma At.left (h : At data pos (xs ++ ys)) : At data pos xs := (append_iff.mp h).1

lemma At.right (h : At data pos (xs ++ ys)) : At data (pos + xs.length) ys := (append_iff.mp h).2

lemma At.tail (h : At data pos (x :: xs)) : At data (pos + 1) xs := by
  rw [← List.singleton_append] at h
  exact h.right

lemma At.getElem? (h : At data pos (x :: xs)) : data[pos]? = some x := by
  obtain ⟨rest, h⟩ := h
  have := congrArg List.head? h
  simpa [List.head?_drop] using this.symm

lemma At.le_length (h : At data pos xs) (hne : xs ≠ []) : pos + xs.length ≤ data.length := by
  have hle := h.length_le
  have hpos := List.length_pos_iff.mpr hne
  rw [List.length_drop] at hle
  omega

/-- Copy the bytes of a stretch; `none` is a read behind the end. -/
def copy (data : List α) (pos n : ℕ) : Option (List α) :=
  if pos + n ≤ data.length then some ((data.drop pos).take n) else none

lemma At.copy (h : At data pos xs) (hle : pos + xs.length ≤ data.length) :
    copy data pos xs.length = some xs := by
  rw [Wire.copy, if_pos hle, List.prefix_iff_eq_take.mp h]
  simp

lemma copy_eq_some {n : ℕ} (h : pos + n ≤ data.length) :
    copy data pos n = some ((data.drop pos).take n) := if_pos h

/-! ### Numbers of two bytes -/

/-- The number of two bytes, the first the high one. -/
def uint16 (high low : Byte) : ℕ := high.toNat * 256 + low.toNat

/-- Two bytes of a number, the high one first. -/
def be16 (n : ℕ) : List Byte := [BitVec.ofNat 8 (n / 256), BitVec.ofNat 8 n]

@[simp] lemma length_be16 (n : ℕ) : (be16 n).length = 2 := rfl

/-- Four bytes of a number, the highest one first. -/
def be32 (n : ℕ) : List Byte := be16 (n / 2 ^ 16) ++ be16 n

@[simp] lemma length_be32 (n : ℕ) : (be32 n).length = 4 := rfl

lemma uint16_be16 {n : ℕ} (h : n < 2 ^ 16) :
    uint16 (BitVec.ofNat 8 (n / 256)) (BitVec.ofNat 8 n) = n := by
  simp only [uint16, BitVec.toNat_ofNat]
  omega

end Wire
