import Violet.Wire.Checksum
import Mathlib.Data.BitVec
import Mathlib.Data.Int.Order.Basic

/-!
# Checksums and sequence numbers

`calc_checksum` and `compare_u32` of `util.c`.

`calc_checksum` loads words of two bytes as the machine stores them, the first byte lowest. Its sum
is a `uint32_t`, which does not overflow on what a packet can hold.

`compare_u32` means to compare sequence numbers across the point where they start again at zero. It
subtracts two `int`s and asks whether the difference is greater than the greatest `int`, which it
never is, so it orders the numbers as signed numbers. The order agrees with the distance of the two
numbers unless `0x80000000` lies between them.
-/

namespace Violet.Tun2Http

open Wire

/-! ### `calc_checksum` -/

/-- The loop over the words of the buffer, and the last byte of an odd number of bytes. -/
def sumWords (sum : ℕ) : List Byte → ℕ
  | [] => sum
  | [b] => (sum + b.toNat) % 2 ^ 32
  | b₀ :: b₁ :: buffer => sumWords ((sum + (b₀.toNat + 256 * b₁.toNat)) % 2 ^ 32) buffer

def calcChecksum (start : BitVec 16) (buffer : List Byte) : BitVec 16 :=
  BitVec.ofNat 16 (fold (2 ^ 16) (sumWords start.toNat buffer))

/-- The sum does not overflow on the buffers that the proxy sums. -/
lemma sumWords_eq {buffer : List Byte} {sum : ℕ} (h : sum + wordSum buffer < 2 ^ 32) :
    sumWords sum buffer = sum + wordSum buffer := by
  fun_induction sumWords sum buffer with
  | case1 => simp
  | case2 sum b => exact Nat.mod_eq_of_lt h
  | case3 sum b₀ b₁ buffer ih =>
    simp only [wordSum_cons_cons] at h ⊢
    rw [Nat.mod_eq_of_lt (by omega)] at ih ⊢
    rw [ih (by omega)]
    omega

lemma toNat_calcChecksum {start : BitVec 16} {buffer : List Byte}
    (h : buffer.length < 2 ^ 16 + 2 ^ 15) :
    (calcChecksum start buffer).toNat = fold (2 ^ 16) (start.toNat + wordSum buffer) := by
  have hstart := start.isLt
  have hle := wordSum_le buffer
  rw [calcChecksum, sumWords_eq (by omega), BitVec.toNat_ofNat]
  exact Nat.mod_eq_of_lt (fold_lt (by norm_num) _)

/-- A checksum may be continued over the next part of a packet. -/
theorem calcChecksum_append {start : BitVec 16} {xs ys : List Byte} (heven : 2 ∣ xs.length)
    (hlen : xs.length + ys.length < 2 ^ 16 + 2 ^ 15) :
    calcChecksum (calcChecksum start xs) ys = calcChecksum start (xs ++ ys) := by
  apply BitVec.eq_of_toNat_eq
  rw [toNat_calcChecksum (by omega), toNat_calcChecksum (by omega),
    toNat_calcChecksum (by rw [List.length_append]; omega), fold_add_fold (by norm_num),
    wordSum_append heven, add_assoc]

/-! ### `compare_u32` -/

/-- `int` differences wrap around, as they do on the machines the library is built for. -/
def compareU32 (s₁ s₂ : BitVec 32) : ℤ :=
  if s₁ = s₂ then 0
  else if s₁.toInt < s₂.toInt ∧ (s₂ - s₁).toInt < 0x7FFFFFFF ∨
      s₁.toInt > s₂.toInt ∧ (s₁ - s₂).toInt > 0x7FFFFFFF then -1
  else 1

lemma not_greater_than_int (s : BitVec 32) : ¬ s.toInt > 0x7FFFFFFF := by
  have := BitVec.toInt_lt (x := s)
  omega

@[simp] lemma compareU32_self (s : BitVec 32) : compareU32 s s = 0 := if_pos rfl

lemma compareU32_eq_zero {s₁ s₂ : BitVec 32} : compareU32 s₁ s₂ = 0 ↔ s₁ = s₂ := by
  rw [compareU32]
  split_ifs with heq <;> simp [heq]

/-- The order is that of signed numbers, but for two numbers at the greatest distance. -/
theorem compareU32_neg_iff {s₁ s₂ : BitVec 32} :
    compareU32 s₁ s₂ < 0 ↔ s₁.toInt < s₂.toInt ∧ s₂ - s₁ ≠ 0x7FFFFFFF#32 := by
  have hlt : (s₂ - s₁).toInt < 0x7FFFFFFF ↔ s₂ - s₁ ≠ 0x7FFFFFFF#32 := by
    have hle := BitVec.toInt_lt (x := s₂ - s₁)
    have hmax : (0x7FFFFFFF#32).toInt = 0x7FFFFFFF := by decide
    rw [Ne, ← BitVec.toInt_inj, hmax]
    omega
  rw [compareU32]
  split_ifs with heq h
  · simp [heq]
  · simp only [not_greater_than_int, and_false, or_false, hlt] at h
    simpa using h
  · simp only [not_greater_than_int, and_false, or_false, hlt] at h
    simpa using h

theorem compareU32_nonpos_iff {s₁ s₂ : BitVec 32} :
    compareU32 s₁ s₂ ≤ 0 ↔ s₁ = s₂ ∨ s₁.toInt < s₂.toInt ∧ s₂ - s₁ ≠ 0x7FFFFFFF#32 := by
  rw [← compareU32_neg_iff, compareU32]
  split_ifs with heq <;> simp [heq]

/-- Between the numbers the sign changes from positive to negative. -/
def SignBetween (s₁ s₂ : BitVec 32) : Prop := s₁.toNat < 2 ^ 31 ∧ 2 ^ 31 ≤ s₂.toNat

instance (s₁ s₂ : BitVec 32) : Decidable (SignBetween s₁ s₂) :=
  inferInstanceAs (Decidable (_ ∧ _))

section

variable {s₁ s₂ : BitVec 32} (hpos : 0 < (s₂ - s₁).toNat) (hlt : (s₂ - s₁).toNat < 2 ^ 31 - 1)

include hpos hlt

lemma toInt_lt_iff_of_near : s₁.toInt < s₂.toInt ↔ ¬ SignBetween s₁ s₂ := by
  have h₁ := s₁.isLt
  have h₂ := s₂.isLt
  rw [BitVec.toNat_sub] at hpos hlt
  rw [SignBetween, BitVec.toInt_eq_toNat_cond, BitVec.toInt_eq_toNat_cond]
  split_ifs <;> omega

/-- Of two numbers close to each other, the first is the smaller but for a change of the sign. -/
theorem compareU32_neg_iff_of_near : compareU32 s₁ s₂ < 0 ↔ ¬ SignBetween s₁ s₂ := by
  rw [compareU32_neg_iff, toInt_lt_iff_of_near hpos hlt]
  refine and_iff_left fun heq => ?_
  rw [heq] at hlt
  exact absurd hlt (by decide)

theorem compareU32_nonpos_iff_of_near : compareU32 s₂ s₁ ≤ 0 ↔ SignBetween s₁ s₂ := by
  have hne : s₂ ≠ s₁ := by
    rintro rfl
    simp at hpos
  have hmax : s₁ - s₂ ≠ 0x7FFFFFFF#32 := by
    intro heq
    have heq := congrArg BitVec.toNat heq
    rw [BitVec.toNat_sub] at heq hlt hpos
    have : (0x7FFFFFFF#32).toNat = 2 ^ 31 - 1 := rfl
    omega
  have hle : s₂.toInt ≤ s₁.toInt ↔ s₂.toInt < s₁.toInt := by
    have : s₂.toInt ≠ s₁.toInt := fun heq => hne (BitVec.toInt_inj.mp heq)
    omega
  rw [compareU32_nonpos_iff, or_iff_right hne, and_iff_left hmax, ← hle, ← not_lt,
    toInt_lt_iff_of_near hpos hlt, not_not]

end

end Violet.Tun2Http
