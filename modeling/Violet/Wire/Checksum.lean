import Violet.Wire.Bytes
import Violet.Wire.OnesComplement
import Mathlib.Tactic.NormNum

/-!
# The internet checksum

A packet verifies when the ones' complement sum of its words, the first byte of each the high one,
is the greatest word. A machine may sum the words with their bytes the other way round: the sums are
the same but for a factor that is prime to the greatest word.
-/

namespace Wire

/-- The sum of the words, the first byte of each the high one. -/
def netSum : List Byte → ℕ
  | [] => 0
  | [b] => 256 * b.toNat
  | b₀ :: b₁ :: bytes => 256 * b₀.toNat + b₁.toNat + netSum bytes

/-- The sum of the words, the first byte of each the low one. -/
def wordSum : List Byte → ℕ
  | [] => 0
  | [b] => b.toNat
  | b₀ :: b₁ :: bytes => b₀.toNat + 256 * b₁.toNat + wordSum bytes

def Verifies (bytes : List Byte) : Prop := fold (2 ^ 16) (netSum bytes) = 2 ^ 16 - 1

/-- Two bytes of a word, the low one first. -/
def le16 (n : ℕ) : List Byte := [BitVec.ofNat 8 n, BitVec.ofNat 8 (n / 256)]

@[simp] lemma length_le16 (n : ℕ) : (le16 n).length = 2 := rfl

@[simp] lemma wordSum_nil : wordSum [] = 0 := rfl

@[simp] lemma wordSum_cons_cons (b₀ b₁ : Byte) (bytes : List Byte) :
    wordSum (b₀ :: b₁ :: bytes) = b₀.toNat + 256 * b₁.toNat + wordSum bytes := rfl

lemma wordSum_le (bytes : List Byte) : wordSum bytes ≤ 2 ^ 15 * (bytes.length + 1) := by
  fun_induction wordSum bytes with
  | case1 => simp
  | case2 b =>
    have := b.isLt
    simp only [List.length_singleton]
    omega
  | case3 b₀ b₁ bytes ih =>
    have := b₀.isLt
    have := b₁.isLt
    simp only [List.length_cons]
    omega

/-- The words of two parts one behind the other, when the first ends with a whole word. -/
lemma wordSum_append {xs ys : List Byte} (h : 2 ∣ xs.length) :
    wordSum (xs ++ ys) = wordSum xs + wordSum ys := by
  fun_induction wordSum xs with
  | case1 => simp
  | case2 b => simp at h
  | case3 b₀ b₁ xs ih =>
    have heven : 2 ∣ xs.length := by
      simp only [List.length_cons] at h
      omega
    simp only [List.cons_append, wordSum_cons_cons, ih heven]
    omega

lemma wordSum_le16 {n : ℕ} (h : n < 2 ^ 16) : wordSum (le16 n) = n := by
  simp only [le16, wordSum_cons_cons, wordSum_nil, BitVec.toNat_ofNat]
  omega

/-- The order of the bytes is a factor. -/
lemma netSum_modEq (bytes : List Byte) : netSum bytes ≡ 256 * wordSum bytes [MOD (2 ^ 16 - 1)] := by
  fun_induction netSum bytes with
  | case1 => rfl
  | case2 b => rfl
  | case3 b₀ b₁ bytes ih =>
    have hword :
        256 * b₀.toNat + b₁.toNat ≡ 256 * (b₀.toNat + 256 * b₁.toNat) [MOD (2 ^ 16 - 1)] := by
      refine (Nat.modEq_iff_dvd' ?_).mpr ⟨b₁.toNat, ?_⟩ <;> omega
    rw [wordSum_cons_cons, mul_add]
    exact hword.add ih

lemma netSum_pos {bytes : List Byte} (h : 0 < wordSum bytes) : 0 < netSum bytes := by
  fun_induction netSum bytes with
  | case1 => exact h
  | case2 b =>
    rw [wordSum] at h
    omega
  | case3 b₀ b₁ bytes ih =>
    rw [wordSum_cons_cons] at h
    omega

/-- What verifies on one machine verifies on the other. -/
theorem verifies_of_dvd {bytes : List Byte} (hpos : 0 < wordSum bytes)
    (hdvd : 2 ^ 16 - 1 ∣ wordSum bytes) : Verifies bytes := by
  refine fold_of_dvd (by norm_num) (netSum_pos hpos) ?_
  rw [← Nat.modEq_zero_iff_dvd]
  exact (netSum_modEq bytes).trans (Nat.modEq_zero_iff_dvd.mpr (hdvd.mul_left 256))

/-- A packet that has been summed with a zero word, and holds the complement of its sum there. -/
theorem verifies_complement {before behind : List Byte} (hbefore : 2 ∣ before.length) :
    Verifies (before ++ le16 (2 ^ 16 - 1 - fold (2 ^ 16) (wordSum (before ++ le16 0 ++ behind))) ++
      behind) := by
  have hzero : wordSum (before ++ le16 0 ++ behind) = wordSum before + wordSum behind := by
    rw [wordSum_append (by simpa using hbefore), wordSum_append hbefore, wordSum_le16 (by norm_num)]
    rfl
  rw [hzero]
  have hfold := fold_complete (b := 2 ^ 16) (by norm_num) (wordSum before + wordSum behind)
  have hlt := fold_lt (b := 2 ^ 16) (by norm_num) (wordSum before + wordSum behind)
  have hsum : ∀ n < 2 ^ 16,
      wordSum (before ++ le16 n ++ behind) = wordSum before + wordSum behind + n := by
    intro n hn
    rw [wordSum_append (by simpa using hbefore), wordSum_append hbefore, wordSum_le16 hn]
    omega
  generalize hn : 2 ^ 16 - 1 - fold (2 ^ 16) (wordSum before + wordSum behind) = n at hfold
  have hmod := fold_modEq (b := 2 ^ 16) (by norm_num) (wordSum before + wordSum behind + n)
  rw [hfold] at hmod
  apply verifies_of_dvd
  · rw [hsum n (by omega)]
    by_contra hpos
    rw [show wordSum before + wordSum behind + n = 0 by omega, fold_of_lt (by norm_num)] at hfold
    norm_num at hfold
  · rw [hsum n (by omega), ← Nat.modEq_zero_iff_dvd]
    exact hmod.symm.trans (Nat.modEq_zero_iff_dvd.mpr dvd_rfl)

end Wire
