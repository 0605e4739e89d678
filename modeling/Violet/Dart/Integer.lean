import Mathlib.Algebra.Group.Int.Defs
import Mathlib.Algebra.Group.Nat.Defs
import Violet.Dart.Str

/-!
# Dart integers and their text

`int.tryParse` reads a decimal number, or a hexadecimal one after `0x`, with an optional sign and
surrounding white space. Integers have 64 bits: a decimal number outside the range is refused, and
an unsigned hexadecimal number of 64 bits is read as its two's complement.
-/

namespace Dart

/-- The least number of 64 bits. -/
def intMin : ℤ := -2 ^ 63

/-- The greatest number of 64 bits. -/
def intMax : ℤ := 2 ^ 63 - 1

def hexDigit (c : Char) : Option ℕ :=
  if c.isDigit then some (c.toNat - 48)
  else if 'a' ≤ c ∧ c ≤ 'f' then some (c.toNat - 87)
  else if 'A' ≤ c ∧ c ≤ 'F' then some (c.toNat - 55)
  else none

def parseHex (s : Str) : Option ℕ :=
  if s = [] then none
  else s.foldlM (fun n c => (hexDigit c).map (16 * n + ·)) 0

def parseDecimal (s : Str) : Option ℕ :=
  if s ≠ [] ∧ s.all Char.isDigit then some (Nat.ofDigitChars 10 s 0) else none

/-- The digits after the sign; `neg` tells that the sign was `-`. -/
def parseMagnitude (neg : Bool) (s : Str) : Option ℤ :=
  match s with
  | '0' :: 'x' :: ds | '0' :: 'X' :: ds =>
    (parseHex ds).bind fun n =>
      if neg then (if n ≤ 2 ^ 63 then some (-(n : ℤ)) else none)
      else if n < 2 ^ 63 then some n
      else if n < 2 ^ 64 then some ((n : ℤ) - 2 ^ 64)
      else none
  | ds =>
    (parseDecimal ds).bind fun n =>
      if neg then (if n ≤ 2 ^ 63 then some (-(n : ℤ)) else none)
      else if n < 2 ^ 63 then some n
      else none

/-- `int.tryParse`. -/
def intTryParse (s : Str) : Option ℤ :=
  match trim s with
  | '-' :: ds => parseMagnitude true ds
  | '+' :: ds => parseMagnitude false ds
  | ds => parseMagnitude false ds

/-- `int.toString`. -/
def intToString : ℤ → Str
  | .ofNat n => Nat.toDigits 10 n
  | .negSucc n => '-' :: Nat.toDigits 10 (n + 1)

/-! ### Printed numbers -/

lemma isDigit_of_mem_intToString {n : ℤ} {c : Char} (h : c ∈ intToString n) :
    c = '-' ∨ c.isDigit = true := by
  cases n with
  | ofNat k => exact .inr (Nat.isDigit_of_mem_toDigits (by decide) (by decide) h)
  | negSucc k =>
    refine (List.mem_cons.mp h).imp_right fun h => ?_
    exact Nat.isDigit_of_mem_toDigits (by decide) (by decide) h

/-! ### Only digits and signs are read -/

/-- The characters of a number that `int.tryParse` reads. -/
def isNumeral (c : Char) : Bool :=
  (hexDigit c).isSome || c == 'x' || c == 'X' || c == '-' || c == '+'

lemma isNumeral_of_isDigit {c : Char} (h : c.isDigit = true) : isNumeral c = true := by
  simp [isNumeral, hexDigit, h]

lemma isNumeral_of_parseDecimal {s : Str} {n : ℕ} (h : parseDecimal s = some n) :
    ∀ c ∈ s, isNumeral c = true := by
  simp only [parseDecimal, Option.ite_none_right_eq_some] at h
  exact fun c hc => isNumeral_of_isDigit (List.all_eq_true.mp h.1.2 c hc)

lemma isNumeral_of_foldlM_hexDigit {s : Str} {m n : ℕ}
    (h : s.foldlM (fun n c => (hexDigit c).map (16 * n + ·)) m = some n) :
    ∀ c ∈ s, isNumeral c = true := by
  induction s generalizing m with
  | nil => simp
  | cons d s ih =>
    simp only [List.foldlM_cons, Option.bind_eq_bind, Option.bind_eq_some_iff,
      Option.map_eq_some_iff] at h
    obtain ⟨_, ⟨k, hk, -⟩, hs⟩ := h
    intro c hc
    rcases List.mem_cons.mp hc with rfl | hc
    · simp [isNumeral, hk]
    · exact ih hs c hc

lemma isNumeral_of_parseMagnitude {neg : Bool} {s : Str} {n : ℤ}
    (h : parseMagnitude neg s = some n) : ∀ c ∈ s, isNumeral c = true := by
  have hex {ds : Str} {k : ℕ} (hd : parseHex ds = some k) : ∀ c ∈ ds, isNumeral c = true := by
    simp only [parseHex, Option.ite_none_left_eq_some] at hd
    exact isNumeral_of_foldlM_hexDigit hd.2
  unfold parseMagnitude at h
  split at h
  · obtain ⟨k, hk, -⟩ := Option.bind_eq_some_iff.mp h
    simpa [isNumeral, hexDigit] using hex hk
  · obtain ⟨k, hk, -⟩ := Option.bind_eq_some_iff.mp h
    simpa [isNumeral, hexDigit] using hex hk
  · obtain ⟨k, hk, -⟩ := Option.bind_eq_some_iff.mp h
    exact isNumeral_of_parseDecimal hk

/-- `int.tryParse` accepts nothing but white space, digits and signs. -/
lemma isNumeral_of_intTryParse {s : Str} {n : ℤ} (h : intTryParse s = some n) :
    ∀ c ∈ trim s, isNumeral c = true := by
  unfold intTryParse at h
  split at h
  · rename_i heq
    rw [heq]
    simpa [isNumeral] using isNumeral_of_parseMagnitude h
  · rename_i heq
    rw [heq]
    simpa [isNumeral] using isNumeral_of_parseMagnitude h
  · exact isNumeral_of_parseMagnitude h

lemma isWhitespace_of_isNumeral {c : Char} (h : isNumeral c = true) : isWhitespace c = false := by
  have hrange : 33 ≤ c.toNat ∧ c.toNat ≤ 126 := by
    simp only [isNumeral, Bool.or_eq_true, beq_iff_eq] at h
    rcases h with (((hhex | rfl) | rfl) | rfl) | rfl
    · simp only [hexDigit, Char.isDigit, Bool.and_eq_true, decide_eq_true_eq, ge_iff_le] at hhex
      split_ifs at hhex with hd ha hA
      · exact ⟨le_trans (by decide) (UInt32.le_iff_toNat_le.mp hd.1),
          le_trans (UInt32.le_iff_toNat_le.mp hd.2) (by decide)⟩
      · exact ⟨le_trans (by decide) (UInt32.le_iff_toNat_le.mp ha.1),
          le_trans (UInt32.le_iff_toNat_le.mp ha.2) (by decide)⟩
      · exact ⟨le_trans (by decide) (UInt32.le_iff_toNat_le.mp hA.1),
          le_trans (UInt32.le_iff_toNat_le.mp hA.2) (by decide)⟩
      · cases hhex
    all_goals decide
  simp only [isWhitespace]
  grind

/-- The text of a number has no white space inside. -/
lemma not_isWhitespace_of_intTryParse {s : Str} {n : ℤ} (h : intTryParse s = some n) :
    ∀ c ∈ trim s, isWhitespace c = false := fun c hc =>
  isWhitespace_of_isNumeral (isNumeral_of_intTryParse h c hc)

lemma intTryParse_trim {s : Str} {n : ℤ} (h : intTryParse s = some n) :
    intTryParse (trim s) = some n := by
  rw [intTryParse, trim_eq_self (not_isWhitespace_of_intTryParse h)]
  exact h

/-! ### Reading back a printed number -/

lemma parseDecimal_toDigits (n : ℕ) : parseDecimal (Nat.toDigits 10 n) = some n := by
  have hd : (Nat.toDigits 10 n).all Char.isDigit = true := by
    rw [List.all_eq_true]
    exact fun c hc => Nat.isDigit_of_mem_toDigits (by decide) (by decide) hc
  simp [parseDecimal, hd, Nat.toDigits_ne_nil, Nat.ofDigitChars_ten_toDigits]

lemma parseMagnitude_of_all_isDigit {neg : Bool} {s : Str} (hs : s.all Char.isDigit = true) :
    parseMagnitude neg s = (parseDecimal s).bind fun n =>
      if neg then (if n ≤ 2 ^ 63 then some (-(n : ℤ)) else none)
      else if n < 2 ^ 63 then some n
      else none := by
  unfold parseMagnitude
  split
  · simp [Char.isDigit] at hs
  · simp [Char.isDigit] at hs
  · rfl

lemma isDigit_not_isWhitespace {c : Char} (h : c.isDigit = true) : isWhitespace c = false := by
  simp only [Char.isDigit, Bool.and_eq_true, decide_eq_true_eq, ge_iff_le, UInt32.le_iff_toNat_le]
    at h
  have h48 : 48 ≤ c.toNat := h.1
  have h57 : c.toNat ≤ 57 := h.2
  simp only [isWhitespace]
  grind

lemma toDigits_ne_cons {n : ℕ} {c : Char} {s : Str} (h : Nat.toDigits 10 n = c :: s) :
    c.isDigit = true :=
  Nat.isDigit_of_mem_toDigits (b := 10) (n := n) (by decide) (by decide) (by rw [h]; simp)

/-- `int.tryParse` undoes `int.toString` on the numbers of 64 bits. -/
theorem intTryParse_intToString {n : ℤ} (hmin : intMin ≤ n) (hmax : n ≤ intMax) :
    intTryParse (intToString n) = some n := by
  have digits (k : ℕ) : (Nat.toDigits 10 k).all Char.isDigit = true :=
    List.all_eq_true.mpr fun c hc => Nat.isDigit_of_mem_toDigits (by decide) (by decide) hc
  have blank (k : ℕ) : ∀ c ∈ Nat.toDigits 10 k, isWhitespace c = false := fun c hc =>
    isDigit_not_isWhitespace (List.all_eq_true.mp (digits k) c hc)
  simp only [intMin, intMax] at hmin hmax
  cases n with
  | ofNat k =>
    have hk : k < 2 ^ 63 := by simp only [Int.ofNat_eq_natCast] at hmax; omega
    rw [intToString, intTryParse, trim_eq_self (blank k)]
    split
    · exact absurd (toDigits_ne_cons ‹_›) (by decide)
    · exact absurd (toDigits_ne_cons ‹_›) (by decide)
    · simpa [parseMagnitude_of_all_isDigit (digits k), parseDecimal_toDigits] using hk
  | negSucc k =>
    have hk : k + 1 ≤ 2 ^ 63 := by omega
    have hb : ∀ c ∈ '-' :: Nat.toDigits 10 (k + 1), isWhitespace c = false := by
      rintro c (_ | ⟨_, hc⟩)
      · decide
      · exact blank _ c hc
    rw [intToString, intTryParse, trim_eq_self hb]
    simp only [parseMagnitude_of_all_isDigit (digits _), parseDecimal_toDigits, Option.bind_some,
      if_true, hk, Int.negSucc_eq, Int.natCast_add, Int.cast_ofNat_Int]

end Dart
