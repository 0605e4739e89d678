import Violet.Dart.Integer
import Violet.Dart.Units

/-!
# Texts of numbers and names

Numbers are written and read as code units, and ASCII names are compared without regard to case.
-/

namespace Dart

namespace Units

/-- `String.toLowerCase`, for comparisons with ASCII text: the units of which ASCII letters come,
which the dotted I and the sign of the Kelvin are as well. -/
def toLowerCase (s : Units) : Units :=
  s.map fun u =>
    if 65 ≤ u.toNat ∧ u.toNat ≤ 90 then u + 32
    else if u = 0x130 then 105
    else if u = 0x212A then 107
    else u

/-- The characters of the units. Half a pair is none, which is no digit and not blank either. -/
def toStr (s : Units) : Str := s.map fun u => Char.ofNat u.toNat

/-- `int.parse`, where `none` is a format exception. -/
def intParse (s : Units) : Option ℤ := intTryParse s.toStr

/-- `int.toString` of a number that is not negative. -/
def ofNat (n : ℕ) : Units := (Nat.toDigits 10 n).map fun c => .ofNat c.toNat

/-- A single unit is replaced wherever it stands. -/
lemma replaceAll_singleton (s sub : Units) (a : UInt16) :
    s.replaceAll [a] sub = s.flatMap fun u => if u = a then sub else [u] := by
  rw [replaceAll, if_neg (List.cons_ne_nil a [])]
  induction s with
  | nil => rfl
  | cons u s ih =>
    rw [replaceAll.go, List.flatMap_cons]
    by_cases h : u = a
    · simp [h, ih]
    · simp [h, Ne.symm h, ih]

/-- Removing the occurrences of a text keeps the units that are not part of it. -/
lemma mem_replaceAll_nil {u : UInt16} {s pat : Units} (hne : pat ≠ []) (hu : u ∉ pat) :
    u ∈ s.replaceAll pat [] ↔ u ∈ s := by
  have hgo (s : Units) (skip : ℕ) (hskip : u ∉ s.take skip) :
      u ∈ replaceAll.go pat [] skip s ↔ u ∈ s := by
    induction s generalizing skip with
    | nil => rw [replaceAll.go]
    | cons v s ih =>
      cases skip with
      | succ skip =>
        rw [List.take_succ_cons, List.mem_cons, not_or] at hskip
        rw [replaceAll.go, ih skip hskip.2, List.mem_cons, or_iff_right hskip.1]
      | zero =>
        rw [replaceAll.go]
        split_ifs with hprefix
        · obtain ⟨rest, hrest⟩ := List.isPrefixOf_iff_prefix.mp hprefix
          obtain ⟨w, pat', rfl⟩ := List.exists_cons_of_ne_nil hne
          obtain ⟨rfl, rfl⟩ := List.cons.inj hrest
          rw [List.mem_cons, not_or] at hu
          have htake : u ∉ (pat' ++ rest).take ((w :: pat').length - 1) := by
            rw [List.length_cons, Nat.add_sub_cancel, List.take_left]
            exact hu.2
          rw [List.nil_append, ih _ htake, List.mem_cons, or_iff_right hu.1]
        · rw [List.mem_cons, List.mem_cons, ih 0 (by simp)]
  rw [replaceAll, if_neg hne]
  exact hgo s 0 (by simp)

/-! ### Digits -/

/-- The digits `0` to `9`. -/
def IsDigit (u : UInt16) : Prop := 48 ≤ u.toNat ∧ u.toNat ≤ 57

instance (u : UInt16) : Decidable (IsDigit u) := inferInstanceAs (Decidable (_ ∧ _))

lemma toNat_of_isDigit {c : Char} (h : c.isDigit = true) : 48 ≤ c.toNat ∧ c.toNat ≤ 57 := by
  simp only [Char.isDigit, Bool.and_eq_true, decide_eq_true_eq, ge_iff_le, UInt32.le_iff_toNat_le]
    at h
  exact h

lemma isDigit_of_mem_toDigits {n : ℕ} {c : Char} (h : c ∈ Nat.toDigits 10 n) :
    c.isDigit = true :=
  Nat.isDigit_of_mem_toDigits (by decide) (by decide) h

lemma isDigit_of_mem_ofNat {n : ℕ} {u : UInt16} (h : u ∈ ofNat n) : IsDigit u := by
  obtain ⟨c, hc, rfl⟩ := List.mem_map.mp h
  obtain ⟨h48, h57⟩ := toNat_of_isDigit (isDigit_of_mem_toDigits hc)
  have hmod : (UInt16.ofNat c.toNat).toNat = c.toNat :=
    UInt16.toNat_ofNat_of_lt' (by simp only [UInt16.size]; omega)
  rw [IsDigit, hmod]
  exact ⟨h48, h57⟩

/-- The number that digits stand for. -/
def value (s : Units) : ℕ := s.foldl (fun n u => 10 * n + (u.toNat - 48)) 0

lemma foldl_ofDigitChars {s : Str} (hs : ∀ c ∈ s, c.isDigit = true) (m : ℕ) :
    (s.map fun c => UInt16.ofNat c.toNat).foldl (fun n u => 10 * n + (u.toNat - 48)) m =
      Nat.ofDigitChars 10 s m := by
  induction s generalizing m with
  | nil => rfl
  | cons c s ih =>
    have hc := toNat_of_isDigit (hs c List.mem_cons_self)
    have hmod : (UInt16.ofNat c.toNat).toNat = c.toNat :=
      UInt16.toNat_ofNat_of_lt' (by simp only [UInt16.size]; omega)
    rw [List.map_cons, List.foldl_cons, ih fun d hd => hs d (List.mem_cons_of_mem c hd), hmod]
    rfl

lemma value_ofNat (n : ℕ) : value (ofNat n) = n := by
  rw [value, ofNat, foldl_ofDigitChars fun c hc => isDigit_of_mem_toDigits hc]
  exact Nat.ofDigitChars_ten_toDigits

/-- Zeros in front of a number do not change it. -/
lemma value_zeros_append (k : ℕ) (s : Units) : value (List.replicate k 48 ++ s) = value s := by
  have hzeros :
      (List.replicate k 48).foldl (fun n (u : UInt16) => 10 * n + (u.toNat - 48)) 0 = 0 := by
    induction k with
    | zero => rfl
    | succ k ih => exact ih
  rw [value, List.foldl_append, hzeros]
  rfl

end Units

end Dart
