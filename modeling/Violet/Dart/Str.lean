import Mathlib.Data.List.DropRight
import Mathlib.Data.List.Infix
import Mathlib.Tactic.Lemma

/-!
# Dart strings

A Dart string is a list of characters. The operations of `dart:core` that a program calls on its
strings are functions on such lists: `trim`, `split` on one character, `startsWith`, `replaceAll`.

`Str` literals are written `"text".toList`, which evaluates by `rfl` and by `decide`.
-/

namespace Dart

abbrev Str := List Char

/-- The characters that `String.trim` removes: Unicode white space and the byte order mark. -/
def isWhitespace (c : Char) : Bool :=
  let n := c.toNat
  (9 ≤ n && n ≤ 13) || n == 32 || n == 0x85 || n == 0xA0 || n == 0x1680 ||
    (0x2000 ≤ n && n ≤ 0x200A) || n == 0x2028 || n == 0x2029 || n == 0x202F || n == 0x205F ||
    n == 0x3000 || n == 0xFEFF

def trimLeft (s : Str) : Str := s.dropWhile isWhitespace

def trimRight (s : Str) : Str := s.rdropWhile isWhitespace

def trim (s : Str) : Str := trimRight (trimLeft s)

/-- `String.toLowerCase` on ASCII letters, for comparisons with ASCII text without `i` and `k`.
These also come of U+0130 and U+212A in Dart, which stay as they are here. -/
def toLowerCase (s : Str) : Str := s.map Char.toLower

/-- `replaceAll` of one character by another. -/
def replaceChar (a b : Char) (s : Str) : Str := s.map fun c => if c = a then b else c

/-- `replaceAll` of a nonempty text: the occurrences are taken from the left, without overlap.
The counter is the number of characters of the last occurrence still to be skipped. -/
def replaceAll (pat sub : Str) (s : Str) : Str := go 0 s
where
  go : ℕ → Str → Str
    | _, [] => []
    | skip + 1, _ :: s => go skip s
    | 0, c :: s =>
      if pat.isPrefixOf (c :: s) then sub ++ go (pat.length - 1) s else c :: go 0 s

/-- `split` at the occurrences of a nonempty text, which are taken as by `replaceAll`. -/
def splitAll (pat : Str) (s : Str) : List Str := go 0 [] s
where
  go : ℕ → Str → Str → List Str
    | _, part, [] => [part]
    | skip + 1, part, _ :: s => go skip part s
    | 0, part, c :: s =>
      if pat.isPrefixOf (c :: s) then part :: go (pat.length - 1) [] s else go 0 (part ++ [c]) s

def contains (s pat : Str) : Bool := decide (pat <:+: s)

/-- `join` of a list of strings. -/
def join (sep : Str) (parts : List Str) : Str := sep.intercalate parts

/-- A property of every element of a given list, by evaluation. -/
lemma forall_mem_of_all {α : Type*} {p : α → Prop} [DecidablePred p] {s : List α}
    (h : (s.all fun c => decide (p c)) = true) : ∀ c ∈ s, p c := fun c hc =>
  of_decide_eq_true (List.all_eq_true.mp h c hc)

/-! ### Replacing -/

lemma replaceAll_go_length (pat sub : Str) (s t : Str) :
    replaceAll.go pat sub s.length (s ++ t) = replaceAll pat sub t := by
  induction s with
  | nil => rfl
  | cons c s ih => exact ih

/-- An occurrence at the beginning is replaced. -/
lemma replaceAll_append_self {pat : Str} (hpat : pat ≠ []) (sub t : Str) :
    replaceAll pat sub (pat ++ t) = sub ++ replaceAll pat sub t := by
  obtain ⟨c, pat', rfl⟩ := List.exists_cons_of_ne_nil hpat
  have hpre : (c :: pat').isPrefixOf (c :: (pat' ++ t)) = true := by
    rw [List.isPrefixOf_iff_prefix, ← List.cons_append]
    exact List.prefix_append _ _
  rw [replaceAll, List.cons_append, replaceAll.go, if_pos hpre]
  exact congrArg (sub ++ ·) (replaceAll_go_length _ _ pat' t)

/-- A text without the first character of the pattern is kept. -/
lemma replaceAll_append_of_notMem {c : Char} {pat sub s : Str} (hs : c ∉ s) (t : Str) :
    replaceAll (c :: pat) sub (s ++ t) = s ++ replaceAll (c :: pat) sub t := by
  induction s with
  | nil => rfl
  | cons d s ih =>
    have hcd : c ≠ d := fun h => hs (by simp [h])
    have hpre : (c :: pat).isPrefixOf (d :: (s ++ t)) = false := by
      simp [List.isPrefixOf, hcd]
    rw [replaceAll, List.cons_append, replaceAll.go, hpre, if_neg Bool.false_ne_true,
      List.cons_append]
    exact congrArg (d :: ·) (ih fun h => hs (List.mem_cons_of_mem _ h))

/-- A text in which the pattern does not occur is kept. -/
lemma replaceAll_eq_self {pat sub s : Str} (h : ¬ pat <:+: s) : replaceAll pat sub s = s := by
  induction s with
  | nil => rfl
  | cons c s ih =>
    have hpre : pat.isPrefixOf (c :: s) = false := by
      rw [Bool.eq_false_iff, ne_eq, List.isPrefixOf_iff_prefix]
      exact fun hp => h hp.isInfix
    rw [replaceAll, replaceAll.go, hpre, if_neg Bool.false_ne_true]
    exact congrArg (c :: ·) (ih fun hi => h (hi.trans (List.suffix_cons c s).isInfix))

lemma replaceChar_of_notMem {a b : Char} {s : Str} (h : a ∉ s) : replaceChar a b s = s := by
  conv_rhs => rw [← List.map_id s]
  exact List.map_congr_left fun c hc => if_neg (ne_of_mem_of_not_mem hc h)

/-! ### White space -/

@[simp] lemma isWhitespace_space : isWhitespace ' ' = true := by decide

@[simp] lemma trim_nil : trim [] = [] := rfl

lemma trimRight_append_of_blank {s w : Str} (hw : ∀ c ∈ w, isWhitespace c = true) :
    trimRight (s ++ w) = trimRight s := by
  induction w using List.reverseRecOn with
  | nil => simp
  | append_singleton w c ih =>
    have hc : isWhitespace c = true := hw c (by simp)
    rw [← List.append_assoc, trimRight, List.rdropWhile_concat_pos _ _ _ hc]
    exact ih fun d hd => hw d (by simp [hd])

/-- A string is its `trimRight` followed by white space. -/
lemma exists_trimRight_append (s : Str) :
    ∃ w, s = trimRight s ++ w ∧ ∀ c ∈ w, isWhitespace c = true := by
  refine ⟨s.rtakeWhile isWhitespace, List.rdropWhile_append_rtakeWhile.symm, ?_⟩
  exact fun c hc => List.mem_rtakeWhile_imp hc

lemma trimLeft_append_of_blank {s w : Str} (hw : ∀ c ∈ w, isWhitespace c = true) :
    trimLeft (w ++ s) = trimLeft s := by
  simp only [trimLeft, List.dropWhile_append_of_pos hw]

lemma trim_append_of_blank {s w : Str} (hw : ∀ c ∈ w, isWhitespace c = true) :
    trim (w ++ s) = trim s := by
  rw [trim, trimLeft_append_of_blank hw, trim]

/-- A word without white space is not changed by `trim`. -/
lemma trim_eq_self {s : Str} (h : ∀ c ∈ s, isWhitespace c = false) : trim s = s := by
  have hl : trimLeft s = s := by
    cases s with
    | nil => rfl
    | cons c s => simp [trimLeft, h c (by simp)]
  rw [trim, hl, trimRight, List.rdropWhile_eq_self_iff]
  intro hs
  simp [h _ (List.getLast_mem hs)]

lemma trim_eq_nil_iff {s : Str} : trim s = [] ↔ ∀ c ∈ s, isWhitespace c = true := by
  rw [trim, trimRight, List.rdropWhile_eq_nil_iff, trimLeft]
  constructor
  · intro h c hc
    rw [← List.takeWhile_append_dropWhile (p := isWhitespace) (l := s), List.mem_append] at hc
    rcases hc with hc | hc
    · exact List.mem_takeWhile_imp hc
    · exact h c hc
  · exact fun h c hc => h c ((List.dropWhile_suffix _).subset hc)

lemma trimRight_append_cons {c : Char} (h : isWhitespace c = false) (s t : Str) :
    trimRight (s ++ c :: t) = s ++ c :: trimRight t := by
  rw [trimRight, trimRight, List.rdropWhile, List.rdropWhile, List.reverse_append,
    List.reverse_cons, List.append_assoc, List.dropWhile_append]
  split_ifs with ht
  · rw [List.isEmpty_iff.mp ht, List.singleton_append, List.dropWhile_cons_of_neg (by simp [h])]
    simp
  · simp

lemma trim_of_head {s : Str} (h : s.head?.any isWhitespace = false) : trim s = trimRight s := by
  rw [trim, trimLeft]
  cases s with
  | nil => rfl
  | cons c s => rw [List.dropWhile_cons_of_neg (by simpa using h)]

lemma trimRight_isPrefix (s : Str) : trimRight s <+: s := List.rdropWhile_prefix _ _

lemma trimRight_eq_self_iff {s : Str} :
    trimRight s = s ↔ ∀ c, s.getLast? = some c → isWhitespace c = false := by
  rw [trimRight, List.rdropWhile_eq_self_iff]
  constructor
  · intro h c hc
    have hne : s ≠ [] := fun hnil => by
      rw [hnil] at hc
      cases hc
    rw [List.getLast?_eq_some_getLast hne] at hc
    obtain rfl := Option.some.inj hc
    simpa using h hne
  · intro h hne
    simpa using h _ (List.getLast?_eq_some_getLast hne)

end Dart
