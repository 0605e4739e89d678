import Violet.Dart.Split
import Violet.Search.Translate

/-!
# Layouts of token lists

A token list may be written in many ways: blanks may stand anywhere between tokens, and have to
stand only between two tokens neither of which is a parenthesis or an order sign. All these texts
are split into the same tokens.
-/

namespace Violet

open Dart

/-! ### Layouts -/

/-- A character that belongs to a longer token. -/
def isTokenChar (c : Char) : Bool := !isWhitespace c && !isDelimiter c

inductive IsToken : Str → Prop where
  | delimiter {c : Char} (hc : isDelimiter c = true) : IsToken [c]
  | word {tok : Str} (hne : tok ≠ []) (h : ∀ c ∈ tok, isTokenChar c = true) : IsToken tok

/-- The token may stand directly in front of the text. -/
def Separated (tok text : Str) : Prop :=
  (∃ c, tok = [c] ∧ isDelimiter c = true) ∨
    ∀ c ∈ text.head?, c = ' ' ∨ isDelimiter c = true

lemma separated_nil (tok : Str) : Separated tok [] := .inr (by simp)

lemma separated_cons {tok text : Str} {c : Char} (hc : c = ' ' ∨ isDelimiter c = true) :
    Separated tok (c :: text) :=
  .inr (by simpa using hc)

/-- The text consists of the tokens, with blanks between them. -/
inductive Spells : List Str → Str → Prop where
  | nil (n : ℕ) : Spells [] (List.replicate n ' ')
  | cons {ts : List Str} {text : Str} (n : ℕ) (tok : Str) (h : Spells ts text)
      (hsep : Separated tok text) : Spells (tok :: ts) (List.replicate n ' ' ++ tok ++ text)

lemma isTokenChar_iff {c : Char} :
    isTokenChar c = true ↔ isWhitespace c = false ∧ isDelimiter c = false := by
  simp [isTokenChar]

lemma not_isWhitespace_of_isDelimiter {c : Char} (hc : isDelimiter c = true) :
    isWhitespace c = false := by
  simp only [isDelimiter, Bool.or_eq_true, beq_iff_eq] at hc
  rcases hc with ((rfl | rfl) | rfl) | rfl <;> rfl

lemma ne_space_of_not_isWhitespace {c : Char} (hc : isWhitespace c = false) : c ≠ ' ' := by
  rintro rfl
  cases hc

lemma IsToken.not_isWhitespace {tok : Str} (h : IsToken tok) :
    ∀ c ∈ tok, isWhitespace c = false := by
  cases h with
  | delimiter hc => simpa using not_isWhitespace_of_isDelimiter hc
  | word _ h => exact fun c hc => (isTokenChar_iff.mp (h c hc)).1

lemma IsToken.ne_nil {tok : Str} (h : IsToken tok) : tok ≠ [] := by
  cases h with
  | delimiter => simp
  | word hne => exact hne

/-! ### Splitting a layout -/

lemma splitLoop_append_of_isTokenChar {tok : Str} (h : ∀ c ∈ tok, isTokenChar c = true)
    (builder text : Str) : splitLoop builder (tok ++ text) = splitLoop (builder ++ tok) text := by
  induction tok generalizing builder with
  | nil => simp
  | cons c tok ih =>
    obtain ⟨hw, hd⟩ := isTokenChar_iff.mp (h c (by simp))
    rw [List.cons_append, splitLoop, if_neg (ne_space_of_not_isWhitespace hw),
      if_neg (by simp [hd]),
      ih fun d hd => h d (by simp [hd])]
    simp

/-- A token at the end of the buffer is complete when a blank or a delimiter follows. -/
lemma filter_splitLoop {tok : Str} (htok : IsToken tok) {text : Str}
    (hsep : ∀ c ∈ text.head?, c = ' ' ∨ isDelimiter c = true) :
    ((splitLoop tok text).map trim).filter (· ≠ []) = tok :: words text := by
  have htrim : trim tok = tok := trim_eq_self htok.not_isWhitespace
  cases text with
  | nil => simp [splitLoop, htrim, htok.ne_nil]
  | cons c text =>
    rcases hsep c rfl with rfl | hc
    · simp [splitLoop, htrim, htok.ne_nil, words, splitTokens]
    · have hs : c ≠ ' ' := ne_space_of_not_isWhitespace (not_isWhitespace_of_isDelimiter hc)
      simp [splitLoop, htrim, htok.ne_nil, words, splitTokens, hs, hc]

lemma words_append_of_isToken {tok text : Str} (htok : IsToken tok) (hsep : Separated tok text) :
    words (tok ++ text) = tok :: words text := by
  cases htok with
  | delimiter hc =>
    have hw := not_isWhitespace_of_isDelimiter hc
    simp [words, splitTokens, splitLoop, ne_space_of_not_isWhitespace hw, hc,
      trim_eq_self (s := [_]) (by simpa using hw)]
  | word hne h =>
    have hsep' : ∀ c ∈ text.head?, c = ' ' ∨ isDelimiter c = true := by
      rcases hsep with ⟨c, rfl, hc⟩ | hsep
      · simp [isTokenChar_iff, hc] at h
      · exact hsep
    rw [words, splitTokens, splitLoop_append_of_isTokenChar h, List.nil_append]
    exact filter_splitLoop (.word hne h) hsep'

lemma words_replicate_append (n : ℕ) (s : Str) : words (List.replicate n ' ' ++ s) = words s := by
  induction n with
  | zero => rfl
  | succ n ih => rw [List.replicate_succ, List.cons_append, words_cons_of_blank rfl, ih]

/-- Every layout of a token list is split into these tokens. -/
theorem Spells.words_eq {ts : List Str} {text : Str} (h : Spells ts text)
    (hts : ∀ tok ∈ ts, IsToken tok) : words text = ts := by
  induction h with
  | nil n => simpa using words_replicate_append n []
  | cons n tok _ hsep ih =>
    rw [List.append_assoc, words_replicate_append,
      words_append_of_isToken (hts tok (by simp)) hsep, ih fun t ht => hts t (by simp [ht])]

/-! ### The first word -/

lemma takeWhile_append_of_blank (p : Char → Bool) {w : Str} (hw : ∀ c ∈ w, isWhitespace c = true)
    (s : Str) : trim ((s ++ w).takeWhile p) = trim (s.takeWhile p) := by
  have trim_append {t v : Str} (hv : ∀ c ∈ v, isWhitespace c = true) :
      trim (t ++ v) = trim t := by
    induction v using List.reverseRecOn with
    | nil => simp
    | append_singleton v c ih =>
      rw [← List.append_assoc, trim_append_singleton_of_blank (hv c (by simp)),
        ih fun d hd => hv d (by simp [hd])]
  by_cases hs : ∀ c ∈ s, p c = true
  · rw [List.takeWhile_append_of_pos hs, trim_append, List.takeWhile_eq_self_iff.mpr hs]
    exact fun c hc => hw c ((List.takeWhile_prefix p).subset hc)
  · rw [List.takeWhile_append, if_neg]
    intro hlen
    have heq := (List.takeWhile_prefix p).eq_of_length hlen
    exact hs (List.takeWhile_eq_self_iff.mp heq)

/-- The number that `translate2query` looks for stands at the head of the text, up to a blank. -/
lemma intTryParse_firstWord (s : Str) :
    intTryParse (firstWord s) = intTryParse ((trimLeft s).takeWhile (· ≠ ' ')) := by
  have htrim : trim ((trim s).takeWhile (· ≠ ' ')) = trim ((trimLeft s).takeWhile (· ≠ ' ')) := by
    obtain ⟨w, hw, hblank⟩ := exists_trimRight_append (trimLeft s)
    conv_rhs => rw [hw]
    exact (takeWhile_append_of_blank _ hblank _).symm
  rw [firstWord, headD_splitOn, intTryParse, htrim, intTryParse]

lemma trimLeft_eq_nil_iff {s : Str} : trimLeft s = [] ↔ trim s = [] := by
  rw [trim_eq_nil_iff, trimLeft, List.dropWhile_eq_nil_iff]

/-- Only the first of two texts is looked at, unless it is blank. -/
lemma intTryParse_firstWord_append (a b : Str) :
    intTryParse (firstWord (a ++ ' ' :: b)) =
      if trim a = [] then intTryParse (firstWord b) else intTryParse (firstWord a) := by
  simp only [intTryParse_firstWord]
  split_ifs with ha
  · have hblank : ∀ c ∈ a ++ [' '], isWhitespace c = true := by
      simpa [or_imp, forall_and] using trim_eq_nil_iff.mp ha
    rw [List.append_cons, trimLeft_append_of_blank hblank]
  · have hleft : trimLeft (a ++ ' ' :: b) = trimLeft a ++ ' ' :: b := by
      rw [trimLeft, List.dropWhile_append, if_neg, trimLeft]
      simpa [trimLeft] using mt trimLeft_eq_nil_iff.mp ha
    rw [hleft]
    congr 1
    by_cases hall : ∀ c ∈ trimLeft a, decide (c ≠ ' ') = true
    · rw [List.takeWhile_append_of_pos hall, List.takeWhile_eq_self_iff.mpr hall]
      simp
    · rw [List.takeWhile_append, if_neg]
      intro hlen
      have heq := (List.takeWhile_prefix fun c => decide (c ≠ ' ')).eq_of_length hlen
      exact hall (List.takeWhile_eq_self_iff.mp heq)

lemma mem_trim {s : Str} {c : Char} (hc : isWhitespace c = false) (h : c ∈ s) : c ∈ trim s := by
  obtain ⟨w, hw, hblank⟩ := exists_trimRight_append (trimLeft s)
  have hleft : c ∈ trimLeft s := by
    rw [← List.takeWhile_append_dropWhile (p := isWhitespace) (l := s), List.mem_append] at h
    refine h.resolve_left fun hm => ?_
    simp [List.mem_takeWhile_imp hm] at hc
  rw [hw, List.mem_append] at hleft
  refine hleft.resolve_right fun hm => ?_
  simp [hblank c hm] at hc

/-- A text with a delimiter in it is no number. -/
lemma intTryParse_of_mem {s : Str} {c : Char} (hc : isDelimiter c = true) (h : c ∈ s) :
    intTryParse s = none := by
  by_contra hsome
  obtain ⟨n, hn⟩ := Option.ne_none_iff_exists'.mp hsome
  have hnum := isNumeral_of_intTryParse hn c (mem_trim (not_isWhitespace_of_isDelimiter hc) h)
  simp only [isDelimiter, Bool.or_eq_true, beq_iff_eq] at hc
  rcases hc with ((rfl | rfl) | rfl) | rfl <;> cases hnum

/-- A layout begins with a number only when its first token is one. -/
theorem Spells.intTryParse_firstWord {tok : Str} {ts : List Str} {text : Str}
    (h : Spells (tok :: ts) text) (htok : IsToken tok) (hn : intTryParse tok = none) :
    intTryParse (firstWord text) = none := by
  obtain _ | @⟨_, text, n, _, _, hsep⟩ := h
  have hleft : trimLeft (List.replicate n ' ' ++ tok ++ text) = tok ++ text := by
    obtain ⟨c, s, rfl⟩ := List.exists_cons_of_ne_nil htok.ne_nil
    rw [List.append_assoc, trimLeft_append_of_blank (by simp [List.mem_replicate]), trimLeft,
      List.cons_append, List.dropWhile_cons_of_neg (by simp [htok.not_isWhitespace c (by simp)])]
  have hblank : ∀ c ∈ tok, decide (c ≠ ' ') = true := fun c hc => by
    simpa using ne_space_of_not_isWhitespace (htok.not_isWhitespace c hc)
  rw [Violet.intTryParse_firstWord, hleft, List.takeWhile_append_of_pos hblank]
  cases text with
  | nil => simpa using hn
  | cons d text =>
    by_cases hd : isDelimiter d = true
    · refine intTryParse_of_mem hd ?_
      simp [ne_space_of_not_isWhitespace (not_isWhitespace_of_isDelimiter hd)]
    · rcases hsep with ⟨c, rfl, hc⟩ | hsep
      · exact intTryParse_of_mem hc (by simp)
      · obtain rfl : d = ' ' := (hsep d rfl).resolve_right hd
        simpa using hn

/-- A number is its own first word. -/
lemma intTryParse_firstWord_of_number {s : Str} {n : ℤ} (h : intTryParse s = some n) :
    intTryParse (firstWord s) = some n := by
  have hblank : ' ' ∉ trim s := fun hm => by
    cases not_isWhitespace_of_intTryParse h _ hm
  rw [firstWord, List.splitOn_eq_singleton hblank, List.headD_cons, intTryParse_trim h]

lemma intTryParse_firstWord_append_of_number {s : Str} {n : ℤ} (h : intTryParse s = some n)
    (t : Str) : intTryParse (firstWord (s ++ ' ' :: t)) = some n := by
  have hne : trim s ≠ [] := fun hnil => by
    rw [intTryParse, hnil] at h
    cases h
  rw [intTryParse_firstWord_append, if_neg hne, intTryParse_firstWord_of_number h]

end Violet
