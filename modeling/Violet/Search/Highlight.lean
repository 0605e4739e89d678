import Violet.Algorithm.Route
import Violet.Dart.Lines
import Violet.Tags.AutoComplete

/-!
# The labels of chips

The label of a chip shows in bold letters what is typed of its tag. Where similar tags are
suggested, the letters are those that the route of the Levenshtein distance goes over. The route is
one of code points, but the label is made of code units.
-/

open Dart

namespace Violet

/-! ### Labels -/

/-- A part of a label. In bold letters it also has another colour. -/
structure TextSpan where
  bold : Bool
  text : Units
deriving DecidableEq

namespace SearchBarPage

structure Settings where
  searchUseFuzzy : Bool
  searchUseTranslated : Bool

/-- The parts of a text around one of its parts. It throws when there are none behind it. -/
def around (tagDisplayed part : Units) : Option (List TextSpan) := do
  let before ← (Units.split tagDisplayed part)[0]?
  let after ← (Units.split tagDisplayed part)[1]?
  return [⟨false, before⟩, ⟨true, part⟩, ⟨false, after⟩]

/-- The loop over the units of the text. It throws when the route has no entry for one. -/
def highlight (tagDisplayed latestToken : Units) : Option (List TextSpan) := do
  let route ← Distance.levenshteinDistanceRoute (runes tagDisplayed) (runes latestToken)
  (List.range tagDisplayed.length).mapM fun i => do
    let entry ← route[i + 1]?
    let unit ← tagDisplayed[i]?
    return ⟨entry == 1, [unit]⟩

/-- The name behind the first colon of what is typed. -/
def typedName (latestToken : Units) : Units := (latestToken.splitOn 58).getD 1 []

/-- The label of a chip without its count, where `none` is an exception. -/
def label (settings : Settings) (tagDisplayed latestToken : Units) (related : Bool) :
    Option (List TextSpan) :=
  if !settings.searchUseFuzzy && latestToken ≠ [] && Units.contains tagDisplayed latestToken &&
      !related then
    around tagDisplayed latestToken
  else if !settings.searchUseFuzzy && 58 ∈ latestToken && typedName latestToken ≠ [] &&
      Units.contains tagDisplayed (typedName latestToken) && !related then
    around tagDisplayed (typedName latestToken)
  else if !settings.searchUseFuzzy && !settings.searchUseTranslated && !related then
    some [⟨false, tagDisplayed⟩]
  else if latestToken ≠ [] && !related then highlight tagDisplayed latestToken
  else some [⟨false, tagDisplayed⟩]

/-! ### Code points -/

/-- Two units that make up one code point. -/
def IsPair (u v : UInt16) : Prop :=
  0xD800 ≤ u.toNat ∧ u.toNat < 0xDC00 ∧ 0xDC00 ≤ v.toNat ∧ v.toNat < 0xE000

/-- The text has a code point of two units. -/
def HasPair (s : Units) : Prop := ∃ u v, [u, v] <:+: s ∧ IsPair u v

variable {s : Units} {u v : UInt16}

lemma not_hasPair_nil : ¬ HasPair [] := by
  rintro ⟨u, v, h, -⟩
  simpa using h.length_le

lemma not_hasPair_singleton (u : UInt16) : ¬ HasPair [u] := by
  rintro ⟨v, w, h, -⟩
  simpa using h.length_le

lemma hasPair_cons_cons : HasPair (u :: v :: s) ↔ IsPair u v ∨ HasPair (v :: s) := by
  constructor
  · rintro ⟨a, b, h, hpair⟩
    rcases List.infix_cons_iff.mp h with hprefix | hinfix
    · obtain ⟨hu, hprefix⟩ := List.cons_prefix_cons.mp hprefix
      obtain ⟨hv, -⟩ := List.cons_prefix_cons.mp hprefix
      rw [hu, hv] at hpair
      exact .inl hpair
    · exact .inr ⟨a, b, hinfix, hpair⟩
  · rintro (hpair | ⟨a, b, hinfix, hpair⟩)
    · exact ⟨u, v, List.infix_cons_iff.mpr (.inl ⟨s, rfl⟩), hpair⟩
    · exact ⟨a, b, List.infix_cons_iff.mpr (.inr hinfix), hpair⟩

/-- There are at most as many code points as units, and fewer if two units make up one. -/
lemma length_runes (s : Units) :
    (runes s).length ≤ s.length ∧ ((runes s).length = s.length ↔ ¬ HasPair s) := by
  induction s using runes.induct with
  | case1 => exact ⟨le_rfl, iff_of_true rfl not_hasPair_nil⟩
  | case2 u => exact ⟨le_rfl, iff_of_true rfl (not_hasPair_singleton u)⟩
  | case3 u v s hpair ih =>
    rw [runes, if_pos hpair, hasPair_cons_cons]
    simp only [List.length_cons]
    exact ⟨by omega, iff_of_false (by omega) (not_not.mpr (.inl hpair))⟩
  | case4 u v s hpair ih =>
    rw [runes, if_neg hpair, hasPair_cons_cons, or_iff_right (show ¬ IsPair u v from hpair)]
    simp only [List.length_cons] at ih ⊢
    refine ⟨by omega, ?_⟩
    rw [← ih.2]
    omega

/-! ### The loop -/

/-- The spans of a loop over the units of a text, whatever is bold of them, make up the text. -/
lemma flatMap_units (s : Units) (bold : ℕ → Bool) :
    ((List.range s.length).map fun i => (⟨bold i, [s.getD i 0]⟩ : TextSpan)).flatMap
      TextSpan.text = s := by
  rw [List.flatMap_map, ← List.map_eq_flatMap]
  refine List.ext_getElem (by simp) fun i h h' => ?_
  simp [h']

/-- All that the loop reads is there, and the spans make up the text. -/
def Highlights (tagDisplayed latestToken : Units) : Prop :=
  ∃ route, Distance.levenshteinDistanceRoute (runes tagDisplayed) (runes latestToken) = some route ∧
    (∀ i < tagDisplayed.length, i + 1 < route.length) ∧
      ∃ spans, highlight tagDisplayed latestToken = some spans ∧
        spans.flatMap TextSpan.text = tagDisplayed

/-- The loop is right for the texts in which every unit is a code point. -/
theorem highlights_iff (tagDisplayed latestToken : Units) :
    Highlights tagDisplayed latestToken ↔ ¬ HasPair tagDisplayed := by
  obtain ⟨route, hroute, hlength, -⟩ :=
    Distance.levenshteinDistanceRoute_spec (runes tagDisplayed) (runes latestToken)
  obtain ⟨hle, hpair⟩ := length_runes tagDisplayed
  constructor
  · rintro ⟨route', hroute', hreads, -⟩
    obtain rfl := Option.some.inj (hroute.symm.trans hroute')
    refine hpair.mp (hle.antisymm ?_)
    by_contra hlt
    have hlast := hreads (tagDisplayed.length - 1) (by omega)
    omega
  · intro h
    rw [← hpair] at h
    have hreads : ∀ i < tagDisplayed.length, i + 1 < route.length := by
      intro i hi
      omega
    refine ⟨route, hroute, hreads, _, ?_,
      flatMap_units tagDisplayed fun i => route.getD (i + 1) 0 == 1⟩
    rw [highlight, hroute, Option.bind_eq_bind, Option.bind_some]
    refine mapM_eq_some_map fun i hi => ?_
    have hi := List.mem_range.mp hi
    simp [hi, hreads i hi]

/-- An emoji is one code point of two units, of which the second one has no entry. -/
theorem not_highlights_emoji : ¬ Highlights (units "😀") (units "a") := by
  rw [Highlights]
  rintro ⟨route, hroute, hreads, -⟩
  obtain rfl : [0, 0] = route := Option.some.inj (Eq.trans (by decide +kernel) hroute)
  exact absurd (hreads 1 (by decide)) (by decide)

/-! ### The whole label -/

lemma isSome_around {tagDisplayed part : Units} (hpart : part ≠ [])
    (h : Units.contains tagDisplayed part = true) : (around tagDisplayed part).isSome = true := by
  have hlength := Units.two_le_length_split hpart h
  have hbefore : 0 < (Units.split tagDisplayed part).length := by omega
  simp [around, hbefore, show 1 < (Units.split tagDisplayed part).length from hlength]

/-- The loop is the only part of a label that may throw. -/
theorem isSome_label {tagDisplayed : Units} (h : ¬ HasPair tagDisplayed) (settings : Settings)
    (latestToken : Units) (related : Bool) :
    (label settings tagDisplayed latestToken related).isSome = true := by
  rw [label]
  split_ifs with htyped hname
  · simp only [Bool.and_eq_true, decide_eq_true_eq] at htyped
    exact isSome_around htyped.1.1.2 htyped.1.2
  · simp only [Bool.and_eq_true, decide_eq_true_eq] at hname
    exact isSome_around hname.1.1.2 hname.1.2
  · rfl
  · obtain ⟨-, -, -, spans, hspans, -⟩ := (highlights_iff tagDisplayed latestToken).mpr h
    rw [hspans]
    rfl
  · rfl

end SearchBarPage

end Violet
