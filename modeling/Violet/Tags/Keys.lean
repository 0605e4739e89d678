import Violet.Coding.Blocks
import Violet.Tags.TagTranslate

/-!
# Keys of syllables

What is typed for a text: the tables have keys for some units only, and the keys of two texts of
syllables are the same exactly when the texts differ in the final letter that has no key.
-/

open Dart

namespace TagTranslate

/-! ### Units without keys -/

/-- A unit that counts as a syllable or as a letter but is behind the end of a table. -/
def OutsideTables (ch : ℕ) : Prop := (0xD7A4 ≤ ch ∧ ch ≤ 0xD7FB) ∨ (0x115C ≤ ch ∧ ch ≤ 0x11FF)

lemma isSome_getElem_iff {α : Type*} (l : List α) (i : ℕ) : l[i]?.isSome = true ↔ i < l.length := by
  rw [Option.isSome_iff_exists]
  exact ⟨fun ⟨_, h⟩ => (List.getElem?_eq_some_iff.mp h).1, fun h => ⟨_, List.getElem?_eq_getElem h⟩⟩

/-- The letters of a unit behind the first syllable. -/
lemma distortion_bounds (ch : ℕ) :
    (distortion ch).medial < index_medial_2.length ∧
      (distortion ch).final < index_final_2.length := by
  change (ch - 0xAC00) % (21 * 28) / 28 < 21 ∧ (ch - 0xAC00) % (21 * 28) % 28 < 28
  omega

lemma isSome_disassemblyCharacter_iff (ch : ℕ) :
    (disassemblyCharacter ch).isSome = true ↔ ¬ OutsideTables ch := by
  rw [OutsideTables, disassemblyCharacter]
  by_cases hletter : checkLetter ch = true
  · have hrange : 0xAC00 ≤ ch ∧ ch ≤ 0xD7FB := by simpa [checkLetter] using hletter
    obtain ⟨hmedial, hfinal⟩ := distortion_bounds ch
    rw [if_pos hletter]
    dsimp only
    rw [List.getElem?_eq_getElem hmedial, List.getElem?_eq_getElem hfinal]
    have hinitial : (index_initial_2[(distortion ch).initial]?).isSome = true ↔
        (ch - 0xAC00) / (21 * 28) < 19 := isSome_getElem_iff _ _
    rcases h : index_initial_2[(distortion ch).initial]? with _ | initial
    · have hnot := mt hinitial.mpr (by simp [h])
      refine iff_of_false (fun h => Bool.false_ne_true h) (not_not.mpr (.inl ?_))
      omega
    · have hlt := hinitial.mp (by rw [h]; rfl)
      exact iff_of_true rfl (by omega)
  rw [if_neg hletter]
  by_cases h31 : checkJamo31 ch = true
  · have hrange : 0x3131 ≤ ch ∧ ch ≤ 0x3163 := by simpa [checkJamo31] using h31
    have hlt : ch - 0x3131 < index_letter_2.length := by
      change ch - 0x3131 < 92
      omega
    rw [if_pos h31, isSome_getElem_iff]
    exact iff_of_true hlt (by omega)
  rw [if_neg h31]
  have hletter' : ¬ (0xAC00 ≤ ch ∧ ch ≤ 0xD7FB) := by simpa [checkLetter] using hletter
  by_cases h11 : checkJamo11 ch = true
  · have hrange : 0x1100 ≤ ch ∧ ch ≤ 0x11FF := by simpa [checkJamo11] using h11
    have hlen : index_letter_2.length = 92 := rfl
    rw [if_pos h11, isSome_getElem_iff, hlen]
    omega
  · have hrange : ¬ (0x1100 ≤ ch ∧ ch ≤ 0x11FF) := by simpa [checkJamo11] using h11
    rw [if_neg h11]
    exact iff_of_true rfl (by omega)

/-- A text has keys exactly when each of its units has. -/
theorem isSome_disassembly_iff (str : Units) :
    (disassembly str).isSome = true ↔ ∀ u ∈ str, ¬ OutsideTables u.toNat := by
  rw [disassembly, Option.isSome_map, isSome_mapM_iff]
  exact forall₂_congr fun u _ => isSome_disassemblyCharacter_iff u.toNat

/-- The unit behind the last syllable. -/
theorem not_isSome_disassembly : ¬ ∀ str : Units, (disassembly str).isSome = true := by
  intro h
  exact absurd (h [0xD7A4]) (by decide)

/-! ### Syllables -/

/-- A precomposed syllable. -/
def IsSyllable (u : UInt16) : Prop := 0xAC00 ≤ u.toNat ∧ u.toNat ≤ 0xD7A3

/-- The keys of the vowels. -/
def isVowelKey (u : UInt16) : Bool := List.elem u (units "koiOjpuPhynbml")

/-- The one key of an initial letter. -/
def initialKey (i : ℕ) : UInt16 := (index_initial_2.getD i []).headD 0

def medialKeys (i : ℕ) : Units := index_medial_2.getD i []

def finalKeys (i : ℕ) : Units := index_final_2.getD i []

/-- Without the final letter that has no key. -/
def withoutFinal (i : ℕ) : ℕ := if i = 23 then 0 else i

lemma initialKey_spec : ∀ i < 19,
    index_initial_2[i]? = some [initialKey i] ∧ isVowelKey (initialKey i) = false := by
  decide +kernel

lemma medialKeys_spec : ∀ i < 21, index_medial_2[i]? = some (medialKeys i) ∧
    (medialKeys i).all isVowelKey = true ∧ medialKeys i ≠ [] := by
  decide +kernel

lemma finalKeys_spec : ∀ i < 28, index_final_2[i]? = some (finalKeys i) ∧
    (finalKeys i).all (fun u => !isVowelKey u) = true := by
  decide +kernel

lemma initialKey_injective : ∀ i < 19, ∀ j < 19, initialKey i = initialKey j → i = j := by
  decide +kernel

lemma medialKeys_injective : ∀ i < 21, ∀ j < 21, medialKeys i = medialKeys j → i = j := by
  decide +kernel

/-- Two final letters have the same keys when they are the same, or one of them has none. -/
lemma finalKeys_eq_iff : ∀ i < 28, ∀ j < 28,
    finalKeys i = finalKeys j ↔ withoutFinal i = withoutFinal j := by
  decide +kernel

lemma distortion_lt {u : UInt16} (hu : IsSyllable u) :
    (distortion u.toNat).initial < 19 ∧ (distortion u.toNat).medial < 21 ∧
      (distortion u.toNat).final < 28 := by
  obtain ⟨hge, hle⟩ := hu
  simp only [distortion]
  omega

/-- The keys of a syllable, which are those of consonants around those of a vowel. -/
def blockOf (u : UInt16) (hu : IsSyllable u) : Coding.Block isVowelKey where
  initial := initialKey (distortion u.toNat).initial
  medial := medialKeys (distortion u.toNat).medial
  final := finalKeys (distortion u.toNat).final
  initial_plain := (initialKey_spec _ (distortion_lt hu).1).2
  medial_marked := List.all_eq_true.mp (medialKeys_spec _ (distortion_lt hu).2.1).2.1
  medial_ne_nil := (medialKeys_spec _ (distortion_lt hu).2.1).2.2
  final_plain := fun a ha => by
    simpa using List.all_eq_true.mp (finalKeys_spec _ (distortion_lt hu).2.2).2 a ha

lemma disassemblyCharacter_of_isSyllable {u : UInt16} (hu : IsSyllable u) :
    disassemblyCharacter u.toNat = some (blockOf u hu).word := by
  obtain ⟨hinitial, hmedial, hfinal⟩ := distortion_lt hu
  have hletter : checkLetter u.toNat = true := by
    obtain ⟨hge, hle⟩ := hu
    simp only [checkLetter, Bool.and_eq_true, decide_eq_true_eq]
    omega
  rw [disassemblyCharacter, if_pos hletter]
  dsimp only
  rw [(initialKey_spec _ hinitial).1, (medialKeys_spec _ hmedial).1, (finalKeys_spec _ hfinal).1]
  simp [Coding.Block.word, blockOf]

/-- The keys of syllables one after the other. -/
lemma disassembly_of_isSyllable {s : Units} (hs : ∀ u ∈ s, IsSyllable u) :
    disassembly s = some (Coding.Block.text (s.pmap blockOf hs)) := by
  rw [disassembly, Coding.Block.text]
  induction s with
  | nil => rfl
  | cons u s ih =>
    have hu := hs u List.mem_cons_self
    obtain ⟨keys, hkeys, htext⟩ :=
      Option.map_eq_some_iff.mp (ih fun v hv => hs v (List.mem_cons_of_mem u hv))
    rw [List.mapM_cons, disassemblyCharacter_of_isSyllable hu, hkeys]
    simp [htext]

/-- The syllable without the final letter that has no key. -/
def withoutChieut (u : UInt16) : UInt16 := if (distortion u.toNat).final = 23 then u - 23 else u

lemma toNat_withoutChieut {u : UInt16} (hu : IsSyllable u) :
    (withoutChieut u).toNat = 0xAC00 + (21 * 28) * (distortion u.toNat).initial +
      28 * (distortion u.toNat).medial + withoutFinal (distortion u.toNat).final := by
  obtain ⟨hge, hle⟩ := hu
  have hplaces : u.toNat = 0xAC00 + (21 * 28) * (distortion u.toNat).initial +
      28 * (distortion u.toNat).medial + (distortion u.toNat).final := by
    simp only [distortion]
    omega
  rw [withoutChieut, withoutFinal]
  split_ifs with hfinal
  · have hsub : (u - 23).toNat = u.toNat - 23 := by
      refine UInt16.toNat_sub_of_le _ _ ?_
      rw [UInt16.le_iff_toNat_le]
      exact le_trans (by decide) hge
    rw [hsub]
    omega
  · exact hplaces

lemma withoutFinal_lt {i : ℕ} (hi : i < 28) : withoutFinal i < 28 := by
  rw [withoutFinal]
  split_ifs
  · exact Nat.succ_pos 27
  · exact hi

/-- Two syllables have the same keys exactly when they are the same without that letter. -/
lemma blockOf_eq_iff {u v : UInt16} (hu : IsSyllable u) (hv : IsSyllable v) :
    blockOf u hu = blockOf v hv ↔ withoutChieut u = withoutChieut v := by
  obtain ⟨hinitial, hmedial, hfinal⟩ := distortion_lt hu
  obtain ⟨hinitial', hmedial', hfinal'⟩ := distortion_lt hv
  have hlt := withoutFinal_lt hfinal
  have hlt' := withoutFinal_lt hfinal'
  rw [Coding.Block.ext_iff]
  simp only [blockOf]
  rw [finalKeys_eq_iff _ hfinal _ hfinal', ← UInt16.toNat_inj (a := withoutChieut u),
    toNat_withoutChieut hu, toNat_withoutChieut hv]
  constructor
  · rintro ⟨h, h', h''⟩
    rw [initialKey_injective _ hinitial _ hinitial' h, medialKeys_injective _ hmedial _ hmedial' h',
      h'']
  · intro h
    have hplaces : (distortion u.toNat).initial = (distortion v.toNat).initial ∧
        (distortion u.toNat).medial = (distortion v.toNat).medial ∧
        withoutFinal (distortion u.toNat).final = withoutFinal (distortion v.toNat).final := by
      omega
    exact ⟨congrArg initialKey hplaces.1, congrArg medialKeys hplaces.2.1, hplaces.2.2⟩

lemma pmap_blockOf_eq_iff {s s' : Units} (hs : ∀ u ∈ s, IsSyllable u)
    (hs' : ∀ u ∈ s', IsSyllable u) :
    s.pmap blockOf hs = s'.pmap blockOf hs' ↔ s.map withoutChieut = s'.map withoutChieut := by
  induction s generalizing s' with
  | nil => cases s' <;> simp
  | cons u s ih =>
    cases s' with
    | nil => simp
    | cons v s' =>
      rw [List.pmap_cons, List.pmap_cons, List.map_cons, List.map_cons, List.cons.injEq,
        List.cons.injEq, blockOf_eq_iff, ih]

/-- Two texts of syllables have the same keys exactly when they are the same without the final
letter that has no key. -/
lemma disassembly_eq_iff {s s' : Units} (hs : ∀ u ∈ s, IsSyllable u)
    (hs' : ∀ u ∈ s', IsSyllable u) :
    disassembly s = disassembly s' ↔ s.map withoutChieut = s'.map withoutChieut := by
  rw [disassembly_of_isSyllable hs, disassembly_of_isSyllable hs', Option.some_inj,
    ← pmap_blockOf_eq_iff hs hs']
  exact ⟨Coding.Block.text_injective, congrArg Coding.Block.text⟩

/-- The keys tell two texts of syllables apart exactly when they differ in more than the final
letter that has no key. -/
theorem tellsApart_iff {s s' : Units} (hs : ∀ u ∈ s, IsSyllable u)
    (hs' : ∀ u ∈ s', IsSyllable u) :
    (s ≠ s' → disassembly s ≠ disassembly s') ↔
      (s ≠ s' → s.map withoutChieut ≠ s'.map withoutChieut) := by
  rw [ne_eq, ne_eq, ne_eq, disassembly_eq_iff hs hs']

/-- `가` and `나`. -/
theorem tellsApart_iff_ga_na :
    (units "가" ≠ units "나" → disassembly (units "가") ≠ disassembly (units "나")) ↔
      (units "가" ≠ units "나" →
        (units "가").map withoutChieut ≠ (units "나").map withoutChieut) := by
  refine tellsApart_iff ?_ ?_
  · intro u hu
    rw [List.mem_singleton.mp hu]
    exact ⟨by decide, by decide⟩
  · intro u hu
    rw [List.mem_singleton.mp hu]
    exact ⟨by decide, by decide⟩

/-- `가` and `갗` have the same keys. -/
theorem not_tellsApart_ga_gach :
    ¬ ∀ s s' : Units, (∀ u ∈ s, IsSyllable u) → (∀ u ∈ s', IsSyllable u) → s ≠ s' →
      disassembly s ≠ disassembly s' := by
  intro h
  refine h [0xAC00] [0xAC17] (fun u hu => ?_) (fun u hu => ?_) (by decide) (by decide)
  · rw [List.mem_singleton.mp hu]
    exact ⟨by decide, by decide⟩
  · rw [List.mem_singleton.mp hu]
    exact ⟨by decide, by decide⟩

end TagTranslate
