import Violet.Dart.Sort
import Violet.Tags.AutoComplete
import Violet.Tags.Completeness
import Violet.Tags.Keys

/-!
# Similar translations

All tags of a file are listed by the distances of their translations, and of the keys of these, from
the query. Tags with blank translations are not read from the file, and units without keys stop the
reading of the file or the search.
-/

open Dart

/-- Sorting puts a list in order, when every two elements can be compared. -/
structure LawfulSort extends DartSort where
  sorted : ∀ {α : Type} (compare : α → α → ℤ), (∀ a b, compare a b ≤ 0 ∨ compare b a ≤ 0) →
    (∀ a b c, compare a b ≤ 0 → compare b c ≤ 0 → compare a c ≤ 0) →
    ∀ l, (sort compare l).Pairwise fun a b => compare a b ≤ 0

/-- A file of translations, some of which may be blank. -/
structure LocaleFile where
  entries : Map Units Units
  nodup : entries.keys.Nodup
  known : ∀ e ∈ entries, ∃ group ∈ DisplayedTag.groups, ∃ name, e.1 = group ++ units ":" ++ name

namespace LocaleFile

/-- The entries that are not blank, which are those that are read. -/
def translations (file : LocaleFile) : TranslationFile where
  entries := file.entries.filter fun e => Units.trim e.2 ≠ []
  nodup := file.nodup.sublist (List.filter_sublist.map Prod.fst)
  known _ he := file.known _ (List.mem_of_mem_filter he)
  nonblank _ he := of_decide_eq_true (List.mem_filter.mp he).2

end LocaleFile

namespace TagTranslate

variable {file : LocaleFile} {t : TagTranslate} {query part : Units} {e : Units × Units} {n : ℕ}

/-- The distances that are computed for an entry: that of its translation, and that of the key
that leads to it in the reversed map. -/
def Computed (t : TagTranslate) (query : Units) (e : Units × Units) (n : ℕ) : Prop :=
  n = Violet.Distance.levenshteinDistance (runes (firstForm (removeBlanks e.2)))
      (runes (removeBlanks query)) ∨
    ∃ key part, (key, e.1) ∈ t.reverseAndroMap ∧ disassembly (removeBlanks query) = some part ∧
      n = Violet.Distance.levenshteinDistance (runes (firstForm (removeBlanks key))) (runes part)

/-- The file is read, and all its tags are listed once, by the least of their distances. -/
def ListsAll (sort : DartSort) (file : LocaleFile) (query : Units) : Prop :=
  ∃ t, init file.entries = some t ∧ ∃ result, t.containsFuzzingTotal sort query = some result ∧
    result.Pairwise (fun a b => a.2 ≤ b.2) ∧
    (∀ e ∈ file.entries, (result.map fun x => x.1.getTag).count e.1 = 1) ∧
    ∀ x ∈ result, ∃ e ∈ file.entries, x.1.getTag = e.1 ∧ IsLeast {n | t.Computed query e n} x.2

/-- No translation is blank, and no unit of a translation or of the query is without keys. -/
def AllReadable (file : LocaleFile) (query : Units) : Prop :=
  (∀ e ∈ file.entries, Units.trim e.2 ≠ [] ∧ ∀ u ∈ e.2, ¬ OutsideTables u.toNat) ∧
    ∀ u ∈ query, ¬ OutsideTables u.toNat

/-! ### What is computed -/

lemma init_translations (file : LocaleFile) :
    init file.translations.entries = init file.entries := by
  have hrun (es : Map Units Units) (t : TagTranslate) :
      (es.filter fun e => Units.trim e.2 ≠ []).foldlM addEntry t = es.foldlM addEntry t := by
    induction es generalizing t with
    | nil => rfl
    | cons e es ih =>
      rw [List.filter_cons, List.foldlM_cons]
      split_ifs with hblank
      · rw [List.foldlM_cons]
        exact bind_congr ih
      · have htrim : Units.trim e.2 = [] := by simpa using hblank
        rw [addEntry, if_pos htrim]
        exact ih t
  exact hrun file.entries {}

/-- What the maps are when a file has been read. -/
lemma holds_of_init (hinit : init file.entries = some t) : Holds t file.translations.entries := by
  rcases init_eq_none_iff_or_holds file.translations with ⟨-, t', hinit', ht'⟩ | ⟨-, hnone⟩
  · rw [init_translations, hinit] at hinit'
    exact Option.some.inj hinit' ▸ ht'
  · rw [init_translations, hinit] at hnone
    cases hnone

/-- A translation has a key exactly when each of its units has. -/
lemma androKey_ne_none_iff (value : Units) :
    androKey value ≠ none ↔ ∀ u ∈ value, ¬ OutsideTables u.toNat := by
  have hplain {pat : Units} (hpat : (disassembly pat).isSome = true) {u : UInt16}
      (hu : OutsideTables u.toNat) : u ∉ pat := fun hmem =>
    (isSome_disassembly_iff pat).mp hpat u hmem hu
  have hmem {u : UInt16} (hu : OutsideTables u.toNat) :
      u ∈ Units.replaceAll (Units.replaceAll value (units "female:") []) (units "male:") [] ↔
        u ∈ value := by
    rw [Units.mem_replaceAll_nil (by decide) (hplain (by decide) hu),
      Units.mem_replaceAll_nil (by decide) (hplain (by decide) hu)]
  rw [androKey, ← Option.isSome_iff_ne_none, isSome_disassembly_iff]
  exact ⟨fun h u hu hout => h u ((hmem hout).mpr hu) hout,
    fun h u hu hout => h u ((hmem hout).mp hu) hout⟩

/-- A file is read when its translations have keys. -/
lemma exists_init_iff (file : LocaleFile) : (∃ t, init file.entries = some t) ↔
    ∀ e ∈ file.translations.entries, androKey e.2 ≠ none := by
  rcases init_eq_none_iff_or_holds file.translations with ⟨hkeys, t, hinit, -⟩ |
    ⟨⟨e, he, hnone⟩, hinit⟩
  · rw [init_translations] at hinit
    exact iff_of_true ⟨t, hinit⟩ hkeys
  · rw [init_translations] at hinit
    refine iff_of_false ?_ fun h => h e he hnone
    rintro ⟨t, ht⟩
    rw [hinit] at ht
    cases ht

lemma byDistance_le_iff {α : Type} (x y : α × ℕ) : byDistance x y ≤ 0 ↔ x.2 ≤ y.2 := by
  rw [byDistance, compareTo]
  split_ifs <;> omega

lemma pairwise_sort (sort : LawfulSort) {α : Type} (l : List (α × ℕ)) :
    (sort.sort byDistance l).Pairwise fun a b => a.2 ≤ b.2 := by
  refine (sort.sorted byDistance (fun a b => ?_) (fun a b c => ?_) l).imp fun {a b} h =>
    (byDistance_le_iff a b).mp h
  · rw [byDistance_le_iff, byDistance_le_iff]
    exact le_total a.2 b.2
  · rw [byDistance_le_iff, byDistance_le_iff, byDistance_le_iff]
    exact le_trans

/-- The tags of the reversed map are translated. -/
lemma exists_translation {es : Map Units Units} (ht : Holds t es) (hnodup : es.keys.Nodup)
    {k : Units × Units} (hk : k ∈ t.reverseAndroMap) :
    ∃ e ∈ es, e.1 = k.2 ∧ t.translateMap.get? k.2 = some e.2 := by
  obtain ⟨e, he, hlast⟩ := (ht.reverse k.1 k.2).mp hk
  have hmem := mem_of_isLast hlast
  refine ⟨e, hmem, he, ?_⟩
  rw [ht.translate, ← he]
  exact (Map.mem_iff_get? hnodup).mp hmem

/-- The distance of a key of the reversed map. -/
def androDistance (part : Units) (key : Units) : ℕ :=
  Violet.Distance.levenshteinDistance (runes (firstForm (removeBlanks key))) (runes part)

lemma containsFuzzingAndro_eq (sort : DartSort) {es : Map Units Units} (ht : Holds t es)
    (hnodup : es.keys.Nodup) (hpart : disassembly (removeBlanks query) = some part) :
    t.containsFuzzingAndro sort query = some (sort.sort byDistance
      (t.reverseAndroMap.map fun k =>
        (DisplayedTag.ofTag k.2 (some (firstForm ((t.translateMap.get? k.2).getD []))),
          androDistance part k.1))) := by
  rw [containsFuzzingAndro, hpart, Option.bind_eq_bind, Option.bind_some]
  rw [mapM_eq_some_map fun k hk => ?_]
  · rfl
  · obtain ⟨e, -, -, hget⟩ := exists_translation ht hnodup hk
    rw [hget]
    rfl

/-- What is sorted and thinned out are the computed distances of the entries. -/
lemma containsFuzzingTotal_spec (sort : DartSort) (ht : Holds t file.translations.entries)
    (hpart : disassembly (removeBlanks query) = some part) :
    ∃ result, t.containsFuzzingTotal sort query =
        some (firstOfEach (sort.sort byDistance result)) ∧
      (∀ x ∈ result, ∃ e ∈ file.translations.entries,
        x.1.getTag = e.1 ∧ t.Computed query e x.2) ∧
      ∀ e ∈ file.translations.entries, ∀ n, t.Computed query e n →
        ∃ x ∈ result, x.1.getTag = e.1 ∧ x.2 = n := by
  have handro := containsFuzzingAndro_eq sort ht file.translations.nodup hpart
  refine ⟨_, by rw [containsFuzzingTotal, handro]; rfl, fun x hx => ?_, fun e he n hn => ?_⟩
  · rcases List.mem_append.mp hx with hx | hx
    · rw [containsFuzzing, (sort.perm _ _).mem_iff, ht.translate] at hx
      obtain ⟨e, he, rfl⟩ := List.mem_map.mp hx
      exact ⟨e, he, getTag_entry he _, .inl rfl⟩
    · rw [(sort.perm _ _).mem_iff] at hx
      obtain ⟨k, hk, rfl⟩ := List.mem_map.mp hx
      obtain ⟨e, he, heq, -⟩ := exists_translation ht file.translations.nodup hk
      refine ⟨e, he, ?_, .inr ⟨k.1, part, ?_, hpart, rfl⟩⟩
      · rw [← heq]
        exact getTag_entry he _
      · rw [heq]
        exact hk
  · rcases hn with rfl | ⟨key, part', hkey, hpart', rfl⟩
    · refine ⟨(.ofTag e.1 (some (firstForm e.2)), _), List.mem_append_left _ ?_,
        getTag_entry he _, rfl⟩
      rw [containsFuzzing, (sort.perm _ _).mem_iff, ht.translate]
      exact List.mem_map.mpr ⟨e, he, rfl⟩
    · obtain rfl := Option.some.inj (hpart.symm.trans hpart')
      refine ⟨(.ofTag e.1 (some (firstForm ((t.translateMap.get? e.1).getD []))),
        androDistance part key), List.mem_append_right _ ?_, getTag_entry he _, rfl⟩
      rw [(sort.perm _ _).mem_iff]
      exact List.mem_map.mpr ⟨_, hkey, rfl⟩

/-- The search returns only when the query has keys. -/
lemma isSome_of_containsFuzzingTotal {sort : DartSort} {result : List (DisplayedTag × ℕ)}
    (h : t.containsFuzzingTotal sort query = some result) :
    (disassembly (removeBlanks query)).isSome = true := by
  obtain ⟨andro, handro, -⟩ := Option.bind_eq_some_iff.mp h
  obtain ⟨part, hpart, -⟩ := Option.bind_eq_some_iff.mp handro
  exact Option.isSome_iff_exists.mpr ⟨part, hpart⟩

/-- A text has keys without its blanks exactly when it has keys. -/
lemma isSome_disassembly_removeBlanks_iff (query : Units) :
    (disassembly (removeBlanks query)).isSome = true ↔
      ∀ u ∈ query, ¬ OutsideTables u.toNat := by
  have hblank : units " " = [32] := by decide
  rw [isSome_disassembly_iff, removeBlanks, hblank, Units.replaceAll_singleton]
  constructor
  · intro h u hu
    by_cases hu32 : u = 32
    · subst hu32
      rw [OutsideTables]
      decide
    · exact h u (List.mem_flatMap.mpr ⟨u, hu, by simp [hu32]⟩)
  · intro h u hu
    obtain ⟨v, hv, hmem⟩ := List.mem_flatMap.mp hu
    split_ifs at hmem
    · exact absurd hmem List.not_mem_nil
    · exact List.mem_singleton.mp hmem ▸ h v hv

/-- A tag that is listed has a translation. -/
lemma trim_ne_nil_of_listed {result : List (DisplayedTag × ℕ)}
    (ht : Holds t file.translations.entries)
    (hresult : t.containsFuzzingTotal sort query = some result) (he : e ∈ file.entries)
    (hcount : (result.map fun x => x.1.getTag).count e.1 = 1) : Units.trim e.2 ≠ [] := by
  obtain ⟨part, hpart⟩ := Option.isSome_iff_exists.mp (isSome_of_containsFuzzingTotal hresult)
  obtain ⟨all, htotal, hcomputed, -⟩ := containsFuzzingTotal_spec sort ht hpart
  obtain rfl := Option.some.inj (hresult.symm.trans htotal)
  obtain ⟨x, hx, htag⟩ := List.mem_map.mp (List.count_pos_iff.mp (hcount ▸ Nat.one_pos))
  rw [firstOfEach_eq] at hx
  have hmem := (sort.perm _ _).mem_iff.mp ((firsts_sublist _ _ _).subset hx)
  obtain ⟨e', he', htag', -⟩ := hcomputed x hmem
  have hget := (Map.mem_iff_get? file.nodup).mp he
  rw [← htag, htag', (Map.mem_iff_get? file.nodup).mp (List.mem_of_mem_filter he')] at hget
  exact Option.some.inj hget ▸ file.translations.nonblank e' he'

/-- All tags are listed, each of them by the least of its distances, exactly when no translation is
blank and no unit of a translation or of the query is without keys. -/
theorem listsAll_iff (sort : LawfulSort) (file : LocaleFile) (query : Units) :
    ListsAll sort.toDartSort file query ↔ AllReadable file query := by
  rw [AllReadable, ← isSome_disassembly_removeBlanks_iff]
  constructor
  · rintro ⟨t, hinit, result, htotal, -, hcount, -⟩
    have ht := holds_of_init hinit
    have hkeys := (exists_init_iff file).mp ⟨t, hinit⟩
    refine ⟨fun e he => ?_, isSome_of_containsFuzzingTotal htotal⟩
    have hblank := trim_ne_nil_of_listed ht htotal he (hcount e he)
    exact ⟨hblank, (androKey_ne_none_iff _).mp
      (hkeys e (List.mem_filter.mpr ⟨he, decide_eq_true hblank⟩))⟩
  · rintro ⟨hall, hsome⟩
    obtain ⟨t, hinit⟩ := (exists_init_iff file).mpr fun e he =>
      (androKey_ne_none_iff _).mpr (hall e (List.mem_of_mem_filter he)).2
    have ht := holds_of_init hinit
    obtain ⟨part, hpart⟩ := Option.isSome_iff_exists.mp hsome
    obtain ⟨all, htotal, hcomputed, hlisted⟩ := containsFuzzingTotal_spec sort.toDartSort ht hpart
    have hsorted := pairwise_sort sort all
    have hperm := sort.perm byDistance all
    rw [firstOfEach_eq] at htotal
    refine ⟨t, hinit, _, htotal, hsorted.sublist (firsts_sublist _ _ _), fun e he => ?_,
      fun x hx => ?_⟩
    · have he' : e ∈ file.translations.entries :=
        List.mem_filter.mpr ⟨he, decide_eq_true (hall e he).1⟩
      obtain ⟨x, hx, htag, -⟩ := hlisted e he' _ (.inl rfl)
      exact count_firsts.mpr (List.mem_map.mpr ⟨x, hperm.mem_iff.mpr hx, htag⟩)
    · have hmem := hperm.mem_iff.mp ((firsts_sublist _ _ _).subset hx)
      obtain ⟨e, he, htag, hn⟩ := hcomputed x hmem
      refine ⟨e, List.mem_of_mem_filter he, htag, hn, fun n hn' => ?_⟩
      obtain ⟨y, hy, htag', rfl⟩ := hlisted e he n hn'
      exact rel_of_mem_firsts (r := fun a b => a.2 ≤ b.2) (fun _ => le_rfl) hsorted hx
        (hperm.mem_iff.mpr hy) (htag.trans htag'.symm)

/-! ### A file with one tag -/

/-- Sorting by merging. -/
def mergeSort : LawfulSort where
  sort compare l := l.mergeSort fun a b => decide (compare a b ≤ 0)
  perm _ l := List.mergeSort_perm l _
  sorted compare total trans l := by
    have htrans (a b c) (hab : decide (compare a b ≤ 0) = true)
        (hbc : decide (compare b c ≤ 0) = true) : decide (compare a c ≤ 0) = true :=
      decide_eq_true (trans a b c (of_decide_eq_true hab) (of_decide_eq_true hbc))
    have htotal (a b) : (decide (compare a b ≤ 0) || decide (compare b a ≤ 0)) = true := by
      simpa using total a b
    exact (List.pairwise_mergeSort htrans htotal l).imp of_decide_eq_true

def oneTag : LocaleFile where
  entries := [(units "tag:a", units "가")]
  nodup := List.nodup_singleton _
  known e he := by
    rw [List.mem_singleton.mp he]
    exact ⟨units "tag", by decide, units "a", by decide⟩

lemma init_oneTag : init oneTag.entries =
    some ⟨[(units "tag:a", units "가")], [(units "rk", units "tag:a")]⟩ := by
  decide

/-- The search fails for the unit behind the last syllable. -/
theorem not_listsAll_oneTag :
    ¬ ∀ (sort : LawfulSort) (file : LocaleFile) (query : Units),
      ListsAll sort.toDartSort file query := by
  intro h
  obtain ⟨t, -, result, htotal, -⟩ := h mergeSort oneTag [0xD7A4]
  exact absurd (isSome_of_containsFuzzingTotal htotal) (by decide)

end TagTranslate
