import Violet.Tags.TagTranslate

/-!
# Which tags are found

A tag whose translation contains the query is found. A tag that matches by its keys only is found
if no later tag of the file has taken its place in the reversed map, and if its key there, which is
not the one of the translation as it is written, still contains the keys of the query.
-/

open Dart

/-- A file of translations: the tags are different, they have known groups, and their translations
are not blank. -/
structure TranslationFile where
  entries : Map Units Units
  nodup : entries.keys.Nodup
  known : ∀ e ∈ entries, ∃ group ∈ DisplayedTag.groups, ∃ name, e.1 = group ++ units ":" ++ name
  nonblank : ∀ e ∈ entries, Units.trim e.2 ≠ []

namespace TagTranslate

variable {file : TranslationFile} {t : TagTranslate} {query key tag : Units} {e : Units × Units}

/-- The translation contains the query, or its keys contain those of the query, blanks aside. -/
def Matches (translation query : Units) : Prop :=
  Units.contains (removeBlanks translation) (removeBlanks query) = true ∨
    ∃ d part, disassembly (removeBlanks translation) = some d ∧
      disassembly (removeBlanks query) = some part ∧ Units.contains d part = true

/-- The file is read, and every matching tag is listed exactly once. -/
def Complete (file : TranslationFile) (query : Units) : Prop :=
  ∃ t, init file.entries = some t ∧ ∃ result, t.containsTotal query = some result ∧
    ∀ e ∈ file.entries, Matches e.2 query →
      (result.map DisplayedTag.getTag).count e.1 = 1

/-- No later tag has the key of the entry. -/
def IsLast (es : Map Units Units) (e : Units × Units) (key : Units) : Prop :=
  ∃ before rest, es = before ++ e :: rest ∧ androKey e.2 = some key ∧
    ∀ e' ∈ rest, androKey e'.2 ≠ some key

/-- The keys of all translations and of the query are known, and every tag that matches by its keys
only is the last one with its key, which contains those of the query when blanks are removed. -/
def Covered (file : TranslationFile) (query : Units) : Prop :=
  (∀ e ∈ file.entries, androKey e.2 ≠ none) ∧
    ∃ part, disassembly (removeBlanks query) = some part ∧
      ∀ e ∈ file.entries, Matches e.2 query →
        Units.contains (removeBlanks e.2) (removeBlanks query) = true ∨
          ∃ key, IsLast file.entries e key ∧ Units.contains (removeBlanks key) part = true

/-! ### The maps of a file -/

/-- What the maps are after some entries. -/
structure Holds (t : TagTranslate) (es : Map Units Units) : Prop where
  translate : t.translateMap = es
  nodup : t.reverseAndroMap.keys.Nodup
  reverse : ∀ key tag, (key, tag) ∈ t.reverseAndroMap ↔ ∃ e, e.1 = tag ∧ IsLast es e key

lemma isLast_concat {es : Map Units Units} {e e' : Units × Units} :
    IsLast (es ++ [e']) e key ↔
      (e = e' ∧ androKey e'.2 = some key) ∨ (IsLast es e key ∧ androKey e'.2 ≠ some key) := by
  constructor
  · rintro ⟨before, rest, heq, hkey, hrest⟩
    rcases List.eq_nil_or_concat rest with rfl | ⟨rest, e'', rfl⟩
    · obtain ⟨-, hlast⟩ := List.append_inj' heq rfl
      obtain rfl := List.singleton_inj.mp hlast
      exact .inl ⟨rfl, hkey⟩
    · rw [List.concat_eq_append, ← List.cons_append, ← List.append_assoc] at heq
      obtain ⟨hes, hlast⟩ := List.append_inj' heq rfl
      obtain rfl := List.singleton_inj.mp hlast
      refine .inr ⟨⟨before, rest, hes, hkey, fun e'' he => ?_⟩, hrest e' (by simp)⟩
      exact hrest e'' (by simp [he])
  · rintro (⟨rfl, hkey⟩ | ⟨⟨before, rest, rfl, hkey, hrest⟩, hne⟩)
    · exact ⟨es, [], rfl, hkey, by simp⟩
    · refine ⟨before, rest ++ [e'], by simp, hkey, fun e'' he => ?_⟩
      rcases List.mem_append.mp he with he | he
      · exact hrest e'' he
      · exact List.mem_singleton.mp he ▸ hne

lemma holds_addEntry {es : Map Units Units} (h : Holds t es) (hblank : Units.trim e.2 ≠ [])
    (hnew : e.1 ∉ es.keys) (hkey : androKey e.2 = some key) :
    ∃ t', t.addEntry e = some t' ∧ Holds t' (es ++ [e]) := by
  have hcontains : t.translateMap.containsKey e.1 = false :=
    Map.containsKey_eq_false_iff.mpr (h.translate ▸ hnew)
  refine ⟨{ translateMap := t.translateMap.set e.1 e.2,
            reverseAndroMap := t.reverseAndroMap.set key e.1 }, ?_, ?_, ?_, ?_⟩
  · rw [addEntry, if_neg hblank, hcontains, if_neg Bool.false_ne_true, hkey]
    rfl
  · rw [h.translate]
    exact Map.set_of_notMem hnew e.2
  · exact Map.nodup_set h.nodup key e.1
  · intro key' tag
    rw [Map.mem_iff_get? (Map.nodup_set h.nodup key e.1), Map.get?_set]
    simp only [isLast_concat, hkey, Option.some.injEq]
    by_cases heq : key' = key
    · subst heq
      simp [eq_comm]
    · rw [if_neg heq, ← Map.mem_iff_get? h.nodup, h.reverse]
      simp [Ne.symm heq]

lemma init_eq_none_iff_or_holds (file : TranslationFile) :
    (∀ e ∈ file.entries, androKey e.2 ≠ none) ∧ (∃ t, init file.entries = some t ∧
      Holds t file.entries) ∨
    (∃ e ∈ file.entries, androKey e.2 = none) ∧ init file.entries = none := by
  have hrun (done rest : Map Units Units) (t : TagTranslate) (h : Holds t done)
      (hnodup : (Map.keys (done ++ rest)).Nodup) (hblank : ∀ e ∈ rest, Units.trim e.2 ≠ []) :
      (∀ e ∈ rest, androKey e.2 ≠ none) ∧ (∃ t', rest.foldlM addEntry t = some t' ∧
        Holds t' (done ++ rest)) ∨
      (∃ e ∈ rest, androKey e.2 = none) ∧ rest.foldlM addEntry t = none := by
    induction rest generalizing done t with
    | nil => exact .inl ⟨by simp, t, rfl, by rwa [List.append_nil]⟩
    | cons e rest ih =>
      have hnew : e.1 ∉ Map.keys done := by
        intro hmem
        rw [Map.keys, List.map_append] at hnodup
        exact (List.nodup_append.mp hnodup).2.2 _ hmem _ List.mem_cons_self rfl
      cases hkey : androKey e.2 with
      | none =>
        refine .inr ⟨⟨e, List.mem_cons_self, hkey⟩, ?_⟩
        have hcontains : t.translateMap.containsKey e.1 = false :=
          Map.containsKey_eq_false_iff.mpr (h.translate ▸ hnew)
        rw [List.foldlM_cons, addEntry, if_neg (hblank e List.mem_cons_self), hcontains,
          if_neg Bool.false_ne_true, hkey]
        rfl
      | some key =>
        obtain ⟨t', ht', hholds⟩ := holds_addEntry h (hblank e List.mem_cons_self) hnew hkey
        rw [List.foldlM_cons, ht', Option.bind_eq_bind, Option.bind_some]
        rw [List.append_cons] at hnodup ⊢
        rcases ih _ t' hholds hnodup fun e' he' => hblank e' (List.mem_cons_of_mem e he') with
          ⟨hall, hrest⟩ | ⟨⟨e', he', hnone⟩, hrest⟩
        · refine .inl ⟨fun e' he' => ?_, hrest⟩
          rcases List.mem_cons.mp he' with rfl | he'
          · simp [hkey]
          · exact hall e' he'
        · exact .inr ⟨⟨e', List.mem_cons_of_mem e he', hnone⟩, hrest⟩
  refine hrun [] file.entries {} ⟨rfl, List.nodup_nil, ?_⟩ file.nodup file.nonblank
  intro key tag
  constructor
  · intro h
    cases h
  · rintro ⟨e, -, before, rest, h, -⟩
    simp at h

/-! ### What is listed -/

/-- A known group is read from the text of a tag. -/
lemma ofTag_known {group : Units} (hgroup : group ∈ DisplayedTag.groups) (name : Units)
    (translated : Option Units) :
    DisplayedTag.ofTag (group ++ 58 :: name) translated =
      ⟨some group, some name, translated⟩ := by
  have hcolon : ∀ u ∈ group, (u != 58) = true := by
    have hall : (DisplayedTag.groups.all fun g => g.all (· != 58)) = true := by decide
    exact List.all_eq_true.mp (List.all_eq_true.mp hall group hgroup)
  have htake : (group ++ 58 :: name).takeWhile (· != 58) = group := by
    rw [List.takeWhile_append_of_pos hcolon, List.takeWhile_cons_of_neg (by decide),
      List.append_nil]
  have hdrop : (group ++ 58 :: name).drop (group.length + 1) = name := by
    rw [List.drop_append]
    simp
  rw [DisplayedTag.ofTag, htake, if_pos hgroup, if_pos (by simp), hdrop]

/-- A tag with a known group is written as it is in the file. -/
lemma getTag_ofTag {group name : Units} (hgroup : group ∈ DisplayedTag.groups)
    (htag : tag = group ++ units ":" ++ name) (translated : Option Units) :
    (DisplayedTag.ofTag tag translated).getTag = tag := by
  have hlist : tag = group ++ 58 :: name := by
    rw [htag, List.append_assoc]
    rfl
  rw [hlist, ofTag_known hgroup, ← hlist, htag]
  rfl

/-- Every text is listed once. -/
lemma count_withoutOverlap (result : List DisplayedTag) (tag : Units) :
    ((withoutOverlap result).map DisplayedTag.getTag).count tag = 1 ↔
      tag ∈ result.map DisplayedTag.getTag := by
  rw [withoutOverlap_eq]
  exact count_firsts

lemma getTag_entry (he : e ∈ file.entries) (translated : Option Units) :
    (DisplayedTag.ofTag e.1 translated).getTag = e.1 := by
  obtain ⟨group, hgroup, name, hname⟩ := file.known e he
  exact getTag_ofTag hgroup hname translated

lemma eq_of_tag_eq {e' : Units × Units} (he : e ∈ file.entries) (he' : e' ∈ file.entries)
    (h : e'.1 = e.1) : e' = e := by
  have hget := (Map.mem_iff_get? file.nodup).mp he
  have hget' := (Map.mem_iff_get? file.nodup).mp he'
  rw [h, hget] at hget'
  exact Prod.ext h (Option.some.inj hget').symm

lemma mem_of_isLast {es : Map Units Units} (h : IsLast es e key) : e ∈ es := by
  obtain ⟨before, rest, rfl, -⟩ := h
  simp

/-- The tag of an entry is listed for its translation. -/
lemma mem_contains_iff (ht : Holds t file.entries) (he : e ∈ file.entries) :
    e.1 ∈ (t.contains query).map DisplayedTag.getTag ↔
      Units.contains (removeBlanks e.2) (removeBlanks query) = true := by
  simp only [contains, ht.translate, List.map_map, List.mem_map, List.mem_filter,
    Function.comp_apply]
  constructor
  · rintro ⟨e', ⟨he', hcontains⟩, heq⟩
    rw [getTag_entry he'] at heq
    exact eq_of_tag_eq he he' heq ▸ hcontains
  · exact fun hcontains => ⟨e, ⟨he, hcontains⟩, getTag_entry he _⟩

/-- The tag of an entry is listed for its keys. -/
lemma mem_containsAndro_iff (ht : Holds t file.entries) (he : e ∈ file.entries) {part : Units}
    {result : List DisplayedTag} (hpart : disassembly (removeBlanks query) = some part)
    (hresult : t.containsAndro query = some result) :
    e.1 ∈ result.map DisplayedTag.getTag ↔
      ∃ key, IsLast file.entries e key ∧ Units.contains (removeBlanks key) part = true := by
  rw [containsAndro, hpart, Option.bind_eq_bind, Option.bind_some] at hresult
  obtain rfl := Option.some.inj hresult
  simp only [List.map_map, List.mem_map, List.mem_filter, Function.comp_apply]
  constructor
  · rintro ⟨⟨key, tag⟩, ⟨hmem, hcontains⟩, heq⟩
    obtain ⟨e', rfl, hlast⟩ := (ht.reverse key tag).mp hmem
    rw [getTag_entry (mem_of_isLast hlast)] at heq
    exact ⟨key, eq_of_tag_eq he (mem_of_isLast hlast) heq ▸ hlast, hcontains⟩
  · rintro ⟨key, hlast, hcontains⟩
    exact ⟨(key, e.1), ⟨(ht.reverse key e.1).mpr ⟨e, rfl, hlast⟩, hcontains⟩, getTag_entry he _⟩

lemma containsTotal_of_part {part : Units} (hpart : disassembly (removeBlanks query) = some part) :
    ∃ result, t.containsAndro query = some result ∧
      t.containsTotal query = some (withoutOverlap (t.contains query ++ result)) := by
  have handro : ∃ result, t.containsAndro query = some result := by
    rw [containsAndro, hpart]
    exact ⟨_, rfl⟩
  obtain ⟨result, hresult⟩ := handro
  refine ⟨result, hresult, ?_⟩
  rw [containsTotal, hresult]
  rfl

/-- All matching tags are listed once exactly when the query is covered. -/
theorem complete_iff_covered (file : TranslationFile) (query : Units) :
    Complete file query ↔ Covered file query := by
  rcases init_eq_none_iff_or_holds file with ⟨hkeys, t, hinit, ht⟩ | ⟨⟨e, he, hnone⟩, hinit⟩
  · have hlisted {part : Units} (hpart : disassembly (removeBlanks query) = some part)
        {e : Units × Units} (he : e ∈ file.entries) :
        ∃ result, t.containsTotal query = some result ∧
          ((result.map DisplayedTag.getTag).count e.1 = 1 ↔
            Units.contains (removeBlanks e.2) (removeBlanks query) = true ∨ ∃ key,
              IsLast file.entries e key ∧ Units.contains (removeBlanks key) part = true) := by
      obtain ⟨result, hresult, htotal⟩ := @containsTotal_of_part t query part hpart
      refine ⟨_, htotal, ?_⟩
      rw [count_withoutOverlap, List.map_append, List.mem_append, mem_contains_iff ht he,
        mem_containsAndro_iff ht he hpart hresult]
    constructor
    · rintro ⟨t', hinit', result, htotal, hall⟩
      obtain rfl := Option.some.inj (hinit.symm.trans hinit')
      refine ⟨hkeys, ?_⟩
      cases hpart : disassembly (removeBlanks query) with
      | none =>
        rw [containsTotal, containsAndro, hpart] at htotal
        cases htotal
      | some part =>
        refine ⟨part, rfl, fun e he hmatches => ?_⟩
        obtain ⟨result', htotal', hiff⟩ := hlisted hpart he
        obtain rfl := Option.some.inj (htotal.symm.trans htotal')
        exact hiff.mp (hall e he hmatches)
    · rintro ⟨-, part, hpart, hall⟩
      obtain ⟨result, -, htotal⟩ := @containsTotal_of_part t query part hpart
      refine ⟨t, hinit, _, htotal, fun e he hmatches => ?_⟩
      obtain ⟨result', htotal', hiff⟩ := hlisted hpart he
      obtain rfl := Option.some.inj (htotal.symm.trans htotal')
      exact hiff.mpr (hall e he hmatches)
  · constructor
    · rintro ⟨t, ht, -⟩
      rw [hinit] at ht
      cases ht
    · exact fun h => absurd hnone (h.1 e he)

/-- Two tags with one translation. -/
def twoTags : TranslationFile where
  entries := [(units "tag:a", units "가"), (units "tag:b", units "가")]
  nodup := by decide
  known := by
    intro e he
    refine ⟨units "tag", by decide, ?_⟩
    rcases List.mem_cons.mp he with rfl | he
    · exact ⟨units "a", by decide⟩
    · obtain rfl := List.mem_singleton.mp he
      exact ⟨units "b", by decide⟩
  nonblank := by decide

/-- By the keys of the translation only the second tag is found. -/
theorem not_complete_twoTags : ¬ Complete twoTags (units "rk") := by
  rintro ⟨t, ht, result, htotal, hall⟩
  have hinit : init twoTags.entries = some
      { translateMap := twoTags.entries
        reverseAndroMap := [(units "rk", units "tag:b")] } := by decide
  obtain rfl := Option.some.inj (hinit.symm.trans ht)
  have hresult : some result = some [.ofTag (units "tag:b") (some (units "가"))] :=
    htotal.symm.trans (by decide)
  obtain rfl := Option.some.inj hresult
  have hmatches : Matches (units "가") (units "rk") :=
    .inr ⟨units "rk", units "rk", by decide, by decide, by decide⟩
  have hcount := hall (units "tag:a", units "가") List.mem_cons_self hmatches
  revert hcount
  decide

end TagTranslate
