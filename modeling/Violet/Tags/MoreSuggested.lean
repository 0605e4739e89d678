import Violet.Dart.Split
import Violet.Tags.Similar
import Violet.Tags.Written

/-!
# What fuzzy search adds

The fuzzy completion takes all names and translations, so it suggests what the exact one suggests.
There are two exceptions. A text that begins with `random:` has no prefix for the exact completion,
but has one for the fuzzy one; and the fuzzy completion looks up the classifications of all
translations, which throws when one of them is not in the index.
-/

open Dart

namespace Violet

open HitomiManager TagTranslate

section

variable (sort : DartSort) (lower : LowerCase) (tagmap : TagMap) (t : TagTranslate)

/-- Each suggestion that one completion returns is returned by the other one, with the same group,
name and number. -/
def AllIn (exact fuzzy : Option (List (DisplayedTag × ℤ))) : Prop :=
  ∀ results, exact = some results → ∀ e ∈ results, ∃ results', fuzzy = some results' ∧
    ∃ e' ∈ results', e'.1.group = e.1.group ∧ e'.1.name = e.1.name ∧ e'.2 = e.2

/-- Fuzzy search only adds suggestions. -/
def OnlyAdds (text : Units) (useTranslated : Bool) : Prop :=
  AllIn (queryAutoComplete sort lower tagmap t text useTranslated)
    (queryAutoCompleteFuzzy sort lower tagmap t text useTranslated)

/-- The classification of a tag is in the index. -/
def Classified (d : DisplayedTag) : Prop := (d.group.bind tagmap.get?).isSome

/-- The number of articles of a tag. -/
def countOf (d : DisplayedTag) : Option ℤ :=
  (d.group.bind tagmap.get?).bind fun ch => d.name.bind ch.get?

/-- No name outside of a classification `random` contains the text. -/
def NoneNamed (pre : Units) : Prop :=
  ∀ classified ∈ tagmap, classified.1 ≠ units "tag" → classified.1 ≠ units "random" →
    ∀ e ∈ classified.2, Units.contains (lower.toLowerCase e.1) pre = false

/-- None of the translated tags that are found is in the index, or the classification of one of them
is not there. -/
def NoneTranslated (pre : Units) : Prop :=
  ∀ total, t.containsTotal pre = some total → (∀ d ∈ total, Classified tagmap d) →
    ∀ d ∈ total, countOf tagmap d = none

/-- A text with the prefix `random` finds nothing, and without a prefix the classifications of all
translations are in the index unless no translation is found. -/
def Widens (file : LocaleFile) (text : Units) (useTranslated : Bool) : Prop :=
  let pre := normalizeText lower text
  if 58 ∈ pre then
    (pre.splitOn 58).headD [] = units "random" →
      if useTranslated then NoneTranslated tagmap t pre else NoneNamed lower tagmap pre
  else useTranslated = true →
    (∀ e ∈ file.translations.entries, Classified tagmap (.ofTag e.1 none)) ∨
      NoneTranslated tagmap t pre

end

variable {sort : DartSort} {lower : LowerCase} {tagmap : TagMap} {c : Completion}
  {t : TagTranslate} {file : LocaleFile} {pre query : Units} {ch : Map Units ℤ}

/-! ### The translations that are found -/

/-- The tag is one of the file. -/
def IsTranslated (file : LocaleFile) (d : DisplayedTag) : Prop :=
  ∃ e ∈ file.translations.entries, ∃ translated, d = .ofTag e.1 translated

/-- The tags have the same group and the same name. -/
def SameTag (d d' : DisplayedTag) : Prop := d.group = d'.group ∧ d.name = d'.name

lemma sameTag_ofTag (tag : Units) (translated translated' : Option Units) :
    SameTag (.ofTag tag translated) (.ofTag tag translated') := by
  rw [SameTag, DisplayedTag.ofTag, DisplayedTag.ofTag]
  split_ifs <;> exact ⟨rfl, rfl⟩

lemma SameTag.countOf {d d' : DisplayedTag} (h : SameTag d d') :
    countOf tagmap d = countOf tagmap d' := by
  rw [Violet.countOf, Violet.countOf, h.1, h.2]

lemma SameTag.classified {d d' : DisplayedTag} (h : SameTag d d') (hd : Classified tagmap d) :
    Classified tagmap d' := by
  rw [Classified, ← h.1]
  exact hd

lemma isTranslated_of_mem_total (ht : Holds t file.translations.entries)
    {total : List DisplayedTag} (htotal : t.containsTotal query = some total) {d : DisplayedTag}
    (hd : d ∈ total) : IsTranslated file d := by
  obtain ⟨andro, handro, htotal⟩ := Option.bind_eq_some_iff.mp htotal
  obtain rfl := Option.some.inj htotal
  obtain ⟨part, -, hpart⟩ := Option.bind_eq_some_iff.mp handro
  obtain rfl := Option.some.inj hpart
  rw [withoutOverlap_eq] at hd
  rcases List.mem_append.mp ((firsts_sublist _ _ _).subset hd) with hd | hd
  · obtain ⟨e, he, rfl⟩ := List.mem_map.mp hd
    exact ⟨e, ht.translate ▸ List.mem_of_mem_filter he, _, rfl⟩
  · obtain ⟨k, hk, rfl⟩ := List.mem_map.mp hd
    obtain ⟨e, he, heq, -⟩ :=
      exists_translation ht file.translations.nodup (List.mem_of_mem_filter hk)
    exact ⟨e, he, _, by rw [heq]⟩

/-- What the fuzzy search sorts and thins out are tags of the file, and all of them. -/
lemma exists_fuzzing (sort : DartSort) (ht : Holds t file.translations.entries)
    {total : List DisplayedTag} (htotal : t.containsTotal query = some total) :
    ∃ result, t.containsFuzzingTotal sort query =
        some (firstOfEach (sort.sort byDistance result)) ∧
      (∀ x ∈ result, IsTranslated file x.1) ∧
        ∀ e ∈ file.translations.entries, ∃ x ∈ result, x.1.getTag = e.1 := by
  obtain ⟨andro, handro, -⟩ := Option.bind_eq_some_iff.mp htotal
  obtain ⟨part, hpart, -⟩ := Option.bind_eq_some_iff.mp handro
  have hfuzzy := containsFuzzingAndro_eq sort ht file.translations.nodup hpart
  refine ⟨_, by rw [containsFuzzingTotal, hfuzzy]; rfl, fun x hx => ?_, fun e he => ?_⟩
  · rcases List.mem_append.mp hx with hx | hx
    · rw [containsFuzzing, (sort.perm _ _).mem_iff, ht.translate] at hx
      obtain ⟨e, he, rfl⟩ := List.mem_map.mp hx
      exact ⟨e, he, _, rfl⟩
    · rw [(sort.perm _ _).mem_iff] at hx
      obtain ⟨k, hk, rfl⟩ := List.mem_map.mp hx
      obtain ⟨e, he, heq, -⟩ := exists_translation ht file.translations.nodup hk
      exact ⟨e, he, _, by rw [heq]⟩
  · refine ⟨(.ofTag e.1 (some (firstForm e.2)), Violet.Distance.levenshteinDistance
      (runes (firstForm (removeBlanks e.2))) (runes (removeBlanks query))),
      List.mem_append_left _ ?_, getTag_entry he _⟩
    rw [containsFuzzing, (sort.perm _ _).mem_iff, ht.translate]
    exact List.mem_map.mpr ⟨e, he, rfl⟩

/-- The fuzzy search finds the tags of the file, and all of them. -/
lemma exists_fuzzingTotal (sort : DartSort) (ht : Holds t file.translations.entries)
    {total : List DisplayedTag} (htotal : t.containsTotal query = some total) :
    ∃ all, t.containsFuzzingTotal sort query = some all ∧ (∀ x ∈ all, IsTranslated file x.1) ∧
      ∀ d, IsTranslated file d → ∃ x ∈ all, SameTag x.1 d := by
  obtain ⟨result, hresult, htranslated, hall⟩ := exists_fuzzing sort ht htotal
  have hfirsts : ∀ x ∈ firstOfEach (sort.sort byDistance result), IsTranslated file x.1 := by
    intro x hx
    rw [firstOfEach_eq] at hx
    exact htranslated x ((sort.perm _ _).mem_iff.mp ((firsts_sublist _ _ _).subset hx))
  refine ⟨_, hresult, hfirsts, ?_⟩
  rintro _ ⟨e, he, translated, rfl⟩
  obtain ⟨y, hy, hytag⟩ := hall e he
  obtain ⟨x, hx, htag⟩ : ∃ x ∈ firstOfEach (sort.sort byDistance result), x.1.getTag = e.1 := by
    rw [firstOfEach_eq, ← List.mem_map, mem_map_firsts]
    exact ⟨List.mem_map.mpr ⟨y, (sort.perm _ _).mem_iff.mpr hy, hytag⟩, List.not_mem_nil⟩
  obtain ⟨e', he', translated', heq⟩ := hfirsts x hx
  rw [heq, getTag_entry he'] at htag
  refine ⟨x, hx, ?_⟩
  rw [heq, htag]
  exact sameTag_ofTag _ _ _

/-! ### What is suggested -/

/-- The results have each of the others, with another weight. -/
def Includes {c' : Completion} (found' : List (DisplayedTag × c'.Weight × ℤ))
    (found : List (DisplayedTag × c.Weight × ℤ)) : Prop :=
  ∀ r ∈ found, ∃ r' ∈ found', SameTag r'.1 r.1 ∧ r'.2.2 = r.2.2

lemma mem_suggestions {found : List (DisplayedTag × c.Weight × ℤ)} {e : DisplayedTag × ℤ} :
    e ∈ suggestions sort c found ↔ ∃ r ∈ found, (r.1, r.2.2) = e := by
  rw [suggestions, List.mem_map]
  constructor <;> rintro ⟨r, hr, rfl⟩
  · exact ⟨r, (sort.perm _ _).mem_iff.mp hr, rfl⟩
  · exact ⟨r, (sort.perm _ _).mem_iff.mpr hr, rfl⟩

lemma Includes.suggestions {c' : Completion} {found' : List (DisplayedTag × c'.Weight × ℤ)}
    {found : List (DisplayedTag × c.Weight × ℤ)} (h : Includes found' found)
    {e : DisplayedTag × ℤ} (he : e ∈ suggestions sort c found) :
    ∃ e' ∈ HitomiManager.suggestions sort c' found',
      e'.1.group = e.1.group ∧ e'.1.name = e.1.name ∧ e'.2 = e.2 := by
  obtain ⟨r, hr, rfl⟩ := mem_suggestions.mp he
  obtain ⟨r', hr', htag, hcount⟩ := h r hr
  exact ⟨_, mem_suggestions.mpr ⟨r', hr', rfl⟩, htag.1, htag.2, hcount⟩

/-- More names are found, with the same tags. -/
lemma includes_found {k : Completion} {finds finds' : Units × ℤ → Bool}
    (h : ∀ e, finds e = true → finds' e = true) (es : Map Units ℤ)
    (tag : Units × ℤ → DisplayedTag) (weigh : Units × ℤ → c.Weight)
    (weigh' : Units × ℤ → k.Weight) :
    Includes ((es.filter finds').map fun e => (tag e, weigh' e, e.2))
      ((es.filter finds).map fun e => (tag e, weigh e, e.2)) := by
  intro r hr
  obtain ⟨e, he, rfl⟩ := List.mem_map.mp hr
  obtain ⟨hmem, hfinds⟩ := List.mem_filter.mp he
  exact ⟨_, List.mem_map.mpr ⟨e, List.mem_filter.mpr ⟨hmem, h e hfinds⟩, rfl⟩, ⟨rfl, rfl⟩, rfl⟩

lemma named_includes (opp pre : Units) (ch : Map Units ℤ) :
    Includes (named lower (fuzzily sort t) opp pre ch) (named lower (exactly t) opp pre ch) := by
  simp only [named]
  split_ifs
  · exact includes_found (fun e he =>
      Bool.and_eq_true_iff.mpr ⟨(Bool.and_eq_true_iff.mp he).1, rfl⟩) _ _ _ _
  · exact includes_found (fun e he =>
      Bool.and_eq_true_iff.mpr ⟨(Bool.and_eq_true_iff.mp he).1, rfl⟩) _ _ _ _
  · exact includes_found (fun _ _ => rfl) _ _ _ _

lemma namedAnywhere_includes (pre : Units) :
    Includes (namedAnywhere lower tagmap (fuzzily sort t) pre)
      (namedAnywhere lower tagmap (exactly t) pre) := by
  intro r hr
  obtain ⟨classified, hmem, hr⟩ := List.mem_flatMap.mp hr
  by_cases htag : classified.1 = units "tag"
  · rw [if_pos htag] at hr
    obtain ⟨r', hr', hsame⟩ := includes_found (k := fuzzily sort t) (fun _ _ => rfl) _ _ _ _ r hr
    exact ⟨r', List.mem_flatMap.mpr ⟨classified, hmem, by rw [if_pos htag]; exact hr'⟩, hsame⟩
  · rw [if_neg htag] at hr
    obtain ⟨r', hr', hsame⟩ := includes_found (k := fuzzily sort t) (fun _ _ => rfl) _ _ _ _ r hr
    exact ⟨r', List.mem_flatMap.mpr ⟨classified, hmem, by rw [if_neg htag]; exact hr'⟩, hsame⟩

/-! #### Translated tags -/

lemma SameTag.isOf {d d' : DisplayedTag} (h : SameTag d d') (opp : Units) (ch : Map Units ℤ) :
    isOf opp ch d = isOf opp ch d' := by
  rw [HitomiManager.isOf, HitomiManager.isOf, h.1, h.2]

/-- The tags that are found are found with the same groups and names. -/
def FindsTags {k : Completion} (all : List (DisplayedTag × k.Weight))
    (total : List (DisplayedTag × c.Weight)) : Prop :=
  ∀ x ∈ total, ∃ y ∈ all, SameTag y.1 x.1

variable {k : Completion} {all : List (DisplayedTag × k.Weight)}
  {total : List (DisplayedTag × c.Weight)}

lemma FindsTags.translated (h : FindsTags all total) (opp : Units) (ch : Map Units ℤ) :
    Includes (translated k opp ch all) (translated c opp ch total) := by
  intro r hr
  obtain ⟨hr, hsex⟩ := List.mem_filter.mp hr
  obtain ⟨x, hx, rfl⟩ := List.mem_map.mp hr
  obtain ⟨hmem, hof⟩ := List.mem_filter.mp hx
  obtain ⟨y, hy, hsame⟩ := h x hmem
  refine ⟨(y.1, y.2, (y.1.name.bind ch.get?).getD 0), List.mem_filter.mpr ⟨?_, ?_⟩, hsame, ?_⟩
  · exact List.mem_map.mpr ⟨y, List.mem_filter.mpr ⟨hy, (hsame.isOf opp ch).trans hof⟩, rfl⟩
  · rw [hsame.2]
    exact hsex
  · rw [hsame.2]

/-- The look-up of a translated tag. -/
def lookUp (tagmap : TagMap) (x : DisplayedTag × c.Weight) :
    Option (Option (DisplayedTag × c.Weight × ℤ)) :=
  (x.1.group.bind tagmap.get?).map fun ch =>
    (x.1.name.bind ch.get?).map fun count => (x.1, x.2, count)

lemma translatedAnywhere_eq_mapM (total : List (DisplayedTag × c.Weight)) :
    translatedAnywhere tagmap c total = (total.mapM (lookUp tagmap)).map List.reduceOption := by
  have hbody : (fun x : DisplayedTag × c.Weight => (do
      let ch ← x.1.group.bind tagmap.get?
      return (x.1.name.bind ch.get?).map fun count => (x.1, x.2, count) :
        Option (Option (DisplayedTag × c.Weight × ℤ)))) = lookUp tagmap := by
    funext x
    rw [lookUp]
    cases x.1.group.bind tagmap.get? <;> rfl
  rw [translatedAnywhere, hbody]
  cases total.mapM (lookUp tagmap) <;> rfl

/-- Looking up the translations throws for a classification outside of the index. -/
lemma isSome_translatedAnywhere_iff :
    (translatedAnywhere tagmap c total).isSome = true ↔ ∀ x ∈ total, Classified tagmap x.1 := by
  rw [translatedAnywhere_eq_mapM, Option.isSome_map, isSome_mapM_iff]
  refine forall₂_congr fun x _ => ?_
  rw [lookUp, Option.isSome_map, Classified]

lemma mem_translatedAnywhere {results : List (DisplayedTag × c.Weight × ℤ)}
    (h : translatedAnywhere tagmap c total = some results)
    {r : DisplayedTag × c.Weight × ℤ} :
    r ∈ results ↔ ∃ x ∈ total, ∃ n, countOf tagmap x.1 = some n ∧ r = (x.1, x.2, n) := by
  have hclassified := isSome_translatedAnywhere_iff.mp (Option.isSome_iff_exists.mpr ⟨_, h⟩)
  have hmap : total.mapM (lookUp tagmap) =
      some (total.map fun x => (countOf tagmap x.1).map fun n => (x.1, x.2, n)) := by
    refine mapM_eq_some_map fun x hx => ?_
    obtain ⟨ch, hch⟩ := Option.isSome_iff_exists.mp (hclassified x hx)
    rw [lookUp, countOf, hch]
    rfl
  rw [translatedAnywhere_eq_mapM, hmap, Option.map_some, Option.some_inj] at h
  rw [← h, List.reduceOption_mem_iff, List.mem_map]
  refine exists_congr fun x => and_congr_right fun _ => ?_
  rw [Option.map_eq_some_iff]
  exact exists_congr fun n => and_congr_right fun _ => eq_comm

/-! ### The two completions -/

lemma mem_total_exactly {results : List (DisplayedTag × Unit)}
    (h : (exactly t).total query = some results) :
    ∃ total, t.containsTotal query = some total ∧ results = total.map fun d => (d, ()) := by
  obtain ⟨total, htotal, rfl⟩ := Option.map_eq_some_iff.mp h
  exact ⟨total, htotal, rfl⟩

/-- The fuzzy completion finds the translated tags that the exact one finds. -/
lemma exists_findsTags (sort : DartSort) (hinit : init file.entries = some t)
    {total : List (DisplayedTag × Unit)} (htotal : (exactly t).total query = some total) :
    ∃ all, (fuzzily sort t).total query = some all ∧
      FindsTags (k := fuzzily sort t) (c := exactly t) all total ∧
        (∀ x ∈ all, IsTranslated file x.1) ∧
          ∀ d, IsTranslated file d → ∃ x ∈ all, SameTag x.1 d := by
  obtain ⟨found, hfound, rfl⟩ := mem_total_exactly htotal
  have ht := holds_of_init hinit
  obtain ⟨all, hall, htranslated, hmem⟩ := exists_fuzzingTotal sort ht hfound
  refine ⟨all, hall, fun x hx => ?_, htranslated, hmem⟩
  obtain ⟨d, hd, rfl⟩ := List.mem_map.mp hx
  exact hmem d (isTranslated_of_mem_total ht hfound hd)

/-- With a prefix that both completions know. -/
lemma completePrefixed_allIn (hinit : init file.entries = some t) (useTranslated : Bool) :
    AllIn (completePrefixed sort lower tagmap (exactly t) pre useTranslated)
      (completePrefixed sort lower tagmap (fuzzily sort t) pre useTranslated) := by
  intro results h e he
  rw [completePrefixed] at h ⊢
  cases hch : tagmap.get? (classification ((pre.splitOn 58).headD [])) with
  | none =>
    rw [hch] at h
    obtain rfl := Option.some.inj h
    cases he
  | some ch =>
    rw [hch] at h
    cases useTranslated with
    | false =>
      obtain rfl := Option.some.inj h
      exact ⟨_, rfl, (named_includes _ _ _).suggestions he⟩
    | true =>
      obtain ⟨total, htotal, rfl⟩ := Option.map_eq_some_iff.mp h
      obtain ⟨all, hall, hfinds, -⟩ := exists_findsTags sort hinit htotal
      exact ⟨_, Option.map_eq_some_iff.mpr ⟨all, hall, rfl⟩,
        (hfinds.translated _ ch).suggestions he⟩

/-! #### Translations of all classifications -/

lemma completeAnywhere_translated {found : List (DisplayedTag × c.Weight × ℤ)}
    (htotal : c.total pre = some total) (hfound : translatedAnywhere tagmap c total = some found) :
    completeAnywhere sort lower tagmap c pre true = some (suggestions sort c found) := by
  rw [completeAnywhere, if_neg (by simp), htotal, Option.bind_eq_bind, Option.bind_some, hfound]
  rfl

/-- The exact completion suggests nothing. -/
lemma noneTranslated_iff (sort : DartSort) (lower : LowerCase) : NoneTranslated tagmap t pre ↔
    ∀ results, completeAnywhere sort lower tagmap (exactly t) pre true = some results →
      results = [] := by
  constructor
  · intro h results hresults
    obtain ⟨total, htotal, hresults⟩ := Option.bind_eq_some_iff.mp hresults
    obtain ⟨found, hfound, hresults⟩ := Option.bind_eq_some_iff.mp hresults
    obtain rfl := Option.some.inj hresults
    obtain ⟨tags, htags, rfl⟩ := mem_total_exactly htotal
    have hclassified := isSome_translatedAnywhere_iff.mp (Option.isSome_iff_exists.mpr ⟨_, hfound⟩)
    refine List.eq_nil_iff_forall_not_mem.mpr fun e he => ?_
    obtain ⟨r, hr, -⟩ := mem_suggestions.mp he
    obtain ⟨x, hx, n, hn, -⟩ := (mem_translatedAnywhere hfound).mp hr
    obtain ⟨d, hd, rfl⟩ := List.mem_map.mp hx
    have hnone := h tags htags (fun d hd => hclassified _ (List.mem_map.mpr ⟨d, hd, rfl⟩)) d hd
    cases hn.symm.trans hnone
  · intro h total htotal hclassified d hd
    by_contra hne
    obtain ⟨n, hn⟩ := Option.ne_none_iff_exists'.mp hne
    have htotal' : (exactly t).total pre = some (total.map fun d => (d, ())) :=
      Option.map_eq_some_iff.mpr ⟨total, htotal, rfl⟩
    have hsome : (translatedAnywhere tagmap (exactly t) (total.map fun d => (d, ()))).isSome :=
      isSome_translatedAnywhere_iff.mpr (List.forall_mem_map.mpr hclassified)
    obtain ⟨found, hfound⟩ := Option.isSome_iff_exists.mp hsome
    have hnil := h _ (completeAnywhere_translated htotal' hfound)
    have hmem : (d, (), n) ∈ found :=
      (mem_translatedAnywhere hfound).mpr ⟨(d, ()), List.mem_map.mpr ⟨d, hd, rfl⟩, n, hn, rfl⟩
    have hsuggested : (d, n) ∈ suggestions sort (exactly t) found :=
      mem_suggestions.mpr ⟨_, hmem, rfl⟩
    rw [hnil] at hsuggested
    cases hsuggested

lemma completeAnywhere_allIn_iff (hinit : init file.entries = some t) :
    AllIn (completeAnywhere sort lower tagmap (exactly t) pre true)
        (completeAnywhere sort lower tagmap (fuzzily sort t) pre true) ↔
      (∀ e ∈ file.translations.entries, Classified tagmap (.ofTag e.1 none)) ∨
        NoneTranslated tagmap t pre := by
  constructor
  · intro h
    by_cases hall : ∀ e ∈ file.translations.entries, Classified tagmap (.ofTag e.1 none)
    · exact .inl hall
    · refine .inr ?_
      refine (noneTranslated_iff sort lower).mpr fun results hresults => ?_
      refine List.eq_nil_iff_forall_not_mem.mpr fun e he => hall fun entry hentry => ?_
      obtain ⟨results', hresults', -⟩ := h results hresults e he
      obtain ⟨total, htotal, hresults⟩ := Option.bind_eq_some_iff.mp hresults
      obtain ⟨all, hall', -, -, hmem⟩ := exists_findsTags sort hinit htotal
      obtain ⟨total', htotal', hresults'⟩ := Option.bind_eq_some_iff.mp hresults'
      obtain rfl := Option.some.inj (hall'.symm.trans htotal')
      obtain ⟨found, hfound, -⟩ := Option.bind_eq_some_iff.mp hresults'
      have hclassified :=
        isSome_translatedAnywhere_iff.mp (Option.isSome_iff_exists.mpr ⟨_, hfound⟩)
      obtain ⟨x, hx, hsame⟩ := hmem _ ⟨entry, hentry, none, rfl⟩
      exact hsame.classified (hclassified x hx)
  · rintro (hall | hnone) results hresults e he
    · obtain ⟨total, htotal, hresults⟩ := Option.bind_eq_some_iff.mp hresults
      obtain ⟨found, hfound, hresults⟩ := Option.bind_eq_some_iff.mp hresults
      obtain rfl := Option.some.inj hresults
      obtain ⟨all, hall', hfinds, htranslated, -⟩ := exists_findsTags sort hinit htotal
      have hsome : (translatedAnywhere tagmap (fuzzily sort t) all).isSome :=
        isSome_translatedAnywhere_iff.mpr fun x hx => by
          obtain ⟨entry, hentry, translated, heq⟩ := htranslated x hx
          rw [heq]
          exact (sameTag_ofTag _ _ _).classified (hall entry hentry)
      obtain ⟨found', hfound'⟩ := Option.isSome_iff_exists.mp hsome
      have hincludes : Includes found' found := by
        intro r hr
        obtain ⟨x, hx, n, hn, rfl⟩ := (mem_translatedAnywhere hfound).mp hr
        obtain ⟨y, hy, hsame⟩ := hfinds x hx
        exact ⟨(y.1, y.2, n), (mem_translatedAnywhere hfound').mpr
          ⟨y, hy, n, hsame.countOf.trans hn, rfl⟩, hsame, rfl⟩
      exact ⟨_, completeAnywhere_translated hall' hfound', hincludes.suggestions he⟩
    · rw [(noneTranslated_iff sort lower).mp hnone results hresults] at he
      cases he

/-! #### The prefix `random` -/

lemma mem_of_contains {s part : Units} (h : Units.contains s part = true) {u : UInt16}
    (hu : u ∈ part) : u ∈ s := by
  obtain ⟨i, hi⟩ := Option.isSome_iff_exists.mp h
  have hpre : part <+: s.drop i := by
    simpa using List.find?_some hi
  exact List.mem_of_mem_drop (hpre.subset hu)

lemma notMem_getD_splitOn (s : Units) (i : ℕ) : (58 : UInt16) ∉ (s.splitOn 58).getD i [] := by
  rw [List.getD_eq_getElem?_getD]
  cases h : (s.splitOn 58)[i]? with
  | none => exact List.not_mem_nil
  | some part => exact notMem_of_mem_splitOn (List.mem_of_getElem? h)

/-- No name of the classification `tag` is found by a text with a colon. -/
lemma mem_namedAnywhere_exactly (hcolon : 58 ∈ pre) {r : DisplayedTag × Unit × ℤ} :
    r ∈ namedAnywhere lower tagmap (exactly t) pre ↔ ∃ classified ∈ tagmap,
      classified.1 ≠ units "tag" ∧ ∃ e ∈ classified.2,
        Units.contains (lower.toLowerCase e.1) pre = true ∧
          r = (.ofGroup classified.1 e.1, (), e.2) := by
  constructor
  · intro hr
    obtain ⟨classified, hmem, hr⟩ := List.mem_flatMap.mp hr
    refine ⟨classified, hmem, ?_⟩
    split_ifs at hr with htag
    · obtain ⟨e, he, rfl⟩ := List.mem_map.mp hr
      have hfinds := mem_of_contains (List.mem_filter.mp he).2 hcolon
      split_ifs at hfinds with hname
      · exact absurd hfinds (notMem_getD_splitOn _ _)
      · exact absurd hfinds hname
    · obtain ⟨e, he, rfl⟩ := List.mem_map.mp hr
      obtain ⟨hmem', hfinds⟩ := List.mem_filter.mp he
      exact ⟨htag, e, hmem', hfinds, rfl⟩
  · rintro ⟨classified, hmem, htag, e, he, hcontains, rfl⟩
    refine List.mem_flatMap.mpr ⟨classified, hmem, ?_⟩
    rw [if_neg htag]
    exact List.mem_map.mpr ⟨e, List.mem_filter.mpr ⟨he, hcontains⟩, rfl⟩

lemma group_ofGroup_ne {group : Units} (h : group ≠ units "random") (name : Units) :
    (DisplayedTag.ofGroup group name).group ≠ some (units "random") := by
  rw [DisplayedTag.ofGroup]
  by_cases hsex : group ∈ [units "female", units "male"]
  · rw [if_pos hsex]
    exact fun heq => absurd (Option.some.inj heq) (by decide)
  · rw [if_neg hsex]
    exact fun heq => h (Option.some.inj heq)

/-- What the fuzzy completion suggests for a text with the prefix `random` has this group. -/
lemma completePrefixed_random (hpre : (pre.splitOn 58).headD [] = units "random")
    {useTranslated : Bool}
    {results : List (DisplayedTag × ℤ)}
    (h : completePrefixed sort lower tagmap (fuzzily sort t) pre useTranslated = some results)
    {e : DisplayedTag × ℤ} : e ∈ results ↔ useTranslated = false ∧
      ∃ ch, tagmap.get? (units "random") = some ch ∧
        ∃ x ∈ ch, e = (⟨some (units "random"), some x.1, none⟩, x.2) := by
  have hclass : classification (units "random") = units "random" := by decide
  rw [completePrefixed, hpre, hclass] at h
  cases hch : tagmap.get? (units "random") with
  | none =>
    rw [hch] at h
    obtain rfl := Option.some.inj h
    simp
  | some ch =>
    rw [hch] at h
    cases useTranslated with
    | false =>
      obtain rfl := Option.some.inj h
      have hnamed : named lower (fuzzily sort t) (units "random") pre ch = ch.map fun e =>
          (⟨some (units "random"), some e.1, none⟩,
            (fuzzily sort t).weigh ((pre.splitOn 58).getD 1 []) e.1, e.2) := by
        rw [named, if_neg (by decide), if_neg (by decide), hclass]
        exact congrArg _ (List.filter_eq_self.mpr fun _ _ => rfl)
      rw [hnamed, mem_suggestions]
      constructor
      · rintro ⟨r, hr, rfl⟩
        obtain ⟨x, hx, rfl⟩ := List.mem_map.mp hr
        exact ⟨rfl, ch, rfl, x, hx, rfl⟩
      · rintro ⟨-, _, heq, x, hx, rfl⟩
        obtain rfl := Option.some.inj heq
        exact ⟨_, List.mem_map.mpr ⟨x, hx, rfl⟩, rfl⟩
    | true =>
      obtain ⟨all, hall, rfl⟩ := Option.map_eq_some_iff.mp h
      refine iff_of_false (fun he => ?_) fun h => Bool.false_ne_true h.1.symm
      obtain ⟨r, hr, -⟩ := mem_suggestions.mp he
      obtain ⟨x, hx, rfl⟩ := List.mem_map.mp (List.mem_filter.mp hr).1
      obtain ⟨hx, hof⟩ := List.mem_filter.mp hx
      rw [isOf, if_pos (by decide), Bool.and_eq_true, decide_eq_true_eq] at hof
      exact absurd (isKnown_of_containsFuzzingTotal hall hx _ hof.1) (by decide)

lemma random_named_iff (hcolon : 58 ∈ pre)
    (hpre : (pre.splitOn 58).headD [] = units "random") (hnodup : tagmap.keys.Nodup) :
    AllIn (completeAnywhere sort lower tagmap (exactly t) pre false)
        (completePrefixed sort lower tagmap (fuzzily sort t) pre false) ↔
      NoneNamed lower tagmap pre := by
  constructor
  · intro h classified hmem htag hrandom e he
    by_contra hcontains
    obtain ⟨results', hresults', e', he', hgroup, -⟩ := h _ rfl (.ofGroup classified.1 e.1, e.2)
      (mem_suggestions.mpr ⟨_, (mem_namedAnywhere_exactly hcolon).mpr
        ⟨classified, hmem, htag, e, he, by simpa using hcontains, rfl⟩, rfl⟩)
    obtain ⟨-, ch, -, x, -, rfl⟩ := (completePrefixed_random hpre hresults').mp he'
    exact group_ofGroup_ne hrandom e.1 hgroup.symm
  · rintro h results hresults e he
    obtain rfl := Option.some.inj hresults
    obtain ⟨r, hr, rfl⟩ := mem_suggestions.mp he
    obtain ⟨classified, hmem, htag, x, hx, hcontains, rfl⟩ :=
      (mem_namedAnywhere_exactly hcolon).mp hr
    by_cases hrandom : classified.1 = units "random"
    · have hch : tagmap.get? (units "random") = some classified.2 := by
        rw [← Map.mem_iff_get? hnodup, ← hrandom]
        exact hmem
      have hclass : classification (units "random") = units "random" := by decide
      have hboth : ∃ results',
          completePrefixed sort lower tagmap (fuzzily sort t) pre false = some results' := by
        rw [completePrefixed, hpre, hclass, hch]
        exact ⟨_, rfl⟩
      obtain ⟨results', hresults'⟩ := hboth
      refine ⟨results', hresults', _, (completePrefixed_random hpre hresults').mpr
        ⟨rfl, classified.2, hch, x, hx, rfl⟩, ?_, ?_, rfl⟩
      · rw [hrandom, DisplayedTag.ofGroup, if_neg (by decide)]
      · rw [hrandom, DisplayedTag.ofGroup, if_neg (by decide)]
    · cases (h classified hmem htag hrandom x hx).symm.trans hcontains

lemma random_translated_iff (hpre : (pre.splitOn 58).headD [] = units "random") :
    AllIn (completeAnywhere sort lower tagmap (exactly t) pre true)
        (completePrefixed sort lower tagmap (fuzzily sort t) pre true) ↔
      NoneTranslated tagmap t pre := by
  rw [noneTranslated_iff sort lower]
  constructor
  · intro h results hresults
    refine List.eq_nil_iff_forall_not_mem.mpr fun e he => ?_
    obtain ⟨results', hresults', e', he', -⟩ := h results hresults e he
    cases ((completePrefixed_random hpre hresults').mp he').1
  · intro h results hresults e he
    rw [h results hresults] at he
    cases he

/-! ### The condition -/

/-- Fuzzy search only adds suggestions exactly when a text with the prefix `random` finds nothing
outside of a classification of that name, and, for translations, the classifications of all
translations are in the index or none is found. -/
theorem onlyAdds_iff_widens (sort : DartSort) (lower : LowerCase) {tagmap : TagMap}
    (hnodup : tagmap.keys.Nodup) {file : LocaleFile} {t : TagTranslate}
    (hinit : init file.entries = some t) (text : Units) (useTranslated : Bool) :
    OnlyAdds sort lower tagmap t text useTranslated ↔
      Widens lower tagmap t file text useTranslated := by
  simp only [OnlyAdds, Widens, queryAutoComplete, queryAutoCompleteFuzzy]
  by_cases hcolon : 58 ∈ normalizeText lower text
  · simp only [hcolon, true_and, if_true]
    by_cases hpre : ((normalizeText lower text).splitOn 58).headD [] = units "random"
    · simp only [hpre, ne_eq, not_true, if_false, forall_const]
      cases useTranslated with
      | false => exact random_named_iff hcolon hpre hnodup
      | true => exact random_translated_iff hpre
    · simp only [hpre, ne_eq, not_false_eq_true, if_true, false_implies, iff_true]
      exact completePrefixed_allIn hinit useTranslated
  · simp only [hcolon, false_and, if_false]
    cases useTranslated with
    | false =>
      refine iff_of_true (fun results hresults e he => ?_) fun h => absurd h Bool.false_ne_true
      obtain rfl := Option.some.inj hresults
      exact ⟨_, rfl, (namedAnywhere_includes _).suggestions he⟩
    | true =>
      rw [completeAnywhere_allIn_iff hinit]
      exact ⟨fun h _ => h, fun h => h rfl⟩

/-- An artist with the prefix `random` in the name. -/
def randomArtist : TagMap := [(units "artist", [(units "random:a", 1)])]

/-- The text `art`. -/
theorem onlyAdds_iff_widens_art :
    OnlyAdds mergeSort.toDartSort asciiLowerCase randomArtist
        ⟨[(units "tag:a", units "가")], [(units "rk", units "tag:a")]⟩ (units "art") false ↔
      Widens asciiLowerCase randomArtist
        ⟨[(units "tag:a", units "가")], [(units "rk", units "tag:a")]⟩ oneTag (units "art")
        false :=
  onlyAdds_iff_widens mergeSort.toDartSort asciiLowerCase (by decide) init_oneTag (units "art")
    false

/-- The artist is suggested for `random:` by the exact completion only. -/
theorem not_onlyAdds_random :
    ¬ ∀ (sort : DartSort) (lower : LowerCase) (tagmap : TagMap) (t : TagTranslate)
      (file : LocaleFile), tagmap.keys.Nodup → init file.entries = some t →
        ∀ text useTranslated, OnlyAdds sort lower tagmap t text useTranslated := by
  intro h
  obtain ⟨results', hresults', e', he', -⟩ := h insertionSort asciiLowerCase randomArtist _ oneTag
    (by decide) init_oneTag (units "random:") false
    [(.ofGroup (units "artist") (units "random:a"), 1)] (by decide) _ List.mem_cons_self
  have hnil : queryAutoCompleteFuzzy insertionSort asciiLowerCase randomArtist
      ⟨[(units "tag:a", units "가")], [(units "rk", units "tag:a")]⟩ (units "random:") false =
        some [] := by
    decide
  obtain rfl := Option.some.inj (hresults'.symm.trans hnil)
  cases he'

end Violet
