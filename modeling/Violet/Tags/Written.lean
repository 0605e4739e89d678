import Violet.Tags.Aliases
import Violet.Tags.Completeness

/-!
# Written tags

A suggested tag is written as `<group>:<name>` and read again. It is read as it was exactly when its
group is one of those that are known: the classification `lang` of the index is not, and neither is
what stands in front of the colon in most names with a colon.
-/

open Dart

namespace Violet

open HitomiManager TagTranslate

variable {sort : DartSort} {lower : LowerCase} {tagmap : TagMap} {t : TagTranslate}
  {search : Search} {text group name : Units} {useTranslated : Bool} {d : DisplayedTag}

/-- The tag that is read from the text of `d` has the group and the name of `d`. -/
def ReadBack (d : DisplayedTag) : Prop :=
  (DisplayedTag.ofTag d.getTag none).group = d.group ∧
    (DisplayedTag.ofTag d.getTag none).name = d.name

/-- The text of a tag with a group and a name. -/
lemma getTag_full (hgroup : d.group = some group) (hname : d.name = some name) :
    d.getTag = group ++ 58 :: name := by
  rw [DisplayedTag.getTag, hgroup, hname, Option.getD_some, Option.getD_some, List.append_assoc]
  rfl

lemma readBack_of_known (hgroup : group ∈ DisplayedTag.groups) (hd : d.group = some group)
    (hname : d.name = some name) : ReadBack d := by
  rw [ReadBack, getTag_full hd hname, ofTag_known hgroup]
  exact ⟨hd.symm, hname.symm⟩

/-- What is suggested has a group and a name. -/
lemma isFull_of_mem_complete {results : List (DisplayedTag × ℤ)}
    (h : search.complete sort lower tagmap t text useTranslated = some results)
    {e : DisplayedTag × ℤ} (he : e ∈ results) : IsFull e.1 := by
  cases search with
  | exact => exact isFull_of_mem_queryAutoComplete h he
  | fuzzy =>
    rw [Search.complete, queryAutoCompleteFuzzy] at h
    split_ifs at h
    · exact isFull_of_mem_completePrefixed h he
    · exact isFull_of_mem_completeAnywhere h he

/-- A suggested tag is read as it was exactly when its group is known. -/
theorem readBack_iff_known (sort : DartSort) (lower : LowerCase) (tagmap : TagMap)
    (t : TagTranslate) (search : Search) (text : Units) (useTranslated : Bool)
    {results : List (DisplayedTag × ℤ)}
    (h : search.complete sort lower tagmap t text useTranslated = some results)
    {e : DisplayedTag × ℤ} (he : e ∈ results) :
    ReadBack e.1 ↔ ∃ group ∈ DisplayedTag.groups, e.1.group = some group := by
  obtain ⟨hgroup, hname⟩ := isFull_of_mem_complete h he
  obtain ⟨name, hname⟩ := Option.isSome_iff_exists.mp hname
  obtain ⟨group, hgroup⟩ := Option.isSome_iff_exists.mp hgroup
  constructor
  · rintro ⟨hread, -⟩
    exact ⟨group, isKnown_ofTag _ _ group (hread.trans hgroup), hgroup⟩
  · rintro ⟨group', hknown, heq⟩
    exact readBack_of_known hknown heq hname

/-- An index with one language. -/
def oneLanguage : TagMap := [(units "lang", [(units "korean", 1)])]

/-- The suggestion for `kor`, whose group is `lang`. -/
theorem readBack_iff_known_language :
    ReadBack (.ofGroup (units "lang") (units "korean")) ↔
      ∃ group ∈ DisplayedTag.groups,
        (DisplayedTag.ofGroup (units "lang") (units "korean")).group = some group :=
  have h : Search.exact.complete insertionSort asciiLowerCase oneLanguage {} (units "kor") false =
      some [(.ofGroup (units "lang") (units "korean"), 1)] := by decide
  readBack_iff_known insertionSort asciiLowerCase oneLanguage {} .exact (units "kor") false h
    List.mem_cons_self

/-- The tag that is read from `lang:korean` has neither a group nor a name. -/
theorem not_readBack_language :
    ¬ ∀ (sort : DartSort) (lower : LowerCase) (tagmap : TagMap) (t : TagTranslate)
      (search : Search) (text : Units) (useTranslated : Bool) (results : List (DisplayedTag × ℤ)),
      search.complete sort lower tagmap t text useTranslated = some results →
        ∀ e ∈ results, ReadBack e.1 := by
  intro h
  have hread := h insertionSort asciiLowerCase oneLanguage {} .exact (units "kor") false
    [(.ofGroup (units "lang") (units "korean"), 1)] (by decide) _ List.mem_cons_self
  exact absurd hread.1 (by decide)

end Violet
