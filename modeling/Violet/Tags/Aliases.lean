import Mathlib.Data.List.Sort
import Violet.Tags.AutoComplete

/-!
# Plural prefixes

Most prefixes of a tag have a plural, which the code maps to the classification of the index. What
is suggested for a plural is compared with what is suggested for its singular.
-/

open Dart HitomiManager

namespace Violet

/-! ### Prefixes and functions -/

/-- The plurals of the code. -/
inductive Alias
  | tags
  | artists
  | groups
  | uploaders
  | types
  | characters
  | classes
  | languages
deriving DecidableEq

namespace Alias

def plural : Alias → Units
  | tags => units "tags"
  | artists => units "artists"
  | groups => units "groups"
  | uploaders => units "uploaders"
  | types => units "types"
  | characters => units "characters"
  | classes => units "classes"
  | languages => units "languages"

def singular : Alias → Units
  | tags => units "tag"
  | artists => units "artist"
  | groups => units "group"
  | uploaders => units "uploader"
  | types => units "type"
  | characters => units "character"
  | classes => units "class"
  | languages => units "language"

end Alias

/-- The exact and the fuzzy completion. -/
inductive Search
  | exact
  | fuzzy

namespace Search

def complete (sort : DartSort) (lower : LowerCase) (tagmap : TagMap) (t : TagTranslate) :
    Search → Units → Bool → Option (List (DisplayedTag × ℤ))
  | exact => queryAutoComplete sort lower tagmap t
  | fuzzy => queryAutoCompleteFuzzy sort lower tagmap t

def completion (sort : DartSort) (t : TagTranslate) : Search → Completion
  | exact => exactly t
  | fuzzy => fuzzily sort t

end Search

/-! ### When they agree -/

/-- The tags of a classification, of which there are none when it is not in the index. -/
def indexed (tagmap : TagMap) (classification : Units) : Map Units ℤ :=
  (tagmap.get? classification).getD []

section

variable (lower : LowerCase) (tagmap : TagMap) (c : Completion)

/-- Only `tags` and `artists` may differ: the plural of `tag` has the tags of the sexes too, and the
plural of `artist` is another classification. -/
def NamesAgree (po : Units) : Alias → Prop
  | .tags => ∀ e ∈ indexed tagmap (units "tag"),
      c.finds po (lower.toLowerCase e.1) = true → isSexed lower e.1 = false
  | .artists => ∀ e ∈ indexed tagmap (units "artist") ++ indexed tagmap (units "aritst"),
      c.finds po (lower.toLowerCase e.1) = false
  | _ => True

/-- The tag of a translation belongs to the singular and is in the index. -/
def IsIndexed (a : Alias) (e : DisplayedTag) : Prop :=
  e.group = some a.singular ∧ ∃ name, e.name = some name ∧
    (indexed tagmap (classification a.singular)).containsKey name = true ∧
      (a = .tags → Units.startsWith name (units "female:") = false ∧
        Units.startsWith name (units "male:") = false)

/-- No translation is found whose tag belongs to the singular. When looking for translations throws,
both classifications are looked up or none of them. -/
def TranslationsAgree (po : Units) (a : Alias) : Prop :=
  (∀ total, c.total po = some total → ∀ e ∈ total, ¬ IsIndexed tagmap a e.1) ∧
    (c.total po = none → (tagmap.containsKey (classification a.plural) =
      tagmap.containsKey (classification a.singular)))

/-- The condition on the text behind the prefix. -/
def Agrees (sort : DartSort) (t : TagTranslate) (search : Search) (a : Alias) (rest : Units)
    (useTranslated : Bool) : Prop :=
  let parts := (normalizeText lower rest).splitOn 58
  if useTranslated then
    TranslationsAgree tagmap (search.completion sort t) (parts.getLastD []) a
  else NamesAgree lower tagmap (search.completion sort t) (parts.headD []) a

end

/-! ### Texts with a prefix -/

variable {sort : DartSort} {lower : LowerCase} {tagmap : TagMap} {t : TagTranslate}
  {c : Completion} {search : Search} {a : Alias} {opp rest po : Units}

/-- Lower-case letters. -/
def IsWord (s : Units) : Prop := ∀ u ∈ s, 97 ≤ u.toNat ∧ u.toNat ≤ 122

instance (s : Units) : Decidable (IsWord s) :=
  List.decidableBAll (fun u : UInt16 => 97 ≤ u.toNat ∧ u.toNat ≤ 122) s

lemma isWord_plural (a : Alias) : IsWord a.plural := by
  cases a <;> decide

lemma isWord_singular (a : Alias) : IsWord a.singular := by
  cases a <;> decide

lemma IsWord.notMem {s : Units} (h : IsWord s) {u : UInt16} (hu : u.toNat < 97) : u ∉ s :=
  fun hmem => absurd (h u hmem).1 (by omega)

/-- A prefix is kept. -/
lemma normalizeText_prefixed (lower : LowerCase) (h : IsWord opp) (rest : Units) :
    normalizeText lower (opp ++ units ":" ++ rest) = opp ++ 58 :: normalizeText lower rest := by
  have hlower : ∀ u ∈ opp ++ units ":", 97 ≤ u.toNat ∧ u.toNat ≤ 122 ∨ u = 58 := by
    intro u hu
    rcases List.mem_append.mp hu with hu | hu
    · exact .inl (h u hu)
    · exact .inr (List.mem_singleton.mp hu)
  have hkeep : ∀ s : Units, 95 ∉ s →
      (s.flatMap fun u => if u = 95 then units " " else [u]) = s := by
    intro s hs
    induction s with
    | nil => rfl
    | cons u s ih =>
      obtain ⟨hne, hmem⟩ := not_or.mp (fun h => hs (List.mem_cons.mpr h))
      rw [List.flatMap_cons, if_neg (Ne.symm hne), ih hmem]
      rfl
  have hnone : (95 : UInt16) ∉ opp ++ units ":" := by
    rw [List.mem_append, not_or]
    exact ⟨h.notMem (by decide), by decide⟩
  have hunder : units "_" = [95] := rfl
  rw [normalizeText, lower.toLowerCase_append _ _ hlower, hunder, Units.replaceAll_singleton,
    List.flatMap_append, hkeep _ hnone, ← Units.replaceAll_singleton, List.append_assoc]
  rfl

lemma splitOn_prefixed (h : IsWord opp) (rest : Units) :
    (opp ++ 58 :: rest).splitOn 58 = opp :: rest.splitOn 58 :=
  List.splitOn_append_cons_self_of_not_mem (h.notMem (by decide)) rest

lemma headD_splitOn_prefixed (h : IsWord opp) (rest : Units) :
    ((opp ++ 58 :: rest).splitOn 58).headD [] = opp := by
  rw [splitOn_prefixed h]
  rfl

lemma getD_splitOn_prefixed (h : IsWord opp) (rest : Units) :
    ((opp ++ 58 :: rest).splitOn 58).getD 1 [] = (rest.splitOn 58).headD [] := by
  rw [splitOn_prefixed h, List.getD_cons_succ]
  cases rest.splitOn 58 <;> rfl

lemma getLastD_splitOn_prefixed (h : IsWord opp) (rest : Units) :
    ((opp ++ 58 :: rest).splitOn 58).getLastD [] = (rest.splitOn 58).getLastD [] := by
  obtain ⟨part, parts, hparts⟩ := List.exists_cons_of_ne_nil (List.splitOn_ne_nil 58 rest)
  rw [splitOn_prefixed h, hparts]
  rfl

/-- A text with a prefix is completed among the tags of a classification. -/
lemma complete_prefixed (sort : DartSort) (lower : LowerCase) (tagmap : TagMap) (t : TagTranslate)
    (search : Search) (h : IsWord opp) (hrandom : opp ≠ units "random") (rest : Units)
    (useTranslated : Bool) :
    search.complete sort lower tagmap t (opp ++ units ":" ++ rest) useTranslated =
      completePrefixed sort lower tagmap (search.completion sort t)
        (opp ++ 58 :: normalizeText lower rest) useTranslated := by
  have hmem : 58 ∈ opp ++ 58 :: normalizeText lower rest :=
    List.mem_append_right opp List.mem_cons_self
  cases search with
  | exact =>
    rw [Search.complete, queryAutoComplete, normalizeText_prefixed lower h, splitOn_prefixed h]
    exact if_pos ⟨hmem, hrandom⟩
  | fuzzy =>
    rw [Search.complete, queryAutoCompleteFuzzy, normalizeText_prefixed lower h]
    exact if_pos hmem

/-! ### Suggestions -/

lemma length_suggestions (results : List (DisplayedTag × c.Weight × ℤ)) :
    (suggestions sort c results).length = results.length := by
  rw [suggestions, List.length_map]
  exact (sort.perm c.order results).length_eq

@[simp] lemma suggestions_nil : suggestions sort c [] = [] :=
  List.eq_nil_of_length_eq_zero (length_suggestions [])

lemma suggestions_eq_nil_iff {results : List (DisplayedTag × c.Weight × ℤ)} :
    suggestions sort c results = [] ↔ results = [] := by
  rw [← List.length_eq_zero_iff, length_suggestions, List.length_eq_zero_iff]

/-! ### Names -/

/-- The names of an index that are found, as tags of a group. -/
def plain (lower : LowerCase) (c : Completion) (group po : Units) (ch : Map Units ℤ) :
    List (DisplayedTag × c.Weight × ℤ) :=
  (ch.filter fun e => c.finds po (lower.toLowerCase e.1)).map fun e =>
    (.ofGroup group e.1, c.weigh po e.1, e.2)

lemma named_prefixed (h : IsWord opp) (hfemale : opp ≠ units "female") (hmale : opp ≠ units "male")
    (htag : opp ≠ units "tag") (rest : Units) (ch : Map Units ℤ) :
    named lower c opp (opp ++ 58 :: rest) ch =
      plain lower c (classification opp) ((rest.splitOn 58).headD []) ch := by
  rw [named, getD_splitOn_prefixed h, if_neg (not_or.mpr ⟨hfemale, hmale⟩), if_neg htag]
  rfl

lemma named_tag (rest : Units) (ch : Map Units ℤ) :
    named lower c (units "tag") (units "tag" ++ 58 :: rest) ch =
      plain lower c (units "tag") ((rest.splitOn 58).headD [])
        (ch.filter fun e => !isSexed lower e.1) := by
  rw [named, getD_splitOn_prefixed (by decide), if_neg (by decide), if_pos rfl, plain,
    List.filter_filter]
  simp only [Bool.and_comm]

lemma length_plain (lower : LowerCase) (c : Completion) (group po : Units) (ch : Map Units ℤ) :
    (plain lower c group po ch).length =
      (ch.filter fun e => c.finds po (lower.toLowerCase e.1)).length :=
  List.length_map _

lemma plain_eq_nil_iff {group : Units} {ch : Map Units ℤ} :
    plain lower c group po ch = [] ↔
      ∀ e ∈ ch, c.finds po (lower.toLowerCase e.1) = false := by
  rw [plain, List.map_eq_nil_iff, List.filter_eq_nil_iff]
  simp only [Bool.not_eq_true]

/-- The names of a prefix that is in the index or not. -/
lemma completePrefixed_names (h : IsWord opp) (rest : Units) :
    completePrefixed sort lower tagmap c (opp ++ 58 :: rest) false =
      some (suggestions sort c
        (named lower c opp (opp ++ 58 :: rest) (indexed tagmap (classification opp)))) := by
  have hnil : named lower c opp (opp ++ 58 :: rest) [] = [] := by
    rw [named]
    split_ifs <;> rfl
  rw [completePrefixed, headD_splitOn_prefixed h, indexed]
  cases tagmap.get? (classification opp) with
  | none => rw [Option.getD_none, hnil, suggestions_nil]
  | some ch => rfl

/-- Without the tags of the sexes there are fewer suggestions, unless none of these is found. -/
lemma suggestions_unsexed_iff {group : Units} {ch : Map Units ℤ} :
    suggestions sort c (plain lower c group po ch) =
        suggestions sort c (plain lower c group po (ch.filter fun e => !isSexed lower e.1)) ↔
      ∀ e ∈ ch, c.finds po (lower.toLowerCase e.1) = true → isSexed lower e.1 = false := by
  have hcomm : (ch.filter fun e => !isSexed lower e.1).filter
      (fun e => c.finds po (lower.toLowerCase e.1)) =
      (ch.filter fun e => c.finds po (lower.toLowerCase e.1)).filter
        fun e => !isSexed lower e.1 := by
    rw [List.filter_filter, List.filter_filter]
    simp only [Bool.and_comm]
  constructor
  · intro h e he hfinds
    have hlength := congrArg List.length h
    rw [length_suggestions, length_suggestions, length_plain, length_plain, hcomm] at hlength
    have hall := List.length_filter_eq_length_iff.mp hlength.symm
    simpa using hall e (List.mem_filter.mpr ⟨he, hfinds⟩)
  · intro h
    have hall : (ch.filter fun e => c.finds po (lower.toLowerCase e.1)).filter
        (fun e => !isSexed lower e.1) =
        ch.filter fun e => c.finds po (lower.toLowerCase e.1) := by
      apply List.filter_eq_self.mpr
      intro e he
      obtain ⟨hmem, hfinds⟩ := List.mem_filter.mp he
      rw [h e hmem hfinds]
      rfl
    rw [plain, plain, hcomm, hall]

/-- Tags of different groups are different. -/
lemma suggestions_group_iff {group group' : Units} (hne : group ≠ group')
    (hgroup : ∀ name, (DisplayedTag.ofGroup group name).group = some group)
    (hgroup' : ∀ name, (DisplayedTag.ofGroup group' name).group = some group')
    (ch ch' : Map Units ℤ) :
    suggestions sort c (plain lower c group po ch) =
        suggestions sort c (plain lower c group' po ch') ↔
      plain lower c group po ch = [] ∧ plain lower c group' po ch' = [] := by
  constructor
  · intro h
    have hnil : suggestions sort c (plain lower c group po ch) = [] := by
      apply List.eq_nil_iff_forall_not_mem.mpr
      intro e he
      obtain ⟨r, hr, hre⟩ := mem_of_mem_suggestions he
      obtain ⟨r', hr', hre'⟩ := mem_of_mem_suggestions (h ▸ he)
      obtain ⟨x, -, rfl⟩ := List.mem_map.mp hr
      obtain ⟨x', -, rfl⟩ := List.mem_map.mp hr'
      have hsame := congrArg DisplayedTag.group (hre.trans hre'.symm)
      exact hne (Option.some.inj ((hgroup x.1).symm.trans (hsame.trans (hgroup' x'.1))))
    exact ⟨suggestions_eq_nil_iff.mp hnil, suggestions_eq_nil_iff.mp (h ▸ hnil)⟩
  · rintro ⟨hnil, hnil'⟩
    rw [hnil, hnil']

lemma completePrefixed_names_iff (a : Alias) (rest : Units) :
    completePrefixed sort lower tagmap c (a.plural ++ 58 :: rest) false =
        completePrefixed sort lower tagmap c (a.singular ++ 58 :: rest) false ↔
      NamesAgree lower tagmap c ((rest.splitOn 58).headD []) a := by
  rw [completePrefixed_names (isWord_plural a), completePrefixed_names (isWord_singular a),
    Option.some_inj, named_prefixed (isWord_plural a) (by cases a <;> decide)
      (by cases a <;> decide) (by cases a <;> decide)]
  cases a with
  | tags =>
    rw [Alias.singular, named_tag]
    exact suggestions_unsexed_iff
  | artists =>
    rw [named_prefixed (isWord_singular .artists) (by decide) (by decide) (by decide)]
    have hne : units "aritst" ≠ units "artist" := by decide
    refine (suggestions_group_iff hne (fun _ => rfl) (fun _ => rfl) (indexed tagmap _)
      (indexed tagmap _)).trans ?_
    rw [plain_eq_nil_iff, plain_eq_nil_iff, NamesAgree, List.forall_mem_append, and_comm]
    exact Iff.rfl
  | _ =>
    rw [named_prefixed (isWord_singular _) (by decide) (by decide) (by decide)]
    exact iff_of_true rfl trivial

/-! ### Translations -/

/-- Only groups of the code are found. -/
def IsKnown (e : DisplayedTag) : Prop :=
  ∀ group, e.group = some group → group ∈ DisplayedTag.groups

lemma isKnown_ofTag (tag : Units) (translated : Option Units) :
    IsKnown (.ofTag tag translated) := by
  intro group h
  rw [DisplayedTag.ofTag] at h
  by_cases hknown : tag.takeWhile (· != 58) ∈ DisplayedTag.groups
  · rw [if_pos hknown] at h
    exact Option.some.inj h ▸ hknown
  · rw [if_neg hknown] at h
    split_ifs at h
    obtain rfl := Option.some.inj h
    decide

lemma isKnown_of_containsTotal {total : List DisplayedTag} (h : t.containsTotal po = some total)
    {e : DisplayedTag} (he : e ∈ total) : IsKnown e := by
  obtain ⟨andro, handro, htotal⟩ := Option.bind_eq_some_iff.mp h
  obtain rfl := Option.some.inj htotal
  obtain ⟨part, -, hpart⟩ := Option.bind_eq_some_iff.mp handro
  obtain rfl := Option.some.inj hpart
  rw [TagTranslate.withoutOverlap_eq] at he
  have hmem := (firsts_sublist _ _ _).subset he
  rcases List.mem_append.mp hmem with hmem | hmem <;>
  · obtain ⟨x, -, rfl⟩ := List.mem_map.mp hmem
    exact isKnown_ofTag _ _

lemma isKnown_of_containsFuzzingTotal {total : List (DisplayedTag × ℕ)}
    (h : t.containsFuzzingTotal sort po = some total) {e : DisplayedTag × ℕ} (he : e ∈ total) :
    IsKnown e.1 := by
  obtain ⟨andro, handro, htotal⟩ := Option.bind_eq_some_iff.mp h
  obtain rfl := Option.some.inj htotal
  obtain ⟨part, -, hpart⟩ := Option.bind_eq_some_iff.mp handro
  obtain ⟨result, hresult, hsort⟩ := Option.bind_eq_some_iff.mp hpart
  obtain rfl := Option.some.inj hsort
  rw [TagTranslate.firstOfEach_eq] at he
  have hmem := (firsts_sublist _ _ _).subset he
  rw [(sort.perm _ _).mem_iff] at hmem
  rcases List.mem_append.mp hmem with hmem | hmem
  · rw [TagTranslate.containsFuzzing, (sort.perm _ _).mem_iff] at hmem
    obtain ⟨x, -, rfl⟩ := List.mem_map.mp hmem
    exact isKnown_ofTag _ _
  · rw [(sort.perm _ _).mem_iff] at hmem
    obtain ⟨x, -, hx⟩ := exists_of_mem_mapM hresult hmem
    obtain ⟨translated, -, rfl⟩ := Option.map_eq_some_iff.mp hx
    exact isKnown_ofTag _ _

lemma isKnown_of_total (sort : DartSort) (t : TagTranslate) (search : Search) {po : Units}
    {total : List (DisplayedTag × (search.completion sort t).Weight)}
    (h : (search.completion sort t).total po = some total) : ∀ e ∈ total, IsKnown e.1 := by
  intro e he
  cases search with
  | exact =>
    obtain ⟨tags, htags, rfl⟩ := Option.map_eq_some_iff.mp h
    obtain ⟨x, hx, rfl⟩ := List.mem_map.mp he
    exact isKnown_of_containsTotal htags hx
  | fuzzy => exact isKnown_of_containsFuzzingTotal h he

/-- The translations of a prefix that is in the index. -/
lemma completePrefixed_translations (h : IsWord opp) (rest : Units) :
    completePrefixed sort lower tagmap c (opp ++ 58 :: rest) true =
      if tagmap.containsKey (classification opp) then
        (c.total ((rest.splitOn 58).getLastD [])).map fun total =>
          suggestions sort c (translated c opp (indexed tagmap (classification opp)) total)
      else some [] := by
  rw [completePrefixed, headD_splitOn_prefixed h, getLastD_splitOn_prefixed h, indexed,
    Map.containsKey]
  cases tagmap.get? (classification opp) <;> rfl

/-- No tag has a plural for its group. -/
lemma translated_plural (a : Alias) (ch : Map Units ℤ) {total : List (DisplayedTag × c.Weight)}
    (hknown : ∀ e ∈ total, IsKnown e.1) : translated c a.plural ch total = [] := by
  have hgroups : a.plural ∉ DisplayedTag.groups := by
    cases a <;> decide
  have hsex : a.plural ≠ units "female" ∧ a.plural ≠ units "male" := by
    cases a <;> decide
  have hnone : (total.filter fun e => isOf a.plural ch e.1) = [] := by
    apply List.filter_eq_nil_iff.mpr
    intro e he hof
    rw [isOf, if_pos hsex, Bool.and_eq_true, decide_eq_true_eq] at hof
    exact hgroups (hknown e he _ hof.1)
  rw [translated, hnone]
  rfl

/-- The tags of the sexes are left out for `tag` only. -/
lemma isIndexed_iff (a : Alias) (e : DisplayedTag) :
    (isOf a.singular (indexed tagmap (classification a.singular)) e = true ∧
      (if a.singular = units "tag" then
        !(e.name.any fun name => Units.startsWith name (units "female:") ||
          Units.startsWith name (units "male:"))
      else true) = true) ↔ IsIndexed tagmap a e := by
  have hsex : a.singular ≠ units "female" ∧ a.singular ≠ units "male" := by
    cases a <;> decide
  have htag : a.singular = units "tag" ↔ a = .tags := by
    cases a <;> decide
  rw [isOf, if_pos hsex, IsIndexed, Bool.and_eq_true, decide_eq_true_eq, and_assoc]
  refine and_congr_right fun _ => ?_
  cases e.name with
  | none => simp
  | some name =>
    by_cases h : a = .tags
    · rw [if_pos (htag.mpr h)]
      simp [h]
    · rw [if_neg (mt htag.mp h)]
      simp [h]

lemma translated_singular_eq_nil_iff (a : Alias) {total : List (DisplayedTag × c.Weight)} :
    translated c a.singular (indexed tagmap (classification a.singular)) total = [] ↔
      ∀ e ∈ total, ¬ IsIndexed tagmap a e.1 := by
  rw [translated, List.filter_eq_nil_iff, List.forall_mem_map]
  constructor
  · intro h e he hindexed
    obtain ⟨hof, hsex⟩ := (isIndexed_iff a e.1).mpr hindexed
    exact h e (List.mem_filter.mpr ⟨he, hof⟩) hsex
  · intro h e he hsex
    obtain ⟨hmem, hof⟩ := List.mem_filter.mp he
    exact h e hmem ((isIndexed_iff a e.1).mp ⟨hof, hsex⟩)

/-- With a prefix that is in the index. -/
lemma completePrefixed_translations_iff (a : Alias) (rest : Units)
    (hknown : ∀ total, c.total ((rest.splitOn 58).getLastD []) = some total →
      ∀ e ∈ total, IsKnown e.1) :
    completePrefixed sort lower tagmap c (a.plural ++ 58 :: rest) true =
        completePrefixed sort lower tagmap c (a.singular ++ 58 :: rest) true ↔
      TranslationsAgree tagmap c ((rest.splitOn 58).getLastD []) a := by
  rw [completePrefixed_translations (isWord_plural a),
    completePrefixed_translations (isWord_singular a), TranslationsAgree]
  cases htotal : c.total ((rest.splitOn 58).getLastD []) with
  | none =>
    cases tagmap.containsKey (classification a.plural) <;>
      cases tagmap.containsKey (classification a.singular) <;> simp
  | some total =>
    rw [Option.map_some, Option.map_some, translated_plural a _ (hknown total htotal),
      suggestions_nil, ite_self]
    have hlisted : (∀ total', some total = some total' → ∀ e ∈ total', ¬ IsIndexed tagmap a e.1) ↔
        ∀ e ∈ total, ¬ IsIndexed tagmap a e.1 :=
      ⟨fun h => h total rfl, fun h total' heq => Option.some.inj heq ▸ h⟩
    rw [hlisted, ← translated_singular_eq_nil_iff, and_iff_left (fun h => nomatch h)]
    cases hkey : tagmap.containsKey (classification a.singular) with
    | false =>
      have hempty : indexed tagmap (classification a.singular) = [] := by
        rw [indexed, Option.isNone_iff_eq_none.mp (Option.isSome_eq_false_iff.mp hkey)]
        rfl
      refine iff_of_true rfl ?_
      rw [translated_singular_eq_nil_iff]
      rintro e - ⟨-, name, -, hname, -⟩
      rw [hempty] at hname
      cases hname
    | true => rw [if_pos rfl, Option.some_inj, eq_comm, suggestions_eq_nil_iff]

/-- The suggestions for a plural and for its singular are the same exactly when no name or
translation makes a difference. -/
theorem complete_plural_eq_iff_agrees (sort : DartSort) (lower : LowerCase) (tagmap : TagMap)
    (t : TagTranslate) (search : Search) (a : Alias) (rest : Units) (useTranslated : Bool) :
    search.complete sort lower tagmap t (a.plural ++ units ":" ++ rest) useTranslated =
        search.complete sort lower tagmap t (a.singular ++ units ":" ++ rest) useTranslated ↔
      Agrees lower tagmap sort t search a rest useTranslated := by
  have hplural : a.plural ≠ units "random" := by
    cases a <;> decide
  have hsingular : a.singular ≠ units "random" := by
    cases a <;> decide
  rw [complete_prefixed _ _ _ _ _ (isWord_plural a) hplural,
    complete_prefixed _ _ _ _ _ (isWord_singular a) hsingular]
  cases useTranslated with
  | false => exact completePrefixed_names_iff a (normalizeText lower rest)
  | true =>
    apply completePrefixed_translations_iff a (normalizeText lower rest)
    intro total htotal
    exact isKnown_of_total sort t search htotal

/-! ### A classification of its own -/

/-- Sorting by insertion. -/
def insertionSort : DartSort where
  sort compare l := l.insertionSort fun a b => compare a b ≤ 0
  perm compare l := List.perm_insertionSort (fun a b => compare a b ≤ 0) l

/-- Lower case for ASCII text. -/
def asciiLowerCase : LowerCase where
  toLowerCase := Units.toLowerCase
  toLowerCase_append s r h := by
    have hkeep : Units.toLowerCase s = s := by
      refine (List.map_congr_left fun u hu => ?_).trans (List.map_id s)
      rcases h u hu with hlower | rfl
      · have hne : u ≠ 0x130 ∧ u ≠ 0x212A := by
          constructor <;> rintro rfl <;> simp at hlower
        rw [if_neg (by omega), if_neg hne.1, if_neg hne.2, id]
      · rfl
    rw [Units.toLowerCase, List.map_append]
    exact congrArg (· ++ Units.toLowerCase r) hkeep

/-- The artist that is suggested for `artist:x` is not suggested for `artists:x`. -/
theorem not_complete_plural_eq_artists :
    ¬ ∀ (sort : DartSort) (lower : LowerCase) (tagmap : TagMap) (t : TagTranslate)
      (search : Search) (a : Alias) (rest : Units) (useTranslated : Bool),
      search.complete sort lower tagmap t (a.plural ++ units ":" ++ rest) useTranslated =
        search.complete sort lower tagmap t (a.singular ++ units ":" ++ rest) useTranslated := by
  intro h
  have heq := h insertionSort asciiLowerCase [(units "artist", [(units "xyz", 1)])] {} .exact
    .artists (units "x") false
  exact absurd heq (by decide)

end Violet
