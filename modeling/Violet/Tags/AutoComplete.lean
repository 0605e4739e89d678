import Mathlib.Data.List.ReduceOption
import Violet.Algorithm.Distance
import Violet.Tags.TagTranslate
import Violet.Dart.Text

/-!
# Suggestions for a tag

What is typed in a search field is completed to tags of an index, by their names or by their
translations. One function takes the names that contain what is typed, the other one takes all names
and puts the similar ones first.
-/

open Dart

/-! ### What the suggestions rest on -/

/-- `List.sort`, which need not be stable. -/
structure DartSort where
  sort : {α : Type} → (α → α → ℤ) → List α → List α
  perm : ∀ {α : Type} (compare : α → α → ℤ) (l : List α), (sort compare l).Perm l

/-- `String.toLowerCase`: lower-case ASCII text in front is kept, and the rest does not mind it. -/
structure LowerCase where
  toLowerCase : Units → Units
  toLowerCase_append : ∀ s r : Units, (∀ u ∈ s, 97 ≤ u.toNat ∧ u.toNat ≤ 122 ∨ u = 58) →
    toLowerCase (s ++ r) = s ++ toLowerCase r

/-- `compareTo` of numbers. -/
def compareTo (a b : ℤ) : ℤ := if a < b then -1 else if a = b then 0 else 1

/-- The index: for each classification the tags with the numbers of their articles. -/
abbrev TagMap := Map Units (Map Units ℤ)

namespace TagTranslate

variable (t : TagTranslate)

/-! ### Similar translations -/

/-- `split('|')[0]`. -/
def firstForm (value : Units) : Units := (value.splitOn 124).headD []

def byDistance {α : Type} (x y : α × ℕ) : ℤ := compareTo x.2 y.2

def containsFuzzing (sort : DartSort) (part : Units) : List (DisplayedTag × ℕ) :=
  let part := removeBlanks part
  sort.sort byDistance (t.translateMap.map fun e =>
    (.ofTag e.1 (some (firstForm e.2)),
      Violet.Distance.levenshteinDistance (runes (firstForm (removeBlanks e.2))) (runes part)))

/-- It throws when there are no keys for the text or no translation for a tag. -/
def containsFuzzingAndro (sort : DartSort) (part : Units) : Option (List (DisplayedTag × ℕ)) := do
  let part ← disassembly (removeBlanks part)
  let result ← t.reverseAndroMap.mapM fun e => (t.translateMap.get? e.2).map fun translated =>
    (DisplayedTag.ofTag e.2 (some (firstForm translated)),
      Violet.Distance.levenshteinDistance (runes (firstForm (removeBlanks e.1))) (runes part))
  return sort.sort byDistance result

def containsFuzzingTotal (sort : DartSort) (part : Units) : Option (List (DisplayedTag × ℕ)) := do
  let andro ← t.containsFuzzingAndro sort part
  return firstOfEach (sort.sort byDistance (t.containsFuzzing sort part ++ andro))

end TagTranslate

namespace HitomiManager

/-! ### Queries -/

/-- The text in lower case and with blanks for underscores. -/
def normalizeText (lower : LowerCase) (text : Units) : Units :=
  Units.replaceAll (lower.toLowerCase text) (units "_") (units " ")

/-- The classification of a prefix. -/
def classification (opp : Units) : Units :=
  if opp = units "female" ∨ opp = units "male" ∨ opp = units "tags" then units "tag"
  else if opp = units "language" ∨ opp = units "languages" then units "lang"
  else if opp = units "artists" then units "aritst"
  else if opp = units "groups" then units "group"
  else if opp = units "uploaders" then units "uploader"
  else if opp = units "types" then units "type"
  else if opp = units "characters" then units "character"
  else if opp = units "classes" then units "class"
  else opp

/-- How the tags are found that a text is completed to: whether a name is found by a text, what is
known of the two, which translations are found, and how the suggestions are sorted. -/
structure Completion where
  Weight : Type
  finds : Units → Units → Bool
  weigh : Units → Units → Weight
  total : Units → Option (List (DisplayedTag × Weight))
  order : DisplayedTag × Weight × ℤ → DisplayedTag × Weight × ℤ → ℤ

section

variable (sort : DartSort) (lower : LowerCase) (tagmap : TagMap) (c : Completion)

/-- Tags of the sexes. -/
def isSexed (key : Units) : Bool :=
  Units.startsWith (lower.toLowerCase key) (units "female:") ||
    Units.startsWith (lower.toLowerCase key) (units "male:")

/-- The tags of a classification that are found by their names. -/
def named (opp pre : Units) (ch : Map Units ℤ) : List (DisplayedTag × c.Weight × ℤ) :=
  let po := (pre.splitOn 58).getD 1 []
  if opp = units "female" ∨ opp = units "male" then
    (ch.filter fun e => Units.startsWith (lower.toLowerCase e.1) (opp ++ units ":") &&
      c.finds pre (lower.toLowerCase e.1)).map
        fun e => (.ofGroup opp e.1, c.weigh pre e.1, e.2)
  else if opp = units "tag" then
    (ch.filter fun e => !isSexed lower e.1 && c.finds po (lower.toLowerCase e.1)).map
      fun e => (.ofGroup opp e.1, c.weigh po e.1, e.2)
  else
    (ch.filter fun e => c.finds po (lower.toLowerCase e.1)).map
      fun e => (.ofGroup (classification opp) e.1, c.weigh po e.1, e.2)

/-- Is the translated tag one of the prefix, and in the classification? -/
def isOf (opp : Units) (ch : Map Units ℤ) (e : DisplayedTag) : Bool :=
  (if opp ≠ units "female" ∧ opp ≠ units "male" then e.group = some opp
    else e.group = some (units "tag") ∧ e.name.any fun name => Units.startsWith name opp) &&
    e.name.any ch.containsKey

/-- Translated tags with their numbers, without those of the sexes for `tag`. -/
def translated (opp : Units) (ch : Map Units ℤ) (total : List (DisplayedTag × c.Weight)) :
    List (DisplayedTag × c.Weight × ℤ) :=
  ((total.filter fun e => isOf opp ch e.1).map fun e =>
    (e.1, e.2, (e.1.name.bind ch.get?).getD 0)).filter fun e =>
      if opp = units "tag" then
        !(e.1.name.any fun name => Units.startsWith name (units "female:") ||
          Units.startsWith name (units "male:"))
      else true

/-- The suggestions, without their weights. -/
def suggestions (results : List (DisplayedTag × c.Weight × ℤ)) : List (DisplayedTag × ℤ) :=
  (sort.sort c.order results).map fun e => (e.1, e.2.2)

/-- The suggestions for a text with a prefix. -/
def completePrefixed (pre : Units) (useTranslated : Bool) : Option (List (DisplayedTag × ℤ)) :=
  let opp := (pre.splitOn 58).headD []
  match tagmap.get? (classification opp) with
  | none => some []
  | some ch =>
    if !useTranslated then some (suggestions sort c (named lower c opp pre ch))
    else (c.total ((pre.splitOn 58).getLastD [])).map fun total =>
      suggestions sort c (translated c opp ch total)

/-- The tags of all classifications that are found by their names. -/
def namedAnywhere (pre : Units) : List (DisplayedTag × c.Weight × ℤ) :=
  tagmap.flatMap fun classified =>
    if classified.1 = units "tag" then
      (classified.2.filter fun e =>
        c.finds pre (if 58 ∈ e.1 then (e.1.splitOn 58).getD 1 [] else e.1)).map fun e =>
          (.ofGroup (if 58 ∈ e.1 then (e.1.splitOn 58).headD [] else units "tag") e.1,
            c.weigh pre e.1, e.2)
    else
      (classified.2.filter fun e => c.finds pre (lower.toLowerCase e.1)).map fun e =>
        (.ofGroup classified.1 e.1, c.weigh pre e.1, e.2)

/-- Translated tags of all classifications. It throws for one that is not in the index. -/
def translatedAnywhere (total : List (DisplayedTag × c.Weight)) :
    Option (List (DisplayedTag × c.Weight × ℤ)) := do
  let results ← total.mapM fun e => do
    let ch ← e.1.group.bind tagmap.get?
    return (e.1.name.bind ch.get?).map fun count => (e.1, e.2, count)
  return results.reduceOption

/-- The suggestions for a text without a prefix. -/
def completeAnywhere (pre : Units) (useTranslated : Bool) : Option (List (DisplayedTag × ℤ)) :=
  if !useTranslated then some (suggestions sort c (namedAnywhere lower tagmap c pre))
  else do
    let total ← c.total pre
    let results ← translatedAnywhere tagmap c total
    some (suggestions sort c results)

/-! ### The two functions -/

variable (t : TagTranslate)

/-- Names and translations that contain the text, with the most articles first. -/
def exactly : Completion where
  Weight := Unit
  finds po key := Units.contains key po
  weigh _ _ := ()
  total po := (t.containsTotal po).map fun total => total.map fun e => (e, ())
  order a b := compareTo b.2.2 a.2.2

/-- All names and translations, with the most similar ones first. -/
def fuzzily : Completion where
  Weight := ℕ
  finds _ _ := true
  weigh po key := Violet.Distance.levenshteinDistance (runes po) (runes key)
  total po := t.containsFuzzingTotal sort po
  order a b := compareTo a.2.1 b.2.1

def queryAutoComplete (text : Units) (useTranslated : Bool) : Option (List (DisplayedTag × ℤ)) :=
  let pre := normalizeText lower text
  if 58 ∈ pre ∧ (pre.splitOn 58).headD [] ≠ units "random" then
    completePrefixed sort lower tagmap (exactly t) pre useTranslated
  else completeAnywhere sort lower tagmap (exactly t) pre useTranslated

def queryAutoCompleteFuzzy (text : Units) (useTranslated : Bool) :
    Option (List (DisplayedTag × ℤ)) :=
  let pre := normalizeText lower text
  if 58 ∈ pre then completePrefixed sort lower tagmap (fuzzily sort t) pre useTranslated
  else completeAnywhere sort lower tagmap (fuzzily sort t) pre useTranslated

end

/-! ### What is suggested -/

variable {sort : DartSort} {lower : LowerCase} {tagmap : TagMap} {c : Completion}
  {t : TagTranslate}

lemma mem_of_mem_suggestions {results : List (DisplayedTag × c.Weight × ℤ)}
    {e : DisplayedTag × ℤ} (h : e ∈ suggestions sort c results) : ∃ r ∈ results, r.1 = e.1 := by
  obtain ⟨r, hr, rfl⟩ := List.mem_map.mp h
  exact ⟨r, (sort.perm c.order results).mem_iff.mp hr, rfl⟩

/-- The tag has a group and a name. -/
def IsFull (e : DisplayedTag) : Prop := e.group.isSome ∧ e.name.isSome

lemma isFull_ofGroup (group name : Units) : IsFull (.ofGroup group name) := by
  rw [DisplayedTag.ofGroup]
  split_ifs <;> exact ⟨rfl, rfl⟩

lemma isFull_of_mem_named {opp pre : Units} {ch : Map Units ℤ}
    {r : DisplayedTag × c.Weight × ℤ} (h : r ∈ named lower c opp pre ch) : IsFull r.1 := by
  simp only [named] at h
  split_ifs at h <;>
  · obtain ⟨e, -, rfl⟩ := List.mem_map.mp h
    exact isFull_ofGroup _ _

lemma isFull_of_mem_namedAnywhere {pre : Units} {r : DisplayedTag × c.Weight × ℤ}
    (h : r ∈ namedAnywhere lower tagmap c pre) : IsFull r.1 := by
  obtain ⟨classified, -, h⟩ := List.mem_flatMap.mp h
  split_ifs at h <;>
  · obtain ⟨e, -, rfl⟩ := List.mem_map.mp h
    exact isFull_ofGroup _ _

lemma isFull_of_mem_translated {opp : Units} {ch : Map Units ℤ}
    {total : List (DisplayedTag × c.Weight)} {r : DisplayedTag × c.Weight × ℤ}
    (h : r ∈ translated c opp ch total) : IsFull r.1 := by
  obtain ⟨e, he, rfl⟩ := List.mem_map.mp (List.mem_filter.mp h).1
  have hof := (List.mem_filter.mp he).2
  rw [isOf, Bool.and_eq_true] at hof
  refine ⟨?_, ?_⟩
  · have hgroup := hof.1
    split_ifs at hgroup
    · rw [of_decide_eq_true hgroup]
      rfl
    · rw [(of_decide_eq_true hgroup).1]
      rfl
  · exact Option.isSome_of_any hof.2

lemma isFull_of_mem_translatedAnywhere {total : List (DisplayedTag × c.Weight)}
    {results : List (DisplayedTag × c.Weight × ℤ)}
    (h : translatedAnywhere tagmap c total = some results)
    {r : DisplayedTag × c.Weight × ℤ} (hr : r ∈ results) : IsFull r.1 := by
  obtain ⟨found, hfound, hresults⟩ := Option.bind_eq_some_iff.mp h
  obtain rfl := Option.some.inj hresults
  obtain ⟨e, -, he⟩ := exists_of_mem_mapM hfound (List.reduceOption_mem_iff.mp hr)
  obtain ⟨ch, hch, hcount⟩ := Option.bind_eq_some_iff.mp he
  obtain ⟨count, hget, rfl⟩ := Option.map_eq_some_iff.mp (Option.some.inj hcount)
  obtain ⟨group, hgroup, -⟩ := Option.bind_eq_some_iff.mp hch
  obtain ⟨name, hname, -⟩ := Option.bind_eq_some_iff.mp hget
  exact ⟨Option.isSome_iff_exists.mpr ⟨group, hgroup⟩, Option.isSome_iff_exists.mpr ⟨name, hname⟩⟩

lemma isFull_of_mem_completePrefixed {pre : Units} {useTranslated : Bool}
    {results : List (DisplayedTag × ℤ)}
    (h : completePrefixed sort lower tagmap c pre useTranslated = some results)
    {e : DisplayedTag × ℤ} (he : e ∈ results) : IsFull e.1 := by
  rw [completePrefixed] at h
  cases hch : tagmap.get? (classification ((pre.splitOn 58).headD [])) with
  | none =>
    rw [hch] at h
    obtain rfl := Option.some.inj h
    cases he
  | some ch =>
    rw [hch] at h
    cases useTranslated with
    | false =>
      obtain rfl := Option.some.inj h
      obtain ⟨r, hr, heq⟩ := mem_of_mem_suggestions he
      exact heq ▸ isFull_of_mem_named hr
    | true =>
      obtain ⟨total, -, rfl⟩ := Option.map_eq_some_iff.mp h
      obtain ⟨r, hr, heq⟩ := mem_of_mem_suggestions he
      exact heq ▸ isFull_of_mem_translated hr

lemma isFull_of_mem_completeAnywhere {pre : Units} {useTranslated : Bool}
    {results : List (DisplayedTag × ℤ)}
    (h : completeAnywhere sort lower tagmap c pre useTranslated = some results)
    {e : DisplayedTag × ℤ} (he : e ∈ results) : IsFull e.1 := by
  cases useTranslated with
  | false =>
    obtain rfl := Option.some.inj h
    obtain ⟨r, hr, heq⟩ := mem_of_mem_suggestions he
    exact heq ▸ isFull_of_mem_namedAnywhere hr
  | true =>
    obtain ⟨total, -, h⟩ := Option.bind_eq_some_iff.mp h
    obtain ⟨results', hresults, h⟩ := Option.bind_eq_some_iff.mp h
    obtain rfl := Option.some.inj h
    obtain ⟨r, hr, heq⟩ := mem_of_mem_suggestions he
    exact heq ▸ isFull_of_mem_translatedAnywhere hresults hr

/-- Every suggestion has a group and a name. -/
theorem isFull_of_mem_queryAutoComplete {text : Units} {useTranslated : Bool}
    {results : List (DisplayedTag × ℤ)}
    (h : queryAutoComplete sort lower tagmap t text useTranslated = some results)
    {e : DisplayedTag × ℤ} (he : e ∈ results) : IsFull e.1 := by
  simp only [queryAutoComplete] at h
  split_ifs at h
  · exact isFull_of_mem_completePrefixed h he
  · exact isFull_of_mem_completeAnywhere h he

theorem isFull_of_mem_queryAutoCompleteFuzzy {text : Units} {useTranslated : Bool}
    {results : List (DisplayedTag × ℤ)}
    (h : queryAutoCompleteFuzzy sort lower tagmap t text useTranslated = some results)
    {e : DisplayedTag × ℤ} (he : e ∈ results) : IsFull e.1 := by
  simp only [queryAutoCompleteFuzzy] at h
  split_ifs at h
  · exact isFull_of_mem_completePrefixed h he
  · exact isFull_of_mem_completeAnywhere h he

end HitomiManager
