import Violet.Search.SearchBar
import Violet.Tags.Similar

/-!
# What the suggestions stand for

The suggestions are to stand for the token in front of the cursor, so that pressing a chip replaces
this token and nothing else. They do when the cursor is not at the start of the text and not behind
a blank, and when the token has no other white space at its ends.
-/

open Dart

namespace Violet

namespace SearchBarPage

open HitomiManager TagTranslate

open ScriptBuiltIn (substring_eq)

/-! ### What is suggested -/

section

variable {sort : DartSort} {lower : LowerCase} {tagmap : TagMap} {t : TagTranslate}
  {env : Environment} {s part : Units} {c : Completion}

/-- Every unit of the texts whose translations are searched for has keys. -/
def Keyed (lower : LowerCase) (token : Units) : Prop :=
  ∀ fuzzy, ∀ u ∈ translatedPart lower fuzzy token, ¬ OutsideTables u.toNat

lemma disassembly_eq_none_iff :
    disassembly (removeBlanks part) = none ↔ ¬ ∀ u ∈ part, ¬ OutsideTables u.toNat := by
  rw [← isSome_disassembly_removeBlanks_iff, Bool.not_eq_true, Option.isSome_eq_false_iff,
    Option.isNone_iff_eq_none]

lemma suggest_ne_rangeError (h : Keyed lower s) :
    suggest sort lower env s ≠ .error .rangeError := by
  have hkeys : disassembly (removeBlanks (translatedPart lower env.settings.searchUseFuzzy s)) ≠
      none := mt disassembly_eq_none_iff.mp (not_not.mpr (h _))
  rw [suggest, if_neg hkeys]
  cases query sort lower env s with
  | some results =>
    intro heq
    cases heq
  | none =>
    intro heq
    cases heq

lemma isFull_of_suggest {results : List (DisplayedTag × ℤ)}
    (h : suggest sort lower env s = .ok results) {e : DisplayedTag × ℤ} (he : e ∈ results) :
    IsFull e.1 := by
  rw [suggest] at h
  cases hquery : query sort lower env s with
  | none =>
    rw [hquery] at h
    cases h
  | some found =>
    rw [hquery] at h
    obtain rfl := Except.ok.inj h
    rw [query] at hquery
    split_ifs at hquery
    · exact isFull_of_mem_queryAutoCompleteFuzzy hquery he
    · exact isFull_of_mem_queryAutoComplete hquery he

lemma completePrefixed_eq_none {pre : Units} {ch : Map Units ℤ}
    (hch : tagmap.get? (classification ((pre.splitOn 58).headD [])) = some ch)
    (htotal : c.total ((pre.splitOn 58).getLastD []) = none) :
    completePrefixed sort lower tagmap c pre true = none := by
  rw [completePrefixed, hch, htotal]
  rfl

lemma completeAnywhere_eq_none (htotal : c.total s = none) :
    completeAnywhere sort lower tagmap c s true = none := by
  rw [completeAnywhere, htotal]
  rfl

/-- No translations are found for a text without keys. -/
lemma total_exactly_eq_none (h : disassembly (removeBlanks s) = none) :
    (exactly t).total s = none := by
  change (t.containsTotal s).map _ = none
  rw [containsTotal, containsAndro, h]
  rfl

lemma total_fuzzily_eq_none (h : disassembly (removeBlanks s) = none) :
    (fuzzily sort t).total s = none := by
  change t.containsFuzzingTotal sort s = none
  rw [containsFuzzingTotal, containsFuzzingAndro, h]
  rfl

/-- An index in which the prefix of a text is a classification of no tags. -/
def emptyIndex (pre : Units) : TagMap := [(classification ((pre.splitOn 58).headD []), [])]

lemma get?_emptyIndex (pre : Units) :
    (emptyIndex pre).get? (classification ((pre.splitOn 58).headD [])) = some [] := by
  rw [emptyIndex, Map.get?_cons, if_pos rfl]

/-- The translations of a part without keys are asked for. -/
lemma query_eq_none (htranslated : env.settings.searchUseTranslated = true)
    (htagmap : env.tagmap = emptyIndex (normalizeText lower s))
    (h : disassembly (removeBlanks (translatedPart lower env.settings.searchUseFuzzy s)) = none) :
    query sort lower env s = none := by
  have hget := get?_emptyIndex (normalizeText lower s)
  rw [query, htranslated, htagmap]
  rw [translatedPart] at h
  cases hfuzzy : env.settings.searchUseFuzzy with
  | true =>
    rw [hfuzzy] at h
    rw [if_pos rfl, queryAutoCompleteFuzzy]
    by_cases hcolon : 58 ∈ normalizeText lower s
    · rw [if_pos ⟨hcolon, .inl rfl⟩] at h
      rw [if_pos hcolon]
      exact completePrefixed_eq_none hget (total_fuzzily_eq_none h)
    · rw [if_neg fun hc => hcolon hc.1] at h
      rw [if_neg hcolon]
      exact completeAnywhere_eq_none (total_fuzzily_eq_none h)
  | false =>
    rw [hfuzzy] at h
    rw [if_neg Bool.false_ne_true, queryAutoComplete]
    by_cases hcolon : 58 ∈ normalizeText lower s ∧
        ((normalizeText lower s).splitOn 58).headD [] ≠ units "random"
    · rw [if_pos ⟨hcolon.1, .inr hcolon.2⟩] at h
      rw [if_pos hcolon]
      exact completePrefixed_eq_none hget (total_exactly_eq_none h)
    · rw [if_neg fun hc => hcolon ⟨hc.1, hc.2.resolve_left Bool.false_ne_true⟩] at h
      rw [if_neg hcolon]
      exact completeAnywhere_eq_none (total_exactly_eq_none h)

lemma sort_ne_nil {α : Type} (compare : α → α → ℤ) {l : List α} (h : l ≠ []) :
    sort.sort compare l ≠ [] := by
  intro hnil
  have hperm := sort.perm compare l
  rw [hnil] at hperm
  exact h hperm.symm.eq_nil

lemma suggestions_ne_nil (sort : DartSort) {results : List (DisplayedTag × c.Weight × ℤ)}
    (h : results ≠ []) : suggestions sort c results ≠ [] := by
  rw [suggestions, ne_eq, List.map_eq_nil_iff]
  exact sort_ne_nil c.order h

/-- An index with one tag of a classification. -/
def oneTagIndex (opp name : Units) : TagMap := [(classification opp, [(name, 1)])]

/-- A tag of the classification that a prefix is completed to when its name need not be similar. -/
lemma exists_named (sort : DartSort) (lower : LowerCase) (t : TagTranslate) (opp pre : Units) :
    ∃ name, named lower (fuzzily sort t) opp pre [(name, 1)] ≠ [] := by
  by_cases hsex : opp = units "female" ∨ opp = units "male"
  · refine ⟨opp ++ units ":x", ?_⟩
    have hlower : lower.toLowerCase (opp ++ units ":x") =
        opp ++ units ":x" ++ lower.toLowerCase [] := by
      conv_lhs => rw [← List.append_nil (opp ++ units ":x")]
      refine lower.toLowerCase_append _ _ ?_
      rcases hsex with rfl | rfl <;> exact forall_mem_of_all (by decide)
    have hstarts : Units.startsWith (lower.toLowerCase (opp ++ units ":x")) (opp ++ units ":") =
        true := by
      have hname : units ":x" = units ":" ++ units "x" := by decide
      rw [hlower, Units.startsWith, List.isPrefixOf_iff_prefix, hname]
      exact ⟨units "x" ++ lower.toLowerCase [], by simp⟩
    rw [named, if_pos hsex]
    simp [hstarts, fuzzily]
  · refine ⟨units "x", ?_⟩
    have hlower : lower.toLowerCase (units "x") = units "x" ++ lower.toLowerCase [] := by
      conv_lhs => rw [← List.append_nil (units "x")]
      exact lower.toLowerCase_append _ _ (forall_mem_of_all (by decide))
    have hsexed : isSexed lower (units "x") = false := by
      rw [isSexed, hlower]
      rfl
    by_cases htag : opp = units "tag"
    · rw [named, if_neg hsex, if_pos htag]
      simp [hsexed, fuzzily]
    · rw [named, if_neg hsex, if_neg htag]
      simp [fuzzily]

/-- Some index has a tag that a text is completed to. -/
lemma exists_results (sort : DartSort) (lower : LowerCase) (t : TagTranslate) (s : Units) :
    ∃ tagmap results, results ≠ [] ∧
      queryAutoCompleteFuzzy sort lower tagmap t s false = some results := by
  by_cases hcolon : 58 ∈ normalizeText lower s
  · obtain ⟨name, hname⟩ := exists_named sort lower t
      (((normalizeText lower s).splitOn 58).headD []) (normalizeText lower s)
    refine ⟨oneTagIndex (((normalizeText lower s).splitOn 58).headD []) name, _,
      suggestions_ne_nil sort hname, ?_⟩
    rw [queryAutoCompleteFuzzy, if_pos hcolon, completePrefixed, oneTagIndex, Map.get?_cons,
      if_pos rfl]
    rfl
  · have hnamed : namedAnywhere lower (oneTagIndex (units "artist") (units "x"))
        (fuzzily sort t) (normalizeText lower s) ≠ [] := by
      rw [namedAnywhere, oneTagIndex, List.flatMap_cons, if_neg (by decide)]
      exact List.cons_ne_nil _ _
    refine ⟨oneTagIndex (units "artist") (units "x"), _,
      suggestions_ne_nil sort hnamed, ?_⟩
    rw [queryAutoCompleteFuzzy, if_neg hcolon, completeAnywhere]
    rfl

/-! ### Related tags -/

lemma relatedOf_ne (group : Units) (related : Option (List (Units × ℤ))) :
    relatedOf group related ≠ .error .rangeError := by
  intro h
  cases related <;> cases h

lemma relatedTo_ne (env : Environment) (s : Units) : relatedTo env s ≠ .error .rangeError := by
  rw [relatedTo]
  split_ifs
  · exact relatedOf_ne _ _
  · exact relatedOf_ne _ _
  · exact relatedOf_ne _ _
  · exact relatedOf_ne _ _
  · intro h
    cases h

/-- Without related tags nothing is thrown for them. -/
def withoutRelated (settings : Settings) (tagmap : TagMap) : Environment where
  settings
  tagmap
  translate := {}
  getRelatedTag _ := some []
  getRelatedCharacters _ := some []
  getRelatedSeries _ := some []

lemma relatedTo_withoutRelated (settings : Settings) (tagmap : TagMap) (s : Units) :
    relatedTo (withoutRelated settings tagmap) s = .ok [] := by
  rw [relatedTo]
  split_ifs <;> rfl

/-! ### What may be suggested -/

lemma exists_rangeError (sort : DartSort) (h : ¬ Keyed lower s) : ∃ settings tagmap,
    suggest sort lower (withoutRelated settings tagmap) s = .error .rangeError := by
  obtain ⟨fuzzy, hkeys⟩ := not_forall.mp h
  have hpart := disassembly_eq_none_iff.mpr hkeys
  let env := withoutRelated ⟨fuzzy, true⟩ (emptyIndex (normalizeText lower s))
  have hquery : query sort lower env s = none := query_eq_none rfl rfl hpart
  refine ⟨⟨fuzzy, true⟩, emptyIndex (normalizeText lower s), ?_⟩
  rw [suggest, hquery]
  exact congrArg Except.error (if_pos hpart)

lemma exists_suggestions (sort : DartSort) (lower : LowerCase) (s : Units) :
    ∃ settings tagmap results, results ≠ [] ∧
      suggest sort lower (withoutRelated settings tagmap) s = .ok results := by
  obtain ⟨tagmap, results, hne, hquery⟩ := exists_results sort lower {} s
  refine ⟨⟨true, false⟩, tagmap, results, hne, ?_⟩
  have hquery' : query sort lower (withoutRelated ⟨true, false⟩ tagmap) s = some results := hquery
  rw [suggest, hquery']

end

/-! ### One search -/

variable {sort : DartSort} {lower : LowerCase} {env : Environment} {target : Units} {offset : ℕ}
  {page : Page}

lemma searchProcess_of_blank (h : Units.trim target = []) :
    searchProcess sort lower env target offset page =
      (none, { page with nothing := false, latestToken := [], searchLists := [] }) := if_pos h

/-- At the start of the text a blank is looked for from -1 on. -/
lemma searchProcess_zero (h : Units.trim target ≠ []) :
    (searchProcess sort lower env target 0 page).1 = some .rangeError := by
  rw [searchProcess]
  simp only [if_neg h]
  rfl

lemma searchProcess_of_token_nil (h : Units.trim target ≠ []) (hpos : 0 < offset)
    (hle : offset ≤ target.length) (htoken : token target offset = []) :
    searchProcess sort lower env target offset page =
      (none, { page with nothing := false, searchLists := [] }) := by
  rw [searchProcess]
  simp only [if_neg h, findToken_eq hpos hle, if_pos htoken]

/-- The page when the token has been found. -/
def found (target : Units) (offset : ℕ) (page : Page) (related : List (DisplayedTag × ℤ)) : Page :=
  { page with
    nothing := false
    relatedLists := related
    insertPos := some ((start target offset : ℤ) + signLength (segment target offset))
    insertLength := some (token target offset).length
    searchText := some target
    latestToken := token target offset }

section

variable (h : Units.trim target ≠ []) (hpos : 0 < offset) (hle : offset ≤ target.length)
  (htoken : token target offset ≠ [])

include h hpos hle htoken

lemma searchProcess_of_related_error {e : ScriptError}
    (hrelated : relatedTo env (token target offset) = .error e) :
    searchProcess sort lower env target offset page = (some e, { page with nothing := false }) := by
  rw [searchProcess]
  simp only [if_neg h, findToken_eq hpos hle, if_neg htoken, hrelated]

lemma searchProcess_of_suggest_error {related : List (DisplayedTag × ℤ)} {e : ScriptError}
    (hrelated : relatedTo env (token target offset) = .ok related)
    (hsuggest : suggest sort lower env (token target offset) = .error e) :
    searchProcess sort lower env target offset page =
      (some e, found target offset page related) := by
  rw [searchProcess]
  simp only [if_neg h, findToken_eq hpos hle, if_neg htoken, hrelated, hsuggest]
  rfl

lemma searchProcess_of_suggest {related results : List (DisplayedTag × ℤ)}
    (hrelated : relatedTo env (token target offset) = .ok related)
    (hsuggest : suggest sort lower env (token target offset) = .ok results) :
    searchProcess sort lower env target offset page =
      (none, { found target offset page related with
        nothing := decide (results.take searchResultMaximum = [])
        searchLists := results.take searchResultMaximum }) := by
  rw [searchProcess]
  simp only [if_neg h, findToken_eq hpos hle, if_neg htoken, hrelated, hsuggest]
  rfl

end

/-! ### Pressing a chip -/

lemma exists_insertion_of_isFull {e : DisplayedTag} (h : IsFull e) (place : ℤ) :
    ∃ insert, insertion place e = some insert := by
  obtain ⟨name, hname⟩ := Option.isSome_iff_exists.mp h.2
  rw [insertion, hname]
  split_ifs <;> exact ⟨_, rfl⟩

/-- The token is replaced and nothing else. -/
lemma replaceToken_eq {before tok after : Units} (insert : Units)
    (htext : page.searchText = some (before ++ tok ++ after))
    (hpos : page.insertPos = some (before.length : ℤ))
    (hlength : page.insertLength = some tok.length) :
    replaceToken page insert =
      .ok (before ++ insert ++ after, (before.length : ℤ) + insert.length) := by
  have hbefore : ScriptBuiltIn.substring (before ++ tok ++ after) 0 (some before.length) =
      .ok before := substring_eq (show _ = [] ++ before ++ (tok ++ after) by simp) rfl (by simp)
  have hafter : ScriptBuiltIn.substring (before ++ tok ++ after) (before.length + tok.length)
      (some (before ++ tok ++ after).length) = .ok after :=
    substring_eq (show _ = (before ++ tok) ++ after ++ [] by simp) (by simp) (by simp [add_assoc])
  rw [replaceToken, htext, hpos, hlength]
  change (ScriptBuiltIn.substring _ 0 (some before.length) >>= fun b => _) = _
  rw [hbefore]
  change (ScriptBuiltIn.substring _ (before.length + tok.length) _ >>= fun a => _) = _
  rw [hafter]
  rfl

lemma onPressed_text {e : DisplayedTag} {insert text : Units} {place : ℤ}
    (hinsert : insertion page.baseOffset e = some insert)
    (hgroup : e.group ≠ some (units "prefix"))
    (hreplace : replaceToken page insert = .ok (text, place)) :
    (onPressed sort lower env e page).2.text = text := by
  rw [onPressed, hinsert]
  simp only [if_pos hgroup, hreplace]
  split <;> rfl

/-! ### The token in front of the cursor -/

/-- The page suggests tags for the part between two texts, less its sign, and the chip of a tag puts
a text in the place of the part, less its sign. -/
structure StandsFor (sort : DartSort) (lower : LowerCase) (env : Environment) (page : Page)
    (before part after : Units) : Prop where
  latestToken : page.latestToken = part.drop (signLength part)
  searched : ∃ results, suggest sort lower env page.latestToken = .ok results ∧
    page.searchLists = results.take searchResultMaximum
  replaces : ∀ e ∈ page.searchLists, e.1.group ≠ some (units "prefix") → ∃ insert,
    insertion page.baseOffset e.1 = some insert ∧
      (onPressed sort lower env e.1 page).2.text =
        before ++ part.take (signLength part) ++ insert ++ after

/-- The search raises no range error, and what it suggests stands for the longest part without
blanks that has the unit in front of the cursor. -/
def SearchesToken (sort : DartSort) (lower : LowerCase) (env : Environment) (target : Units)
    (offset : ℕ) (page : Page) : Prop :=
  (searchProcess sort lower env target offset page).1 ≠ some .rangeError ∧
    ((searchProcess sort lower env target offset page).1 = none →
      (searchProcess sort lower env target offset page).2.searchLists ≠ [] →
        ∃ before part after, IsStretch 32 target offset before part after ∧
          StandsFor sort lower env (searchProcess sort lower env target offset page).2
            before part after)

/-- A blank at the start of the text is taken for the segment's end. -/
lemma segment_eq_nil (hstart : start target offset = 0) (hblank : target[0]? = some 32) :
    segment target offset = [] := by
  obtain ⟨rest, rfl⟩ : ∃ rest, target = 32 :: rest := by
    cases target with
    | nil => cases hblank
    | cons u rest =>
      obtain rfl := Option.some.inj hblank
      exact ⟨rest, rfl⟩
  rw [segment, hstart]
  rfl

/-- Behind another unit than a blank, the segment is the longest part without blanks. -/
lemma isStretch_segment (hpos : 0 < offset) (hle : offset ≤ target.length)
    (htoken : token target offset ≠ []) (hunit : target[offset - 1]? ≠ some 32) :
    IsStretch 32 target offset (target.take (start target offset)) (segment target offset)
      ((target.drop (start target offset)).dropWhile (· ≠ 32)) := by
  have hstart := start_eq_zero_or target offset
  have hlt : start target offset < offset := by
    refine (start_le target offset).lt_of_ne fun heq => ?_
    rw [heq] at hstart
    exact hstart.elim (by omega) hunit
  refine isStretch_takeWhile hstart ?_ hlt hle
  intro i hi hi' hblank
  by_cases hzero : i = 0
  · subst hzero
    refine htoken ?_
    rw [token, segment_eq_nil (Nat.le_zero.mp hi) hblank]
    rfl
  · exact getElem?_ne_of_start_le hi hi' hzero hblank

/-- The token is its segment without the sign when there is no white space to be left out. -/
lemma token_of_trim (h : Units.trim (segment target offset) = segment target offset) :
    token target offset = (segment target offset).drop (signLength (segment target offset)) := by
  rw [token, h]

lemma signLength_le (part : Units) : signLength part ≤ part.length := by
  cases part with
  | nil => exact le_rfl
  | cons u s =>
    rw [signLength]
    split_ifs <;> simp

lemma trim_of_token {part : Units}
    (h : (Units.trim part).drop (signLength part) = part.drop (signLength part)) :
    Units.trim part = part := by
  cases part with
  | nil => rfl
  | cons u s =>
    by_cases hu : IsSign u
    · rw [signLength_cons_of_isSign hu, trim_sign hu] at h
      rw [trim_sign hu]
      exact congrArg (u :: ·) h
    · rwa [signLength_cons_of_not hu] at h

/-- A chip that is pressed puts a text in the place of the token. -/
lemma standsFor_of_suggest (h : Units.trim target ≠ []) (hpos : 0 < offset)
    (hle : offset ≤ target.length) (htoken : token target offset ≠ [])
    (hunit : target[offset - 1]? ≠ some 32)
    (htrim : Units.trim (segment target offset) = segment target offset)
    {related results : List (DisplayedTag × ℤ)}
    (hrelated : relatedTo env (token target offset) = .ok related)
    (hsuggest : suggest sort lower env (token target offset) = .ok results) :
    StandsFor sort lower env (searchProcess sort lower env target offset page).2
      (target.take (start target offset)) (segment target offset)
      ((target.drop (start target offset)).dropWhile (· ≠ 32)) := by
  have htoken' := token_of_trim htrim
  have hstretch := isStretch_segment hpos hle htoken hunit
  rw [searchProcess_of_suggest h hpos hle htoken hrelated hsuggest]
  refine ⟨htoken', ⟨results, hsuggest, rfl⟩, fun e he hgroup => ?_⟩
  have hfull := isFull_of_suggest hsuggest (List.mem_of_mem_take he)
  obtain ⟨insert, hinsert⟩ := exists_insertion_of_isFull hfull page.baseOffset
  refine ⟨insert, hinsert, onPressed_text hinsert hgroup (replaceToken_eq insert ?_ ?_ rfl)⟩
  · refine congrArg some ?_
    rw [htoken', List.append_assoc (target.take _), List.take_append_drop]
    exact hstretch.append
  · have hlength : (target.take (start target offset)).length = start target offset :=
      List.length_take_of_le ((start_le target offset).trans hle)
    refine congrArg some ?_
    rw [List.length_append, hlength, List.length_take_of_le (signLength_le _)]
    exact (Int.natCast_add _ _).symm

lemma searchesToken_of_nil
    (hthrown : (searchProcess sort lower env target offset page).1 = none)
    (hlists : (searchProcess sort lower env target offset page).2.searchLists = []) :
    SearchesToken sort lower env target offset page := by
  refine ⟨?_, fun _ hne => absurd hlists hne⟩
  rw [hthrown]
  exact (Option.some_ne_none _).symm

lemma searchesToken_of_throws {e : ScriptError} (he : e ≠ .rangeError)
    (hthrown : (searchProcess sort lower env target offset page).1 = some e) :
    SearchesToken sort lower env target offset page := by
  constructor
  · rw [hthrown]
    exact fun heq => he (Option.some.inj heq)
  · intro hnone
    rw [hthrown] at hnone
    cases hnone

/-- From behind the last blank in front of the cursor on, up to the next blank, there is nothing but
a sign and white space. -/
def NothingThere (target : Units) (offset : ℕ) : Prop :=
  ∀ u ∈ (segment target offset).drop (signLength (segment target offset)), Units.isBlank u = true

lemma token_eq_nil_iff : token target offset = [] ↔ NothingThere target offset := by
  rw [token, NothingThere]
  cases segment target offset with
  | nil => exact iff_of_true rfl (by simp)
  | cons u s =>
    by_cases hu : IsSign u
    · rw [signLength_cons_of_isSign hu, trim_sign hu]
      exact Units.trimRight_eq_nil_iff
    · rw [signLength_cons_of_not hu, List.drop_zero, List.drop_zero]
      exact Units.trim_eq_nil_iff

/-- The unit in front of the cursor is one of a token that has keys and no other white space at its
ends. -/
def BehindToken (lower : LowerCase) (target : Units) (offset : ℕ) : Prop :=
  ∃ before part after, IsStretch 32 target offset before part after ∧ Units.trim part = part ∧
    Keyed lower (part.drop (signLength part))

/-- For all indexes and settings, and whatever has been shown before, the search is right exactly
when there is nothing to search for, or when the cursor is behind a unit of a token that has keys
and no other white space at its ends. -/
theorem searchesToken_iff (sort : DartSort) (lower : LowerCase) (hle : offset ≤ target.length) :
    (∀ env page, SearchesToken sort lower env target offset page) ↔
      Units.trim target = [] ∨
        offset ≠ 0 ∧ (NothingThere target offset ∨ BehindToken lower target offset) := by
  by_cases hblank : Units.trim target = []
  · refine iff_of_true (fun env page => ?_) (.inl hblank)
    refine searchesToken_of_nil ?_ ?_ <;> rw [searchProcess_of_blank hblank]
  rw [or_iff_right hblank, ← token_eq_nil_iff]
  constructor
  · intro hall
    have hzero : offset ≠ 0 := by
      rintro rfl
      exact (hall (withoutRelated ⟨false, false⟩ []) (.opened [])).1 (searchProcess_zero hblank)
    have hpos := Nat.pos_of_ne_zero hzero
    refine ⟨hzero, or_iff_not_imp_left.mpr fun htoken => ?_⟩
    -- some index has a suggestion, which stands for a part of the text
    obtain ⟨settings, tagmap, results, hne, hsuggest⟩ :=
      exists_suggestions sort lower (token target offset)
    have hrelated := relatedTo_withoutRelated settings tagmap (token target offset)
    have hright := (hall (withoutRelated settings tagmap) (.opened [])).2
    rw [searchProcess_of_suggest hblank hpos hle htoken hrelated hsuggest] at hright
    obtain ⟨before, part, after, hstretch, hstands⟩ := hright rfl (by simpa [searchResultMaximum])
    obtain ⟨-, rfl, -⟩ :=
      hstretch.unique (isStretch_segment hpos hle htoken hstretch.getElem?_place_ne)
    have htrim := trim_of_token hstands.latestToken
    refine ⟨before, _, after, hstretch, htrim, ?_⟩
    rw [← token_of_trim htrim]
    by_contra hkeys
    obtain ⟨settings, tagmap, hsuggest⟩ := exists_rangeError sort hkeys
    have hrelated := relatedTo_withoutRelated settings tagmap (token target offset)
    refine (hall (withoutRelated settings tagmap) (.opened [])).1 ?_
    rw [searchProcess_of_suggest_error hblank hpos hle htoken hrelated hsuggest]
  · rintro ⟨hzero, hright⟩ env page
    have hpos := Nat.pos_of_ne_zero hzero
    by_cases htoken : token target offset = []
    · refine searchesToken_of_nil ?_ ?_ <;>
        rw [searchProcess_of_token_nil hblank hpos hle htoken]
    obtain ⟨before, part, after, hstretch, htrim, hkeyed⟩ := hright.resolve_left htoken
    have hunit := hstretch.getElem?_place_ne
    obtain ⟨-, rfl, -⟩ := hstretch.unique (isStretch_segment hpos hle htoken hunit)
    rw [← token_of_trim htrim] at hkeyed
    cases hrelated : relatedTo env (token target offset) with
    | error e =>
      refine searchesToken_of_throws ?_
        (by rw [searchProcess_of_related_error hblank hpos hle htoken hrelated])
      rintro rfl
      exact relatedTo_ne env _ hrelated
    | ok related =>
      cases hsuggest : suggest sort lower env (token target offset) with
      | error e =>
        refine searchesToken_of_throws ?_
          (by rw [searchProcess_of_suggest_error hblank hpos hle htoken hrelated hsuggest])
        rintro rfl
        exact suggest_ne_rangeError hkeyed hsuggest
      | ok results =>
        refine ⟨?_, fun _ _ => ⟨_, _, _, isStretch_segment hpos hle htoken hunit,
          standsFor_of_suggest hblank hpos hle htoken hunit htrim hrelated hsuggest⟩⟩
        rw [searchProcess_of_suggest hblank hpos hle htoken hrelated hsuggest]
        exact (Option.some_ne_none _).symm

/-- The cursor is behind the second of two tokens. -/
theorem searchesToken_iff_twoTokens :
    (∀ env page, SearchesToken insertionSort asciiLowerCase env (units "a b") 3 page) ↔
      Units.trim (units "a b") = [] ∨ 3 ≠ 0 ∧ (NothingThere (units "a b") 3 ∨
        BehindToken asciiLowerCase (units "a b") 3) :=
  searchesToken_iff insertionSort asciiLowerCase (by decide)

/-- With the cursor in front of a token, a blank is looked for from -1 on. -/
theorem not_searchesToken_start :
    ¬ SearchesToken insertionSort asciiLowerCase (withoutRelated ⟨false, false⟩ []) (units "a") 0
      (.opened (units "a")) := by
  intro h
  exact h.1 (searchProcess_zero (by decide))

end SearchBarPage

end Violet
