import Violet.Dart.Stretch
import Violet.Script.ScriptBuiltIn
import Violet.Search.Chip
import Violet.Search.Highlight
import Violet.Tags.Keys

/-!
# The search bar

What is typed in the search bar is completed: the token before the cursor is searched for, and the
chips of the suggestions put their names in its place. Where the token stands is found out by
loops over the units of the text, and kept for the chips as a place and a length.
-/

open Dart

namespace Violet

namespace SearchBarPage

open ScriptBuiltIn (substring_eq unitAt unitAt_eq)

/-! ### What the search rests on -/

/-- The settings, the index of tags, the translations, and the indexes of related tags. What the
latter find comes with the numbers that are shown; of their exceptions, which stand here as `none`,
it is only known that they are no range errors. -/
structure Environment where
  settings : Settings
  tagmap : TagMap
  translate : TagTranslate
  getRelatedTag : Units → Option (List (Units × ℤ))
  getRelatedCharacters : Units → Option (List (Units × ℤ))
  getRelatedSeries : Units → Option (List (Units × ℤ))

/-- The fields of the page, with the text and the base offset of its controller. What has not been
set yet is null. -/
structure Page where
  nothing : Bool
  latestToken : Units
  searchLists : List (DisplayedTag × ℤ)
  relatedLists : List (DisplayedTag × ℤ)
  insertPos : Option ℤ
  insertLength : Option ℕ
  searchText : Option Units
  text : Units
  baseOffset : ℤ

/-- The page when it is opened with a text. -/
def Page.opened (initText : Units) : Page where
  nothing := false
  latestToken := []
  searchLists := []
  relatedLists := []
  insertPos := none
  insertLength := none
  searchText := none
  text := initText
  baseOffset := -1

def searchResultMaximum : ℕ := 60

/-! ### The token -/

/-- The loop to the left, down from `pos`. -/
def scan (target : Units) : ℕ → Except ScriptError ℤ
  | 0 => .ok 0
  | pos + 1 => do
    if (← unitAt target (pos + 1 : ℕ)) = 32 then return (pos + 2 : ℕ)
    scan target pos

/-- Where the loop to the left ends. It is not entered at the start of the text. -/
def scanFrom (target : Units) (pos : ℤ) : Except ScriptError ℤ :=
  if 0 < pos then scan target pos.toNat else .ok pos

/-- `indexOf(' ', start)` -/
def indexOfBlank (target : Units) (start : ℤ) : Except ScriptError ℤ :=
  if 0 ≤ start ∧ start ≤ target.length then
    .ok (((target.drop start.toNat).idxOf? 32).elim (-1) fun i => start + i)
  else .error .rangeError

/-- A sign or a parenthesis that is no part of the token. -/
def IsSign (u : UInt16) : Prop := u = 45 ∨ u = 40

instance (u : UInt16) : Decidable (IsSign u) := inferInstanceAs (Decidable (_ ∨ _))

/-- What stands from a place on up to the next blank, without white space at its ends. -/
def cut (target : Units) (pos : ℤ) : Except ScriptError Units := do
  let last ← indexOfBlank target pos
  return Units.trim
    (← ScriptBuiltIn.substring target pos (some (if last = -1 then target.length else last + 1)))

/-- The token and its place without the sign. -/
def leaveSign (target : Units) (pos : ℤ) (token : Units) : Except ScriptError (ℤ × Units) :=
  if pos ≠ target.length then do
    if IsSign (← unitAt target pos) then return (pos + 1, ← ScriptBuiltIn.substring token 1 none)
    return (pos, token)
  else return (pos, token)

/-- The place of the token and the token. -/
def findToken (target : Units) (offset : ℤ) : Except ScriptError (ℤ × Units) := do
  let pos ← scanFrom target (offset - 1)
  leaveSign target pos (← cut target pos)

/-! ### The search -/

section

variable (sort : DartSort) (lower : LowerCase) (env : Environment)

def underscoreToBlank (s : Units) : Units := Units.replaceAll s (units "_") (units " ")

/-- Related tags of a group. -/
def relatedOf (group : Units) (related : Option (List (Units × ℤ))) :
    Except ScriptError (List (DisplayedTag × ℤ)) :=
  match related with
  | some related => .ok (related.map fun e => (.ofGroup group e.1, e.2))
  | none => .error .stateError

/-- The tags that are related to a token with a prefix. -/
def relatedTo (token : Units) : Except ScriptError (List (DisplayedTag × ℤ)) :=
  let name := underscoreToBlank ((Units.split token (units ":")).getLastD [])
  if Units.startsWith token (units "female:") || Units.startsWith token (units "male:") ||
      Units.startsWith token (units "tag:") then
    relatedOf (units "tag") (env.getRelatedTag
      (if Units.startsWith token (units "tag:") then name else underscoreToBlank token))
  else if Units.startsWith token (units "series:") then
    relatedOf (units "character") (env.getRelatedCharacters name)
  else if Units.startsWith token (units "character:") then
    relatedOf (units "series") (env.getRelatedSeries name)
  else .ok []

/-- The part of a token whose translations are searched for. -/
def translatedPart (fuzzy : Bool) (token : Units) : Units :=
  let pre := HitomiManager.normalizeText lower token
  if 58 ∈ pre ∧ (fuzzy = true ∨ (pre.splitOn 58).headD [] ≠ units "random") then
    (pre.splitOn 58).getLastD []
  else pre

/-- The tags that a token is completed to, where `none` is an exception. -/
def query (token : Units) : Option (List (DisplayedTag × ℤ)) :=
  if env.settings.searchUseFuzzy then
    HitomiManager.queryAutoCompleteFuzzy sort lower env.tagmap env.translate token
      env.settings.searchUseTranslated
  else
    HitomiManager.queryAutoComplete sort lower env.tagmap env.translate token
      env.settings.searchUseTranslated

/-- The suggestions for a token. What the query throws is a range error when there are no keys for
the translations that are searched for, and else a call of a member of null. -/
def suggest (token : Units) : Except ScriptError (List (DisplayedTag × ℤ)) :=
  match query sort lower env token with
  | some results => .ok results
  | none => .error (if TagTranslate.disassembly (TagTranslate.removeBlanks
      (translatedPart lower env.settings.searchUseFuzzy token)) = none then .rangeError
    else .noSuchMethod)

/-- The search for a text with the cursor at an offset: its exception and the page afterwards. -/
def searchProcess (target : Units) (offset : ℤ) (page : Page) : Option ScriptError × Page :=
  let page := { page with nothing := false }
  if Units.trim target = [] then (none, { page with latestToken := [], searchLists := [] })
  else
    match findToken target offset with
    | .error e => (some e, page)
    | .ok (pos, token) =>
      if token = [] then (none, { page with searchLists := [] })
      else
        match relatedTo env token with
        | .error e => (some e, page)
        | .ok related =>
          let page := { page with
            relatedLists := related
            insertPos := some pos
            insertLength := some token.length
            searchText := some target
            latestToken := token }
          match suggest sort lower env token with
          | .error e => (some e, page)
          | .ok results =>
            let result := results.take searchResultMaximum
            (none, { page with nothing := decide (result = []), searchLists := result })

/-! ### The chips -/

/-- The text with the token replaced, and the place behind what is inserted. -/
def replaceToken (page : Page) (insert : Units) : Except ScriptError (Units × ℤ) :=
  match page.searchText, page.insertPos, page.insertLength with
  | some text, some pos, some length => do
    let before ← ScriptBuiltIn.substring text 0 (some pos)
    let after ← ScriptBuiltIn.substring text (pos + length) (some text.length)
    return (before ++ insert ++ after, pos + insert.length)
  | _, _, _ => .error .noSuchMethod

/-- The tags that are related to a tag, or else what is there. -/
def relatedToTag (e : DisplayedTag) (page : Page) : Except ScriptError (List (DisplayedTag × ℤ)) :=
  let related (group : Units) (find : Units → Option (List (Units × ℤ))) :=
    match e.name with
    | some name => relatedOf group (find (underscoreToBlank name))
    | none => .error .noSuchMethod
  if e.group = some (units "tag") then related (units "tag") env.getRelatedTag
  else if e.group = some (units "series") then
    related (units "character") env.getRelatedCharacters
  else if e.group = some (units "character") then related (units "series") env.getRelatedSeries
  else .ok page.relatedLists

/-- Pressing the chip of a tag: the exception and the page afterwards. -/
def onPressed (e : DisplayedTag) (page : Page) : Option ScriptError × Page :=
  match insertion page.baseOffset e with
  | none => (some .noSuchMethod, page)
  | some insert =>
    if e.group ≠ some (units "prefix") then
      match replaceToken page insert with
      | .error e => (some e, page)
      | .ok (text, offset) =>
        let page := { page with text := text, baseOffset := offset }
        match relatedToTag env e page with
        | .error e => (some e, page)
        | .ok related => (none, { page with relatedLists := related })
    else
      let length := (e.name.getD []).length
      if page.baseOffset ≠ -1 then
        match (do
          let before ← ScriptBuiltIn.substring page.text 0 (some page.baseOffset)
          let after ← ScriptBuiltIn.substring page.text page.baseOffset none
          return before ++ insert ++ after : Except ScriptError Units) with
        | .error e => (some e, page)
        | .ok text =>
          let page := { page with text := text, baseOffset := page.baseOffset + length + 1 }
          searchProcess sort lower env page.text page.baseOffset page
      else
        let page := { page with text := insert, baseOffset := length + 1 }
        searchProcess sort lower env page.text page.baseOffset page

end

/-! ### Where the token stands -/

/-- Where the search begins: behind the last blank in front of the cursor, if this is not the first
unit, which is not looked at. -/
def start (target : Units) : ℕ → ℕ
  | 0 => 0
  | 1 => 0
  | n + 2 => if target[n + 1]? = some 32 then n + 2 else start target (n + 1)

/-- What stands from there on up to the next blank. -/
def segment (target : Units) (offset : ℕ) : Units :=
  (target.drop (start target offset)).takeWhile (· ≠ 32)

/-- How much of a part is a sign. -/
def signLength (part : Units) : ℕ := if part.head?.any fun u => decide (IsSign u) then 1 else 0

/-- What is searched for. -/
def token (target : Units) (offset : ℕ) : Units :=
  (Units.trim (segment target offset)).drop (signLength (segment target offset))

variable {target : Units} {offset : ℕ}

lemma start_le (target : Units) (offset : ℕ) : start target offset ≤ offset := by
  induction offset using start.induct target with
  | case1 => exact le_rfl
  | case2 => exact Nat.zero_le 1
  | case3 n h => rw [start, if_pos h]
  | case4 n h ih =>
    rw [start, if_neg h]
    omega

lemma start_eq_zero_or (target : Units) (offset : ℕ) :
    start target offset = 0 ∨ target[start target offset - 1]? = some 32 := by
  induction offset using start.induct target with
  | case1 => exact .inl rfl
  | case2 => exact .inl rfl
  | case3 n h =>
    rw [start, if_pos h]
    exact .inr h
  | case4 n h ih => rwa [start, if_neg h]

/-- There is no blank from the start to the cursor, the first unit aside. -/
lemma getElem?_ne_of_start_le {i : ℕ} (h : start target offset ≤ i) (hi : i < offset)
    (hzero : i ≠ 0) : target[i]? ≠ some 32 := by
  induction offset using start.induct target with
  | case1 => omega
  | case2 => omega
  | case3 n hblank =>
    rw [start, if_pos hblank] at h
    omega
  | case4 n hblank ih =>
    rw [start, if_neg hblank] at h
    by_cases hin : i = n + 1
    · rwa [hin]
    · exact ih h (by omega)

lemma scan_eq {pos : ℕ} (h : pos < target.length) :
    scan target pos = .ok (start target (pos + 1) : ℕ) := by
  induction pos with
  | zero => rfl
  | succ pos ih =>
    have hget : target[pos + 1]? = some target[pos + 1] := List.getElem?_eq_getElem h
    rw [scan, unitAt_eq hget, start, hget]
    change (if target[pos + 1] = 32 then Except.ok _ else scan target pos) = _
    simp only [Option.some.injEq]
    split_ifs
    · rfl
    · exact ih (by omega)

lemma scanFrom_eq (h : 0 < offset) (hle : offset ≤ target.length) :
    scanFrom target (offset - 1) = .ok (start target offset : ℕ) := by
  obtain ⟨pos, rfl⟩ := Nat.exists_eq_add_of_le' h
  have hpos : ((pos + 1 : ℕ) : ℤ) - 1 = pos := by omega
  rw [scanFrom, hpos, Int.toNat_natCast, scan_eq (by omega)]
  split_ifs with hlt
  · rfl
  · obtain rfl : pos = 0 := by omega
    rfl

/-- The text in front of the start, the segment, and what is behind it. -/
lemma exists_segment (hle : offset ≤ target.length) : ∃ before after,
    target = before ++ segment target offset ++ after ∧ before.length = start target offset ∧
      (after = [] ∨ ∃ rest, after = 32 :: rest) := by
  have hstart := (start_le target offset).trans hle
  refine ⟨target.take (start target offset), (target.drop (start target offset)).dropWhile (· ≠ 32),
    ?_, List.length_take_of_le hstart, ?_⟩
  · rw [segment, List.append_assoc, List.takeWhile_append_dropWhile, List.take_append_drop]
  · exact dropWhile_ne_eq 32 _

lemma notMem_segment (target : Units) (offset : ℕ) : 32 ∉ segment target offset := by
  intro hmem
  simpa using List.mem_takeWhile_imp hmem

/-- The blank behind the segment is found, if there is one. -/
lemma indexOfBlank_eq {before part after : Units} (htarget : target = before ++ part ++ after)
    (hpart : 32 ∉ part) (hafter : after = [] ∨ ∃ rest, after = 32 :: rest) :
    indexOfBlank target before.length =
      .ok (if after = [] then -1 else before.length + part.length) := by
  have hlength : target.length = before.length + part.length + after.length := by
    rw [htarget, List.length_append, List.length_append]
  have hdrop : target.drop before.length = part ++ after := by
    rw [htarget, List.append_assoc, List.drop_left]
  rw [indexOfBlank, if_pos (by omega), Int.toNat_natCast, hdrop]
  rcases hafter with rfl | ⟨rest, rfl⟩
  · rw [List.append_nil, List.idxOf?_eq_none_iff.mpr hpart]
    rfl
  · have hindex : (part ++ 32 :: rest).idxOf? 32 = some part.length := by
      refine List.idxOf?_eq_some_iff.mpr ⟨by simp, by simp, fun j hj => ?_⟩
      rw [List.getElem_append_left hj]
      exact fun heq => hpart (heq ▸ List.getElem_mem hj)
    rw [hindex, if_neg (List.cons_ne_nil 32 rest)]
    rfl

lemma trim_append_blank (part : Units) : Units.trim (part ++ [32]) = Units.trim part := by
  rw [Units.trim_eq, Units.trim_eq, Units.trimRight_append, if_pos (by decide)]

lemma cut_eq {before part after : Units} (htarget : target = before ++ part ++ after)
    (hpart : 32 ∉ part) (hafter : after = [] ∨ ∃ rest, after = 32 :: rest) :
    cut target before.length = .ok (Units.trim part) := by
  rw [cut, indexOfBlank_eq htarget hpart hafter]
  rcases hafter with rfl | ⟨rest, rfl⟩
  · rw [if_pos rfl]
    change (ScriptBuiltIn.substring target before.length (some target.length) >>= fun s => _) = _
    rw [substring_eq htarget rfl (by simp [htarget])]
    rfl
  · rw [if_neg (List.cons_ne_nil 32 rest)]
    have hstop : before.length + part.length ≠ (-1 : ℤ) := by omega
    change (ScriptBuiltIn.substring target before.length
      (some (if (before.length + part.length : ℤ) = -1 then _ else _)) >>= fun s => _) = _
    have htarget' : target = before ++ (part ++ [32]) ++ rest := by simp [htarget]
    rw [if_neg hstop, substring_eq htarget' rfl (by simp [add_assoc])]
    exact congrArg Except.ok (trim_append_blank part)

lemma isBlank_of_isSign {u : UInt16} (h : IsSign u) : Units.isBlank u = false := by
  rcases h with rfl | rfl <;> decide

lemma trim_sign {u : UInt16} (h : IsSign u) (s : Units) :
    Units.trim (u :: s) = u :: Units.trimRight s := by
  rw [Units.trim, Units.trimLeft_cons (isBlank_of_isSign h)]
  exact Units.trimRight_append_cons (isBlank_of_isSign h) [] s

lemma signLength_cons_of_isSign {u : UInt16} (h : IsSign u) (s : Units) :
    signLength (u :: s) = 1 := by
  rw [signLength, List.head?_cons, Option.any_some, decide_eq_true h, if_pos rfl]

lemma signLength_cons_of_not {u : UInt16} (h : ¬ IsSign u) (s : Units) :
    signLength (u :: s) = 0 := by
  rw [signLength, List.head?_cons, Option.any_some, decide_eq_false h, if_neg Bool.false_ne_true]

/-- Where the text goes on, its first unit is looked at. -/
lemma leaveSign_cons {before after : Units} {u : UInt16} (htarget : target = before ++ u :: after)
    (token : Units) : leaveSign target before.length token =
      if IsSign u then
        (ScriptBuiltIn.substring token 1 none).map fun token => ((before.length : ℤ) + 1, token)
      else .ok ((before.length : ℤ), token) := by
  have hend : (before.length : ℤ) ≠ target.length := by
    rw [htarget, List.length_append, List.length_cons]
    omega
  have hunit : unitAt target before.length = .ok u := unitAt_eq (by simp [htarget])
  rw [leaveSign, if_pos hend, hunit]
  change (if IsSign u then
    (ScriptBuiltIn.substring token 1 none >>= fun token => Except.ok _) else _) = _
  split_ifs
  · cases ScriptBuiltIn.substring token 1 none <;> rfl
  · rfl

lemma leaveSign_eq {before part after : Units} (htarget : target = before ++ part ++ after)
    (hafter : after = [] ∨ ∃ rest, after = 32 :: rest) :
    leaveSign target before.length (Units.trim part) =
      .ok (before.length + signLength part, (Units.trim part).drop (signLength part)) := by
  cases part with
  | nil =>
    rcases hafter with rfl | ⟨rest, rfl⟩
    · rw [List.append_nil, List.append_nil] at htarget
      rw [leaveSign, htarget, if_neg (not_not.mpr rfl)]
      rfl
    · rw [List.append_nil] at htarget
      rw [leaveSign_cons htarget, if_neg (by decide)]
      rfl
  | cons u s =>
    rw [List.append_assoc, List.cons_append] at htarget
    rw [leaveSign_cons htarget]
    by_cases hu : IsSign u
    · have hsubstring : ScriptBuiltIn.substring (u :: Units.trimRight s) 1 none =
          .ok (Units.trimRight s) :=
        substring_eq (show u :: Units.trimRight s = [u] ++ Units.trimRight s ++ [] by simp) rfl
          (by simp [add_comm])
      rw [if_pos hu, trim_sign hu, hsubstring, signLength_cons_of_isSign hu]
      rfl
    · rw [if_neg hu, signLength_cons_of_not hu]
      exact congrArg Except.ok (by simp)

/-- The token begins behind the sign, if there is one. -/
lemma findToken_eq (h : 0 < offset) (hle : offset ≤ target.length) :
    findToken target offset =
      .ok (start target offset + signLength (segment target offset), token target offset) := by
  obtain ⟨before, after, htarget, hbefore, hafter⟩ := exists_segment hle
  rw [findToken, scanFrom_eq h hle, ← hbefore]
  change (cut target before.length >>= fun token => _) = _
  rw [cut_eq htarget (notMem_segment target offset) hafter]
  exact leaveSign_eq htarget hafter

end SearchBarPage

end Violet
