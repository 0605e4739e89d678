import Violet.Search.OneCondition
import Violet.Search.Query
import Violet.Tags.Aliases

/-!
# Chips

A suggestion is shown as a chip, and pressing it inserts a token in the search text: the group, a
colon and the name, with underscores for the blanks. The token is translated to a query. It finds
the name when the name comes through the insertion, the splitting and the pattern unchanged.
-/

open Dart Sql

namespace Violet

/-! ### Units as characters -/

/-- A unit as a character. Half a pair, which is none, is taken from the last plane. -/
def unitChar (u : UInt16) : Char :=
  if 0xD800 ≤ u.toNat ∧ u.toNat < 0xE000 then .ofNat (0x100000 + u.toNat) else .ofNat u.toNat

/-- A text of units as the search reads it, unit by unit. -/
def chars (s : Units) : Str := s.map unitChar

/-! ### The token of a chip -/

/-- `replaceAll(' ', '_')`. -/
def blankToUnderscore (s : Units) : Units := Units.replaceAll s (units " ") (units "_")

/-- What pressing the chip inserts; the offset is that of the cursor, -1 if there is none. It throws
where a name is needed and missing. -/
def insertion (offset : ℤ) (e : DisplayedTag) : Option Units :=
  if e.group ≠ some (units "prefix") then
    if e.group = some (units "tag") then
      e.name.map fun name => blankToUnderscore
        (if Units.startsWith name (units "female") || Units.startsWith name (units "male") then name
          else e.getTag)
    else some (blankToUnderscore e.getTag)
  else e.name.map fun name =>
    name ++ if name = units "random" then (if offset ≠ -1 then units " " else []) else units ":"

/-! ### What is asked for -/

/-- The prefix with the column of a group. -/
def columnPrefix (group : Units) : Option Prefix :=
  (Prefix.ofName (chars group)).filter fun p => p ≠ .male ∧ p ≠ .female

/-- The chip's token is translated to a query with one condition, on the column of the group, which
holds of the rows where the text of the column `finds` the name. -/
def Asks (finds : Prefix → Str → Str → Prop) (offset : ℤ) (e : DisplayedTag) : Prop :=
  ∃ p name token body, e.group.bind columnPrefix = some p ∧ e.name = some name ∧
    insertion offset e = some token ∧ translate2query (chars token) = columnQuery p body ∧
      paired body = true ∧ ∀ row : Env, (columnExpr false p body).Holds row ↔
        row p.column ≠ .null ∧ finds p (chars name) (row p.column).toText

/-- Does the name of a tag begin with a sex? -/
def Sexed (name : Str) : Prop := "female".toList <+: name ∨ "male".toList <+: name

instance (name : Str) : Decidable (Sexed name) := inferInstanceAs (Decidable (_ ∨ _))

/-- The name comes through the insertion and the translation unchanged. -/
structure Kept (p : Prefix) (name : Str) : Prop where
  plain : ∀ c ∈ name, c ∉ "'%_()<>".toList
  last : ∀ c, name.getLast? = some c → isWhitespace c = true → c = ' '
  /-- A colon stands only behind the sex of a tag that begins with one. -/
  colon : if p = .tag ∧ Sexed name then "female:".toList <+: name ∨ "male:".toList <+: name
    else ':' ∉ name
  uploader : p = .uploader → ' ' ∉ name

variable {p : Prefix} {name text tok body s x : Str} {c : Char} {ws : List Str}

/-! ### Units and characters -/

lemma toNat_ofNat {n : ℕ} (h : n.isValidChar) : (Char.ofNat n).toNat = n := by
  rw [Char.ofNat, dif_pos h]
  rfl

lemma toNat_unitChar (u : UInt16) : (unitChar u).toNat =
    if 0xD800 ≤ u.toNat ∧ u.toNat < 0xE000 then 0x100000 + u.toNat else u.toNat := by
  have hu := u.toNat_lt
  rw [unitChar]
  split_ifs with h
  · exact toNat_ofNat (.inr ⟨by omega, by omega⟩)
  · refine toNat_ofNat ?_
    rw [Nat.isValidChar]
    omega

lemma unitChar_injective : Function.Injective unitChar := by
  intro u v h
  have hn := congrArg Char.toNat h
  rw [toNat_unitChar, toNat_unitChar] at hn
  have hu := u.toNat_lt
  have hv := v.toNat_lt
  refine UInt16.toNat_inj.mp ?_
  split_ifs at hn <;> omega

@[simp] lemma chars_append (a b : Units) : chars (a ++ b) = chars a ++ chars b := List.map_append

/-- A unit and an ASCII character are compared as numbers. -/
lemma unitChar_eq_iff {u : UInt16} (hc : c.toNat < 128) : unitChar u = c ↔ u.toNat = c.toNat := by
  rw [← Char.toNat_inj, toNat_unitChar]
  split_ifs <;> omega

lemma chars_blankToUnderscore (s : Units) :
    chars (blankToUnderscore s) = replaceChar ' ' '_' (chars s) := by
  rw [blankToUnderscore, show units " " = [32] by decide, show units "_" = [95] by decide,
    Units.replaceAll_singleton]
  induction s with
  | nil => rfl
  | cons u s ih =>
    rw [List.flatMap_cons, chars_append, ih]
    have hblank : unitChar u = ' ' ↔ u = 32 := by
      rw [unitChar_eq_iff (by decide)]
      exact UInt16.toNat_inj (b := 32)
    by_cases hu : u = 32
    · subst hu
      rfl
    · rw [if_neg hu]
      simp [chars, replaceChar, hblank, hu]

lemma startsWith_iff {s pat : Units} :
    Units.startsWith s pat = true ↔ chars pat <+: chars s := by
  rw [Units.startsWith, List.isPrefixOf_iff_prefix]
  exact (List.prefix_map_iff_of_injective unitChar_injective).symm

/-! ### The pattern -/

/-- A character of the name as it is searched for. -/
def Prefix.searchedChar (p : Prefix) (c : Char) : Char :=
  let c := if c = ' ' then '_' else c
  if p = .uploader then c else if c = '_' then ' ' else c

lemma Prefix.searched_replaceChar (p : Prefix) (name : Str) :
    p.searched (replaceChar ' ' '_' name) = name.map p.searchedChar := by
  rw [searched]
  split_ifs with hp
  · simp [replaceChar, searchedChar, hp]
  · simp [underscoreToBlank, replaceChar, searchedChar, hp]

/-- A name that is found only where it stands has come through unchanged. -/
lemma of_contains (hx : x <+: replaceChar ' ' '_' name)
    (hpaired : paired (p.bars (p.searched x)) = true)
    (h : ∀ text, likeMatch (containsPattern (p.bars (p.searched x))) text = true →
      Contains p name text) :
    x = replaceChar ' ' '_' name ∧ quote ∉ name ∧ '%' ∉ name ∧ '_' ∉ name ∧
      (p = .uploader → ' ' ∉ name) := by
  have hlower : (p.bars name).length ≤ ((unpair (p.bars (p.searched x))).filter (· ≠ '%')).length :=
    length_bars_le h
  have hfilter := List.length_filter_le (fun c => decide (c ≠ '%')) (unpair (p.bars (p.searched x)))
  have hunpair := length_unpair_le (p.bars (p.searched x))
  have hxlen : x.length ≤ name.length := by simpa [replaceChar] using hx.length_le
  have hupper : (p.bars (p.searched x)).length ≤ (p.bars name).length :=
    Prefix.length_bars_le_iff.mpr (by rwa [p.length_searched])
  -- all lengths are equal, so that nothing has been left out
  obtain rfl : x = replaceChar ' ' '_' name := by
    refine hx.eq_of_length_le ?_
    have hname : (p.bars name).length ≤ (p.bars (p.searched x)).length := by omega
    rw [Prefix.length_bars_le_iff, p.length_searched] at hname
    simpa [replaceChar] using hname
  have hquote : quote ∉ p.bars (p.searched (replaceChar ' ' '_' name)) :=
    notMem_of_length_unpair hpaired (by omega)
  rw [unpair_of_notMem hquote] at hlower hfilter
  have hall := List.length_filter_eq_length_iff.mp (le_antisymm hfilter (by omega))
  rw [p.searched_replaceChar] at h hquote hupper hlower hfilter hall
  have hmem {c : Char} (hc : c ∈ name) (hkept : p.searchedChar c = c) :
      c ∈ p.bars (name.map p.searchedChar) :=
    p.subset_bars _ (List.mem_map.mpr ⟨c, hc, hkept⟩)
  -- underscores are filled with another character
  have hmap : ∀ c ∈ name, c.toLower =
      (if p.searchedChar c = '_' then 'x' else p.searchedChar c).toLower := by
    have hpart := contains_fill h (g := fun c => if c = '_' then 'x' else c)
      fun c hc => if_neg hc
    rw [unpair_of_notMem hquote, List.filter_eq_self.mpr hall, Prefix.map_bars rfl, Contains,
      toLowerCase, toLowerCase, Prefix.map_bars rfl, Prefix.map_bars rfl] at hpart
    have heq := hpart.eq_of_length_le (Prefix.length_bars_le_iff.mpr (by simp))
    have hlist := Prefix.bars_injective heq
    rw [List.map_map, List.map_map] at hlist
    exact List.map_inj_left.mp hlist
  have hunderscore : '_' ∉ name := by
    intro hc
    have hlow := hmap '_' hc
    revert hlow
    cases p <;> decide
  refine ⟨rfl, fun hc => hquote (hmem hc ?_), fun hc => ?_, hunderscore, ?_⟩
  · cases p <;> decide
  · have hpercent := hall '%' (hmem hc (by cases p <;> decide))
    simp at hpercent
  · rintro rfl hc
    have hlow := hmap ' ' hc
    revert hlow
    decide

lemma map_searchedChar (h : '_' ∉ name) (h' : p = .uploader → ' ' ∉ name) :
    name.map p.searchedChar = name := by
  conv_rhs => rw [← List.map_id name]
  refine List.map_congr_left fun c hc => ?_
  have hunderscore : c ≠ '_' := fun heq => h (heq ▸ hc)
  rw [Prefix.searchedChar]
  by_cases hp : p = .uploader
  · have hblank : c ≠ ' ' := fun heq => h' hp (heq ▸ hc)
    simp [hp, hblank]
  · by_cases hblank : c = ' '
    · simp [hp, hblank]
    · simp [hp, hblank, hunderscore]

/-! ### The inserted name -/

/-- A text without blanks and underscores stands in the inserted name where it stands in the
name. -/
lemma prefix_replaceChar_iff {w : Str} (hblank : ' ' ∉ w) (hunderscore : '_' ∉ w) :
    w <+: replaceChar ' ' '_' name ↔ w <+: name := by
  constructor
  · intro h
    obtain ⟨l, hl, rfl⟩ := List.prefix_map_iff.mp h
    have hself : l.map (fun c => if c = ' ' then '_' else c) = l := by
      refine replaceChar_of_notMem fun hc => hunderscore ?_
      exact List.mem_map.mpr ⟨' ', hc, if_pos rfl⟩
    rwa [hself]
  · intro h
    rw [← replaceChar_of_notMem hblank]
    exact h.map _

lemma sexed_replaceChar_iff : Sexed (replaceChar ' ' '_' name) ↔ Sexed name := by
  rw [Sexed, Sexed, prefix_replaceChar_iff (by decide) (by decide),
    prefix_replaceChar_iff (by decide) (by decide)]

lemma blank_notMem_replaceChar (name : Str) : ' ' ∉ replaceChar ' ' '_' name := by
  intro h
  obtain ⟨c, -, hc⟩ := List.mem_map.mp h
  split_ifs at hc with hblank
  · exact absurd hc (by decide)
  · exact hblank hc

/-! ### The first token of a chip -/

/-- The token as the search reads it, where a sex stands for the group. -/
def chipText (p : Prefix) (name : Str) : Str :=
  if p = .tag ∧ Sexed name then replaceChar ' ' '_' name
  else p.name ++ ':' :: replaceChar ' ' '_' name

lemma Prefix.head_name (p : Prefix) :
    ∃ c s, p.name = c :: s ∧ isWhitespace c = false ∧ c ≠ '-' := by
  cases p <;> exact ⟨_, _, rfl, by decide, by decide⟩

lemma Prefix.name_notMem (p : Prefix) : ' ' ∉ p.name ∧ ':' ∉ p.name := by
  cases p <;> decide

lemma Prefix.staysInToken_of_mem_name (p : Prefix) : ∀ c ∈ p.name, staysInToken c = true := by
  cases p <;> exact forall_mem_of_all (by decide)

lemma readToken_named (p : Prefix) (r : Str) : readToken (p.name ++ ':' :: r) =
    .ok (.column false p (p.name ++ ':' :: r) (r.takeWhile (· ≠ ':'))) := by
  obtain ⟨c, s, hname, -, hminus⟩ := p.head_name
  have hnegative : isNegative (p.name ++ ':' :: r) = false := by
    rw [isNegative, hname]
    simpa using hminus
  have hsplit : (p.name ++ ':' :: r).splitOn ':' = p.name :: r.splitOn ':' :=
    List.splitOn_append_cons_self_of_not_mem p.name_notMem.2 r
  have hrecent : p.name ≠ "recent".toList := by cases p <;> decide
  have hsecond : (p.name :: r.splitOn ':').getD 1 [] = r.takeWhile (· ≠ ':') := by
    rw [← headD_splitOn]
    cases r.splitOn ':' <;> rfl
  rw [readToken, if_pos (List.mem_append_right _ List.mem_cons_self)]
  simp only [unsigned, hnegative, hsplit, List.headD_cons, hrecent, Prefix.ofName_name, hsecond,
    Bool.false_eq_true, if_false]

lemma Sexed.head (h : Sexed s) : ∃ c t, s = c :: t ∧ isWhitespace c = false ∧ c ≠ '-' ∧
    c ∉ "=<>()".toList := by
  rcases h with ⟨t, rfl⟩ | ⟨t, rfl⟩ <;>
    exact ⟨_, _, rfl, by decide, by decide, by decide⟩

/-- A text that begins with a sex and is read as a column names the sex in front of its colon. -/
lemma Sexed.column {cl : Clause} (h : Sexed s) (hread : readToken s = .ok cl) :
    (∃ q ss1, cl = .column false q s ss1 ∧ (q = .male ∨ q = .female) ∧
      q.name ++ [':'] <+: s) ∨ ∃ negative val, cl = .title negative val := by
  obtain ⟨c, t, hs, -, hminus, hsymbol⟩ := h.head
  have hnegative : isNegative s = false := by
    rw [isNegative, hs]
    simpa using hminus
  have hunsigned : unsigned s = s := by rw [unsigned, hnegative, if_neg Bool.false_ne_true]
  by_cases hcolon : ':' ∈ s
  · obtain ⟨a, b, rfl, ha⟩ := List.eq_append_cons_of_mem hcolon
    have hfirst : ((a ++ ':' :: b).splitOn ':').headD [] = a := by
      rw [headD_splitOn, takeWhile_append_separator ha]
    rw [readToken, if_pos hcolon] at hread
    simp only [hunsigned, hnegative, hfirst] at hread
    split at hread
    · cases hread
    · cases hname : Prefix.ofName a with
      | none =>
        rw [hname] at hread
        cases hread
      | some q =>
        rw [hname] at hread
        obtain rfl := Prefix.name_of_ofName hname
        refine .inl ⟨q, _, (Except.ok.inj hread).symm, ?_, b, by simp⟩
        have hsex : Sexed q.name :=
          h.imp (prefix_of_notMem (by decide)) (prefix_of_notMem (by decide))
        revert hsex
        cases q <;> decide
  · rw [readToken, if_neg hcolon, if_neg] at hread
    · exact .inr ⟨_, _, (Except.ok.inj hread).symm⟩
    · intro hpart
      exact hsymbol (hpart.subset (hs ▸ List.mem_cons_self))

/-- Where one condition is asked for, the text `x` that the first token searches for is all of the
inserted name, and the name has nothing that is replaced or a wildcard. -/
lemma of_asked {w : Str}
    (hpieces : translatePieces tok = match whereLoop [] (words tok) with
      | .error s => [.sql s]
      | .ok ps => .sql selectWhere :: ps ++ [.sql " AND ExistOnHitomi=1".toList])
    (hwords : words tok = w :: ws) (hw : w ≠ openParen)
    (h : translate2query tok = columnQuery p body) (hpaired : paired body = true)
    (hcontains : ∀ text, likeMatch (containsPattern body) text = true → Contains p name text)
    (hx : x <+: replaceChar ' ' '_' name)
    (hclause : ∀ cl, readToken w = .ok cl →
      (∃ q val ss1, cl = .column false q val ss1 ∧
        render (q.postfixPieces val ss1) = p.bars (p.searched x)) ∨
        ∃ negative val, cl = .title negative val) :
    (∃ cl q val ss1, readToken w = .ok cl ∧ cl = .column false q val ss1) ∧
      x = replaceChar ' ' '_' name ∧ quote ∉ name ∧ '%' ∉ name ∧ '_' ∉ name ∧
        (p = .uploader → ' ' ∉ name) := by
  obtain ⟨cl, rest, hread, hrest, hrender⟩ := exists_clause hpieces hwords hw h
  rcases hclause cl hread with ⟨q, val, ss1, rfl, hsearch⟩ | ⟨negative, val, rfl⟩
  · have hlower := length_bars_le hcontains
    have hfilter := List.length_filter_le (fun c => decide (c ≠ '%')) (unpair body)
    have hunpair := length_unpair_le body
    have hxlen : x.length ≤ name.length := by simpa [replaceChar] using hx.length_le
    have hupper : (p.bars (p.searched x)).length ≤ (p.bars name).length :=
      Prefix.length_bars_le_iff.mpr (by rwa [p.length_searched])
    obtain ⟨-, rfl⟩ := column_pieces_eq hrest hpaired (by rw [hsearch]; omega) hrender
    rw [hsearch] at hpaired hcontains
    exact ⟨⟨_, q, val, ss1, hread, rfl⟩, of_contains hx hpaired hcontains⟩
  · exact absurd hrender (title_ne negative val rest)

/-! ### Names that are kept -/

/-- What makes the inserted name a part of one token. -/
lemma Kept.mk'
    (hstays : (replaceChar ' ' '_' name).takeWhile staysInToken = replaceChar ' ' '_' name)
    (htrim : trimRight (replaceChar ' ' '_' name) = replaceChar ' ' '_' name)
    (hquote : quote ∉ name) (hpercent : '%' ∉ name) (hunderscore : '_' ∉ name)
    (huploader : p = .uploader → ' ' ∉ name)
    (hcolon : if p = .tag ∧ Sexed name then "female:".toList <+: name ∨ "male:".toList <+: name
      else ':' ∉ name) : Kept p name where
  plain := by
    intro c hc hmem
    have hchars : "'%_()<>".toList = [quote, '%', '_', '(', ')', '<', '>'] := by decide
    have hstay : c ≠ ' ' → staysInToken c = true := fun hblank =>
      List.takeWhile_eq_self_iff.mp hstays c (List.mem_map.mpr ⟨c, hc, if_neg hblank⟩)
    rw [hchars] at hmem
    simp only [List.mem_cons, List.not_mem_nil, or_false] at hmem
    rcases hmem with rfl | rfl | rfl | rfl | rfl | rfl | rfl
    · exact hquote hc
    · exact hpercent hc
    · exact hunderscore hc
    all_goals exact absurd (hstay (by decide)) (by decide)
  last := by
    intro c hc hblank
    by_contra hne
    have hlast : (replaceChar ' ' '_' name).getLast? = some c := by
      rw [replaceChar, List.getLast?_map, hc, Option.map_some, if_neg hne]
    exact Bool.false_ne_true ((trimRight_eq_self_iff.mp htrim c hlast).symm.trans hblank)
  colon := hcolon
  uploader := huploader

namespace Kept

variable (h : Kept p name)
include h

lemma quote_notMem : quote ∉ name := fun hc => h.plain quote hc (by decide)

lemma percent_notMem : '%' ∉ name := fun hc => h.plain '%' hc (by decide)

lemma underscore_notMem : '_' ∉ name := fun hc => h.plain '_' hc (by decide)

lemma staysInToken_replaceChar : ∀ c ∈ replaceChar ' ' '_' name, staysInToken c = true := by
  intro c hc
  obtain ⟨d, hd, rfl⟩ := List.mem_map.mp hc
  have hplain := h.plain d hd
  split_ifs with hblank
  · decide
  · rw [staysInToken, Bool.and_eq_true, decide_eq_true_eq, Bool.not_eq_true']
    refine ⟨hblank, ?_⟩
    rw [Bool.eq_false_iff, isDelimiter]
    simp only [Bool.or_eq_true, beq_iff_eq, ne_eq]
    rintro (((rfl | rfl) | rfl) | rfl) <;> exact hplain (by decide)

lemma trimRight_replaceChar : trimRight (replaceChar ' ' '_' name) = replaceChar ' ' '_' name := by
  refine trimRight_eq_self_iff.mpr fun c hc => ?_
  rw [replaceChar, List.getLast?_map] at hc
  obtain ⟨d, hd, rfl⟩ := Option.map_eq_some_iff.mp hc
  split_ifs with hblank
  · decide
  · rw [Bool.eq_false_iff]
    exact fun hwhite => hblank (h.last d hd hwhite)

end Kept

/-! ### The translation of a chip's text -/

lemma blank_notMem_chipText (p : Prefix) (name : Str) : ' ' ∉ chipText p name := by
  rw [chipText]
  split_ifs
  · exact blank_notMem_replaceChar name
  · intro h
    rcases List.mem_append.mp h with h | h
    · exact p.name_notMem.1 h
    · exact blank_notMem_replaceChar name ((List.mem_cons.mp h).resolve_left (by decide))

/-- A chip's text is no number. -/
lemma exists_notNumeral (p : Prefix) (name : Str) :
    ∃ c ∈ chipText p name, isWhitespace c = false ∧ isNumeral c = false := by
  rw [chipText]
  split_ifs with h
  · refine ⟨'l', ?_, by decide, by decide⟩
    rcases sexed_replaceChar_iff.mpr h.2 with h | h
    · exact h.subset (by decide)
    · exact h.subset (by decide)
  · exact ⟨':', List.mem_append_right _ List.mem_cons_self, by decide, by decide⟩

lemma translatePieces_chipText (p : Prefix) (name : Str) :
    translatePieces (chipText p name) = match whereLoop [] (words (chipText p name)) with
      | .error s => [.sql s]
      | .ok ps => .sql selectWhere :: ps ++ [.sql " AND ExistOnHitomi=1".toList] := by
  obtain ⟨c, hc, hwhite, hnumeral⟩ := exists_notNumeral p name
  exact translatePieces_of_mem (blank_notMem_chipText p name) hc hwhite hnumeral

/-- A text of which all of a prefix of a prefix is left. -/
lemma eq_of_prefix_of_prefix {a b : Str} (hab : a <+: b) (hbs : b <+: s) (h : a = s) : b = s := by
  subst h
  exact hbs.eq_of_length_le hab.length_le

lemma words_named (h : ¬ (p = .tag ∧ Sexed name)) : ∃ ws,
    words (chipText p name) =
      (p.name ++ ':' :: trimRight ((replaceChar ' ' '_' name).takeWhile staysInToken)) :: ws ∧
      ((∀ c ∈ chipText p name, staysInToken c = true) → ws = []) := by
  have hfirst : trim ((chipText p name).takeWhile staysInToken) =
      p.name ++ ':' :: trimRight ((replaceChar ' ' '_' name).takeWhile staysInToken) := by
    obtain ⟨c, s, hname, hwhite, -⟩ := p.head_name
    rw [chipText, if_neg h, List.takeWhile_append_of_pos p.staysInToken_of_mem_name,
      List.takeWhile_cons_of_pos (by decide), trim_of_head, trimRight_append_cons (by decide)]
    rw [hname]
    simpa using hwhite
  rw [← hfirst]
  refine words_eq ?_
  rw [hfirst]
  exact List.append_ne_nil_of_right_ne_nil _ (List.cons_ne_nil _ _)

/-- A sex stays in the first token. -/
lemma Sexed.trimRight_takeWhile (h : Sexed s) : Sexed (trimRight (s.takeWhile staysInToken)) := by
  rcases h with ⟨t, rfl⟩ | ⟨t, rfl⟩
  · rw [List.takeWhile_append_of_pos (forall_mem_of_all (by decide)),
      show "female".toList = "femal".toList ++ ['e'] by decide, List.append_assoc,
      List.singleton_append, trimRight_append_cons (by decide)]
    exact .inl ⟨_, rfl⟩
  · rw [List.takeWhile_append_of_pos (forall_mem_of_all (by decide)),
      show "male".toList = "mal".toList ++ ['e'] by decide, List.append_assoc,
      List.singleton_append, trimRight_append_cons (by decide)]
    exact .inr ⟨_, rfl⟩

lemma words_sexed (h : Sexed name) : ∃ ws,
    words (chipText .tag name) =
      trimRight ((replaceChar ' ' '_' name).takeWhile staysInToken) :: ws ∧
      ((∀ c ∈ chipText .tag name, staysInToken c = true) → ws = []) := by
  have hsexed := (sexed_replaceChar_iff.mpr h).trimRight_takeWhile
  obtain ⟨c, s, hhead, hwhite, -⟩ := hsexed.head
  have hfirst : trim ((chipText .tag name).takeWhile staysInToken) =
      trimRight ((replaceChar ' ' '_' name).takeWhile staysInToken) := by
    rw [chipText, if_pos ⟨rfl, h⟩, trim_of_head]
    obtain ⟨t, ht⟩ := trimRight_isPrefix ((replaceChar ' ' '_' name).takeWhile staysInToken)
    rw [← ht, hhead]
    simpa using hwhite
  rw [← hfirst]
  refine words_eq ?_
  rw [hfirst, hhead]
  exact List.cons_ne_nil c s

lemma kept_of_named (hplain : ¬ (p = .tag ∧ Sexed name)) (hp : p ≠ .male ∧ p ≠ .female)
    (h : translate2query (chipText p name) = columnQuery p body) (hpaired : paired body = true)
    (hcontains : ∀ text, likeMatch (containsPattern body) text = true → Contains p name text) :
    Kept p name := by
  set n := replaceChar ' ' '_' name with hn
  obtain ⟨ws, hwords, -⟩ := words_named hplain
  rw [← hn] at hwords
  have htrim : trimRight (n.takeWhile staysInToken) <+: n :=
    (trimRight_isPrefix _).trans (List.takeWhile_prefix _)
  have hopen : p.name ++ ':' :: trimRight (n.takeWhile staysInToken) ≠ openParen := fun heq => by
    have hcolon : ':' ∈ openParen := heq ▸ List.mem_append_right _ List.mem_cons_self
    exact absurd hcolon (by decide)
  obtain ⟨-, hx, hquote, hpercent, hunderscore, huploader⟩ := of_asked
    (x := (trimRight (n.takeWhile staysInToken)).takeWhile (· ≠ ':'))
    (translatePieces_chipText p name) hwords hopen h hpaired hcontains
    ((List.takeWhile_prefix _).trans htrim) fun cl hcl => by
      refine .inl ⟨p, _, _, (Except.ok.inj ((readToken_named p _).symm.trans hcl)).symm, ?_⟩
      rw [render_postfixPieces, if_neg (by simp [hp])]
  have hr : trimRight (n.takeWhile staysInToken) = n :=
    eq_of_prefix_of_prefix (List.takeWhile_prefix _) htrim hx
  have hs : n.takeWhile staysInToken = n :=
    eq_of_prefix_of_prefix (trimRight_isPrefix _) (List.takeWhile_prefix _) hr
  rw [hs] at hr
  rw [hs, hr] at hx
  refine .mk' hs hr hquote hpercent hunderscore huploader ?_
  rw [if_neg hplain]
  intro hcolon
  have hmem : ':' ∈ n := List.mem_map.mpr ⟨':', hcolon, if_neg (by decide)⟩
  simpa using List.takeWhile_eq_self_iff.mp hx ':' hmem

/-- Two prefixes that begin with a sex search for the same as a tag. -/
lemma render_postfixPieces_sex {q : Prefix} (hq : q = .male ∨ q = .female) (val ss1 : Str) :
    render (q.postfixPieces val ss1) = Prefix.tag.bars (Prefix.tag.searched val) := by
  rw [render_postfixPieces, if_pos hq]
  rcases hq with rfl | rfl <;> rfl

lemma kept_of_sexed (hsexed : Sexed name)
    (h : translate2query (chipText .tag name) = columnQuery .tag body)
    (hpaired : paired body = true)
    (hcontains : ∀ text, likeMatch (containsPattern body) text = true → Contains .tag name text) :
    Kept .tag name := by
  set n := replaceChar ' ' '_' name with hn
  obtain ⟨ws, hwords, -⟩ := words_sexed hsexed
  rw [← hn] at hwords
  have hfirst : Sexed (trimRight (n.takeWhile staysInToken)) :=
    (sexed_replaceChar_iff.mpr hsexed).trimRight_takeWhile
  have hopen : trimRight (n.takeWhile staysInToken) ≠ openParen := fun heq => by
    rw [heq] at hfirst
    exact absurd hfirst (by decide)
  obtain ⟨⟨cl, q, val, ss1, hread, hcl⟩, hr, hquote, hpercent, hunderscore, huploader⟩ := of_asked
    (translatePieces_chipText .tag name) hwords hopen h hpaired hcontains
    ((trimRight_isPrefix _).trans (List.takeWhile_prefix _)) fun cl hcl => by
      refine (hfirst.column hcl).imp_left ?_
      rintro ⟨q, ss1, rfl, hq, -⟩
      exact ⟨q, _, ss1, rfl, render_postfixPieces_sex hq _ _⟩
  have hs : n.takeWhile staysInToken = n :=
    eq_of_prefix_of_prefix (trimRight_isPrefix _) (List.takeWhile_prefix _) hr
  have hcolon : "female:".toList <+: n ∨ "male:".toList <+: n := by
    rcases hfirst.column hread with ⟨q', ss1', -, hq, hpre⟩ | ⟨negative, val', hcl'⟩
    · rw [hr] at hpre
      rcases hq with rfl | rfl
      · exact .inr hpre
      · exact .inl hpre
    · cases hcl.symm.trans hcl'
  rw [hs] at hr
  refine .mk' hs hr hquote hpercent hunderscore huploader ?_
  rw [if_pos ⟨rfl, hsexed⟩]
  rwa [hn, prefix_replaceChar_iff (by decide) (by decide),
    prefix_replaceChar_iff (by decide) (by decide)] at hcolon

namespace Kept

variable (h : Kept p name)
include h

lemma takeWhile_replaceChar :
    (replaceChar ' ' '_' name).takeWhile staysInToken = replaceChar ' ' '_' name :=
  List.takeWhile_eq_self_iff.mpr h.staysInToken_replaceChar

lemma staysInToken_chipText : ∀ c ∈ chipText p name, staysInToken c = true := by
  intro c hc
  rw [chipText] at hc
  split_ifs at hc
  · exact h.staysInToken_replaceChar c hc
  · rcases List.mem_append.mp hc with hc | hc
    · exact p.staysInToken_of_mem_name c hc
    · rcases List.mem_cons.mp hc with rfl | hc
      · decide
      · exact h.staysInToken_replaceChar c hc

lemma words_chipText : words (chipText p name) = [chipText p name] := by
  by_cases hsexed : p = .tag ∧ Sexed name
  · obtain ⟨rfl, hname⟩ := hsexed
    obtain ⟨ws, hwords, hnil⟩ := words_sexed hname
    rw [hwords, hnil h.staysInToken_chipText, h.takeWhile_replaceChar, h.trimRight_replaceChar,
      chipText, if_pos ⟨rfl, hname⟩]
  · obtain ⟨ws, hwords, hnil⟩ := words_named hsexed
    rw [hwords, hnil h.staysInToken_chipText, h.takeWhile_replaceChar, h.trimRight_replaceChar,
      chipText, if_neg hsexed]

lemma searched_replaceChar : p.searched (replaceChar ' ' '_' name) = name := by
  rw [Prefix.searched_replaceChar, map_searchedChar h.underscore_notMem h.uploader]

/-- The token is read as the column of the group, and all of the name is searched for. -/
lemma exists_readToken (hp : p ≠ .male ∧ p ≠ .female) : ∃ q val ss1,
    readToken (chipText p name) = .ok (.column false q val ss1) ∧ q.column = p.column ∧
      q.collation = p.collation ∧ render (q.postfixPieces val ss1) = p.bars name := by
  have hcolon := h.colon
  by_cases hsexed : p = .tag ∧ Sexed name
  · obtain ⟨rfl, hname⟩ := hsexed
    rw [if_pos ⟨rfl, hname⟩] at hcolon
    have hread (q : Prefix) (hq : q = .male ∨ q = .female)
        (hpre : q.name ++ [':'] <+: name) : ∃ val ss1,
        readToken (chipText .tag name) = .ok (.column false q val ss1) ∧
          render (q.postfixPieces val ss1) = Prefix.tag.bars name := by
      obtain ⟨r, hr⟩ := (prefix_replaceChar_iff (by cases q <;> decide)
        (by cases q <;> decide)).mpr hpre
      rw [List.append_assoc, List.singleton_append] at hr
      have hsearched := h.searched_replaceChar
      rw [chipText, if_pos ⟨rfl, hname⟩, ← hr]
      rw [← hr] at hsearched
      refine ⟨_, _, readToken_named q r, ?_⟩
      rw [render_postfixPieces_sex hq, hsearched]
    rcases hcolon with hpre | hpre
    · obtain ⟨val, ss1, hread, hrender⟩ := hread .female (.inr rfl) hpre
      exact ⟨_, val, ss1, hread, rfl, rfl, hrender⟩
    · obtain ⟨val, ss1, hread, hrender⟩ := hread .male (.inl rfl) hpre
      exact ⟨_, val, ss1, hread, rfl, rfl, hrender⟩
  · rw [if_neg hsexed] at hcolon
    have htake : (replaceChar ' ' '_' name).takeWhile (· ≠ ':') = replaceChar ' ' '_' name := by
      refine List.takeWhile_eq_self_iff.mpr fun c hc => decide_eq_true ?_
      obtain ⟨d, hd, rfl⟩ := List.mem_map.mp hc
      split_ifs
      · decide
      · exact ne_of_mem_of_not_mem hd hcolon
    rw [chipText, if_neg hsexed]
    refine ⟨p, _, _, readToken_named p _, rfl, rfl, ?_⟩
    rw [render_postfixPieces, if_neg (by simp [hp]), htake, h.searched_replaceChar]

/-- A name that is kept is asked for as it stands. -/
theorem translate2query_chipText (hp : p ≠ .male ∧ p ≠ .female) :
    translate2query (chipText p name) = columnQuery p (p.bars name) := by
  obtain ⟨q, val, ss1, hread, hcolumn, hcollation, hrender⟩ := h.exists_readToken hp
  have hrest := render_column q val ss1 " AND ExistOnHitomi=1".toList
  rw [translate2query, translatePieces_chipText, h.words_chipText, whereLoop, hread, columnQuery_eq,
    afterColumn, ← hcolumn, ← hcollation, ← hrender, ← hrest]
  simp only [Except.map, render, List.nil_append, List.cons_append, List.flatMap_cons,
    List.flatMap_append, List.flatMap_nil, List.append_nil, Piece.text]

lemma paired_bars : paired (p.bars name) = true :=
  paired_of_notMem (Prefix.notMem_bars h.quote_notMem (by decide))

lemma likeMatch_iff : likeMatch (containsPattern (p.bars name)) text = true ↔
    Contains p name text := by
  rw [containsPattern, unpair_of_notMem (Prefix.notMem_bars h.quote_notMem (by decide)),
    likeMatch_infix_iff (Prefix.notMem_bars h.percent_notMem (by decide))
      (Prefix.notMem_bars h.underscore_notMem (by decide))]
  rfl

end Kept

/-! ### The chip of a suggestion -/

lemma eq_of_columnPrefix {group : Units} (h : columnPrefix group = some p) :
    chars group = p.name ∧ p ≠ .male ∧ p ≠ .female := by
  obtain ⟨hname, hp⟩ := Option.filter_eq_some_iff.mp h
  exact ⟨(Prefix.name_of_ofName hname).symm, of_decide_eq_true hp⟩

lemma exists_insertion {e : DisplayedTag} {group name : Units} (hgroup : e.group = some group)
    (hcolumn : columnPrefix group = some p) (hname : e.name = some name) (offset : ℤ) :
    ∃ token, insertion offset e = some token ∧ chars token = chipText p (chars name) := by
  obtain ⟨hchars, hp⟩ := eq_of_columnPrefix hcolumn
  have hgroup_iff (s : Units) : e.group = some s ↔ p.name = chars s := by
    rw [hgroup, Option.some_inj, ← hchars]
    exact (List.map_injective_iff.mpr unitChar_injective).eq_iff.symm
  have hprefix : e.group ≠ some (units "prefix") := by
    rw [ne_eq, hgroup_iff]
    cases p <;> decide
  have htag : e.group = some (units "tag") ↔ p = .tag := by
    rw [hgroup_iff]
    cases p <;> decide
  have hgetTag : chars (blankToUnderscore e.getTag) =
      p.name ++ ':' :: replaceChar ' ' '_' (chars name) := by
    rw [chars_blankToUnderscore, DisplayedTag.getTag, hgroup, hname, Option.getD_some,
      Option.getD_some, chars_append, chars_append, hchars,
      show chars (units ":") = [':'] by decide, replaceChar, List.map_append, List.map_append,
      List.append_assoc]
    congr 1
    exact replaceChar_of_notMem p.name_notMem.1
  have hsexed : (Units.startsWith name (units "female") || Units.startsWith name (units "male")) =
      true ↔ Sexed (chars name) := by
    rw [Bool.or_eq_true, startsWith_iff, startsWith_iff]
    exact Iff.rfl
  rw [insertion, if_pos hprefix, chipText]
  by_cases hp' : p = .tag
  · rw [if_pos (htag.mpr hp'), hname, Option.map_some]
    refine ⟨_, rfl, ?_⟩
    by_cases hs : Sexed (chars name)
    · rw [if_pos (hsexed.mpr hs), if_pos ⟨hp', hs⟩, chars_blankToUnderscore]
    · rw [if_neg (mt hsexed.mp hs), if_neg fun h => hs h.2, hgetTag]
  · rw [if_neg (mt htag.mp hp'), if_neg fun h => hp' h.1]
    exact ⟨_, rfl, hgetTag⟩

/-- What is found is asked for exactly when the name is kept and nothing else contains it. -/
theorem asks_iff (finds : Prefix → Str → Str → Prop)
    (hfinds : ∀ p name text, finds p name text → Contains p name text) (offset : ℤ)
    (e : DisplayedTag) :
    Asks finds offset e ↔ ∃ p name, e.group.bind columnPrefix = some p ∧ e.name = some name ∧
      Kept p (chars name) ∧
        ∀ text, Contains p (chars name) text → finds p (chars name) text := by
  constructor
  · rintro ⟨p, name, token, body, hgroup, hname, htoken, htranslate, hpaired, hrow⟩
    obtain ⟨group, hgroup, hcolumn⟩ := Option.bind_eq_some_iff.mp hgroup
    obtain ⟨hchars, hp⟩ := eq_of_columnPrefix hcolumn
    obtain ⟨token', htoken', htext⟩ := exists_insertion hgroup hcolumn hname offset
    obtain rfl := Option.some.inj (htoken'.symm.trans htoken)
    rw [htext] at htranslate
    have hlike (text : Str) : likeMatch (containsPattern body) text = true ↔
        finds p (chars name) text := by
      have hrow' := hrow fun _ => .text text
      simpa [holds_columnExpr, Value.toText] using hrow'
    have hcontains (text : Str) (h : likeMatch (containsPattern body) text = true) :
        Contains p (chars name) text := hfinds _ _ _ ((hlike text).mp h)
    have hkept : Kept p (chars name) := by
      by_cases hsexed : p = .tag ∧ Sexed (chars name)
      · obtain ⟨rfl, hsexed⟩ := hsexed
        exact kept_of_sexed hsexed htranslate hpaired hcontains
      · exact kept_of_named hsexed hp htranslate hpaired hcontains
    obtain rfl := columnQuery_injective
      (htranslate.symm.trans (hkept.translate2query_chipText hp))
    refine ⟨p, name, Option.bind_eq_some_iff.mpr ⟨group, hgroup, hcolumn⟩, hname, hkept, ?_⟩
    exact fun text htext => (hlike text).mp (hkept.likeMatch_iff.mpr htext)
  · rintro ⟨p, name, hgroup, hname, hkept, hcontains⟩
    obtain ⟨group, hgroup', hcolumn⟩ := Option.bind_eq_some_iff.mp hgroup
    obtain ⟨-, hp⟩ := eq_of_columnPrefix hcolumn
    obtain ⟨token, htoken, htext⟩ := exists_insertion hgroup' hcolumn hname offset
    refine ⟨p, name, token, p.bars (chars name), hgroup, hname, htoken, ?_, hkept.paired_bars, ?_⟩
    · rw [htext, hkept.translate2query_chipText hp]
    · intro row
      rw [holds_columnExpr, hkept.likeMatch_iff]
      exact and_congr_right fun _ => ⟨hcontains _, hfinds _ _ _⟩

lemma Asks.contains {offset : ℤ} {e : DisplayedTag} (h : Asks IsValue offset e) :
    Asks Contains offset e := by
  obtain ⟨p, name, hp, hname, hkept, -⟩ :=
    (asks_iff IsValue (fun _ _ _ h => h.contains) offset e).mp h
  refine (asks_iff Contains (fun _ _ _ h => h) offset e).mpr ⟨p, name, hp, hname, hkept, ?_⟩
  exact fun _ h => h

/-! ### Suggestions -/

/-- The chip of a suggestion asks for the name where the name is kept, and for nothing else where
moreover the column delimits its values by bars that are not in the name. -/
theorem suggestion_asks_iff {sort : DartSort} {lower : LowerCase} {tagmap : TagMap}
    {t : TagTranslate} {text : Units} {useTranslated : Bool} {results : List (DisplayedTag × ℤ)}
    (h : HitomiManager.queryAutoComplete sort lower tagmap t text useTranslated = some results)
    {e : DisplayedTag × ℤ} (he : e ∈ results) (offset : ℤ) :
    ∃ group name, e.1.group = some group ∧ e.1.name = some name ∧
      (Asks Contains offset e.1 ↔ ∃ p, columnPrefix group = some p ∧ Kept p (chars name)) ∧
      (Asks IsValue offset e.1 ↔ ∃ p, columnPrefix group = some p ∧ Kept p (chars name) ∧
        p.delimited = true ∧ '|' ∉ chars name) := by
  obtain ⟨hgroup, hname⟩ := HitomiManager.isFull_of_mem_queryAutoComplete h he
  obtain ⟨group, hgroup⟩ := Option.isSome_iff_exists.mp hgroup
  obtain ⟨name, hname⟩ := Option.isSome_iff_exists.mp hname
  have hcontains := asks_iff Contains (fun _ _ _ h => h) offset e.1
  have hvalue := asks_iff IsValue (fun _ _ _ h => h.contains) offset e.1
  simp only [hgroup, hname, Option.bind_some, Option.some.injEq] at hcontains hvalue
  refine ⟨group, name, hgroup, hname, hcontains.trans ?_, hvalue.trans ?_⟩
  · refine exists_congr fun p => ⟨?_, fun ⟨hp, hkept⟩ => ⟨name, hp, rfl, hkept, fun _ h => h⟩⟩
    rintro ⟨_, hp, rfl, hkept, -⟩
    exact ⟨hp, hkept⟩
  · simp only [isValue_of_contains_iff]
    refine exists_congr fun p => ⟨?_, fun ⟨hp, hkept, hbars⟩ => ⟨name, hp, rfl, hkept, hbars⟩⟩
    rintro ⟨_, hp, rfl, hkept, hbars⟩
    exact ⟨hp, hkept, hbars⟩

/-- An artist of two words. -/
theorem suggestion_asks_iff_twoWords :
    ∃ group name, some (units "artist") = some group ∧ some (units "a b") = some name ∧
      (Asks Contains 0 ⟨some (units "artist"), some (units "a b"), none⟩ ↔
        ∃ p, columnPrefix group = some p ∧ Kept p (chars name)) ∧
      (Asks IsValue 0 ⟨some (units "artist"), some (units "a b"), none⟩ ↔
        ∃ p, columnPrefix group = some p ∧ Kept p (chars name) ∧
          p.delimited = true ∧ '|' ∉ chars name) :=
  suggestion_asks_iff
    (show HitomiManager.queryAutoComplete insertionSort asciiLowerCase
        [(units "artist", [(units "a b", 1)])] {} (units "artist:a") false =
      some [(⟨some (units "artist"), some (units "a b"), none⟩, 1)] by decide)
    List.mem_cons_self 0

/-- The name of the series is cut off at its colon. -/
theorem not_suggestion_asks_colon :
    ¬ ∀ (sort : DartSort) (lower : LowerCase) (tagmap : TagMap) (t : TagTranslate) (text : Units)
      (useTranslated : Bool) (results : List (DisplayedTag × ℤ)) (offset : ℤ),
      HitomiManager.queryAutoComplete sort lower tagmap t text useTranslated = some results →
        ∀ e ∈ results, Asks Contains offset e.1 ∨ Asks IsValue offset e.1 := by
  intro h
  have hquery : HitomiManager.queryAutoComplete insertionSort asciiLowerCase
      [(units "series", [(units "re:zero", 1)])] {} (units "series:re") false =
        some [(⟨some (units "series"), some (units "re:zero"), none⟩, 1)] := by decide
  have hcolon (offset : ℤ) (h : Asks Contains offset
      ⟨some (units "series"), some (units "re:zero"), none⟩) : False := by
    obtain ⟨p, name, hp, hname, hkept, -⟩ := (asks_iff Contains (fun _ _ _ h => h) offset _).mp h
    obtain rfl : p = .series := Option.some.inj (hp.symm.trans (by decide))
    obtain rfl := Option.some.inj hname
    have hcolon := hkept.colon
    revert hcolon
    decide
  rcases h _ _ _ _ _ _ _ 0 hquery _ List.mem_cons_self with h | h
  · exact hcolon 0 h
  · exact hcolon 0 h.contains

end Violet
