import Mathlib.Data.Set.Function
import Mathlib.Order.Interval.Set.Defs
import Violet.Tags.Drift

/-!
# What holds of the indices

In the indices of the settings page the tags are numbered from zero, relations to tags name them by
these numbers, the relation of the series to the characters is the transpose of the one of the
characters to the series, and the relations of series and of characters among themselves are
symmetric.
-/

open Dart

namespace Indexing

variable {m m' : Counts} {rel rel' : Relation} {key name k k' tag : Units}
  {keys names tags : List Units} {skip : Units → Units → Bool} {i n : ℕ}

/-! ### Numbered tags -/

/-- The tags are different, and each has the number of tags before it. -/
structure Numbered (m : Counts) : Prop where
  nodup : m.keys.Nodup
  values : m.map Prod.snd = List.range m.length

/-- The tags keep their numbers. -/
def Extends (m m' : Counts) : Prop := ∀ tag i, m.get? tag = some i → m'.get? tag = some i

/-- The names in the relation are the numbers of tags. -/
def NamesTags (m : Counts) (rel : Relation) : Prop :=
  ∀ k k', Linked rel k k' → ∃ tag i, m.get? tag = some i ∧ k' = Units.ofNat i

lemma Extends.refl (m : Counts) : Extends m m := fun _ _ h => h

lemma Extends.trans {m'' : Counts} (h : Extends m m') (h' : Extends m' m'') : Extends m m'' :=
  fun tag i hi => h' tag i (h tag i hi)

lemma NamesTags.mono (h : NamesTags m rel) (hm : Extends m m') : NamesTags m' rel := by
  intro k k' hlinked
  obtain ⟨tag, i, hi, rfl⟩ := h k k' hlinked
  exact ⟨tag, i, hm tag i hi, rfl⟩

lemma Numbered.addTag (h : Numbered m) (tag : Units) : Numbered (addTag m tag) := by
  rw [Indexing.addTag]
  cases hcontains : m.containsKey tag with
  | true => exact h
  | false =>
    rw [if_neg Bool.false_ne_true]
    refine ⟨Map.nodup_set h.nodup tag m.length, ?_⟩
    rw [Map.set_of_notMem (Map.containsKey_eq_false_iff.mp hcontains), List.map_append, h.values,
      List.length_append]
    exact List.range_succ.symm

lemma extends_addTag (m : Counts) (tag : Units) : Extends m (addTag m tag) := by
  intro tag' i hi
  rw [addTag]
  cases hcontains : m.containsKey tag with
  | true => exact hi
  | false =>
    have hne : tag' ≠ tag := by
      rintro rfl
      rw [Map.containsKey, hi] at hcontains
      cases hcontains
    rw [if_neg Bool.false_ne_true, Map.get?_set_ne _ _ hne, hi]

/-- The tag has a number afterwards. -/
lemma exists_get?_addTag (m : Counts) (tag : Units) : ∃ i, (addTag m tag).get? tag = some i := by
  rw [addTag]
  cases hcontains : m.containsKey tag with
  | true => exact Option.isSome_iff_exists.mp hcontains
  | false => exact ⟨m.length, Map.get?_set_self m tag m.length⟩

lemma namesTags_touch (h : NamesTags m rel) (names : List Units) :
    NamesTags m (names.foldl touch rel) := by
  induction names generalizing rel with
  | nil => exact h
  | cons name names ih => exact ih fun k k' hlinked => h k k' (linked_touch_iff.mp hlinked)

lemma namesTags_bumpAt (h : NamesTags m rel) (hi : m.get? tag = some i) (names : List Units) :
    NamesTags m (names.foldl (fun rel name => bumpAt rel name (Units.ofNat i)) rel) := by
  induction names generalizing rel with
  | nil => exact h
  | cons name names ih =>
    refine ih fun k k' hlinked => ?_
    rcases linked_bumpAt_iff.mp hlinked with hlinked | ⟨-, rfl⟩
    · exact h k k' hlinked
    · exact ⟨tag, i, hi, rfl⟩

/-- What is kept while a row is related to its tags. -/
structure Related (m : Counts) (r : Counts × Relation) : Prop where
  numbered : Numbered r.1
  grows : Extends m r.1
  names : NamesTags r.1 r.2

lemma related_relateTags (h : Numbered m) (hrel : NamesTags m rel) (names tags : List Units) :
    Related m (relateTags names tags m rel) := by
  have hfold (r : Counts × Relation) (hr : Related m r) : Related m (tags.foldl
      (fun r tag =>
        let tagIndex := addTag r.1 tag
        let index := Units.ofNat ((tagIndex.get? tag).getD 0)
        (tagIndex, names.foldl (fun rel name => bumpAt rel name index) r.2)) r) := by
    induction tags generalizing r with
    | nil => exact hr
    | cons tag tags ih =>
      refine ih _ ⟨hr.numbered.addTag tag, hr.grows.trans (extends_addTag r.1 tag), ?_⟩
      obtain ⟨i, hi⟩ := exists_get?_addTag r.1 tag
      simp only [hi, Option.getD_some]
      exact namesTags_bumpAt (hr.names.mono (extends_addTag r.1 tag)) hi names
  exact hfold _ ⟨h, .refl m, namesTags_touch hrel names⟩

/-- The numbers are those from zero, each given once. -/
lemma Numbered.bijOn (h : Numbered m) :
    Set.BijOn (fun tag => (m.get? tag).getD 0) {tag | tag ∈ m.keys} (Set.Iio m.length) := by
  have hget {e : Units × ℕ} (he : e ∈ m) : m.get? e.1 = some e.2 :=
    (Map.mem_iff_get? h.nodup).mp he
  have hinj {e e' : Units × ℕ} (he : e ∈ m) (he' : e' ∈ m) (heq : e.2 = e'.2) : e = e' :=
    List.inj_on_of_nodup_map (h.values ▸ List.nodup_range) he he' heq
  refine ⟨?_, ?_, ?_⟩
  · intro tag htag
    obtain ⟨e, he, rfl⟩ := List.mem_map.mp htag
    have hvalue : e.2 ∈ m.map Prod.snd := List.mem_map_of_mem he
    rw [h.values, List.mem_range] at hvalue
    simpa [hget he] using hvalue
  · intro tag htag tag' htag' heq
    obtain ⟨e, he, rfl⟩ := List.mem_map.mp htag
    obtain ⟨e', he', rfl⟩ := List.mem_map.mp htag'
    simp only [hget he, hget he', Option.getD_some] at heq
    rw [hinj he he' heq]
  · intro i hi
    have hvalue : i ∈ m.map Prod.snd := h.values ▸ List.mem_range.mpr hi
    obtain ⟨e, he, rfl⟩ := List.mem_map.mp hvalue
    exact ⟨e.1, List.mem_map_of_mem he, by simp [hget he]⟩

/-! ### Numbers of pairs -/

/-- The number of common occurrences, where `none` says that there is no entry. -/
def pair (rel : Relation) (k k' : Units) : Option ℕ := (rel.get? k).bind fun m => Map.get? m k'

/-- Some more occurrences. Without any, no entry is made. -/
def plus (o : Option ℕ) (n : ℕ) : Option ℕ := if n = 0 then o else some (o.getD 0 + n)

@[simp] lemma plus_zero (o : Option ℕ) : plus o 0 = o := rfl

lemma plus_plus (o : Option ℕ) (m n : ℕ) : plus (plus o m) n = plus o (m + n) := by
  rcases m with _ | m
  · rw [plus_zero, Nat.zero_add]
  rcases n with _ | n
  · rfl
  simp only [plus, Nat.add_eq_zero_iff, Nat.succ_ne_zero, if_false, and_false, Option.getD_some,
    Nat.add_assoc]

lemma pair_touch (rel : Relation) (key k k' : Units) :
    pair (touch rel key) k k' = pair rel k k' := by
  rw [pair, pair, get?_touch]
  by_cases hk : k = key
  · subst hk
    cases rel.get? k <;> simp
  · rw [if_neg hk]

lemma pair_bumpAt (rel : Relation) (key name k k' : Units) :
    pair (bumpAt rel key name) k k' =
      plus (pair rel k k') (if k = key ∧ k' = name then 1 else 0) := by
  rw [pair, pair, bumpAt, bump]
  by_cases hk : k = key
  · subst hk
    rw [Map.get?_set_self, Option.bind_some]
    by_cases hname : k' = name
    · subst hname
      cases h : rel.get? k <;> simp [plus]
    · cases h : rel.get? k <;> simp [Map.get?_set_ne _ _ hname, hname]
  · rw [Map.get?_set_ne _ _ hk]
    simp [hk]

lemma pair_names (names : List Units) (rel : Relation) :
    pair (names.foldl (fun rel name => if skip key name then rel else bumpAt rel key name) rel)
        k k' =
      plus (pair rel k k') (if k = key ∧ skip k k' = false then names.count k' else 0) := by
  induction names generalizing rel with
  | nil => simp
  | cons name names ih =>
    rw [List.foldl_cons, ih]
    cases hskip : skip key name with
    | true =>
      rw [if_pos rfl]
      by_cases hk : k = key ∧ skip k k' = false
      · have hne : name ≠ k' := by
          rintro rfl
          rw [hk.1, hskip] at hk
          cases hk.2
        rw [if_pos hk, if_pos hk, List.count_cons_of_ne hne]
      · rw [if_neg hk, if_neg hk]
    | false =>
      rw [if_neg Bool.false_ne_true, pair_bumpAt, plus_plus]
      congr 1
      by_cases hk : k = key
      · subst hk
        by_cases hname : k' = name
        · subst hname
          simp [hskip, Nat.add_comm]
        · simp [hname, List.count_cons_of_ne (Ne.symm hname)]
      · simp [hk]

/-- A pair is counted as often as its key and its name stand beside each other. -/
lemma pair_relate (skip : Units → Units → Bool) (keys names : List Units) (rel : Relation)
    (k k' : Units) :
    pair (relate skip keys names rel) k k' =
      plus (pair rel k k') (if skip k k' then 0 else keys.count k * names.count k') := by
  rw [relate]
  induction keys generalizing rel with
  | nil => simp
  | cons key keys ih =>
    rw [List.foldl_cons, ih, pair_names, pair_touch, plus_plus]
    congr 1
    cases hskip : skip k k' with
    | true => simp
    | false =>
      by_cases hk : k = key
      · subst hk
        simp [Nat.succ_mul, Nat.add_comm]
      · simp [hk, List.count_cons_of_ne (Ne.symm hk)]

/-- The same numbers, the other way round. -/
def Transposed (rel rel' : Relation) : Prop := ∀ k k', pair rel k k' = pair rel' k' k

lemma Transposed.relate (h : Transposed rel rel') {skip skip' : Units → Units → Bool}
    (hskip : ∀ k k', skip k k' = skip' k' k) (keys names : List Units) :
    Transposed (Indexing.relate skip keys names rel) (Indexing.relate skip' names keys rel') := by
  intro k k'
  rw [pair_relate, pair_relate, h k k', hskip k k', Nat.mul_comm]

lemma pair_self_relate (h : ∀ k, pair rel k k = none) (hskip : ∀ k, skip k k = true)
    (keys names : List Units) (k : Units) : pair (relate skip keys names rel) k k = none := by
  rw [pair_relate, h k, hskip k]
  rfl

end Indexing

open Indexing

namespace Index

/-- The relations of names to tags. -/
def tagRelations (ix : Index) : List Relation :=
  [ix.tagArtist, ix.tagGroup, ix.tagUploader, ix.tagSeries, ix.tagCharacter]

/-- The tags are numbered from zero, and the relations name them by their numbers. -/
structure TagsNumbered (ix : Index) : Prop where
  bijOn : Set.BijOn (fun tag => (ix.tagIndex.get? tag).getD 0) {tag | tag ∈ ix.tagIndex.keys}
    (Set.Iio ix.tagIndex.length)
  names : ∀ rel ∈ ix.tagRelations, ∀ name numbers, rel.get? name = some numbers →
    ∀ number ∈ Map.keys numbers, ∃ tag i, ix.tagIndex.get? tag = some i ∧ number = Units.ofNat i

/-- The two relations between series and characters are transposes of each other. Among themselves,
series and characters are related both ways alike, and none to itself. -/
structure PairsMatch (ix : Index) : Prop where
  transposed : Transposed ix.seriesCharacter ix.characterSeries
  series : Transposed ix.seriesSeries ix.seriesSeries
  characters : Transposed ix.characterCharacter ix.characterCharacter
  series_self : ∀ k, pair ix.seriesSeries k k = none
  characters_self : ∀ k, pair ix.characterCharacter k k = none

end Index

namespace TagRebuildPage

variable {ix : Index} {item : Row}

/-! ### One row -/

/-- The tags are numbered, and the relations to the tags know them. -/
structure KeepsNumbers (ix : Index) : Prop where
  numbered : Numbered ix.tagIndex
  names : ∀ rel ∈ ix.tagRelations, NamesTags ix.tagIndex rel

lemma related_column {m : Counts} {rel : Relation} (h : Numbered m) (hrel : NamesTags m rel)
    (names : Units → List Units) (tags : List Units) (column : Option Units) :
    Related m (match column with
      | none => (m, rel)
      | some column => relateTags (names column) tags m rel) := by
  cases column with
  | none => exact ⟨h, .refl m, hrel⟩
  | some column => exact related_relateTags h hrel (names column) tags

lemma keepsNumbers_indexRow (h : KeepsNumbers ix) (item : Row) :
    KeepsNumbers (indexRow seriesCharacter characterCharacter ix item) := by
  obtain ⟨hnumbered, hnames⟩ := h
  simp only [Index.tagRelations, List.forall_mem_cons, List.not_mem_nil, false_imp_iff,
    implies_true, and_true] at hnames
  obtain ⟨hartist, hgroup, huploader, hseries, hcharacter⟩ := hnames
  rw [indexRow]
  cases item.tags with
  | none =>
    refine ⟨hnumbered, ?_⟩
    simp [Index.tagRelations, hartist, hgroup, huploader, hseries, hcharacter]
  | some tags =>
    have h1 := related_relateTags hnumbered hartist (parts item.artists) (parts tags)
    have h2 := related_column h1.numbered (hgroup.mono h1.grows) parts (parts tags) item.groups
    have h3 := related_column h2.numbered ((huploader.mono h1.grows).mono h2.grows)
      (fun uploader => [uploader]) (parts tags) item.uploader
    have h4 := related_column h3.numbered
      (((hseries.mono h1.grows).mono h2.grows).mono h3.grows) parts (parts tags) item.series
    have h5 := related_column h4.numbered
      ((((hcharacter.mono h1.grows).mono h2.grows).mono h3.grows).mono h4.grows) parts (parts tags)
      item.characters
    refine ⟨h5.numbered, ?_⟩
    simp only [Index.tagRelations, List.forall_mem_cons, List.not_mem_nil, false_imp_iff,
      implies_true, and_true]
    exact ⟨(((h1.names.mono h2.grows).mono h3.grows).mono h4.grows).mono h5.grows,
      ((h2.names.mono h3.grows).mono h4.grows).mono h5.grows,
      (h3.names.mono h4.grows).mono h5.grows, h4.names.mono h5.grows, h5.names⟩

lemma characterSeries_indexRow :
    (indexRow seriesCharacter characterCharacter ix item).characterSeries =
      match item.tags, item.series, item.characters with
      | some _, some series, some characters =>
        relate never (parts series) (parts characters) ix.characterSeries
      | _, _, _ => ix.characterSeries := by
  rw [indexRow]
  cases item.tags <;> cases item.series <;> cases item.characters <;> rfl

lemma seriesSeries_indexRow :
    (indexRow seriesCharacter characterCharacter ix item).seriesSeries =
      match item.tags, item.series with
      | some _, some series =>
        relate (fun series series2 => series == series2) (parts series) (parts series)
          ix.seriesSeries
      | _, _ => ix.seriesSeries := by
  rw [indexRow]
  cases item.tags <;> cases item.series <;> rfl

lemma pairsMatch_indexRow (h : ix.PairsMatch) (item : Row) :
    (indexRow seriesCharacter characterCharacter ix item).PairsMatch := by
  have hself (k : Units) : (k == k) = true := beq_self_eq_true k
  have hcomm (k k' : Units) : (k == k') = (k' == k) := BEq.comm
  constructor
  · rw [seriesCharacter_indexRow, characterSeries_indexRow]
    cases item.tags <;> cases item.series <;> cases item.characters <;> try exact h.transposed
    exact h.transposed.relate (fun _ _ => rfl) _ _
  · rw [seriesSeries_indexRow]
    cases item.tags <;> cases item.series <;> try exact h.series
    exact h.series.relate hcomm _ _
  · rw [characterCharacter_indexRow]
    cases item.tags <;> cases item.characters <;> try exact h.characters
    exact h.characters.relate hcomm _ _
  · rw [seriesSeries_indexRow]
    cases item.tags <;> cases item.series <;> try exact h.series_self
    exact pair_self_relate h.series_self hself _ _
  · rw [characterCharacter_indexRow]
    cases item.tags <;> cases item.characters <;> try exact h.characters_self
    exact pair_self_relate h.characters_self hself _ _

/-! ### All rows -/

lemma KeepsNumbers.tagsNumbered (h : KeepsNumbers ix) : ix.TagsNumbered := by
  refine ⟨h.numbered.bijOn, ?_⟩
  intro rel hrel name numbers hname number hnumber
  have hlinked : Linked rel name number := by
    cases hget : Map.get? numbers number with
    | none => exact absurd hnumber (Map.get?_eq_none_iff.mp hget)
    | some n => exact ⟨numbers, n, hname, hget⟩
  exact h.names rel hrel name number hlinked

/-- The indices of any rows are numbered and match. -/
theorem tagsNumbered_pairsMatch_indexing (pages : List (List Row)) :
    (indexing pages).TagsNumbered ∧ (indexing pages).PairsMatch := by
  have hempty (k k' : Units) : ¬ Linked [] k k' := by
    rintro ⟨_, _, h, -⟩
    cases h
  have hnumbers : KeepsNumbers (indexing pages) := by
    refine foldl_invariant ⟨⟨List.nodup_nil, rfl⟩, ?_⟩ fun ix item _ h =>
      keepsNumbers_indexRow h item
    intro rel hrel k k' hlinked
    have hnil : rel = [] := by
      simpa [Index.tagRelations] using hrel
    exact absurd (hnil ▸ hlinked) (hempty k k')
  have hpairs : (indexing pages).PairsMatch :=
    foldl_invariant ⟨fun _ _ => rfl, fun _ _ => rfl, fun _ _ => rfl, fun _ => rfl, fun _ => rfl⟩
      fun ix item _ h => pairsMatch_indexRow h item
  exact ⟨hnumbers.tagsNumbered, hpairs⟩

end TagRebuildPage
