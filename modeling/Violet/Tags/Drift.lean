import Mathlib.Data.List.Forall2
import Violet.Tags.Indexing

/-!
# Where the indices differ

The indices of the two pages agree as long as no row with tags has a character, and none has a
series where its characters are given but empty. Any other row makes them differ: a character is
counted with itself by one page only, and a series becomes a key of the characters in one page only.
-/

open Dart

namespace Indexing

variable {rel rel' rel'' : Relation} {key name k k' : Units} {keys names : List Units}
  {skip : Units → Units → Bool}

/-! ### What is in a relation -/

/-- The key has an entry. -/
def Known (rel : Relation) (k : Units) : Prop := ∃ inner, rel.get? k = some inner

/-- The key has an entry with the name. -/
def Linked (rel : Relation) (k k' : Units) : Prop :=
  ∃ inner n, rel.get? k = some inner ∧ Map.get? inner k' = some n

/-- Nothing is lost. -/
def Grows (rel rel' : Relation) : Prop :=
  (∀ k, Known rel k → Known rel' k) ∧ ∀ k k', Linked rel k k' → Linked rel' k k'

lemma Grows.refl (rel : Relation) : Grows rel rel := ⟨fun _ h => h, fun _ _ h => h⟩

lemma Grows.trans (h : Grows rel rel') (h' : Grows rel' rel'') : Grows rel rel'' :=
  ⟨fun k hk => h'.1 k (h.1 k hk), fun k k' hk => h'.2 k k' (h.2 k k' hk)⟩

lemma grows_foldl {f : Relation → Units → Relation} (hf : ∀ rel x, Grows rel (f rel x))
    (xs : List Units) (rel : Relation) : Grows rel (xs.foldl f rel) := by
  induction xs generalizing rel with
  | nil => exact .refl rel
  | cons x xs ih => exact (hf rel x).trans (ih (f rel x))

lemma get?_touch (rel : Relation) (key k : Units) :
    (touch rel key).get? k = if k = key then some ((rel.get? key).getD []) else rel.get? k := by
  rw [touch, Map.containsKey]
  cases hkey : rel.get? key with
  | none => exact Map.get?_set rel key [] k
  | some inner =>
    by_cases hk : k = key
    · simp [hk, hkey]
    · simp [hk]

lemma known_touch (rel : Relation) (key : Units) : Known (touch rel key) key :=
  ⟨_, by rw [get?_touch, if_pos rfl]⟩

lemma linked_touch_iff : Linked (touch rel key) k k' ↔ Linked rel k k' := by
  rw [Linked, Linked, get?_touch]
  by_cases hk : k = key
  · subst hk
    cases h : rel.get? k with
    | none => simp
    | some inner => simp
  · rw [if_neg hk]

lemma grows_touch (rel : Relation) (key : Units) : Grows rel (touch rel key) := by
  refine ⟨fun k ⟨inner, h⟩ => ?_, fun k k' h => linked_touch_iff.mpr h⟩
  by_cases hk : k = key
  · exact hk ▸ known_touch rel key
  · exact ⟨inner, by rw [get?_touch, if_neg hk, h]⟩

lemma linked_bumpAt_iff :
    Linked (bumpAt rel key name) k k' ↔ Linked rel k k' ∨ (k = key ∧ k' = name) := by
  rw [Linked, Linked, bumpAt, bump]
  by_cases hk : k = key
  · subst hk
    rw [Map.get?_set_self]
    by_cases hname : k' = name
    · subst hname
      simp
    · cases h : rel.get? k <;> simp [Map.get?_set_ne _ _ hname, hname]
  · rw [Map.get?_set_ne _ _ hk]
    simp [hk]

lemma grows_bumpAt (rel : Relation) (key name : Units) : Grows rel (bumpAt rel key name) := by
  refine ⟨fun k ⟨inner, h⟩ => ?_, fun k k' h => linked_bumpAt_iff.mpr (.inl h)⟩
  rw [bumpAt]
  by_cases hk : k = key
  · exact ⟨_, by rw [hk, Map.get?_set_self]⟩
  · exact ⟨inner, by rw [Map.get?_set_ne _ _ hk, h]⟩

lemma linked_names (names : List Units) (rel : Relation) :
    Linked (names.foldl (fun rel name => if skip key name then rel else bumpAt rel key name) rel)
        k k' ↔
      Linked rel k k' ∨ (k = key ∧ k' ∈ names ∧ skip k k' = false) := by
  induction names generalizing rel with
  | nil => simp
  | cons name names ih =>
    rw [List.foldl_cons, ih]
    cases hskip : skip key name with
    | true =>
      rw [if_pos rfl, List.mem_cons]
      constructor
      · exact Or.imp_right fun ⟨hk, hmem, hs⟩ => ⟨hk, .inr hmem, hs⟩
      · refine Or.imp_right fun ⟨hk, hmem, hs⟩ => ⟨hk, hmem.resolve_left ?_, hs⟩
        rintro rfl
        rw [hk, hskip] at hs
        cases hs
    | false =>
      rw [if_neg Bool.false_ne_true, linked_bumpAt_iff, List.mem_cons, or_assoc]
      refine or_congr_right ?_
      constructor
      · rintro (⟨rfl, rfl⟩ | ⟨hk, hmem, hs⟩)
        · exact ⟨rfl, .inl rfl, hskip⟩
        · exact ⟨hk, .inr hmem, hs⟩
      · rintro ⟨hk, rfl | hmem, hs⟩
        · exact .inl ⟨hk, rfl⟩
        · exact .inr ⟨hk, hmem, hs⟩

/-- The links that `relate` makes. -/
lemma linked_relate_iff :
    Linked (relate skip keys names rel) k k' ↔
      Linked rel k k' ∨ (k ∈ keys ∧ k' ∈ names ∧ skip k k' = false) := by
  rw [relate]
  induction keys generalizing rel with
  | nil => simp
  | cons key keys ih =>
    rw [List.foldl_cons, ih, linked_names, linked_touch_iff, List.mem_cons, or_assoc, or_and_right]

lemma grows_relate (skip : Units → Units → Bool) (keys names : List Units) (rel : Relation) :
    Grows rel (relate skip keys names rel) := by
  refine grows_foldl (fun rel key => (grows_touch rel key).trans ?_) keys rel
  refine grows_foldl (fun rel name => ?_) names (touch rel key)
  by_cases hskip : skip key name = true
  · rw [if_pos hskip]
    exact .refl rel
  · rw [if_neg hskip]
    exact grows_bumpAt rel key name

lemma known_relate (h : k ∈ keys) : Known (relate skip keys names rel) k := by
  rw [relate]
  induction keys generalizing rel with
  | nil => cases h
  | cons key keys ih =>
    rw [List.foldl_cons]
    rcases List.mem_cons.mp h with rfl | h
    · have hnames : Grows (touch rel k) (names.foldl
          (fun rel name => if skip k name then rel else bumpAt rel k name) (touch rel k)) := by
        refine grows_foldl (fun rel name => ?_) names (touch rel k)
        by_cases hskip : skip k name = true
        · rw [if_pos hskip]
          exact .refl rel
        · rw [if_neg hskip]
          exact grows_bumpAt rel k name
      exact (grows_relate skip keys names _).1 k (hnames.1 k (known_touch rel k))
    · exact ih h

@[simp] lemma relate_nil (skip : Units → Units → Bool) (names : List Units) (rel : Relation) :
    relate skip [] names rel = rel := rfl

/-! ### Equal indices -/

/-- The maps have the same numbers. -/
def SameCounts (m m' : Counts) : Prop := ∀ k, m.get? k = m'.get? k

/-- The maps have the same keys, with the same numbers. -/
def SameRelation (rel rel' : Relation) : Prop :=
  ∀ k, (rel.get? k).map Map.get? = (rel'.get? k).map Map.get?

end Indexing

open Indexing

namespace Index

def counts (ix : Index) : List Counts :=
  [ix.tags, ix.languages, ix.artists, ix.groups, ix.types, ix.uploaders, ix.series, ix.characters,
    ix.classes, ix.tagIndex]

def relations (ix : Index) : List Relation :=
  [ix.characterCharacter, ix.seriesCharacter, ix.characterSeries, ix.seriesSeries, ix.tagArtist,
    ix.tagGroup, ix.tagUploader, ix.tagSeries, ix.tagCharacter]

/-- All maps of the indices are the same. -/
def Same (ix ix' : Index) : Prop :=
  List.Forall₂ SameCounts ix.counts ix'.counts ∧
    List.Forall₂ SameRelation ix.relations ix'.relations

end Index

namespace Indexing

/-- The pages do the same with the row: it has no tags, or no character, nor a series beside empty
characters. -/
def Alike (item : Row) : Prop :=
  item.tags = none ∨ ∀ characters, item.characters = some characters →
    parts characters = [] ∧ ∀ series, item.series = some series → parts series = []

variable {sc sc' : List Units → List Units → Relation → Relation}
  {cc cc' : List Units → Relation → Relation} {ix : Index} {item : Row} {rows : List Row}

lemma same_refl (ix : Index) : ix.Same ix :=
  ⟨List.forall₂_same.mpr fun _ _ _ => rfl, List.forall₂_same.mpr fun _ _ _ => rfl⟩

lemma SameRelation.known (h : SameRelation rel rel') (hk : Known rel k) : Known rel' k := by
  obtain ⟨inner, hinner⟩ := hk
  have hsame := h k
  rw [hinner, Option.map_some] at hsame
  obtain ⟨inner', h', -⟩ := Option.map_eq_some_iff.mp hsame.symm
  exact ⟨inner', h'⟩

lemma SameRelation.linked (h : SameRelation rel rel') (hk : Linked rel k k') :
    Linked rel' k k' := by
  obtain ⟨inner, n, hinner, hn⟩ := hk
  have hsame := h k
  rw [hinner, Option.map_some] at hsame
  obtain ⟨inner', h', heq⟩ := Option.map_eq_some_iff.mp hsame.symm
  exact ⟨inner', n, h', by rw [heq, hn]⟩

lemma characterCharacter_indexRow :
    (indexRow sc cc ix item).characterCharacter =
      match item.tags, item.characters with
      | some _, some characters => cc (parts characters) ix.characterCharacter
      | _, _ => ix.characterCharacter := by
  rw [indexRow]
  cases item.tags <;> cases item.characters <;> rfl

lemma seriesCharacter_indexRow :
    (indexRow sc cc ix item).seriesCharacter =
      match item.tags, item.series, item.characters with
      | some _, some series, some characters =>
        sc (parts series) (parts characters) ix.seriesCharacter
      | _, _, _ => ix.seriesCharacter := by
  rw [indexRow]
  cases item.tags <;> cases item.series <;> cases item.characters <;> rfl

lemma foldl_invariant {P : Index → Prop} (h0 : P ix)
    (hstep : ∀ ix, ∀ item ∈ rows, P ix → P (indexRow sc cc ix item)) :
    P (rows.foldl (indexRow sc cc) ix) := by
  induction rows generalizing ix with
  | nil => exact h0
  | cons item rows ih =>
    exact ih (hstep ix item List.mem_cons_self h0) fun ix item' h =>
      hstep ix item' (List.mem_cons_of_mem item h)

/-- What a row makes true stays true. -/
lemma foldl_of_mem {P : Index → Prop} (hmem : item ∈ rows)
    (hitem : ∀ ix, P (indexRow sc cc ix item))
    (hstep : ∀ ix item, P ix → P (indexRow sc cc ix item)) :
    P (rows.foldl (indexRow sc cc) ix) := by
  obtain ⟨before, rest, rfl⟩ := List.append_of_mem hmem
  rw [List.foldl_append, List.foldl_cons]
  exact foldl_invariant (hitem _) fun ix item _ => hstep ix item

lemma indexRow_eq_of_alike (h : Alike item) (ix : Index) :
    indexRow DataBaseDownloadPage.seriesCharacter DataBaseDownloadPage.characterCharacter ix item =
      indexRow TagRebuildPage.seriesCharacter TagRebuildPage.characterCharacter ix item := by
  rcases h with htags | h
  · rw [indexRow, indexRow, htags]
    rfl
  · cases hcharacters : item.characters with
    | none =>
      rw [indexRow, indexRow, hcharacters]
      cases item.series <;> rfl
    | some characters =>
      obtain ⟨hparts, hseries⟩ := h characters hcharacters
      cases hs : item.series with
      | none =>
        rw [indexRow, indexRow, hcharacters, hs]
        simp only [hparts]
        rfl
      | some series =>
        rw [indexRow, indexRow, hcharacters, hs]
        simp only [hparts, hseries series hs]
        rfl

/-- A character is counted with itself by the page of the downloads. -/
lemma linked_self_of_mem (hmem : item ∈ rows) (htags : item.tags ≠ none) {characters : Units}
    (hcharacters : item.characters = some characters) {c : Units} (hc : c ∈ parts characters) :
    Linked (rows.foldl (indexRow sc DataBaseDownloadPage.characterCharacter) ix).characterCharacter
      c c := by
  obtain ⟨tags, htags⟩ := Option.ne_none_iff_exists'.mp htags
  refine foldl_of_mem (P := fun ix => Linked ix.characterCharacter c c) hmem (fun ix => ?_)
    fun ix item h => ?_
  · rw [characterCharacter_indexRow, htags, hcharacters]
    exact linked_relate_iff.mpr (.inr ⟨hc, hc, rfl⟩)
  · rw [characterCharacter_indexRow]
    cases item.tags <;> cases item.characters <;> try exact h
    exact (grows_relate never _ _ _).2 c c h

/-- No character is counted with itself by the page of the settings. -/
lemma not_linked_self (c : Units) (h0 : ¬ Linked ix.characterCharacter c c) :
    ¬ Linked (rows.foldl (indexRow sc TagRebuildPage.characterCharacter) ix).characterCharacter
      c c := by
  refine foldl_invariant (P := fun ix => ¬ Linked ix.characterCharacter c c) h0 ?_
  intro ix item _ h
  rw [characterCharacter_indexRow]
  cases item.tags <;> cases item.characters <;> try exact h
  refine fun hlinked => (linked_relate_iff.mp hlinked).elim h ?_
  rintro ⟨-, -, hskip⟩
  simp at hskip

/-- A series beside characters is a key for the page of the downloads. -/
lemma known_of_mem (hmem : item ∈ rows) (htags : item.tags ≠ none) {series characters : Units}
    (hseries : item.series = some series) (hcharacters : item.characters = some characters)
    {s : Units} (hs : s ∈ parts series) :
    Known (rows.foldl (indexRow DataBaseDownloadPage.seriesCharacter cc) ix).seriesCharacter s := by
  obtain ⟨tags, htags⟩ := Option.ne_none_iff_exists'.mp htags
  refine foldl_of_mem (P := fun ix => Known ix.seriesCharacter s) hmem (fun ix => ?_)
    fun ix item h => ?_
  · rw [seriesCharacter_indexRow, htags, hseries, hcharacters]
    exact known_relate hs
  · rw [seriesCharacter_indexRow]
    cases item.tags <;> cases item.series <;> cases item.characters <;> try exact h
    exact (grows_relate never _ _ _).1 s h

/-- Without characters nothing is a key for the page of the settings. -/
lemma seriesCharacter_nil (h0 : ix.seriesCharacter = [])
    (hrows : ∀ item ∈ rows, item.tags ≠ none → ∀ characters, item.characters = some characters →
      parts characters = []) :
    (rows.foldl (indexRow TagRebuildPage.seriesCharacter cc) ix).seriesCharacter = [] := by
  refine foldl_invariant (P := fun ix => ix.seriesCharacter = []) h0 ?_
  intro ix item hmem h
  have hparts := hrows item hmem
  rw [seriesCharacter_indexRow]
  cases htags : item.tags <;> cases hseries : item.series <;>
    cases hcharacters : item.characters <;> try exact h
  show TagRebuildPage.seriesCharacter _ (parts _) ix.seriesCharacter = []
  rw [hparts (by simp [htags]) _ hcharacters]
  exact h

/-- The pages build the same indices exactly when all rows are alike to them. -/
theorem same_indexing_iff (pages : List (List Row)) :
    (DataBaseDownloadPage.indexing pages).Same (TagRebuildPage.indexing pages) ↔
      ∀ item ∈ delivered pages, Alike item := by
  rw [DataBaseDownloadPage.indexing, TagRebuildPage.indexing]
  generalize delivered pages = rows
  constructor
  · rintro ⟨-, hrelations⟩
    obtain ⟨hcharacter, hrest⟩ := List.forall₂_cons.mp hrelations
    obtain ⟨hseries, -⟩ := List.forall₂_cons.mp hrest
    have hparts : ∀ item ∈ rows, item.tags ≠ none → ∀ characters,
        item.characters = some characters → parts characters = [] := by
      intro item hmem htags characters hcharacters
      rw [List.eq_nil_iff_forall_not_mem]
      intro c hc
      refine not_linked_self c ?_ (hcharacter.linked (linked_self_of_mem hmem htags hcharacters hc))
      rintro ⟨_, _, h, -⟩
      cases h
    intro item hmem
    by_cases htags : item.tags = none
    · exact .inl htags
    refine .inr fun characters hcharacters => ⟨hparts item hmem htags characters hcharacters, ?_⟩
    intro series hs
    rw [List.eq_nil_iff_forall_not_mem]
    intro s hmem'
    obtain ⟨inner, hinner⟩ := hseries.known (known_of_mem hmem htags hs hcharacters hmem')
    rw [seriesCharacter_nil rfl hparts] at hinner
    cases hinner
  · intro h
    have hfold (ix : Index) :
        rows.foldl (indexRow DataBaseDownloadPage.seriesCharacter
            DataBaseDownloadPage.characterCharacter) ix =
          rows.foldl (indexRow TagRebuildPage.seriesCharacter
            TagRebuildPage.characterCharacter) ix := by
      induction rows generalizing ix with
      | nil => rfl
      | cons item rows ih =>
        rw [List.foldl_cons, List.foldl_cons, indexRow_eq_of_alike (h item List.mem_cons_self)]
        exact ih (fun item' hmem => h item' (List.mem_cons_of_mem item hmem)) _
    rw [hfold]
    exact same_refl _

/-- A row with one tag and one character. -/
theorem not_same_indexing_character :
    ¬ (DataBaseDownloadPage.indexing
        [[{ tags := some (units "a"), characters := some (units "b") }], []]).Same
      (TagRebuildPage.indexing
        [[{ tags := some (units "a"), characters := some (units "b") }], []]) := by
  rintro ⟨-, hrelations⟩
  have hself := (List.forall₂_cons.mp hrelations).1 (units "b")
  have hone := congrArg (Option.map fun numbers => numbers (units "b")) hself
  revert hone
  decide

end Indexing
