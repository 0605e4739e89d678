import Violet.Bookmark.Concurrent

/-!
# Articles that the cache knows

Whatever the operations do, and whether their writes succeed or fail, the cache of the articles,
when it is there, knows every article with a bookmark. All that is asked of the callers is that they
add articles by their numbers.
-/

namespace Violet

open Dart Method Transition

namespace Bookmark

variable (writable : Bool) {s t : Bookmark} {ids : Finset ℤ}

/-! ### Methods that leave the articles alone -/

/-- The table of the articles and its cache. -/
def articlePart (s : Bookmark) : KeyedTable BookmarkArticle × Option (Finset ℤ) :=
  (s.db.articles, s.bookmarkSet)

lemma frames_write {f : UserDatabase → UserDatabase} (hf : ∀ db, (f db).articles = db.articles) :
    Frames articlePart (write writable f) := by
  intro s
  cases writable with
  | false => rfl
  | true => exact Prod.ext (hf s.db) rfl

lemma frames_addArtist (name : Str) (type : ℤ) : Frames articlePart (addArtist name type) := by
  apply frames_get_bind
  intro s
  split <;> rfl

lemma frames_addArtistAll (artists : List BookmarkArtist) :
    Frames articlePart (addArtistAll artists) := by
  induction artists with
  | nil => exact frames_pure ()
  | cons row rest ih => exact (frames_addArtist row.artist row.type).bind fun _ => ih

lemma frames_isBookmarkArtist (name : Str) (type : ℤ) :
    Frames articlePart (isBookmarkArtist name type) := by
  apply Frames.bind
  · apply frames_get_bind
    intro s
    split_ifs
    · rw [exec_set_bind]
      exact frames_addArtistAll _ _
    · rfl
  · intro _
    apply frames_get_bind
    intro s
    split <;> rfl

lemma frames_removeArtist (name : Str) (type : ℤ) :
    Frames articlePart (removeArtist name type) := by
  apply frames_get_bind
  intro s
  split <;> rfl

lemma frames_insertArtist (artist : Str) (isgroup : ℤ) (datetime : Str) (group : ℤ) :
    Frames articlePart (insertArtist writable artist isgroup datetime group) :=
  (frames_write writable (by intro _; rfl)).bind fun _ => frames_addArtist artist isgroup

lemma frames_addUser (user : Str) : Frames articlePart (addUser user) := by
  apply frames_get_bind
  intro s
  split <;> rfl

lemma frames_isBookmarkUser (user : Str) : Frames articlePart (isBookmarkUser user) := by
  apply Frames.bind
  · apply frames_modify
    intro s
    split_ifs <;> rfl
  · intro _
    apply frames_get_bind
    intro s
    split <;> rfl

lemma frames_removeUser (user : Str) : Frames articlePart (removeUser user) := by
  apply frames_get_bind
  intro s
  split <;> rfl

lemma frames_insertUser (user datetime : Str) (group : ℤ) :
    Frames articlePart (insertUser writable user datetime group) :=
  (frames_write writable (by intro _; rfl)).bind fun _ => frames_addUser user

lemma frames_getGroup : Frames articlePart (getGroup writable) := by
  apply frames_get_bind
  intro s
  refine Frames.bind (frames_modify fun s => ?_) (fun _ => frames_pure _) s
  split_ifs <;> rfl

lemma frames_moveGroup (up : Bool) (steps place : ℕ) (groups : List BookmarkGroup) :
    Frames articlePart (moveGroup writable up steps place groups) := by
  induction steps generalizing place groups with
  | zero => exact frames_pure _
  | succ steps ih =>
    rw [moveGroup]
    split
    · exact (frames_write writable (by intro _; rfl)).bind fun _ => ih _ _
    · exact frames_failure

/-! ### Articles with a number -/

/-- The articles in the table are numbers, and the cache knows those that are written as `toString`
writes them. -/
def Covered (part : KeyedTable BookmarkArticle × Option (Finset ℤ)) : Prop :=
  (∀ row ∈ part.1.rows, (intTryParse row.article).isSome) ∧
    ∀ ids ∈ part.2, ∀ row ∈ part.1.rows, ∀ id : DartInt, row.article = intToString id → id.1 ∈ ids

/-- The cache knows the articles. -/
def CoversArticles (s : Bookmark) : Prop := Covered s.articlePart

lemma covered_mono {rows : KeyedTable BookmarkArticle} {ids' : Finset ℤ}
    (h : Covered (rows, some ids)) (hsub : ids ⊆ ids') : Covered (rows, some ids') := by
  refine ⟨h.1, fun ids'' hids row hrow id hid => ?_⟩
  cases hids
  exact hsub (h.2 ids rfl row hrow id hid)

/-- The cache is filled, and then there. -/
lemma exec_isBookmark_of_covers (h : CoversArticles s) (id : DartInt) :
    ∃ ids, (isBookmark id).exec s =
        (some (decide (id.1 ∈ ids)), { s with bookmarkSet := some ids }) ∧
      Covered (s.db.articles, some ids) := by
  obtain ⟨hparse, hknown⟩ := h
  cases hset : s.bookmarkSet with
  | some ids =>
    refine ⟨ids, ?_, hparse, ?_⟩
    · have hs : { s with bookmarkSet := some ids } = s := by rw [← hset]
      rw [hs]
      simp [isBookmark, fillBookmarkSet, hset]
    · intro ids' hids
      cases hids
      exact hknown ids hset
  | none =>
    have hall : ∀ a ∈ s.db.articles.rows.map BookmarkArticle.article, (intTryParse a).isSome := by
      simpa [articlePart] using hparse
    let filled : Finset ℤ :=
      ∅ ∪ ((s.db.articles.rows.map BookmarkArticle.article).filterMap intTryParse).toFinset
    have hfill : fillBookmarkSet.exec s = (some (), { s with bookmarkSet := some filled }) := by
      have hadd := exec_addParsedAll (s := { s with bookmarkSet := some ∅ }) rfl hall
      simp [fillBookmarkSet, hset, hadd, filled]
    refine ⟨filled, ?_, hparse, ?_⟩
    · simp [isBookmark, exec_bind_of_some hfill]
    · intro ids hids row hrow id hid
      cases hids
      simp only [filled, Finset.empty_union, List.mem_toFinset, List.mem_filterMap, List.mem_map]
      exact ⟨row.article, ⟨row, hrow, rfl⟩, hid ▸ intTryParse_intToString id.2.1 id.2.2⟩

lemma covers_isBookmark (h : CoversArticles s) (id : DartInt) :
    CoversArticles ((isBookmark id).exec s).2 := by
  obtain ⟨ids, hexec, hcovered⟩ := exec_isBookmark_of_covers h id
  rw [hexec]
  exact hcovered

/-! ### Runs -/

lemma covers_addParsed (hparse : ∀ row ∈ s.db.articles.rows, (intTryParse row.article).isSome)
    {article : Str} {n : ℤ} (hn : intTryParse article = some n)
    (hknown : ∀ ids ∈ s.bookmarkSet, ∀ row ∈ s.db.articles.rows, ∀ id : DartInt,
      row.article = intToString id → id.1 ∈ ids ∨ row.article = article) :
    CoversArticles ((addParsed article).exec s).2 := by
  cases hset : s.bookmarkSet with
  | none =>
    have hexec : (addParsed article).exec s = (none, s) := by simp [addParsed, hn, addArticle, hset]
    rw [hexec]
    refine ⟨hparse, fun ids hids => ?_⟩
    rw [articlePart, hset] at hids
    cases hids
  | some ids =>
    rw [exec_addParsed hset hn]
    refine ⟨hparse, fun ids' hids row hrow id hid => ?_⟩
    cases hids
    rcases hknown ids hset row hrow id hid with hin | rfl
    · exact Finset.mem_insert_of_mem hin
    · rw [hid, intTryParse_intToString id.2.1 id.2.2] at hn
      exact Option.some.inj hn ▸ Finset.mem_insert_self _ ids

/-- Whether the insertion fails or not. -/
lemma covers_insertArticle (h : CoversArticles s) {article : Str}
    (harticle : (intTryParse article).isSome) (datetime : Str) (group : ℤ) :
    CoversArticles ((insertArticle writable article datetime group).exec s).2 := by
  cases writable with
  | false => exact h
  | true =>
    obtain ⟨n, hn⟩ := Option.isSome_iff_exists.mp harticle
    rw [insertArticle, exec_bind_of_some (exec_write _)]
    apply covers_addParsed _ hn
    · intro ids hids row hrow id hid
      rcases List.mem_append.mp hrow with hrow | hrow
      · exact .inl (h.2 ids hids row hrow id hid)
      · obtain rfl := List.mem_singleton.mp hrow
        exact .inr rfl
    · intro row hrow
      rcases List.mem_append.mp hrow with hrow | hrow
      · exact h.1 row hrow
      · obtain rfl := List.mem_singleton.mp hrow
        exact harticle

lemma covers_bookmark (h : CoversArticles s) (id : DartInt) (now : Str) :
    CoversArticles ((bookmark writable id now).exec s).2 := by
  obtain ⟨ids, hexec, hcovered⟩ := exec_isBookmark_of_covers h id
  rw [bookmark, exec_bind_of_some hexec]
  by_cases hid : id.1 ∈ ids
  · simp only [hid, decide_true, if_true, exec_pure]
    exact hcovered
  · simp only [hid, decide_false, Bool.false_eq_true, if_false]
    rw [exec_bind_of_some (exec_addArticle rfl id)]
    apply covers_insertArticle
    · exact covered_mono hcovered (Finset.subset_insert id.1 ids)
    · rw [intTryParse_intToString id.2.1 id.2.2]
      rfl

lemma covers_unbookmark (h : CoversArticles s) (id : DartInt) :
    CoversArticles ((unbookmark writable id).exec s).2 := by
  obtain ⟨ids, hexec, hcovered⟩ := exec_isBookmark_of_covers h id
  rw [unbookmark, exec_bind_of_some hexec]
  by_cases hid : id.1 ∈ ids
  · simp only [hid, decide_true, if_true]
    cases writable with
    | false => exact hcovered
    | true =>
      rw [exec_bind_of_some (exec_write _)]
      simp only [removeArticle, exec_get_bind, exec_set]
      refine ⟨fun row hrow => hcovered.1 row (List.mem_of_mem_filter hrow), ?_⟩
      intro ids' hids row hrow id' hid'
      cases hids
      refine Finset.mem_erase.mpr ⟨?_, ?_⟩
      · intro heq
        have hno := (List.mem_filter.mp hrow).2
        simp [hid', heq] at hno
      · exact hcovered.2 ids rfl row (List.mem_of_mem_filter hrow) id' hid'
  · simp only [hid, decide_false, Bool.false_eq_true, if_false, exec_pure]
    exact hcovered

/-- The cache is forgotten, unless a write fails. -/
lemma covers_deleteGroup (h : CoversArticles s) (group : ℤ) :
    CoversArticles ((deleteGroup writable group).exec s).2 := by
  cases writable with
  | false => exact h
  | true =>
    simp only [deleteGroup, exec_bind, exec_write, exec_modify]
    refine ⟨fun row hrow => h.1 row (List.mem_of_mem_filter hrow), ?_⟩
    intro ids hids
    cases hids

/-- The operation, with or without a write that fails. Articles are added by their numbers. -/
def AddsNumbers (_ : Bookmark) : Bool × Operation → Prop
  | (_, .insertArticle article _ _) => (intTryParse article).isSome
  | _ => True

/-- An operation, whose writes succeed or fail. -/
def stepWritable (s : Bookmark) (op : Bool × Operation) : Option Bookmark := some (op.2.exec op.1 s)

lemma covers_of_frames {α : Type} {m : Method Bookmark α} (hm : Frames articlePart m)
    (h : CoversArticles s) : CoversArticles (m.exec s).2 := hm.keeps Covered s h

lemma step_covers {op : Bool × Operation} (h : CoversArticles s) (hop : AddsNumbers s op)
    (hs : stepWritable s op = some t) : CoversArticles t := by
  obtain ⟨writable, op⟩ := op
  cases hs
  cases op with
  | isBookmark id => exact covers_isBookmark h id
  | bookmark id now => exact covers_bookmark writable h id now
  | unbookmark id => exact covers_unbookmark writable h id
  | insertArticle article datetime group =>
    exact covers_insertArticle writable h hop datetime group
  | isBookmarkArtist name type => exact (frames_isBookmarkArtist name type).keeps Covered s h
  | bookmarkArtist name type now group =>
    refine covers_of_frames ((frames_isBookmarkArtist name type).bind fun _ => ?_) h
    exact (frames_pure ()).ite
      ((frames_addArtist name type).bind fun _ => frames_insertArtist writable name type now group)
  | unbookmarkArtist name type =>
    refine covers_of_frames ((frames_isBookmarkArtist name type).bind fun _ => ?_) h
    refine Frames.ite (Frames.bind ?_ fun _ => frames_removeArtist name type) (frames_pure ())
    exact frames_write writable fun _ => rfl
  | insertArtist artist isgroup datetime group =>
    exact covers_of_frames (frames_insertArtist writable artist isgroup datetime group) h
  | isBookmarkUser user => exact (frames_isBookmarkUser user).keeps Covered s h
  | bookmarkUser user now group =>
    refine covers_of_frames ((frames_isBookmarkUser user).bind fun _ => ?_) h
    exact (frames_pure ()).ite
      ((frames_addUser user).bind fun _ => frames_insertUser writable user now group)
  | unbookmarkUser user =>
    refine covers_of_frames ((frames_isBookmarkUser user).bind fun _ => ?_) h
    refine Frames.ite (Frames.bind ?_ fun _ => frames_addUser user) (frames_pure ())
    exact frames_write writable fun _ => rfl
  | insertUser user datetime group =>
    exact covers_of_frames (frames_insertUser writable user datetime group) h
  | deleteUser user =>
    refine covers_of_frames (Frames.bind ?_ fun _ => frames_removeUser user.user) h
    exact frames_write writable fun _ => rfl
  | modfiyUser user =>
    refine covers_of_frames ?_ h
    exact frames_write writable fun _ => rfl
  | getGroup => exact (frames_getGroup writable).keeps Covered s h
  | createGroup name description color now =>
    refine covers_of_frames ((frames_getGroup writable).bind fun groups => ?_) h
    cases groups.getLast? with
    | none => exact frames_failure
    | some last => exact frames_write writable fun _ => rfl
  | modfiyGroup group =>
    refine covers_of_frames ?_ h
    exact frames_write writable fun _ => rfl
  | positionSwap source target =>
    refine covers_of_frames ((frames_getGroup writable).bind fun groups => ?_) h
    exact (frames_moveGroup writable _ _ _ _).ite (frames_moveGroup writable _ _ _ _)
  | deleteGroup group => exact covers_deleteGroup writable h group

/-- In every run in which articles are added by their numbers, the cache knows the articles. -/
theorem coversArticles_of_reaches {db : UserDatabase}
    (hdb : ∀ row ∈ db.articles.rows, (intTryParse row.article).isSome)
    (h : Reaches stepWritable AddsNumbers (load db) s) : s.CoversArticles :=
  h.invariant (P := CoversArticles) ⟨hdb, nofun⟩ fun _ _ _ ht hop hs => step_covers ht hop hs

end Bookmark

end Violet
