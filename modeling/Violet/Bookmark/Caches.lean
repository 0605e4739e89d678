import Violet.Bookmark.Operations
import Violet.Transition.Run

/-!
# Caches of the bookmarks

A cache that is there has the keys of its table, in every run that keeps clear of the operations
that leave a cache behind.
-/

namespace Violet

open Dart Method Transition

/-! ### Keys after a change of a table -/

namespace UserDatabase

variable {db : UserDatabase}

lemma articleKeys_insert {article : Str} {id : ℤ} (h : intTryParse article = some id)
    (datetime : Str) (group : ℤ) :
    articleKeys { db with
      articles := db.articles.insert fun i => ⟨i, article, datetime, group⟩ } =
        insert id db.articleKeys := by
  simp [articleKeys, h, Finset.union_comm]

lemma articleKeys_insert_of_none {article : Str} (h : intTryParse article = none)
    (datetime : Str) (group : ℤ) :
    articleKeys { db with
      articles := db.articles.insert fun i => ⟨i, article, datetime, group⟩ } =
        db.articleKeys := by
  simp [articleKeys, h]

lemma articleKeys_delete {id : ℤ} {p : BookmarkArticle → Bool}
    (hp : ∀ row ∈ db.articles.rows, p row = true ↔ intTryParse row.article = some id) :
    articleKeys { db with articles := db.articles.delete p } = db.articleKeys.erase id := by
  ext id'
  simp only [mem_articleKeys, KeyedTable.rows_delete, List.mem_filter, Finset.mem_erase,
    Bool.not_eq_true']
  constructor
  · rintro ⟨row, ⟨hrow, hno⟩, hid'⟩
    refine ⟨?_, row, hrow, hid'⟩
    rintro rfl
    rw [(hp row hrow).mpr hid'] at hno
    cases hno
  · rintro ⟨hne, row, hrow, hid'⟩
    refine ⟨row, ⟨hrow, Bool.eq_false_iff.mpr fun hyes => hne ?_⟩, hid'⟩
    exact Option.some.inj (hid'.symm.trans ((hp row hrow).mp hyes))

lemma artistKeys_insert (artist : Str) (type : ℤ) (datetime : Str) (group type' : ℤ) :
    artistKeys { db with
      artists := db.artists.insert fun i => ⟨i, artist, type, datetime, group⟩ } type' =
        if type' = type then insert artist (db.artistKeys type') else db.artistKeys type' := by
  rw [artistKeys, KeyedTable.rows_insert, List.filter_append, List.map_append,
    List.toFinset_append]
  split_ifs with h
  · simp [h, artistKeys, Finset.union_comm]
  · simp [Ne.symm h, artistKeys]

lemma artistKeys_delete {name : Str} {type : ℤ} {p : BookmarkArtist → Bool}
    (hp : ∀ row, p row = true ↔ row.artist = name ∧ row.type = type) (type' : ℤ) :
    artistKeys { db with artists := db.artists.delete p } type' =
      if type' = type then (db.artistKeys type').erase name else db.artistKeys type' := by
  ext name'
  have hmem : name' ∈ artistKeys { db with artists := db.artists.delete p } type' ↔
      name' ∈ db.artistKeys type' ∧ ¬ (name' = name ∧ type' = type) := by
    simp only [mem_artistKeys, KeyedTable.rows_delete, List.mem_filter, Bool.not_eq_true',
      Bool.eq_false_iff, ne_eq, hp]
    constructor
    · rintro ⟨row, ⟨hrow, hno⟩, rfl, rfl⟩
      exact ⟨⟨row, hrow, rfl, rfl⟩, hno⟩
    · rintro ⟨⟨row, hrow, rfl, rfl⟩, hno⟩
      exact ⟨row, ⟨hrow, hno⟩, rfl, rfl⟩
  rw [hmem]
  split_ifs with htype
  · rw [Finset.mem_erase, and_comm]
    simp [htype]
  · simp [htype]

lemma artistKeys_delete_of_none {p : BookmarkArtist → Bool}
    (hp : ∀ row ∈ db.artists.rows, p row = false) (type : ℤ) :
    artistKeys { db with artists := db.artists.delete p } type = db.artistKeys type := by
  have hrows : (db.artists.delete p).rows = db.artists.rows :=
    List.filter_eq_self.mpr fun row hrow => by rw [hp row hrow, Bool.not_false]
  rw [artistKeys, artistKeys, hrows]

lemma userKeys_insert (user datetime : Str) (group : ℤ) :
    userKeys { db with
      users := db.users.insert fun i => ⟨i, user, none, none, datetime, group⟩ } =
        insert user db.userKeys := by
  simp [userKeys, Finset.union_comm]

lemma userKeys_delete {user : Str} {p : BookmarkUser → Bool}
    (hp : ∀ row ∈ db.users.rows, p row = true ↔ row.user = user) :
    userKeys { db with users := db.users.delete p } = db.userKeys.erase user := by
  ext user'
  simp only [mem_userKeys, KeyedTable.rows_delete, List.mem_filter, Finset.mem_erase,
    Bool.not_eq_true']
  constructor
  · rintro ⟨row, ⟨hrow, hno⟩, rfl⟩
    refine ⟨fun heq => ?_, row, hrow, rfl⟩
    rw [(hp row hrow).mpr heq] at hno
    cases hno
  · rintro ⟨hne, row, hrow, rfl⟩
    exact ⟨row, ⟨hrow, Bool.eq_false_iff.mpr fun hyes => hne ((hp row hrow).mp hyes)⟩, rfl⟩

lemma userKeys_update {p : BookmarkUser → Bool} {f : BookmarkUser → BookmarkUser}
    (hf : ∀ row ∈ db.users.rows, p row = true → (f row).user = row.user) :
    userKeys { db with users := db.users.update p f } = db.userKeys := by
  rw [userKeys, KeyedTable.rows_update, List.map_map, userKeys]
  congr 1
  refine List.map_congr_left fun row hrow => ?_
  rw [Function.comp_apply]
  split_ifs with hp
  · exact hf row hrow hp
  · rfl

end UserDatabase

namespace Bookmark

variable {s t : Bookmark} {ids : Finset ℤ} {sets : Fin 5 → Finset Str} {users : Finset Str}
  {article name user : Str} {type : ℤ}

/-! ### Methods on caches -/

lemma exec_write (f : UserDatabase → UserDatabase) :
    (write true f).exec s = (some (), { s with db := f s.db }) := by
  simp [write]

lemma exec_addArticle (h : s.bookmarkSet = some ids) (id : ℤ) :
    (addArticle id).exec s = (some (), { s with bookmarkSet := some (insert id ids) }) := by
  simp [addArticle, h]

lemma exec_addParsed (h : s.bookmarkSet = some ids) {id : ℤ} (hid : intTryParse article = some id) :
    (addParsed article).exec s = (some (), { s with bookmarkSet := some (insert id ids) }) := by
  simp [addParsed, hid, exec_addArticle h]

lemma exec_addParsedAll (h : s.bookmarkSet = some ids) {articles : List Str}
    (hall : ∀ a ∈ articles, (intTryParse a).isSome) :
    (addParsedAll articles).exec s = (some (),
      { s with bookmarkSet := some (ids ∪ (articles.filterMap intTryParse).toFinset) }) := by
  induction articles generalizing s ids with
  | nil => simp [addParsedAll, ← h]
  | cons a rest ih =>
    obtain ⟨id, hid⟩ := Option.isSome_iff_exists.mp (hall a (by simp))
    rw [addParsedAll, exec_bind_of_some (exec_addParsed h hid),
      ih rfl fun a ha => hall a (by simp [ha])]
    simp [hid]

lemma typeKey_eq_some {k : Fin 5} : typeKey type = some k ↔ type = k := by
  unfold typeKey
  split_ifs with h
  · simp only [Option.some.injEq, Fin.ext_iff]
    omega
  · simp only [false_iff]
    omega

lemma exec_addArtist (h : s.bookmarkArtistSet = some sets) (k : Fin 5) (name : Str) :
    (addArtist name k).exec s = (some (),
      { s with
        bookmarkArtistSet := some (Function.update sets k (insert name (sets k))) }) := by
  simp [addArtist, h, typeKey_eq_some.mpr rfl]

lemma exec_addArtistAll (h : s.bookmarkArtistSet = some sets) {artists : List BookmarkArtist}
    (hall : ∀ row ∈ artists, (typeKey row.type).isSome) :
    ∃ sets', (addArtistAll artists).exec s =
        (some (), { s with bookmarkArtistSet := some sets' }) ∧
      ∀ (k : Fin 5) name, name ∈ sets' k ↔
        name ∈ sets k ∨ ∃ row ∈ artists, row.type = k ∧ row.artist = name := by
  induction artists generalizing s sets with
  | nil => exact ⟨sets, by simp [addArtistAll, ← h], by simp⟩
  | cons row rest ih =>
    obtain ⟨k, hk⟩ := Option.isSome_iff_exists.mp (hall row (by simp))
    have hadd := exec_addArtist h k row.artist
    rw [← typeKey_eq_some.mp hk] at hadd
    obtain ⟨sets', hexec, hsets'⟩ := ih (s := { s with
      bookmarkArtistSet := some (Function.update sets k (insert row.artist (sets k))) }) rfl
      fun row hrow => hall row (by simp [hrow])
    refine ⟨sets', by rw [addArtistAll, exec_bind_of_some hadd, hexec], fun k' name => ?_⟩
    have htype := typeKey_eq_some.mp hk
    have hmem : name ∈ Function.update sets k (insert row.artist (sets k)) k' ↔
        name ∈ sets k' ∨ row.type = k' ∧ row.artist = name := by
      by_cases hkk : k' = k
      · subst hkk
        simp [htype, or_comm, eq_comm]
      · have hne : row.type ≠ k' := fun heq =>
          hkk (Option.some.inj ((typeKey_eq_some.mpr heq).symm.trans hk))
        simp [hkk, hne]
    rw [hsets', hmem]
    simp only [List.mem_cons, exists_eq_or_imp, or_assoc]

lemma exec_fillBookmarkUserSet : fillBookmarkUserSet.exec s = (some (),
    if s.bookmarkUserSet.isNone then { s with bookmarkUserSet := some s.db.userKeys } else s) := by
  have hfold (rows : List BookmarkUser) (users : Finset Str) :
      rows.foldl (fun users row => insert row.user users) users =
        users ∪ (rows.map BookmarkUser.user).toFinset := by
    induction rows generalizing users with
    | nil => simp
    | cons row rest ih => simp [ih]
  simp [fillBookmarkUserSet, hfold, UserDatabase.userKeys]

/-! ### Queries -/

/-- Each cache that is there has the keys of its table. -/
structure Consistent (s : Bookmark) : Prop where
  articles : ∀ ids ∈ s.bookmarkSet, ids = s.db.articleKeys
  artists : ∀ sets ∈ s.bookmarkArtistSet, ∀ k : Fin 5, sets k = s.db.artistKeys k
  users : ∀ users ∈ s.bookmarkUserSet, users = s.db.userKeys

/-- A cache that has to be filled can be filled: the articles in the table are numbers. -/
def ReadsArticles (s : Bookmark) : Prop :=
  s.bookmarkSet = none → ∀ row ∈ s.db.articles.rows, (intTryParse row.article).isSome

/-- The types in the table are types of artists. -/
def ReadsArtists (s : Bookmark) : Prop :=
  s.bookmarkArtistSet = none → ∀ row ∈ s.db.artists.rows, (typeKey row.type).isSome

lemma exec_fillBookmarkSet (h : s.Consistent) (hr : s.ReadsArticles) :
    fillBookmarkSet.exec s = (some (), { s with bookmarkSet := some s.db.articleKeys }) := by
  cases hs : s.bookmarkSet with
  | none =>
    have hall : ∀ a ∈ s.db.articles.rows.map BookmarkArticle.article, (intTryParse a).isSome := by
      simpa using hr hs
    have hadd := exec_addParsedAll (s := { s with bookmarkSet := some ∅ }) rfl hall
    simp [fillBookmarkSet, hs, hadd, UserDatabase.articleKeys, List.filterMap_map]
  | some ids =>
    have hkeys : { s with bookmarkSet := some s.db.articleKeys } = s := by
      rw [← h.articles ids hs, ← hs]
    simp [fillBookmarkSet, hs, hkeys]

lemma exec_isBookmark (h : s.Consistent) (hr : s.ReadsArticles) (id : DartInt) :
    (isBookmark id).exec s = (some (decide (id.1 ∈ s.db.articleKeys)),
      { s with bookmarkSet := some s.db.articleKeys }) := by
  simp [isBookmark, exec_bind_of_some (exec_fillBookmarkSet h hr)]

lemma exec_fillBookmarkArtistSet (h : s.Consistent) (hr : s.ReadsArtists) :
    fillBookmarkArtistSet.exec s =
      (some (), { s with bookmarkArtistSet := some fun k => s.db.artistKeys k }) := by
  cases hs : s.bookmarkArtistSet with
  | none =>
    obtain ⟨sets, hadd, hsets⟩ := exec_addArtistAll
      (s := { s with bookmarkArtistSet := some fun _ => ∅ }) rfl (hr hs)
    have hkeys : sets = fun k : Fin 5 => s.db.artistKeys k := by
      funext k
      ext name
      simp [hsets, UserDatabase.mem_artistKeys]
    simp [fillBookmarkArtistSet, hs, hadd, hkeys]
  | some sets =>
    have hkeys : { s with bookmarkArtistSet := some fun k : Fin 5 => s.db.artistKeys k } = s := by
      rw [← funext (h.artists sets hs), ← hs]
    simp [fillBookmarkArtistSet, hs, hkeys]

lemma exec_isBookmarkArtist (h : s.Consistent) (hr : s.ReadsArtists) (name : Str) (type : ℤ) :
    (isBookmarkArtist name type).exec s =
      ((typeKey type).map fun _ => decide (name ∈ s.db.artistKeys type),
        { s with bookmarkArtistSet := some fun k => s.db.artistKeys k }) := by
  cases hk : typeKey type with
  | none => simp [isBookmarkArtist, exec_bind_of_some (exec_fillBookmarkArtistSet h hr), hk]
  | some k =>
    obtain rfl := typeKey_eq_some.mp hk
    simp [isBookmarkArtist, exec_bind_of_some (exec_fillBookmarkArtistSet h hr), hk]

lemma exec_isBookmarkUser (h : s.Consistent) (user : Str) :
    (isBookmarkUser user).exec s = (some (decide (user ∈ s.db.userKeys)),
      { s with bookmarkUserSet := some s.db.userKeys }) := by
  cases hs : s.bookmarkUserSet with
  | none => simp [isBookmarkUser, exec_bind_of_some exec_fillBookmarkUserSet, hs]
  | some users =>
    have hkeys : { s with bookmarkUserSet := some s.db.userKeys } = s := by
      rw [← h.users users hs, ← hs]
    simp [isBookmarkUser, exec_bind_of_some exec_fillBookmarkUserSet, hs, hkeys,
      h.users users hs]

/-! ### Articles -/

lemma exec_insertArticle (hs : s.bookmarkSet = some ids) {id : ℤ}
    (hid : intTryParse article = some id) (datetime : Str) (group : ℤ) :
    (insertArticle true article datetime group).exec s = (some (),
      { s with
        db := { s.db with articles := s.db.articles.insert fun i => ⟨i, article, datetime, group⟩ }
        bookmarkSet := some (insert id ids) }) := by
  simp [insertArticle, exec_bind, write, addParsed, hid, addArticle, hs]

lemma snd_insertArticle (hnone : s.bookmarkSet = none ∨ intTryParse article = none)
    (datetime : Str) (group : ℤ) :
    ((insertArticle true article datetime group).exec s).2 = { s with db := { s.db with
      articles := s.db.articles.insert fun i => ⟨i, article, datetime, group⟩ } } := by
  rw [insertArticle, exec_bind_of_some (exec_write _), addParsed]
  rcases hnone with hnone | hnone
  · split <;> simp [addArticle, hnone]
  · simp [hnone]

lemma insertArticle_consistent (h : s.Consistent) (article datetime : Str)
    (group : ℤ) : ((insertArticle true article datetime group).exec s).2.Consistent := by
  cases hid : intTryParse article with
  | none =>
    rw [snd_insertArticle (.inr hid)]
    refine ⟨fun ids hids => ?_, h.artists, h.users⟩
    rw [UserDatabase.articleKeys_insert_of_none hid]
    exact h.articles ids hids
  | some id =>
    cases hs : s.bookmarkSet with
    | none =>
      rw [snd_insertArticle (.inl hs)]
      exact ⟨by simp [hs], h.artists, h.users⟩
    | some ids =>
      rw [exec_insertArticle hs hid]
      refine ⟨fun ids' hids' => ?_, h.artists, h.users⟩
      cases hids'
      rw [UserDatabase.articleKeys_insert hid, h.articles ids hs]

lemma bookmark_consistent (h : s.Consistent) (hr : s.ReadsArticles)
    (id : DartInt) (now : Str) : ((bookmark true id now).exec s).2.Consistent := by
  rw [bookmark, exec_bind_of_some (exec_isBookmark h hr id)]
  have hid : intTryParse (intToString id) = some id.1 := intTryParse_intToString id.2.1 id.2.2
  split_ifs
  · exact ⟨by simp, h.artists, h.users⟩
  · rw [exec_bind_of_some (exec_addArticle rfl _), exec_insertArticle
      (s := { s with bookmarkSet := some (insert id.1 s.db.articleKeys) }) rfl hid]
    refine ⟨fun ids hids => ?_, h.artists, h.users⟩
    cases hids
    rw [UserDatabase.articleKeys_insert hid, Finset.insert_idem]

lemma unbookmark_consistent (h : s.Consistent) (hr : s.ReadsArticles)
    {id : DartInt} (hid : ∀ row ∈ s.db.articles.rows, intTryParse row.article = some id.1 →
      row.article = intToString id) : ((unbookmark true id).exec s).2.Consistent := by
  rw [unbookmark, exec_bind_of_some (exec_isBookmark h hr id)]
  split_ifs
  · rw [exec_bind_of_some (exec_write (s := { s with bookmarkSet := some s.db.articleKeys }) _)]
    refine ⟨fun ids hids => ?_, h.artists, h.users⟩
    have hkeys := UserDatabase.articleKeys_delete
      (p := fun row => row.article = intToString id) fun row hrow => by
        rw [decide_eq_true_iff]
        exact ⟨fun heq => heq ▸ intTryParse_intToString id.2.1 id.2.2, hid row hrow⟩
    simp only [removeArticle, exec_get_bind, exec_set, Option.mem_def, Option.some.injEq] at hids ⊢
    rw [hkeys, hids]
  · exact ⟨by simp, h.artists, h.users⟩

/-! ### Artists -/

lemma ne_of_typeKey (h : typeKey type = none) (k : Fin 5) : (k : ℤ) ≠ type := fun heq => by
  rw [typeKey_eq_some.mpr heq.symm] at h
  cases h

lemma snd_insertArtist (hnone : s.bookmarkArtistSet = none ∨ typeKey type = none)
    (datetime : Str) (group : ℤ) :
    ((insertArtist true name type datetime group).exec s).2 = { s with db := { s.db with
      artists := s.db.artists.insert fun i => ⟨i, name, type, datetime, group⟩ } } := by
  rw [insertArtist, exec_bind_of_some (exec_write _)]
  rcases hnone with hnone | hnone <;> simp [addArtist, hnone]

lemma exec_insertArtist (hs : s.bookmarkArtistSet = some sets) {k : Fin 5}
    (hk : typeKey type = some k) (datetime : Str) (group : ℤ) :
    (insertArtist true name type datetime group).exec s = (some (),
      { s with
        db := { s.db with
          artists := s.db.artists.insert fun i => ⟨i, name, type, datetime, group⟩ }
        bookmarkArtistSet := some (Function.update sets k (insert name (sets k))) }) := by
  simp [insertArtist, exec_bind, write, addArtist, hk, hs]

/-- The keys after an insertion, in the set for the type. -/
lemma update_artistKeys {db : UserDatabase} {k : Fin 5} (hk : typeKey type = some k)
    (hsets : ∀ k' : Fin 5, k' ≠ k → sets k' = db.artistKeys k')
    (hkey : insert name (sets k) = insert name (db.artistKeys k)) (datetime : Str) (group : ℤ)
    (k' : Fin 5) : Function.update sets k (insert name (sets k)) k' =
      UserDatabase.artistKeys { db with
        artists := db.artists.insert fun i => ⟨i, name, type, datetime, group⟩ } k' := by
  rw [UserDatabase.artistKeys_insert, typeKey_eq_some.mp hk]
  by_cases hkk : k' = k
  · subst hkk
    simp [hkey]
  · have hne : (k' : ℤ) ≠ k := fun heq => hkk (Fin.ext (by omega))
    rw [Function.update_of_ne hkk, if_neg hne, hsets k' hkk]

lemma insertArtist_consistent (h : s.Consistent) (name : Str) (type : ℤ)
    (datetime : Str) (group : ℤ) :
    ((insertArtist true name type datetime group).exec s).2.Consistent := by
  cases hk : typeKey type with
  | none =>
    rw [snd_insertArtist (.inr hk)]
    refine ⟨h.articles, fun sets hsets k => ?_, h.users⟩
    rw [UserDatabase.artistKeys_insert, if_neg (ne_of_typeKey hk k)]
    exact h.artists sets hsets k
  | some k =>
    cases hs : s.bookmarkArtistSet with
    | none =>
      rw [snd_insertArtist (.inl hs)]
      exact ⟨h.articles, by simp [hs], h.users⟩
    | some sets =>
      rw [exec_insertArtist hs hk]
      refine ⟨h.articles, fun sets' hsets' => ?_, h.users⟩
      cases hsets'
      have hsets := h.artists sets hs
      exact update_artistKeys hk (fun k' _ => hsets k') (by rw [hsets]) datetime group

lemma bookmarkArtist_consistent (h : s.Consistent) (hr : s.ReadsArtists)
    (name : Str) (type : ℤ) (now : Str) (group : ℤ) :
    ((bookmarkArtist true name type now group).exec s).2.Consistent := by
  have hfilled : Consistent { s with bookmarkArtistSet := some fun k => s.db.artistKeys k } :=
    ⟨h.articles, by simp, h.users⟩
  have his := exec_isBookmarkArtist h hr name type
  cases hk : typeKey type with
  | none =>
    rw [hk, Option.map_none] at his
    rw [bookmarkArtist, exec_bind, his]
    exact hfilled
  | some k =>
    rw [hk, Option.map_some] at his
    rw [bookmarkArtist, exec_bind_of_some his]
    split_ifs
    · exact hfilled
    · simp only [addArtist, insertArtist, exec_bind, exec_get, hk, exec_set, write, exec_modify,
        if_true]
      refine ⟨h.articles, fun sets hsets => ?_, h.users⟩
      cases hsets
      refine update_artistKeys hk (fun k' hk' => ?_) ?_ now group
      · rw [Function.update_of_ne hk']
      · rw [Function.update_self, Finset.insert_idem]

lemma unbookmarkArtist_consistent (h : s.Consistent)
    (hr : s.ReadsArtists) (name : Str) (type : ℤ) :
    ((unbookmarkArtist true name type).exec s).2.Consistent := by
  have hfilled : Consistent { s with bookmarkArtistSet := some fun k => s.db.artistKeys k } :=
    ⟨h.articles, by simp, h.users⟩
  have his := exec_isBookmarkArtist h hr name type
  cases hk : typeKey type with
  | none =>
    rw [hk, Option.map_none] at his
    rw [unbookmarkArtist, exec_bind, his]
    exact hfilled
  | some k =>
    rw [hk, Option.map_some] at his
    rw [unbookmarkArtist, exec_bind_of_some his]
    split_ifs
    · simp only [removeArtist, exec_bind, exec_get, hk, exec_set, write, exec_modify, if_true]
      refine ⟨h.articles, fun sets hsets k' => ?_, h.users⟩
      cases hsets
      have hkeys : UserDatabase.artistKeys { s.db with
          artists := s.db.artists.delete fun row => row.artist = name ∧ row.type = type } k' =
            if (k' : ℤ) = type then (s.db.artistKeys k').erase name else s.db.artistKeys k' :=
        UserDatabase.artistKeys_delete (by simp) _
      rw [hkeys]
      by_cases hkk : k' = k
      · subst hkk
        rw [Function.update_self, if_pos (typeKey_eq_some.mp hk).symm]
      · have hne : (k' : ℤ) ≠ type := fun heq =>
          hkk (Option.some.inj ((typeKey_eq_some.mpr heq.symm).symm.trans hk))
        rw [Function.update_of_ne hkk, if_neg hne]
    · exact hfilled

/-! ### Users -/

lemma insertUser_consistent (h : s.Consistent) (user datetime : Str)
    (group : ℤ) : ((insertUser true user datetime group).exec s).2.Consistent := by
  rw [insertUser, exec_bind_of_some (exec_write _)]
  cases hs : s.bookmarkUserSet with
  | none =>
    simp only [addUser, exec_get_bind, exec_failure]
    exact ⟨h.articles, h.artists, by simp⟩
  | some users =>
    simp only [addUser, exec_get_bind, exec_set]
    refine ⟨h.articles, h.artists, fun users' husers' => ?_⟩
    cases husers'
    rw [UserDatabase.userKeys_insert, h.users users hs]

lemma bookmarkUser_consistent (h : s.Consistent) (user now : Str)
    (group : ℤ) : ((bookmarkUser true user now group).exec s).2.Consistent := by
  rw [bookmarkUser, exec_bind_of_some (exec_isBookmarkUser h user)]
  split_ifs
  · exact ⟨h.articles, h.artists, by simp⟩
  · simp only [addUser, insertUser, exec_bind, exec_get, exec_set, write, exec_modify, if_true]
    refine ⟨h.articles, h.artists, fun users husers => ?_⟩
    cases husers
    rw [UserDatabase.userKeys_insert, Finset.insert_idem]

lemma unbookmarkUser_consistent (h : s.Consistent) {user : Str} (huser : user ∉ s.db.userKeys) :
    ((unbookmarkUser true user).exec s).2.Consistent := by
  rw [unbookmarkUser, exec_bind_of_some (exec_isBookmarkUser h user)]
  simp only [huser, decide_false, Bool.false_eq_true, if_false]
  exact ⟨h.articles, h.artists, by simp⟩

lemma deleteUser_consistent (h : s.Consistent) {user : BookmarkUser}
    (huser : s.bookmarkUserSet = none ∨
      ∀ row ∈ s.db.users.rows, row.user = user.user ↔ row.id = user.id) :
    ((deleteUser true user).exec s).2.Consistent := by
  rw [deleteUser, exec_bind_of_some (exec_write _)]
  cases hs : s.bookmarkUserSet with
  | none =>
    simp only [removeUser, exec_get_bind, exec_failure]
    exact ⟨h.articles, h.artists, by simp⟩
  | some users =>
    have huser := huser.resolve_left (by simp [hs])
    simp only [removeUser, exec_get_bind, exec_set]
    refine ⟨h.articles, h.artists, fun users' husers' => ?_⟩
    cases husers'
    rw [h.users users hs]
    exact (UserDatabase.userKeys_delete fun row hrow => by
      rw [decide_eq_true_iff, huser row hrow]).symm

lemma modfiyUser_consistent (h : s.Consistent) {user : BookmarkUser}
    (huser : s.bookmarkUserSet = none ∨
      ∀ row ∈ s.db.users.rows, row.id = user.id → row.user = user.user) :
    ((modfiyUser true user).exec s).2.Consistent := by
  rw [modfiyUser, exec_write]
  refine ⟨h.articles, h.artists, fun users husers => ?_⟩
  have huser := huser.resolve_left (by simp [show s.bookmarkUserSet = some users from husers])
  rw [UserDatabase.userKeys_update fun row hrow hid => (huser row hrow (by simpa using hid)).symm]
  exact h.users users husers

/-! ### Groups -/

lemma deleteGroup_consistent (h : s.Consistent) {group : ℤ}
    (hgroup : s.bookmarkArtistSet = none ∨ ∀ row ∈ s.db.artists.rows, row.group ≠ group) :
    ((deleteGroup true group).exec s).2.Consistent := by
  simp only [deleteGroup, exec_bind, write, if_true, exec_modify]
  refine ⟨by simp, fun sets hsets k => ?_, h.users⟩
  have hgroup := hgroup.resolve_left (by simp [show s.bookmarkArtistSet = some sets from hsets])
  rw [h.artists sets hsets]
  exact (UserDatabase.artistKeys_delete_of_none (by simpa using hgroup) _).symm

lemma keeps_write_groups (f : UserDatabase → KeyedTable BookmarkGroup) (writable : Bool) :
    Keeps Consistent (write writable fun db => { db with groups := f db }) := by
  unfold write
  split_ifs
  · exact keeps_modify fun s h => ⟨h.articles, h.artists, h.users⟩
  · exact keeps_failure

lemma keeps_getGroup : Keeps Consistent (getGroup true) := by
  refine keeps_get.bind fun _ => Keeps.bind (keeps_modify fun s h => ?_) fun _ => keeps_pure _
  exact ⟨h.articles, h.artists, h.users⟩

lemma keeps_createGroup (name description : Str) (color : ℤ) (now : Str) :
    Keeps Consistent (createGroup true name description color now) := by
  refine keeps_getGroup.bind fun groups => ?_
  split
  · exact keeps_failure
  · exact keeps_write_groups _ true

lemma keeps_moveGroup (up : Bool) (steps place : ℕ) (groups : List BookmarkGroup) :
    Keeps Consistent (moveGroup true up steps place groups) := by
  induction steps generalizing place groups with
  | zero => exact keeps_pure _
  | succ steps ih =>
    rw [moveGroup]
    split
    · exact (keeps_write_groups _ true).bind fun _ => ih _ _
    · exact keeps_failure

lemma keeps_positionSwap (source target : ℕ) :
    Keeps Consistent (positionSwap true source target) :=
  keeps_getGroup.bind fun _ => (keeps_moveGroup _ _ _ _).ite (keeps_moveGroup _ _ _ _)

/-! ### Runs -/

/-- The operation leaves no cache behind. A cache can be filled from its table, an article is
deleted under the text that it is stored with, no user is unbookmarked, a user is deleted with all
rows of the name and is not renamed, and no group is deleted with artists in it that are cached. -/
def KeepsCaches (s : Bookmark) : Operation → Prop
  | .isBookmark _ | .bookmark .. => s.ReadsArticles
  | .unbookmark id => s.ReadsArticles ∧ ∀ row ∈ s.db.articles.rows,
      intTryParse row.article = some id.1 → row.article = intToString id
  | .isBookmarkArtist .. | .bookmarkArtist .. | .unbookmarkArtist .. => s.ReadsArtists
  | .unbookmarkUser user => user ∉ s.db.userKeys
  | .deleteUser user => s.bookmarkUserSet = none ∨
      ∀ row ∈ s.db.users.rows, row.user = user.user ↔ row.id = user.id
  | .modfiyUser user => s.bookmarkUserSet = none ∨
      ∀ row ∈ s.db.users.rows, row.id = user.id → row.user = user.user
  | .deleteGroup group => s.bookmarkArtistSet = none ∨
      ∀ row ∈ s.db.artists.rows, row.group ≠ group
  | _ => True

lemma step_consistent {op : Operation} (h : s.Consistent) (hg : KeepsCaches s op)
    (hs : step s op = some t) : t.Consistent := by
  cases hs
  cases op with
  | isBookmark id =>
    rw [Operation.exec, exec_isBookmark h hg]
    exact ⟨by simp, h.artists, h.users⟩
  | bookmark id now => exact bookmark_consistent h hg id now
  | unbookmark id => exact unbookmark_consistent h hg.1 hg.2
  | insertArticle article datetime group => exact insertArticle_consistent h article datetime group
  | isBookmarkArtist name type =>
    rw [Operation.exec, exec_isBookmarkArtist h hg]
    exact ⟨h.articles, by simp, h.users⟩
  | bookmarkArtist name type now group => exact bookmarkArtist_consistent h hg name type now group
  | unbookmarkArtist name type => exact unbookmarkArtist_consistent h hg name type
  | insertArtist artist type datetime group =>
    exact insertArtist_consistent h artist type datetime group
  | isBookmarkUser user =>
    rw [Operation.exec, exec_isBookmarkUser h]
    exact ⟨h.articles, h.artists, by simp⟩
  | bookmarkUser user now group => exact bookmarkUser_consistent h user now group
  | unbookmarkUser user => exact unbookmarkUser_consistent h hg
  | insertUser user datetime group => exact insertUser_consistent h user datetime group
  | deleteUser user => exact deleteUser_consistent h hg
  | modfiyUser user => exact modfiyUser_consistent h hg
  | getGroup => exact keeps_getGroup s h
  | createGroup name description color now => exact keeps_createGroup name description color now s h
  | modfiyGroup group => exact keeps_write_groups _ true s h
  | positionSwap source target => exact keeps_positionSwap source target s h
  | deleteGroup group => exact deleteGroup_consistent h hg

/-- The queries agree with the tables: an answer is the truth about the rows. -/
structure Agrees (s : Bookmark) : Prop where
  articles : ∀ id b, ((isBookmark id).exec s).1 = some b → (b = true ↔ id.1 ∈ s.db.articleKeys)
  artists : ∀ name type b, ((isBookmarkArtist name type).exec s).1 = some b →
    (b = true ↔ name ∈ s.db.artistKeys type)
  users : ∀ user b, ((isBookmarkUser user).exec s).1 = some b → (b = true ↔ user ∈ s.db.userKeys)

lemma fst_addParsedAll {articles : List Str} (hnone : ∃ a ∈ articles, intTryParse a = none) :
    ((addParsedAll articles).exec s).1 = none := by
  induction articles generalizing s with
  | nil => simp at hnone
  | cons a rest ih =>
    simp only [List.mem_cons, exists_eq_or_imp] at hnone
    refine fst_bind_of_none ?_
    rcases hnone with ha | hrest
    · exact .inl (by simp [addParsed, ha])
    · exact .inr fun _ _ => ih hrest

lemma fst_addArtistAll {artists : List BookmarkArtist}
    (hnone : ∃ row ∈ artists, typeKey row.type = none) :
    ((addArtistAll artists).exec s).1 = none := by
  induction artists generalizing s with
  | nil => simp at hnone
  | cons row rest ih =>
    simp only [List.mem_cons, exists_eq_or_imp] at hnone
    refine fst_bind_of_none ?_
    rcases hnone with hrow | hrest
    · refine .inl ?_
      rw [addArtist, exec_get_bind, hrow]
      split <;> simp_all
    · exact .inr fun _ _ => ih hrest

/-- A query that cannot fill its cache throws. -/
lemma Consistent.agrees (h : s.Consistent) : s.Agrees where
  articles id b hb := by
    by_cases hr : s.ReadsArticles
    · rw [exec_isBookmark h hr] at hb
      cases hb
      exact decide_eq_true_iff
    · obtain ⟨hs, row, hrow, hno⟩ : s.bookmarkSet = none ∧
          ∃ row ∈ s.db.articles.rows, (intTryParse row.article).isSome ≠ true := by
        simpa [ReadsArticles] using hr
      have hfill : (fillBookmarkSet.exec s).1 = none := by
        simp only [fillBookmarkSet, exec_get_bind, hs, Option.isNone_none, if_true, exec_set_bind]
        exact fst_addParsedAll ⟨row.article, List.mem_map_of_mem hrow, by simpa using hno⟩
      rw [isBookmark, fst_bind_of_none (.inl hfill)] at hb
      cases hb
  artists name type b hb := by
    by_cases hr : s.ReadsArtists
    · rw [exec_isBookmarkArtist h hr] at hb
      obtain ⟨-, -, rfl⟩ := Option.map_eq_some_iff.mp hb
      exact decide_eq_true_iff
    · obtain ⟨hs, row, hrow, hno⟩ : s.bookmarkArtistSet = none ∧
          ∃ row ∈ s.db.artists.rows, (typeKey row.type).isSome ≠ true := by
        simpa [ReadsArtists] using hr
      have hfill : (fillBookmarkArtistSet.exec s).1 = none := by
        simp only [fillBookmarkArtistSet, exec_get_bind, hs, Option.isNone_none, if_true,
          exec_set_bind]
        exact fst_addArtistAll ⟨row, hrow, by simpa using hno⟩
      rw [isBookmarkArtist, fst_bind_of_none (.inl hfill)] at hb
      cases hb
  users user b hb := by
    rw [exec_isBookmarkUser h] at hb
    cases hb
    exact decide_eq_true_iff

/-- In every run whose operations leave no cache behind, the caches have the keys of their tables,
and the queries agree with the database. -/
theorem consistent_of_keepsCaches (db : UserDatabase) (s : Bookmark)
    (h : Reaches step KeepsCaches (load db) s) : s.Consistent ∧ s.Agrees := by
  have hs : s.Consistent := h.invariant (P := Consistent) ⟨nofun, nofun, nofun⟩
    fun _ _ _ ht hg hs => step_consistent ht hg hs
  exact ⟨hs, hs.agrees⟩

/-- The user database with a bookmark on article 3. -/
def articleBookmarked : Bookmark :=
  Operation.exec true (load (.create [])) (.bookmark ⟨3, three_bounds⟩ [])

theorem consistent_of_keepsCaches_unbookmark :
    (Operation.exec true articleBookmarked (.unbookmark ⟨3, by decide⟩)).Consistent ∧
      (Operation.exec true articleBookmarked (.unbookmark ⟨3, by decide⟩)).Agrees := by
  have hbookmark : KeepsCaches (load (.create [])) (.bookmark ⟨3, by decide⟩ []) := nofun
  have hunbookmark : KeepsCaches articleBookmarked (.unbookmark ⟨3, by decide⟩) := by
    have hset : articleBookmarked.bookmarkSet = some {3} := by decide +kernel
    have hrows : articleBookmarked.db.articles.rows = [⟨1, "3".toList, [], 1⟩] := by decide +kernel
    refine ⟨fun hnone => ?_, fun row hrow _ => ?_⟩
    · rw [hset] at hnone
      cases hnone
    · rw [hrows, List.mem_singleton] at hrow
      subst hrow
      decide +kernel
  exact consistent_of_keepsCaches (.create []) _ (.tail (.tail .refl hbookmark rfl) hunbookmark rfl)

/-- A user is bookmarked and unbookmarked, and stays in the cache. -/
theorem not_consistent_of_unbookmarkUser :
    ¬ ∀ s, Reaches step anyEvent (load (.create [])) s → s.Consistent := by
  intro h
  let bookmarked := Operation.exec true (load (.create [])) (.bookmarkUser "u".toList [] 1)
  let unbookmarked := Operation.exec true bookmarked (.unbookmarkUser "u".toList)
  have hreach : Reaches step anyEvent (load (.create [])) unbookmarked :=
    .tail (.tail .refl trivial rfl) trivial rfl
  have hcache : unbookmarked.bookmarkUserSet = some {"u".toList} := by decide +kernel
  have hkeys : unbookmarked.db.userKeys = ∅ := by decide +kernel
  have hconsistent := (h unbookmarked hreach).users _ hcache
  rw [hkeys] at hconsistent
  exact Finset.singleton_ne_empty _ hconsistent

end Bookmark

end Violet
