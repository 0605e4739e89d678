import Violet.Bookmark.Operations
import Violet.Transition.Run

/-!
# References to groups

Each bookmark belongs to a group. The tables declare this as a foreign key, and the operations keep
it by hand.
-/

namespace Violet

open Dart Method Transition

namespace UserDatabase

/-- The `Id`s of the groups. -/
def groupIds (db : UserDatabase) : List ℤ := db.groups.rows.map BookmarkGroup.id

/-- Each row belongs to a group that is there. -/
structure RefersToGroups (db : UserDatabase) : Prop where
  articles : ∀ row ∈ db.articles.rows, row.group ∈ db.groupIds
  artists : ∀ row ∈ db.artists.rows, row.group ∈ db.groupIds
  users : ∀ row ∈ db.users.rows, row.group ∈ db.groupIds

/-- A row may be added to the group. -/
def HasGroup (group : ℤ) (db : UserDatabase) : Prop := db.RefersToGroups ∧ group ∈ db.groupIds

variable {db : UserDatabase} {group : ℤ}

/-! ### Changes of a table -/

/-- The groups may change in every other respect, and more groups may come. -/
lemma RefersToGroups.mono {groups : KeyedTable BookmarkGroup} (h : db.RefersToGroups)
    (hids : db.groups.rows.map BookmarkGroup.id ⊆ groups.rows.map BookmarkGroup.id) :
    RefersToGroups { db with groups := groups } :=
  ⟨fun row hrow => hids (h.articles row hrow), fun row hrow => hids (h.artists row hrow),
    fun row hrow => hids (h.users row hrow)⟩

lemma RefersToGroups.insertArticle (h : db.RefersToGroups) (hgroup : group ∈ db.groupIds)
    (article datetime : Str) :
    RefersToGroups { db with
      articles := db.articles.insert fun id => ⟨id, article, datetime, group⟩ } := by
  refine ⟨fun row hrow => ?_, h.artists, h.users⟩
  rcases List.mem_append.mp hrow with hrow | hrow
  · exact h.articles row hrow
  · obtain rfl := List.mem_singleton.mp hrow
    exact hgroup

lemma RefersToGroups.insertArtist (h : db.RefersToGroups) (hgroup : group ∈ db.groupIds)
    (artist : Str) (type : ℤ) (datetime : Str) :
    RefersToGroups { db with
      artists := db.artists.insert fun id => ⟨id, artist, type, datetime, group⟩ } := by
  refine ⟨h.articles, fun row hrow => ?_, h.users⟩
  rcases List.mem_append.mp hrow with hrow | hrow
  · exact h.artists row hrow
  · obtain rfl := List.mem_singleton.mp hrow
    exact hgroup

lemma RefersToGroups.insertUser (h : db.RefersToGroups) (hgroup : group ∈ db.groupIds)
    (user datetime : Str) :
    RefersToGroups { db with
      users := db.users.insert fun id => ⟨id, user, none, none, datetime, group⟩ } := by
  refine ⟨h.articles, h.artists, fun row hrow => ?_⟩
  rcases List.mem_append.mp hrow with hrow | hrow
  · exact h.users row hrow
  · obtain rfl := List.mem_singleton.mp hrow
    exact hgroup

lemma RefersToGroups.deleteArticles (h : db.RefersToGroups) (p : BookmarkArticle → Bool) :
    RefersToGroups { db with articles := db.articles.delete p } :=
  ⟨fun row hrow => h.articles row (List.mem_of_mem_filter hrow), h.artists, h.users⟩

lemma RefersToGroups.deleteArtists (h : db.RefersToGroups) (p : BookmarkArtist → Bool) :
    RefersToGroups { db with artists := db.artists.delete p } :=
  ⟨h.articles, fun row hrow => h.artists row (List.mem_of_mem_filter hrow), h.users⟩

lemma RefersToGroups.deleteUsers (h : db.RefersToGroups) (p : BookmarkUser → Bool) :
    RefersToGroups { db with users := db.users.delete p } :=
  ⟨h.articles, h.artists, fun row hrow => h.users row (List.mem_of_mem_filter hrow)⟩

/-- An update that does not touch the `Id`s. -/
lemma ids_update {groups : KeyedTable BookmarkGroup} {p : BookmarkGroup → Bool}
    {f : BookmarkGroup → BookmarkGroup} (hf : ∀ row, p row = true → (f row).id = row.id) :
    (groups.update p f).rows.map BookmarkGroup.id = groups.rows.map BookmarkGroup.id := by
  rw [KeyedTable.rows_update, List.map_map]
  refine List.map_congr_left fun row _ => ?_
  rw [Function.comp_apply]
  split_ifs with hp
  · exact hf row hp
  · rfl

lemma ids_update_gorder (groups : KeyedTable BookmarkGroup) (p : BookmarkGroup → Bool)
    (gorder : ℤ) : (groups.update p fun row => { row with gorder := gorder }).rows.map
      BookmarkGroup.id = groups.rows.map BookmarkGroup.id :=
  ids_update fun _ _ => rfl

/-- No row is left that belongs to the deleted group. -/
lemma RefersToGroups.deleteGroup (h : db.RefersToGroups)
    (husers : ∀ row ∈ db.users.rows, row.group ≠ group) :
    RefersToGroups { db with
      articles := db.articles.delete fun row => row.group = group
      artists := db.artists.delete fun row => row.group = group
      groups := db.groups.delete fun row => row.id = group } := by
  have hmem (g : ℤ) (hg : g ∈ db.groupIds) (hne : g ≠ group) :
      g ∈ (db.groups.delete fun row => row.id = group).rows.map BookmarkGroup.id := by
    obtain ⟨row, hrow, rfl⟩ := List.mem_map.mp hg
    refine List.mem_map.mpr ⟨row, List.mem_filter.mpr ⟨hrow, ?_⟩, rfl⟩
    simpa using hne
  refine ⟨fun row hrow => ?_, fun row hrow => ?_, fun row hrow => ?_⟩
  · obtain ⟨hrow, hne⟩ := List.mem_filter.mp hrow
    exact hmem _ (h.articles row hrow) (by simpa using hne)
  · obtain ⟨hrow, hne⟩ := List.mem_filter.mp hrow
    exact hmem _ (h.artists row hrow) (by simpa using hne)
  · exact hmem _ (h.users row hrow) (husers row hrow)

end UserDatabase

namespace Bookmark

open UserDatabase

variable {s t : Bookmark} {P : UserDatabase → Prop} {group : ℤ}

/-! ### Methods that only touch caches -/

lemma keepsDb_addArticle (id : ℤ) : Keeps (fun s => P s.db) (addArticle id) := by
  intro s hs
  rw [addArticle, exec_get_bind]
  split <;> exact hs

lemma keepsDb_addParsed (article : Str) : Keeps (fun s => P s.db) (addParsed article) := by
  rw [addParsed]
  split
  · exact keeps_failure
  · apply keepsDb_addArticle

lemma keepsDb_addParsedAll (articles : List Str) :
    Keeps (fun s => P s.db) (addParsedAll articles) := by
  induction articles with
  | nil => exact keeps_pure ()
  | cons article rest ih => exact (keepsDb_addParsed article).bind fun _ => ih

lemma keepsDb_isBookmark (id : DartInt) : Keeps (fun s => P s.db) (isBookmark id) := by
  apply Keeps.bind
  · intro s hs
    rw [fillBookmarkSet, exec_get_bind]
    split_ifs
    · rw [exec_set_bind]
      exact keepsDb_addParsedAll _ _ hs
    · exact hs
  · intro _ s hs
    rw [exec_get_bind]
    split <;> exact hs

lemma keepsDb_removeArticle (id : ℤ) : Keeps (fun s => P s.db) (removeArticle id) := by
  intro s hs
  rw [removeArticle, exec_get_bind]
  split <;> exact hs

lemma keepsDb_addArtist (name : Str) (type : ℤ) :
    Keeps (fun s => P s.db) (addArtist name type) := by
  intro s hs
  rw [addArtist, exec_get_bind]
  split <;> exact hs

lemma keepsDb_addArtistAll (artists : List BookmarkArtist) :
    Keeps (fun s => P s.db) (addArtistAll artists) := by
  induction artists with
  | nil => exact keeps_pure ()
  | cons row rest ih => exact (keepsDb_addArtist row.artist row.type).bind fun _ => ih

lemma keepsDb_isBookmarkArtist (name : Str) (type : ℤ) :
    Keeps (fun s => P s.db) (isBookmarkArtist name type) := by
  apply Keeps.bind
  · intro s hs
    rw [fillBookmarkArtistSet, exec_get_bind]
    split_ifs
    · rw [exec_set_bind]
      exact keepsDb_addArtistAll _ _ hs
    · exact hs
  · intro _ s hs
    rw [exec_get_bind]
    split <;> exact hs

lemma keepsDb_removeArtist (name : Str) (type : ℤ) :
    Keeps (fun s => P s.db) (removeArtist name type) := by
  intro s hs
  rw [removeArtist, exec_get_bind]
  split <;> exact hs

lemma keepsDb_addUser (user : Str) : Keeps (fun s => P s.db) (addUser user) := by
  intro s hs
  rw [addUser, exec_get_bind]
  split <;> exact hs

lemma keepsDb_isBookmarkUser (user : Str) : Keeps (fun s => P s.db) (isBookmarkUser user) := by
  apply Keeps.bind
  · intro s hs
    rw [fillBookmarkUserSet, exec_modify]
    split_ifs <;> exact hs
  · intro _ s hs
    rw [exec_get_bind]
    split <;> exact hs

lemma keepsDb_removeUser (user : Str) : Keeps (fun s => P s.db) (removeUser user) := by
  intro s hs
  rw [removeUser, exec_get_bind]
  split <;> exact hs

lemma keepsDb_write {f : UserDatabase → UserDatabase} (hf : ∀ db, P db → P (f db)) :
    Keeps (fun s => P s.db) (write true f) :=
  keeps_modify fun s hs => hf s.db hs

/-! ### Operations -/

/-- The row that a bookmark adds names a group that is there. -/
lemma keeps_insertArticle (article datetime : Str) :
    Keeps (fun s => s.db.HasGroup group)
      (insertArticle true article datetime group) :=
  (keepsDb_write fun _ ⟨h, hgroup⟩ => ⟨h.insertArticle hgroup article datetime, hgroup⟩).bind
    fun _ => keepsDb_addParsed article

lemma keeps_insertArtist (artist : Str) (type : ℤ) (datetime : Str) :
    Keeps (fun s => s.db.HasGroup group)
      (insertArtist true artist type datetime group) :=
  (keepsDb_write fun _ ⟨h, hgroup⟩ => ⟨h.insertArtist hgroup artist type datetime, hgroup⟩).bind
    fun _ => keepsDb_addArtist artist type

lemma keeps_insertUser (user datetime : Str) :
    Keeps (fun s => s.db.HasGroup group)
      (insertUser true user datetime group) :=
  (keepsDb_write fun _ ⟨h, hgroup⟩ => ⟨h.insertUser hgroup user datetime, hgroup⟩).bind
    fun _ => keepsDb_addUser user

/-- A method that asks first and goes on with `no` only if the answer is no. -/
lemma refersToGroups_of_query {query : Method Bookmark Bool} {no : Method Bookmark Unit}
    (hquery : ∀ P : UserDatabase → Prop, Keeps (fun s => P s.db) query)
    (hno : Keeps (fun s => s.db.HasGroup group) no)
    (h : s.db.RefersToGroups)
    (hgroup : (query.exec s).1 = some false → group ∈ s.db.groupIds) :
    ((query >>= fun b => if b then pure () else no).exec s).2.db.RefersToGroups := by
  have hdb : (query.exec s).2.db = s.db := hquery (fun db => db = s.db) s rfl
  rw [exec_bind]
  rcases hexec : query.exec s with ⟨_ | _ | _, u⟩
  · rw [hexec] at hdb
    exact hdb ▸ h
  · rw [hexec] at hdb hgroup
    have hu : u.db.HasGroup group := by
      rw [hdb]
      exact ⟨h, hgroup rfl⟩
    exact (hno u hu).1
  · rw [hexec] at hdb
    exact hdb ▸ h

/-- A method that asks first and deletes only if the answer is yes. -/
lemma keeps_of_query {query : Method Bookmark Bool} {yes : Method Bookmark Unit}
    (hquery : ∀ P : UserDatabase → Prop, Keeps (fun s => P s.db) query)
    (hyes : Keeps (fun s => s.db.RefersToGroups) yes) :
    Keeps (fun s => s.db.RefersToGroups) (query >>= fun b => if b then yes else pure ()) :=
  (hquery _).bind fun _ => hyes.ite (keeps_pure ())

lemma ids_fixed (groups : List BookmarkGroup) :
    (fixed groups).map BookmarkGroup.id = groups.map BookmarkGroup.id := by
  unfold fixed
  split
  · split_ifs
    · refine List.ext_getElem (by simp) fun i _ _ => ?_
      simp only [List.getElem_map, List.getElem_mapIdx]
      split_ifs <;> rfl
    · rfl
  · rfl

lemma refersToGroups_write {f : UserDatabase → KeyedTable BookmarkGroup}
    (hf : ∀ db : UserDatabase, db.groupIds ⊆ (f db).rows.map BookmarkGroup.id) :
    Keeps (fun s => s.db.RefersToGroups) (write true fun db => { db with groups := f db }) :=
  keepsDb_write fun db h => h.mono (hf db)

lemma refersToGroups_getGroup : Keeps (fun s => s.db.RefersToGroups) (getGroup true) := by
  refine keeps_get.bind fun _ => Keeps.bind (keeps_modify fun s h => ?_) fun _ => keeps_pure _
  rw [if_pos rfl]
  apply h.mono
  rw [ids_fixed]
  exact List.Subset.refl _

lemma refersToGroups_createGroup (name description : Str) (color : ℤ) (now : Str) :
    Keeps (fun s => s.db.RefersToGroups) (createGroup true name description color now) := by
  refine refersToGroups_getGroup.bind fun groups => ?_
  split
  · exact keeps_failure
  · apply refersToGroups_write
    intro db
    rw [KeyedTable.rows_insert, List.map_append]
    exact List.subset_append_left _ _

lemma refersToGroups_modfiyGroup (group : BookmarkGroup) :
    Keeps (fun s => s.db.RefersToGroups) (modfiyGroup true group) := by
  apply refersToGroups_write
  intro db
  rw [ids_update (by simp [eq_comm])]
  exact List.Subset.refl _

lemma refersToGroups_swap (group target : BookmarkGroup) :
    Keeps (fun s => s.db.RefersToGroups) (swap true group target) := by
  apply refersToGroups_write
  intro db
  rw [ids_update_gorder, ids_update_gorder]
  exact List.Subset.refl _

lemma refersToGroups_moveGroup (up : Bool) (steps place : ℕ) (groups : List BookmarkGroup) :
    Keeps (fun s => s.db.RefersToGroups) (moveGroup true up steps place groups) := by
  induction steps generalizing place groups with
  | zero => exact keeps_pure _
  | succ steps ih =>
    rw [moveGroup]
    split
    · exact (refersToGroups_swap _ _).bind fun _ => ih _ _
    · exact keeps_failure

lemma refersToGroups_deleteGroup (h : s.db.RefersToGroups)
    (husers : ∀ row ∈ s.db.users.rows, row.group ≠ group) :
    ((deleteGroup true group).exec s).2.db.RefersToGroups := by
  simp only [deleteGroup, exec_bind, write, if_true, exec_modify]
  exact h.deleteGroup husers

lemma refersToGroups_modfiyUser {user : BookmarkUser} (h : s.db.RefersToGroups)
    (huser : (∃ row ∈ s.db.users.rows, row.id = user.id) → user.group ∈ s.db.groupIds) :
    ((modfiyUser true user).exec s).2.db.RefersToGroups := by
  simp only [modfiyUser, write, if_true, exec_modify]
  refine ⟨h.articles, h.artists, fun row hrow => ?_⟩
  obtain ⟨row', hrow', rfl⟩ := List.mem_map.mp hrow
  split_ifs with hid
  · exact huser ⟨row', hrow', of_decide_eq_true hid⟩
  · exact h.users row' hrow'

/-! ### Runs -/

/-- A row that is added or changed names a group that is there, and no group is deleted with users
in it. -/
def NamesGroups (s : Bookmark) : Operation → Prop
  | .bookmark id _ => ((isBookmark id).exec s).1 = some false → 1 ∈ s.db.groupIds
  | .insertArticle _ _ group | .insertArtist _ _ _ group | .insertUser _ _ group =>
    group ∈ s.db.groupIds
  | .bookmarkArtist name type _ group =>
    ((isBookmarkArtist name type).exec s).1 = some false → group ∈ s.db.groupIds
  | .bookmarkUser user _ group =>
    ((isBookmarkUser user).exec s).1 = some false → group ∈ s.db.groupIds
  | .modfiyUser user =>
    (∃ row ∈ s.db.users.rows, row.id = user.id) → user.group ∈ s.db.groupIds
  | .deleteGroup group => ∀ row ∈ s.db.users.rows, row.group ≠ group
  | _ => True

lemma step_refersToGroups {op : Operation} (h : s.db.RefersToGroups) (hg : NamesGroups s op)
    (hs : step s op = some t) : t.db.RefersToGroups := by
  cases hs
  cases op with
  | isBookmark id => exact keepsDb_isBookmark id s h
  | bookmark id now =>
    exact refersToGroups_of_query (fun _ => keepsDb_isBookmark id)
      ((keepsDb_addArticle id.1).bind fun _ => keeps_insertArticle _ now) h hg
  | unbookmark id =>
    exact keeps_of_query (fun _ => keepsDb_isBookmark id)
      ((keepsDb_write fun _ h => h.deleteArticles _).bind fun _ => keepsDb_removeArticle id.1) s h
  | insertArticle article datetime group =>
    exact (keeps_insertArticle article datetime s ⟨h, hg⟩).1
  | isBookmarkArtist name type => exact keepsDb_isBookmarkArtist name type s h
  | bookmarkArtist name type now group =>
    exact refersToGroups_of_query (fun _ => keepsDb_isBookmarkArtist name type)
      ((keepsDb_addArtist name type).bind fun _ => keeps_insertArtist name type now) h hg
  | unbookmarkArtist name type =>
    exact keeps_of_query (fun _ => keepsDb_isBookmarkArtist name type)
      ((keepsDb_write fun _ h => h.deleteArtists _).bind fun _ => keepsDb_removeArtist name type)
      s h
  | insertArtist artist type datetime group =>
    exact (keeps_insertArtist artist type datetime s ⟨h, hg⟩).1
  | isBookmarkUser user => exact keepsDb_isBookmarkUser user s h
  | bookmarkUser user now group =>
    exact refersToGroups_of_query (fun _ => keepsDb_isBookmarkUser user)
      ((keepsDb_addUser user).bind fun _ => keeps_insertUser user now) h hg
  | unbookmarkUser user =>
    exact keeps_of_query (fun _ => keepsDb_isBookmarkUser user)
      ((keepsDb_write fun _ h => h.deleteUsers _).bind fun _ => keepsDb_addUser user) s h
  | insertUser user datetime group => exact (keeps_insertUser user datetime s ⟨h, hg⟩).1
  | deleteUser user =>
    exact ((keepsDb_write fun _ h => h.deleteUsers _).bind fun _ =>
      keepsDb_removeUser user.user) s h
  | modfiyUser user => exact refersToGroups_modfiyUser h hg
  | getGroup => exact refersToGroups_getGroup s h
  | createGroup name description color now =>
    exact refersToGroups_createGroup name description color now s h
  | modfiyGroup group => exact refersToGroups_modfiyGroup group s h
  | positionSwap source target =>
    exact (refersToGroups_getGroup.bind fun _ =>
      (refersToGroups_moveGroup _ _ _ _).ite (refersToGroups_moveGroup _ _ _ _)) s h
  | deleteGroup group => exact refersToGroups_deleteGroup h hg

/-- In every run whose operations name groups that are there, each row belongs to a group. -/
theorem refersToGroups_of_namesGroups (now : Str) (s : Bookmark)
    (h : Reaches step NamesGroups (load (.create now)) s) : s.db.RefersToGroups :=
  h.invariant (P := fun s => s.db.RefersToGroups)
    ⟨by simp [load, UserDatabase.create], by simp [load, UserDatabase.create],
      by simp [load, UserDatabase.create]⟩
    fun _ _ _ ht hg hs => step_refersToGroups ht hg hs

theorem refersToGroups_of_namesGroups_insertUser :
    (Operation.exec true (load (.create [])) (.insertUser "u".toList [] 1)).db.RefersToGroups := by
  have hgroup : NamesGroups (load (.create [])) (.insertUser "u".toList [] 1) := by
    change (1 : ℤ) ∈ (load (.create [])).db.groupIds
    decide +kernel
  exact refersToGroups_of_namesGroups [] _ (.tail .refl hgroup rfl)

/-- A group is created, a user is bookmarked in it and the group is deleted, which leaves the row of
the user without a group. -/
theorem not_refersToGroups_of_deleteGroup :
    ¬ ∀ s, Reaches step anyEvent (load (.create [])) s → s.db.RefersToGroups := by
  intro h
  let created := Operation.exec true (load (.create [])) (.createGroup [] [] 0 [])
  let bookmarked := Operation.exec true created (.bookmarkUser "u".toList [] 2)
  let deleted := Operation.exec true bookmarked (.deleteGroup 2)
  have hreach : Reaches step anyEvent (load (.create [])) deleted :=
    .tail (.tail (.tail .refl trivial rfl) trivial rfl) trivial rfl
  have husers : deleted.db.users.rows = [⟨1, "u".toList, none, none, [], 2⟩] := by decide +kernel
  have hids : deleted.db.groupIds = [1] := by decide +kernel
  have hgroup := (h deleted hreach).users _ (husers ▸ List.mem_singleton.mpr rfl)
  rw [hids] at hgroup
  exact absurd hgroup (by decide)

end Bookmark

end Violet
