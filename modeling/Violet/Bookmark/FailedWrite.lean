import Violet.Bookmark.Operations
import Violet.Transition.Run

/-!
# Writes that fail

A bookmark is removed from its table first and from the cache afterwards. It is added the other way
round, so a bookmark that could not be written is in the cache nevertheless.
-/

namespace Violet

open Dart Method Transition

/-- An operation that adds or removes a bookmark. -/
inductive BookmarkChange where
  | bookmark (id : DartInt) (now : Str)
  | unbookmark (id : DartInt)
  | bookmarkArtist (name : Str) (type : ℤ) (now : Str) (group : ℤ)
  | unbookmarkArtist (name : Str) (type : ℤ)
  | bookmarkUser (user now : Str) (group : ℤ)
  | unbookmarkUser (user : Str)

/-- An object whose caches are filled. -/
structure CachedBookmark where
  db : UserDatabase
  articles : Finset ℤ
  artists : Fin 5 → Finset Str
  users : Finset Str

/-- The object with these caches. -/
def CachedBookmark.toBookmark (c : CachedBookmark) : Bookmark :=
  { db := c.db, bookmarkSet := some c.articles, bookmarkArtistSet := some c.artists,
    bookmarkUserSet := some c.users }

namespace Bookmark

/-- The queries have the same answers. -/
structure SameAnswers (s t : Bookmark) : Prop where
  isBookmark : ∀ id, ((isBookmark id).exec s).1 = ((isBookmark id).exec t).1
  isBookmarkArtist : ∀ name type,
    ((isBookmarkArtist name type).exec s).1 = ((isBookmarkArtist name type).exec t).1
  isBookmarkUser : ∀ user, ((isBookmarkUser user).exec s).1 = ((isBookmarkUser user).exec t).1

lemma SameAnswers.refl (s : Bookmark) : SameAnswers s s :=
  ⟨fun _ => rfl, fun _ _ => rfl, fun _ => rfl⟩

end Bookmark

open Bookmark

namespace BookmarkChange

def exec (writable : Bool) : BookmarkChange → Method Bookmark Unit
  | .bookmark id now => Bookmark.bookmark writable id now
  | .unbookmark id => Bookmark.unbookmark writable id
  | .bookmarkArtist name type now group => Bookmark.bookmarkArtist writable name type now group
  | .unbookmarkArtist name type => Bookmark.unbookmarkArtist writable name type
  | .bookmarkUser user now group => Bookmark.bookmarkUser writable user now group
  | .unbookmarkUser user => Bookmark.unbookmarkUser writable user

/-- The operation adds a bookmark that is not there yet. -/
def Adds (s : Bookmark) : BookmarkChange → Prop
  | .bookmark id _ => ((isBookmark id).exec s).1 = some false
  | .bookmarkArtist name type _ _ => ((isBookmarkArtist name type).exec s).1 = some false
  | .bookmarkUser user _ _ => ((isBookmarkUser user).exec s).1 = some false
  | .unbookmark _ | .unbookmarkArtist _ _ | .unbookmarkUser _ => False

/-- The queries are answered as before when the write of the operation fails. -/
def SurvivesFailure (s : Bookmark) (change : BookmarkChange) : Prop :=
  SameAnswers s ((change.exec false).exec s).2

end BookmarkChange

namespace CachedBookmark

variable (c : CachedBookmark)

/-! ### Queries of filled caches -/

lemma exec_isBookmark (id : DartInt) :
    (isBookmark id).exec c.toBookmark = (some (decide (id.1 ∈ c.articles)), c.toBookmark) := by
  simp [isBookmark, fillBookmarkSet, toBookmark]

lemma exec_isBookmarkArtist (name : Str) (type : ℤ) :
    (isBookmarkArtist name type).exec c.toBookmark =
      ((typeKey type).map fun k => decide (name ∈ c.artists k), c.toBookmark) := by
  cases hk : typeKey type <;>
    simp [isBookmarkArtist, fillBookmarkArtistSet, toBookmark, hk]

lemma exec_isBookmarkUser (user : Str) :
    (isBookmarkUser user).exec c.toBookmark =
      (some (decide (user ∈ c.users)), c.toBookmark) := by
  simp [isBookmarkUser, fillBookmarkUserSet, toBookmark]

/-! ### Failed writes -/

/-- Nothing changes when there is nothing to remove or the removal fails. -/
lemma exec_remove {m : Method Bookmark Unit} {query : Method Bookmark Bool} {b : Option Bool}
    (hquery : query.exec c.toBookmark = (b, c.toBookmark))
    (f : UserDatabase → UserDatabase) :
    ((query >>= fun found => if found then write false f >>= fun _ => m else pure ()).exec
      c.toBookmark).2 = c.toBookmark := by
  rw [exec_bind, hquery]
  rcases b with _ | (_ | _) <;> rfl

/-- The article is in the cache, although it could not be written. -/
lemma exec_bookmark (id : DartInt) (now : Str) :
    ((bookmark false id now).exec c.toBookmark).2 =
      if id.1 ∈ c.articles then c.toBookmark
      else { c with articles := insert id.1 c.articles }.toBookmark := by
  rw [bookmark, exec_bind_of_some (c.exec_isBookmark id)]
  by_cases hid : id.1 ∈ c.articles
  · simp [hid]
  · have hadd : (addArticle id).exec c.toBookmark =
        (some (), { c with articles := insert id.1 c.articles }.toBookmark) := by
      simp [addArticle, toBookmark]
    simp only [hid, decide_false, Bool.false_eq_true, if_false]
    rw [exec_bind_of_some hadd]
    rfl

lemma exec_bookmarkArtist (name : Str) (type : ℤ) (now : Str) (group : ℤ) :
    ((bookmarkArtist false name type now group).exec c.toBookmark).2 =
      match typeKey type with
      | none => c.toBookmark
      | some k =>
        if name ∈ c.artists k then c.toBookmark
        else { c with
          artists := Function.update c.artists k (insert name (c.artists k)) }.toBookmark := by
  rw [bookmarkArtist, exec_bind, exec_isBookmarkArtist]
  cases hk : typeKey type with
  | none => rfl
  | some k =>
    by_cases hname : name ∈ c.artists k
    · simp [hname]
    · have hadd : (addArtist name type).exec c.toBookmark = (some (), { c with
          artists := Function.update c.artists k (insert name (c.artists k)) }.toBookmark) := by
        simp [addArtist, toBookmark, hk]
      simp only [Option.map_some, hname, decide_false, Bool.false_eq_true, if_false]
      rw [exec_bind_of_some hadd]
      rfl

lemma exec_bookmarkUser (user now : Str) (group : ℤ) :
    ((bookmarkUser false user now group).exec c.toBookmark).2 =
      if user ∈ c.users then c.toBookmark
      else { c with users := insert user c.users }.toBookmark := by
  rw [bookmarkUser, exec_bind_of_some (c.exec_isBookmarkUser user)]
  by_cases huser : user ∈ c.users
  · simp [huser]
  · have hadd : (addUser user).exec c.toBookmark =
        (some (), { c with users := insert user c.users }.toBookmark) := by
      simp [addUser, toBookmark]
    simp only [huser, decide_false, Bool.false_eq_true, if_false]
    rw [exec_bind_of_some hadd]
    rfl

/-- A failed write goes unnoticed by the queries exactly when it does not add a bookmark. -/
theorem survivesFailure_iff_not_adds (c : CachedBookmark) (change : BookmarkChange) :
    change.SurvivesFailure c.toBookmark ↔ ¬ change.Adds c.toBookmark := by
  rw [BookmarkChange.SurvivesFailure]
  cases change with
  | bookmark id now =>
    rw [BookmarkChange.exec, exec_bookmark, BookmarkChange.Adds, exec_isBookmark]
    by_cases hid : id.1 ∈ c.articles
    · simp [hid, SameAnswers.refl]
    · refine iff_of_false (fun h => ?_) (by simp [hid])
      have hanswer := h.isBookmark id
      rw [if_neg hid, exec_isBookmark, exec_isBookmark] at hanswer
      simp [hid] at hanswer
  | bookmarkArtist name type now group =>
    rw [BookmarkChange.exec, exec_bookmarkArtist, BookmarkChange.Adds, exec_isBookmarkArtist]
    cases hk : typeKey type with
    | none => simp [SameAnswers.refl]
    | some k =>
      by_cases hname : name ∈ c.artists k
      · simp [hname, SameAnswers.refl]
      · refine iff_of_false (fun h => ?_) (by simp [hname])
        have hanswer := h.isBookmarkArtist name type
        simp only [if_neg hname, exec_isBookmarkArtist, hk] at hanswer
        simp [hname] at hanswer
  | bookmarkUser user now group =>
    rw [BookmarkChange.exec, exec_bookmarkUser, BookmarkChange.Adds, exec_isBookmarkUser]
    by_cases huser : user ∈ c.users
    · simp [huser, SameAnswers.refl]
    · refine iff_of_false (fun h => ?_) (by simp [huser])
      have hanswer := h.isBookmarkUser user
      rw [if_neg huser, exec_isBookmarkUser, exec_isBookmarkUser] at hanswer
      simp [huser] at hanswer
  | unbookmark id =>
    rw [BookmarkChange.exec, unbookmark, c.exec_remove (c.exec_isBookmark id)]
    exact iff_of_true (.refl _) not_false
  | unbookmarkArtist name type =>
    rw [BookmarkChange.exec, unbookmarkArtist, c.exec_remove (c.exec_isBookmarkArtist name type)]
    exact iff_of_true (.refl _) not_false
  | unbookmarkUser user =>
    rw [BookmarkChange.exec, unbookmarkUser, c.exec_remove (c.exec_isBookmarkUser user)]
    exact iff_of_true (.refl _) not_false

/-- In the new database, with all caches filled, article 3 is bookmarked in vain. -/
theorem not_survivesFailure_bookmark :
    ¬ ∀ c : CachedBookmark, Reaches step anyEvent (load (.create [])) c.toBookmark →
      ∀ change : BookmarkChange, change.SurvivesFailure c.toBookmark := by
  intro h
  let c : CachedBookmark := ⟨.create [], ∅, fun _ => ∅, ∅⟩
  have hreach : Reaches step anyEvent (load (.create [])) c.toBookmark :=
    .tail (e := .isBookmarkUser []) (.tail (e := .isBookmarkArtist [] 0)
      (.tail (e := .isBookmark ⟨3, three_bounds⟩) .refl trivial rfl) trivial rfl) trivial rfl
  have hanswer := (h c hreach (.bookmark ⟨3, three_bounds⟩ [])).isBookmark ⟨3, three_bounds⟩
  rw [BookmarkChange.exec, exec_bookmark, if_neg (Finset.notMem_empty _), exec_isBookmark,
    exec_isBookmark] at hanswer
  simp [c] at hanswer

end CachedBookmark

end Violet
