import Violet.Bookmark.Caches
import Violet.Bookmark.References
import Violet.Transition.Interleaving

/-!
# Concurrent bookmarks of articles

A call of `bookmark` or `unbookmark` awaits the lock, the query that fills the cache, the answer
about its article and the change of the table, and other calls go on in the meantime.
-/

namespace Violet

open Dart Method Transition
open Transition.Calls (finish)

/-! ### Calls -/

inductive ArticleTask where
  | bookmark (now : Str)
  | unbookmark
  deriving DecidableEq, Repr

/-- Where a call is suspended. -/
inductive ArticlePlace where
  | locking
  /-- With the lock, before the query for the articles. -/
  | reading
  /-- With the lock and the articles. -/
  | filling (articles : List Str)
  | unlocked
  /-- With the answer of `isBookmark`. -/
  | asked (answer : Bool)
  /-- Before the change of the table. -/
  | writing
  /-- Between the change of the table and that of the cache. -/
  | written
  | ended
  deriving DecidableEq, Repr

structure ArticleCall where
  task : ArticleTask
  id : DartInt
  place : ArticlePlace := .locking
  deriving DecidableEq, Repr

/-- The bookmarks and the lock that guards their caches while they are filled. -/
structure LockedBookmark where
  bookmark : Bookmark
  locked : Bool := false

namespace ArticleCall

/-- The call at its next place. -/
def go (c : ArticleCall) (place : ArticlePlace) : ArticleCall := { c with place := place }

/-- The call after a method that may throw. -/
def goOn (c : ArticleCall) (place : ArticlePlace) (s : LockedBookmark)
    (r : Option Unit × Bookmark) : LockedBookmark × ArticleCall :=
  ({ s with bookmark := r.2 }, c.go (if r.1.isSome then place else .ended))

/-- The call after the answer of `isBookmark`. -/
def answered (s : LockedBookmark) (c : ArticleCall) (answer : Bool) :
    LockedBookmark × ArticleCall :=
  match c.task with
  | .bookmark _ =>
    if answer then (s, c.go .ended)
    else c.goOn .writing s ((Bookmark.addArticle c.id).exec s.bookmark)
  | .unbookmark => if answer then (s, c.go .writing) else (s, c.go .ended)

/-- The change of the table. -/
def change (c : ArticleCall) : UserDatabase → UserDatabase :=
  match c.task with
  | .bookmark now => fun db => { db with
      articles := db.articles.insert fun id =>
        { id := id, article := intToString c.id, datetime := now, group := 1 } }
  | .unbookmark => fun db => { db with
      articles := db.articles.delete fun row => row.article = intToString c.id }

/-- The change of the cache after that. -/
def follow (c : ArticleCall) : Method Bookmark Unit :=
  match c.task with
  | .bookmark _ => Bookmark.addParsed (intToString c.id)
  | .unbookmark => Bookmark.removeArticle c.id

/-- A call goes on from one `await` to the next. -/
def resume (s : LockedBookmark) (c : ArticleCall) : Option (LockedBookmark × ArticleCall) :=
  match c.place with
  | .locking =>
    if s.locked then none
    else if s.bookmark.bookmarkSet.isNone then some ({ s with locked := true }, c.go .reading)
    else some (s, c.go .unlocked)
  | .reading =>
    some (s, c.go (.filling (s.bookmark.db.articles.rows.map BookmarkArticle.article)))
  | .filling articles =>
    some (c.goOn .unlocked { s with locked := false }
      ((Bookmark.addParsedAll articles).exec { s.bookmark with bookmarkSet := some ∅ }))
  | .unlocked =>
    match s.bookmark.bookmarkSet with
    | none => some (s, c.go .ended)
    | some ids => some (s, c.go (.asked (c.id.1 ∈ ids)))
  | .asked answer => some (c.answered s answer)
  | .writing => some (c.goOn .written s ((Bookmark.write true c.change).exec s.bookmark))
  | .written => some (c.goOn .ended s (c.follow.exec s.bookmark))
  | .ended => none

/-- Calls of `bookmark` and `unbookmark`. -/
def start (op : ArticleTask × DartInt) : List ArticleCall := [{ task := op.1, id := op.2 }]

end ArticleCall

namespace UserDatabase

/-- The articles in the table, as they are stored. -/
def articleTexts (db : UserDatabase) : List Str := db.articles.rows.map BookmarkArticle.article

/-- Each article has one row at most. -/
def OneRowEach (db : UserDatabase) : Prop := db.articleTexts.Nodup

end UserDatabase

/-- The article of a row. -/
def BookmarkArticle.articleId (row : BookmarkArticle) : Option ℤ := intTryParse row.article

namespace UserDatabase

/-- The rows hold the decimal texts of their articles, as `toString` writes them. -/
def InDecimals (db : UserDatabase) : Prop :=
  ∀ row ∈ db.articles.rows, ∃ id : DartInt, row.article = intToString id

/-- Each article has one row at most, in whatever way it is written. -/
def OneRowPerId (db : UserDatabase) : Prop :=
  (db.articles.rows.map BookmarkArticle.articleId).Nodup

/-- Decimal texts are told apart by their numbers. -/
lemma OneRowEach.oneRowPerId {db : UserDatabase} (h : db.OneRowEach) (hdb : db.InDecimals) :
    db.OneRowPerId := by
  refine (List.pairwise_map.mp h).imp_of_mem (fun {a b} ha hb hne heq => hne ?_) |>.map _
    (fun _ _ h => h)
  obtain ⟨i, hi⟩ := hdb a ha
  obtain ⟨j, hj⟩ := hdb b hb
  rw [BookmarkArticle.articleId, BookmarkArticle.articleId, hi, hj,
    intTryParse_intToString i.2.1 i.2.2, intTryParse_intToString j.2.1 j.2.2] at heq
  rw [hi, hj, Option.some.inj heq]

end UserDatabase

namespace ArticleCall

/-! ### The invariant -/

/-- The call has passed its check and is going to change the table or the cache. -/
def Passed (c : ArticleCall) : Prop := c.place = .writing ∨ c.place = .written

/-- The call holds the lock. -/
def Locks (c : ArticleCall) : Prop := c.place = .reading ∨ ∃ articles, c.place = .filling articles

/-- Each article has one row at most, and the cache, when it is there, knows those with a row. -/
def Unique (s : LockedBookmark) : Prop :=
  s.bookmark.db.OneRowEach ∧ ∀ ids ∈ s.bookmark.bookmarkSet, ∀ id : DartInt,
    intToString id ∈ s.bookmark.db.articleTexts → id.1 ∈ ids

/-- What a call knows at its place: the lock keeps the cache empty, a call of `bookmark` that has
passed finds no row of its article, and one of `unbookmark` leaves none. -/
def Knows (s : LockedBookmark) (c : ArticleCall) : Prop :=
  match c.place with
  | .locking | .ended => True
  | .reading => s.locked = true ∧ s.bookmark.bookmarkSet = none
  | .filling articles =>
    s.locked = true ∧ s.bookmark.bookmarkSet = none ∧ articles = s.bookmark.db.articleTexts
  | .unlocked | .asked _ => s.bookmark.bookmarkSet.isSome = true
  | .writing => s.bookmark.bookmarkSet.isSome = true ∧
    (c.task ≠ .unbookmark → intToString c.id ∉ s.bookmark.db.articleTexts ∧
      ∀ ids ∈ s.bookmark.bookmarkSet, c.id.1 ∈ ids)
  | .written => s.bookmark.bookmarkSet.isSome = true ∧
    (c.task = .unbookmark → intToString c.id ∉ s.bookmark.db.articleTexts)

/-- One call at a time holds the lock, and a call of `bookmark` is the only one that has passed for
its article. -/
def GetsAlong (c d : ArticleCall) : Prop :=
  ¬ (c.Locks ∧ d.Locks) ∧
    (c.id = d.id → c.Passed → d.Passed → c.task = .unbookmark ∧ d.task = .unbookmark)

/-! ### Admitted calls -/

/-- The articles with which the cache is filled are numbers, and the answer with which a call of
`bookmark` goes on still holds. -/
def AnswerHolds (s : LockedBookmark) (c : ArticleCall) : Prop :=
  (∀ articles, c.place = .filling articles → ∀ a ∈ articles, (intTryParse a).isSome) ∧
    (c.place = .asked false → c.task ≠ .unbookmark → ∀ ids ∈ s.bookmark.bookmarkSet, c.id.1 ∉ ids)

/-- The call has the answer with which it goes on to change the table. -/
def Passes (c : ArticleCall) : Prop := c.place = .asked (Decidable.decide (c.task = .unbookmark))

/-- No call passes its check while another one for its article has passed, unless both of them are
calls of `unbookmark`. -/
def PassesAlone (c d : ArticleCall) : Prop :=
  c.Passes → c.id = d.id → d.Passed → c.task = .unbookmark ∧ d.task = .unbookmark

variable {s t : LockedBookmark} {c d : ArticleCall} {place : ArticlePlace} {ids : Finset ℤ}

/-! ### Steps that change nothing shared -/

/-- A call at its next place, when it neither takes the lock nor passes its check by going there. -/
lemma GetsAlong.go (h : GetsAlong c d ∧ GetsAlong d c) (hlocks : (c.go place).Locks → c.Locks)
    (hpassed : (c.go place).Passed → c.Passed) :
    GetsAlong (c.go place) d ∧ GetsAlong d (c.go place) := by
  refine ⟨⟨fun hl => h.1.1 ⟨hlocks hl.1, hl.2⟩, fun hid hc hd => ?_⟩,
    ⟨fun hl => h.2.1 ⟨hl.1, hlocks hl.2⟩, fun hid hd hc => ?_⟩⟩
  · exact h.1.2 hid (hpassed hc) hd
  · exact h.2.2 hid hd (hpassed hc)

/-- A call that passes its check alone. -/
lemma GetsAlong.go_writing (hc : c.Passes) (halone : PassesAlone c d) :
    GetsAlong (c.go .writing) d ∧ GetsAlong d (c.go .writing) := by
  have hlocks : ¬ (c.go .writing).Locks := by simp [Locks, ArticleCall.go]
  refine ⟨⟨fun hl => hlocks hl.1, fun hid _ hd => halone hc hid hd⟩,
    ⟨fun hl => hlocks hl.2, fun hid hd _ => ?_⟩⟩
  exact (halone hc hid.symm hd).symm

@[simp] lemma goOn_some (c : ArticleCall) (place : ArticlePlace) (s : LockedBookmark)
    (bookmark : Bookmark) :
    c.goOn place s (some (), bookmark) = ({ s with bookmark := bookmark }, c.go place) := rfl

/-- What a call has to show for its step: the invariant afterwards, for itself and for each call
that it gets along with. -/
def Fine (s : LockedBookmark) (c : ArticleCall) (r : LockedBookmark × ArticleCall) : Prop :=
  Unique r.1 ∧ Knows r.1 r.2 ∧ ∀ d, Knows s d → PassesAlone c d → GetsAlong c d → GetsAlong d c →
    Knows r.1 d ∧ GetsAlong r.2 d ∧ GetsAlong d r.2

lemma Fine.go (h : Unique s) (hknows : Knows s (c.go place))
    (hlocks : (c.go place).Locks → c.Locks) (hpassed : (c.go place).Passed → c.Passed) :
    Fine s c (s, c.go place) :=
  ⟨h, hknows, fun _ hd _ hcd hdc => ⟨hd, GetsAlong.go ⟨hcd, hdc⟩ hlocks hpassed⟩⟩

/-! ### Steps of the cache -/

/-- The call takes the lock, which no other call holds. -/
lemma fine_lock (h : Unique s) (hlocked : s.locked = false) (hset : s.bookmark.bookmarkSet = none) :
    Fine s c ({ s with locked := true }, c.go .reading) := by
  refine ⟨h, ⟨rfl, hset⟩, fun d hd _ hcd hdc => ?_⟩
  have hnot : ¬ d.Locks := by
    rintro (hl | ⟨articles, hl⟩) <;> rw [Knows, hl] at hd <;> simp [hlocked] at hd
  have hpassed : ¬ (c.go .reading).Passed := by simp [Passed, ArticleCall.go]
  refine ⟨?_, ⟨fun hl => hnot hl.2, fun _ hp => absurd hp hpassed⟩,
    ⟨fun hl => hnot hl.1, fun _ _ hp => absurd hp hpassed⟩⟩
  unfold Knows at hd ⊢
  split at hd <;> simp_all

lemma fine_fill {articles : List Str} (h : Unique s) (hknows : Knows s c)
    (hc : c.place = .filling articles) (hall : ∀ a ∈ articles, (intTryParse a).isSome) :
    Fine s c (c.goOn .unlocked { s with locked := false }
      ((Bookmark.addParsedAll articles).exec { s.bookmark with bookmarkSet := some ∅ })) := by
  rw [Knows, hc] at hknows
  obtain ⟨-, hset, rfl⟩ := hknows
  rw [Bookmark.exec_addParsedAll (s := { s.bookmark with bookmarkSet := some ∅ }) rfl hall,
    goOn_some]
  refine ⟨⟨h.1, fun ids hids id hid => ?_⟩, rfl, fun d hd _ hcd hdc => ?_⟩
  · cases hids
    rw [Finset.empty_union, List.mem_toFinset, List.mem_filterMap]
    exact ⟨_, hid, intTryParse_intToString id.2.1 id.2.2⟩
  · have hlocks : c.Locks := .inr ⟨_, hc⟩
    refine ⟨?_, GetsAlong.go ⟨hcd, hdc⟩ (fun _ => hlocks) (by simp [Passed, ArticleCall.go])⟩
    -- The other calls have neither the lock nor a cache to ask.
    have hnot : ¬ d.Locks := fun hl => hcd.1 ⟨hlocks, hl⟩
    unfold Knows at hd ⊢
    split at hd <;> simp_all [Locks]

/-- What another call knows once the cache is there, after a change of the table and the cache. -/
lemma Knows.change {ids' : Finset ℤ} (hd : Knows s d) (hset : s.bookmark.bookmarkSet = some ids)
    (hset' : t.bookmark.bookmarkSet = some ids')
    (hrow : d.Passed → intToString d.id ∉ s.bookmark.db.articleTexts →
      intToString d.id ∉ t.bookmark.db.articleTexts)
    (hid : d.place = .writing → d.task ≠ .unbookmark → d.id.1 ∈ ids → d.id.1 ∈ ids') :
    Knows t d := by
  unfold Knows at hd ⊢
  split at hd
  · trivial
  · trivial
  · simp [hset] at hd
  · simp [hset] at hd
  · simp [hset']
  · simp [hset']
  · rename_i hplace
    refine ⟨by simp [hset'], fun htask => ⟨?_, fun ids'' hids'' => ?_⟩⟩
    · exact hrow (.inl hplace) (hd.2 htask).1
    · obtain rfl : ids' = ids'' := Option.some.inj (hset'.symm.trans hids'')
      exact hid hplace htask ((hd.2 htask).2 ids hset)
  · rename_i hplace
    exact ⟨by simp [hset'], fun htask => hrow (.inr hplace) (hd.2 htask)⟩

/-- A call of `bookmark` passes its check. -/
lemma fine_add (h : Unique s) (hknows : Knows s c) (hc : c.Passes)
    (hid : ∀ ids ∈ s.bookmark.bookmarkSet, c.id.1 ∉ ids) :
    Fine s c (c.goOn .writing s ((Bookmark.addArticle c.id).exec s.bookmark)) := by
  obtain ⟨ids, hset⟩ : ∃ ids, s.bookmark.bookmarkSet = some ids := by
    rw [Knows, hc] at hknows
    exact Option.isSome_iff_exists.mp hknows
  have hrow : intToString c.id ∉ s.bookmark.db.articleTexts := fun hrow =>
    hid ids hset (h.2 ids hset c.id hrow)
  rw [Bookmark.exec_addArticle hset, goOn_some]
  refine ⟨⟨h.1, fun ids' hids' id hid => ?_⟩, ⟨rfl, fun _ => ⟨hrow, ?_⟩⟩,
    fun d hd halone _ _ => ⟨?_, GetsAlong.go_writing hc halone⟩⟩
  · cases hids'
    exact Finset.mem_insert_of_mem (h.2 ids hset id hid)
  · intro ids' hids'
    cases hids'
    exact Finset.mem_insert_self _ _
  · exact hd.change hset rfl (fun _ hno => hno) fun _ _ => Finset.mem_insert_of_mem

/-! ### Steps of the table -/

lemma articleTexts_insert (db : UserDatabase) (article datetime : Str) (group : ℤ) :
    UserDatabase.articleTexts { db with
      articles := db.articles.insert fun i => ⟨i, article, datetime, group⟩ } =
        db.articleTexts ++ [article] := by
  simp [UserDatabase.articleTexts]

lemma articleTexts_delete (db : UserDatabase) (article : Str) :
    UserDatabase.articleTexts { db with
      articles := db.articles.delete fun row => row.article = article } =
        db.articleTexts.filter (· ≠ article) := by
  simp only [UserDatabase.articleTexts, KeyedTable.rows_delete, List.filter_map]
  congr 1
  refine List.filter_congr fun row _ => ?_
  simp

/-- A call of `bookmark` adds a row for an article without one. -/
lemma fine_insert {now : Str} (h : Unique s) (hknows : Knows s c) (hc : c.place = .writing)
    (htask : c.task = .bookmark now) :
    Fine s c (c.goOn .written s ((Bookmark.write true c.change).exec s.bookmark)) := by
  rw [Knows, hc] at hknows
  obtain ⟨hset, hbookmark⟩ := hknows
  obtain ⟨ids, hset⟩ := Option.isSome_iff_exists.mp hset
  obtain ⟨hrow, hid⟩ := hbookmark (by simp [htask])
  have htexts := articleTexts_insert s.bookmark.db (intToString c.id) now 1
  rw [Bookmark.exec_write, goOn_some, change, htask]
  refine ⟨⟨?_, fun ids' hids' id hid' => ?_⟩, ⟨by simp [hset], by simp [go, htask]⟩,
    fun d hd _ hcd hdc => ⟨?_, ?_⟩⟩
  · rw [UserDatabase.OneRowEach, htexts]
    exact List.nodup_append.mpr ⟨h.1, List.nodup_singleton _, fun a ha b hb heq =>
      hrow (List.mem_singleton.mp hb ▸ heq ▸ ha)⟩
  · rw [htexts] at hid'
    rcases List.mem_append.mp hid' with hid' | hid'
    · exact h.2 ids' hids' id hid'
    · rw [intToString_inj (List.mem_singleton.mp hid')]
      exact hid ids' hids'
  · refine hd.change hset hset (fun hpassed hno => ?_) fun _ _ hin => hin
    rw [htexts, List.mem_append, List.mem_singleton]
    rintro (hold | hnew)
    · exact hno hold
    · have halone := hcd.2 (intToString_inj hnew).symm (.inl hc) hpassed
      rw [htask] at halone
      exact absurd halone.1 (by simp)
  · exact GetsAlong.go ⟨hcd, hdc⟩ (by simp [Locks, ArticleCall.go]) fun _ => .inl hc

/-- A call of `unbookmark` deletes the rows of its article. -/
lemma fine_delete (h : Unique s) (hknows : Knows s c) (hc : c.place = .writing)
    (htask : c.task = .unbookmark) :
    Fine s c (c.goOn .written s ((Bookmark.write true c.change).exec s.bookmark)) := by
  rw [Knows, hc] at hknows
  obtain ⟨ids, hset⟩ := Option.isSome_iff_exists.mp hknows.1
  have htexts := articleTexts_delete s.bookmark.db (intToString c.id)
  rw [Bookmark.exec_write, goOn_some, change, htask]
  refine ⟨⟨?_, fun ids' hids' id hid' => ?_⟩, ⟨by simp [hset], fun _ => ?_⟩,
    fun d hd _ hcd hdc => ⟨?_, ?_⟩⟩
  · rw [UserDatabase.OneRowEach, htexts]
    exact h.1.filter _
  · rw [htexts] at hid'
    exact h.2 ids' hids' id (List.mem_of_mem_filter hid')
  · change intToString c.id ∉ _
    rw [htexts]
    simp
  · refine hd.change hset hset (fun _ hno => ?_) fun _ _ hin => hin
    rw [htexts]
    exact fun hin => hno (List.mem_of_mem_filter hin)
  · exact GetsAlong.go ⟨hcd, hdc⟩ (by simp [Locks, ArticleCall.go]) fun _ => .inl hc

/-- The cache follows the table. -/
lemma fine_follow (h : Unique s) (hknows : Knows s c) (hc : c.place = .written) :
    Fine s c (c.goOn .ended s (c.follow.exec s.bookmark)) := by
  rw [Knows, hc] at hknows
  obtain ⟨ids, hset⟩ := Option.isSome_iff_exists.mp hknows.1
  have hended (d : ArticleCall) (hcd : GetsAlong c d ∧ GetsAlong d c) :
      GetsAlong (c.go .ended) d ∧ GetsAlong d (c.go .ended) :=
    GetsAlong.go hcd (by simp [Locks, ArticleCall.go]) fun _ => .inr hc
  cases htask : c.task with
  | bookmark now =>
    rw [follow, htask, Bookmark.exec_addParsed hset (intTryParse_intToString c.id.2.1 c.id.2.2),
      goOn_some]
    refine ⟨⟨h.1, fun ids' hids' id hid => ?_⟩, trivial,
      fun d hd _ hcd hdc => ⟨?_, hended d ⟨hcd, hdc⟩⟩⟩
    · cases hids'
      exact Finset.mem_insert_of_mem (h.2 ids hset id hid)
    · exact hd.change hset rfl (fun _ hno => hno) fun _ _ => Finset.mem_insert_of_mem
  | unbookmark =>
    have hremove : (Bookmark.removeArticle c.id).exec s.bookmark =
        (some (), { s.bookmark with bookmarkSet := some (ids.erase c.id) }) := by
      simp [Bookmark.removeArticle, hset]
    rw [follow, htask, hremove, goOn_some]
    refine ⟨⟨h.1, fun ids' hids' id hid => ?_⟩, trivial,
      fun d hd _ hcd hdc => ⟨?_, hended d ⟨hcd, hdc⟩⟩⟩
    · cases hids'
      refine Finset.mem_erase.mpr ⟨fun heq => hknows.2 htask ?_, h.2 ids hset id hid⟩
      rw [← Subtype.ext heq]
      exact hid
    · refine hd.change hset rfl (fun _ hno => hno) fun hplace hdtask hin => ?_
      refine Finset.mem_erase.mpr ⟨fun heq => hdtask ?_, hin⟩
      exact (hcd.2 (Subtype.ext heq).symm (.inr hc) (.inl hplace)).2

/-! ### Runs -/

theorem fine_resume {r : LockedBookmark × ArticleCall} (h : Unique s) (hknows : Knows s c)
    (hanswer : AnswerHolds s c) (hr : resume s c = some r) : Fine s c r := by
  unfold resume at hr
  split at hr
  · rename_i hc
    split_ifs at hr with hlocked hset
    · cases hr
      exact fine_lock h (by simpa using hlocked) (by simpa using hset)
    · cases hr
      apply Fine.go h
      · simpa [Knows, go, Option.isSome_iff_ne_none] using hset
      · simp [Locks, go]
      · simp [Passed, go]
  · rename_i hc
    cases hr
    rw [Knows, hc] at hknows
    apply Fine.go h
    · exact ⟨hknows.1, hknows.2, rfl⟩
    · exact fun _ => .inl hc
    · simp [Passed, go]
  · rename_i articles hc
    cases hr
    exact fine_fill h hknows hc (hanswer.1 articles hc)
  · rename_i hc
    split at hr
    · cases hr
      apply Fine.go h
      · trivial
      · simp [Locks, go]
      · simp [Passed, go]
    · rename_i ids hset
      cases hr
      apply Fine.go h
      · simp [Knows, go, hset]
      · simp [Locks, go]
      · simp [Passed, go]
  · rename_i answer hc
    cases hr
    unfold answered
    have hended : Fine s c (s, c.go .ended) := by
      apply Fine.go h
      · trivial
      · simp [Locks, go]
      · simp [Passed, go]
    split
    · rename_i now htask
      split_ifs with hyes
      · exact hended
      · obtain rfl : answer = false := by simpa using hyes
        apply fine_add h hknows
        · simp [Passes, hc, htask]
        · exact hanswer.2 hc (by simp [htask])
    · rename_i htask
      split_ifs with hyes
      · rw [Knows, hc] at hknows
        refine ⟨h, ⟨hknows, by simp [go, htask]⟩, fun d hd halone _ _ => ⟨hd, ?_⟩⟩
        exact GetsAlong.go_writing (by simp [Passes, hc, htask, hyes]) halone
      · exact hended
  · rename_i hc
    cases hr
    cases htask : c.task with
    | bookmark now => exact fine_insert h hknows hc htask
    | unbookmark => exact fine_delete h hknows hc htask
  · rename_i hc
    cases hr
    exact fine_follow h hknows hc
  · cases hr

/-- The rows that calls add hold decimal texts. -/
lemma inDecimals_resume {r : LockedBookmark × ArticleCall} (h : s.bookmark.db.InDecimals)
    (hr : resume s c = some r) : r.1.bookmark.db.InDecimals := by
  unfold resume at hr
  split at hr
  · split_ifs at hr <;> cases hr <;> exact h
  · cases hr
    exact h
  · cases hr
    exact Bookmark.keepsDb_addParsedAll _ _ h
  · split at hr <;> cases hr <;> exact h
  · cases hr
    unfold answered
    split <;> split_ifs
    · exact h
    · exact Bookmark.keepsDb_addArticle _ _ h
    · exact h
    · exact h
  · cases hr
    refine Bookmark.keepsDb_write (P := UserDatabase.InDecimals) (fun db hdb row hrow => ?_) _ h
    cases htask : c.task with
    | bookmark now =>
      rw [change, htask] at hrow
      rcases List.mem_append.mp hrow with hrow | hrow
      · exact hdb row hrow
      · exact ⟨c.id, congrArg BookmarkArticle.article (List.mem_singleton.mp hrow)⟩
    | unbookmark =>
      rw [change, htask] at hrow
      exact hdb row (List.mem_of_mem_filter hrow)
  · cases hr
    unfold goOn follow
    split
    · exact Bookmark.keepsDb_addParsed _ _ h
    · exact Bookmark.keepsDb_removeArticle _ _ h
  · cases hr

/-- The calls on a database whose cache has not been filled. -/
def load (db : UserDatabase) : Calls LockedBookmark ArticleCall :=
  { shared := { bookmark := Bookmark.load db } }

lemma inDecimals_of_reaches {db : UserDatabase} (hdb : db.InDecimals)
    {s : Calls LockedBookmark ArticleCall}
    (h : Reaches (Calls.step start resume) (Calls.admits AnswerHolds PassesAlone) (load db) s) :
    s.shared.bookmark.db.InDecimals := by
  have hs : s.Invariant (fun t => t.bookmark.db.InDecimals) (fun _ _ => True) fun _ _ => True := by
    apply Calls.invariant_of_reaches h
    · exact ⟨hdb, by simp [load], by simp [load]⟩
    · exact fun _ _ _ _ _ => ⟨trivial, fun _ => ⟨trivial, trivial⟩⟩
    · exact fun shared c shared' c' hI _ _ hres =>
        ⟨inDecimals_resume hI hres, trivial, fun _ _ _ _ _ => ⟨trivial, trivial, trivial⟩⟩
  exact hs.shared

/-- In every run in which a call passes its check alone and by an answer that still holds, and the
cache is filled with numbers, no two rows hold the same text. Where all rows have held decimal texts
from the beginning, no article has two rows. -/
theorem oneRowEach_of_passesAlone (db : UserDatabase) (hdb : db.OneRowEach)
    (s : Calls LockedBookmark ArticleCall)
    (h : Reaches (Calls.step start resume) (Calls.admits AnswerHolds PassesAlone) (load db) s) :
    s.shared.bookmark.db.OneRowEach ∧ (db.InDecimals → s.shared.bookmark.db.OneRowPerId) := by
  have hs : s.Invariant Unique Knows GetsAlong := by
    apply Calls.invariant_of_reaches h
    · exact ⟨⟨hdb, by simp [load, Bookmark.load]⟩, by simp [load], by simp [load]⟩
    · intro shared op _ c hc
      obtain rfl := List.mem_singleton.mp hc
      exact ⟨trivial, fun d => by simp [GetsAlong, Locks, Passed]⟩
    · intro shared c shared' c' hI hP halone hres
      obtain ⟨hI', hP', hothers⟩ := fine_resume hI hP halone hres
      exact ⟨hI', hP', hothers⟩
  have hone := hs.shared.1
  exact ⟨hone, fun hdec => hone.oneRowPerId (inDecimals_of_reaches hdec h)⟩

/-! ### A call alone -/

lemma finish_ended (steps : ℕ) (s : LockedBookmark) (c : ArticleCall) :
    finish resume steps s (c.go .ended) = s :=
  Calls.finish_of_none steps rfl

lemma goOn_ended (c : ArticleCall) (s : LockedBookmark) (r : Option Unit × Bookmark) :
    c.goOn .ended s r = ({ s with bookmark := r.2 }, c.go .ended) := by
  rw [goOn, ite_self]

/-- What `bookmark` and `unbookmark` do after the answer. -/
def rest (c : ArticleCall) (answer : Bool) : Method Bookmark Unit :=
  match c.task with
  | .bookmark now =>
    if answer then pure ()
    else do
      Bookmark.addArticle c.id
      Bookmark.insertArticle true (intToString c.id) now 1
  | .unbookmark =>
    if answer then do
      Bookmark.write true c.change
      Bookmark.removeArticle c.id
    else pure ()

lemma finish_writing (steps : ℕ) (b : Bookmark) (c : ArticleCall) :
    (finish resume (steps + 2) { bookmark := b } (c.go .writing)).bookmark =
      (c.follow.exec { b with db := c.change b.db }).2 := by
  have hwrite : resume { bookmark := b } (c.go .writing) =
      some ({ bookmark := { b with db := c.change b.db } }, c.go .written) := by
    rw [resume, Bookmark.exec_write]
    rfl
  have hfollow : resume { bookmark := { b with db := c.change b.db } } (c.go .written) =
      some ({ bookmark := (c.follow.exec { b with db := c.change b.db }).2 }, c.go .ended) := by
    rw [resume, goOn_ended]
    rfl
  rw [Calls.finish_succ _ hwrite, Calls.finish_succ _ hfollow, finish_ended]

/-- From the answer on, the steps of a call alone are the rest of the operation. -/
lemma finish_asked (steps : ℕ) {ids : Finset ℤ} {b : Bookmark} (hset : b.bookmarkSet = some ids)
    (c : ArticleCall) (answer : Bool) :
    (finish resume (steps + 3) { bookmark := b } (c.go (.asked answer))).bookmark =
      ((c.rest answer).exec b).2 := by
  have hended (t : Bookmark) (h : resume { bookmark := b } (c.go (.asked answer)) =
      some ({ bookmark := t }, c.go .ended)) :
      (finish resume (steps + 3) { bookmark := b } (c.go (.asked answer))).bookmark = t := by
    rw [Calls.finish_succ _ h, finish_ended]
  cases htask : c.task <;> cases answer
  · have hadd : resume { bookmark := b } (c.go (.asked false)) =
        some ({ bookmark := { b with bookmarkSet := some (insert c.id.1 ids) } },
          c.go .writing) := by
      simp [resume, answered, go, htask, Bookmark.exec_addArticle hset]
    rw [Calls.finish_succ _ hadd, finish_writing]
    simp [rest, htask, exec_bind, Bookmark.exec_addArticle hset, Bookmark.insertArticle,
      Bookmark.write, follow, change]
  · rw [hended b (by simp [resume, answered, go, htask]), rest, htask]
    rfl
  · rw [hended b (by simp [resume, answered, go, htask]), rest, htask]
    rfl
  · rw [Calls.finish_succ (t := { bookmark := b }) (d := c.go .writing) _
      (by simp [resume, answered, go, htask]), finish_writing]
    simp [rest, htask, exec_bind, Bookmark.write, follow, change]

/-- The operation of a call, without a break. -/
def operation (c : ArticleCall) : Method Bookmark Unit :=
  match c.task with
  | .bookmark now => Bookmark.bookmark true c.id now
  | .unbookmark => Bookmark.unbookmark true c.id

lemma operation_eq (c : ArticleCall) : c.operation = Bookmark.isBookmark c.id >>= c.rest := by
  rcases c with ⟨_ | now, id, place⟩ <;> rfl

/-- From the place behind the lock on, the steps of a call alone are `contains` and the rest. -/
lemma finish_unlocked (steps : ℕ) {ids : Finset ℤ} {b : Bookmark} (hset : b.bookmarkSet = some ids)
    (c : ArticleCall) :
    (finish resume (steps + 4) { bookmark := b } (c.go .unlocked)).bookmark =
      ((c.rest (Decidable.decide (c.id.1 ∈ ids))).exec b).2 := by
  have hask : resume { bookmark := b } (c.go .unlocked) =
      some ({ bookmark := b }, c.go (.asked (c.id.1 ∈ ids))) := by
    simp only [resume, go, hset]
    congr
  rw [Calls.finish_succ _ hask, finish_asked steps hset]

/-- A call alone does what its operation does without a break. -/
theorem finish_eq_operation (b : Bookmark) (c : ArticleCall) (hc : c.place = .locking) :
    (finish resume 7 { bookmark := b } c).bookmark = (c.operation.exec b).2 := by
  rw [operation_eq, Bookmark.isBookmark, Bookmark.fillBookmarkSet]
  cases hset : b.bookmarkSet with
  | some ids =>
    have hlock : resume { bookmark := b } c = some ({ bookmark := b }, c.go .unlocked) := by
      simp [resume, hc, hset]
    rw [Calls.finish_succ _ hlock, finish_unlocked 2 hset]
    simp [exec_bind, hset]
  | none =>
    have hlock : resume { bookmark := b } c =
        some ({ bookmark := b, locked := true }, c.go .reading) := by
      simp [resume, hc, hset]
    rw [Calls.finish_succ _ hlock, Calls.finish_succ (d := c.go (.filling _)) _ rfl]
    rcases hfill : (Bookmark.addParsedAll (b.db.articles.rows.map BookmarkArticle.article)).exec
      { b with bookmarkSet := some ∅ } with ⟨_ | u, t⟩
    · have hthrow : resume { bookmark := b, locked := true }
          (c.go (.filling (b.db.articles.rows.map BookmarkArticle.article))) =
            some ({ bookmark := t }, c.go .ended) := by
        simp [resume, go, goOn, hfill]
      rw [Calls.finish_succ _ hthrow, finish_ended]
      simp [exec_bind, hset, hfill]
    · have hfilled : resume { bookmark := b, locked := true }
          (c.go (.filling (b.db.articles.rows.map BookmarkArticle.article))) =
            some ({ bookmark := t }, c.go .unlocked) := by
        simp [resume, go, goOn, hfill]
      rw [Calls.finish_succ _ hfilled]
      cases ht : t.bookmarkSet with
      | none =>
        rw [Calls.finish_succ (t := { bookmark := t }) (d := c.go .ended) _
          (by simp [resume, go, ht]), finish_ended]
        simp [exec_bind, hset, hfill, ht]
      | some ids =>
        rw [finish_unlocked 0 ht]
        simp [exec_bind, hset, hfill, ht]

/-! ### Two runs -/

instance (s : LockedBookmark) (c : ArticleCall) : Decidable (AnswerHolds s c) :=
  match hplace : c.place with
  | .filling articles =>
    decidable_of_iff (∀ a ∈ articles, (intTryParse a).isSome) (by simp [AnswerHolds, hplace])
  | .asked false =>
    decidable_of_iff (c.task ≠ .unbookmark → ∀ ids ∈ s.bookmark.bookmarkSet, c.id.1 ∉ ids)
      (by simp [AnswerHolds, hplace])
  | .asked true | .locking | .reading | .unlocked | .writing | .written | .ended =>
    .isTrue (by simp [AnswerHolds, hplace])

instance (c : ArticleCall) : Decidable c.Passed :=
  inferInstanceAs (Decidable (c.place = .writing ∨ c.place = .written))

instance (c : ArticleCall) : Decidable c.Passes :=
  inferInstanceAs (Decidable (c.place = .asked (decide (c.task = .unbookmark))))

instance (c d : ArticleCall) : Decidable (PassesAlone c d) :=
  inferInstanceAs (Decidable (c.Passes → c.id = d.id → d.Passed →
    c.task = .unbookmark ∧ d.task = .unbookmark))

/-- One call of `bookmark` from its start to its end. -/
def oneCall : List (CallEvent (ArticleTask × DartInt)) :=
  .start (.bookmark [], ⟨7, by decide⟩) :: List.replicate 7 (.resume 0)

/-- Two calls of `bookmark` that ask before either of them adds its article. -/
def twoCalls : List (CallEvent (ArticleTask × DartInt)) :=
  [.start (.bookmark [], ⟨7, by decide⟩), .start (.bookmark [], ⟨7, by decide⟩)] ++
    List.replicate 4 (.resume 0) ++ List.replicate 2 (.resume 1) ++
    List.replicate 3 (.resume 0) ++ List.replicate 3 (.resume 1)

theorem oneRowEach_of_passesAlone_oneCall :
    ∃ s, run (Calls.step start resume) (Calls.admits AnswerHolds PassesAlone) (load (.create []))
      oneCall = some s ∧ s.shared.bookmark.db.OneRowPerId := by
  have hrun : (run (Calls.step start resume) (Calls.admits AnswerHolds PassesAlone)
      (load (.create [])) oneCall).isSome := by
    decide +kernel
  obtain ⟨s, hs⟩ := Option.isSome_iff_exists.mp hrun
  exact ⟨s, hs,
    (oneRowEach_of_passesAlone (.create []) List.nodup_nil s (reaches_of_run hs)).2 nofun⟩

/-- Both calls pass the check and add a row. -/
theorem not_oneRowEach_of_twoCalls :
    ¬ ∀ db : UserDatabase, db.OneRowEach → ∀ s,
      Reaches (Calls.step start resume) anyEvent (load db) s → s.shared.bookmark.db.OneRowEach := by
  intro h
  have hrun : (run (Calls.step start resume) anyEvent (load (.create [])) twoCalls).map
      (fun s => s.shared.bookmark.db.articleTexts) = some ["7".toList, "7".toList] := by
    decide +kernel
  obtain ⟨s, hs, htexts⟩ := Option.map_eq_some_iff.mp hrun
  have hone := h (.create []) List.nodup_nil s (reaches_of_run hs)
  rw [UserDatabase.OneRowEach, htexts] at hone
  exact absurd hone (by decide)

end ArticleCall

end Violet
