import Mathlib.Data.List.Dedup
import Violet.Bookmark.Covered
import Violet.Bookmark.MoveChecked
import Violet.Dart.Sort

/-!
# The order of moved articles

The articles of a group are shown with the newest row first, and a move makes new rows. It goes
through the checked articles from the last one shown to the first, so that in the target group they
stand in the order in which they were shown. The rows of an article are deleted by its decimal text,
and a row in which the article is written in another way stays where it is.
-/

namespace Violet

open Dart Method Transition Bookmark

/-- The articles of a group as they are shown: `refresh` reverses the rows. -/
def UserDatabase.displayed (db : UserDatabase) (group : ℤ) : List ℤ :=
  (db.articles.rows.filter fun row => row.group = group).reverse.filterMap BookmarkArticle.articleId

/-- The row is one of the articles. -/
def BookmarkArticle.isOf (ids : List DartInt) (row : BookmarkArticle) : Bool :=
  ids.any fun id => row.articleId = some id.1

/-- The row holds the decimal text of one of the articles. -/
def BookmarkArticle.isTextOf (ids : List DartInt) (row : BookmarkArticle) : Bool :=
  ids.any fun id => row.article = intToString id

/-- Exactly the checked articles have moved. Each has one row, in the target group, where they are
shown first and in the order in which they were shown, the last place counting for an article that
was shown twice. -/
structure MovedExactly (queryResult checked : List DartInt) (target : ℤ)
    (before after : UserDatabase) : Prop where
  one : ∀ id ∈ checked, (after.articles.rows.filter fun row => row.articleId = some id.1).map
    BookmarkArticle.group = [target]
  others : after.articles.rows.filter (fun row => !row.isOf checked) =
    before.articles.rows.filter fun row => !row.isOf checked
  order : ∃ rest, after.displayed target =
    (queryResult.dedup.filter fun id => id ∈ checked).map (fun id => id.1) ++ rest

/-- The rows of the articles hold their decimal texts. -/
def StoresDecimals (checked : List DartInt) (db : UserDatabase) : Prop :=
  ∀ row ∈ db.articles.rows, ∀ id ∈ checked, row.articleId = some id.1 →
    row.article = intToString id

namespace MoveStep

variable {now : DartInt → Str} {target : ℤ} {queryResult checked rest ids : List DartInt}
  {id id' : DartInt} {s t : Bookmark}

/-! ### The places in the list -/

lemma invIdIndex_cons_of_mem (h : id ∈ queryResult) :
    invIdIndex (id' :: queryResult) id = invIdIndex queryResult id + 1 := by
  have hlt : queryResult.reverse.idxOf id < queryResult.length := by
    rw [← List.length_reverse]
    exact List.idxOf_lt_length_of_mem (List.mem_reverse.mpr h)
  rw [invIdIndex, invIdIndex, List.reverse_cons, List.idxOf_append_of_mem (List.mem_reverse.mpr h),
    List.length_cons]
  omega

lemma invIdIndex_cons_self (h : id ∉ queryResult) : invIdIndex (id :: queryResult) id = 0 := by
  rw [invIdIndex, List.reverse_cons, List.idxOf_append_of_notMem (by simpa using h)]
  simp

/-- Without repetitions, the articles of the list are in the order of their last places. -/
lemma pairwise_dedup (queryResult : List DartInt) :
    queryResult.dedup.Pairwise fun a b => invIdIndex queryResult a < invIdIndex queryResult b := by
  induction queryResult with
  | nil => simp
  | cons id queryResult ih =>
    have hlater : queryResult.dedup.Pairwise fun a b =>
        invIdIndex (id :: queryResult) a < invIdIndex (id :: queryResult) b := by
      refine ih.imp_of_mem fun ha hb hlt => ?_
      rw [invIdIndex_cons_of_mem (List.mem_dedup.mp ha),
        invIdIndex_cons_of_mem (List.mem_dedup.mp hb)]
      exact Nat.succ_lt_succ hlt
    by_cases hid : id ∈ queryResult
    · rwa [List.dedup_cons_of_mem hid]
    · rw [List.dedup_cons_of_notMem hid]
      refine List.pairwise_cons.mpr ⟨fun b hb => ?_, hlater⟩
      rw [invIdIndex_cons_self hid, invIdIndex_cons_of_mem (List.mem_dedup.mp hb)]
      exact Nat.succ_pos _

/-- The articles in the order in which the move goes through them. -/
def inOrder (queryResult checked : List DartInt) : List DartInt :=
  (checked.mergeSort fun x y => invIdIndex queryResult x ≤ invIdIndex queryResult y).reverse

/-- The last time that each article comes up, from the end, is the order of the list. -/
lemma reverse_dedup_inOrder (h : checked ⊆ queryResult) :
    (inOrder queryResult checked).dedup.reverse =
      queryResult.dedup.filter fun id => id ∈ checked := by
  have hmem (id : DartInt) : id ∈ (inOrder queryResult checked).dedup.reverse ↔ id ∈ checked := by
    rw [inOrder, List.mem_reverse, List.mem_dedup, List.mem_reverse, List.mem_mergeSort]
  have hsorted : (inOrder queryResult checked).dedup.reverse.Pairwise fun a b =>
      invIdIndex queryResult a ≤ invIdIndex queryResult b := by
    rw [List.pairwise_reverse]
    have hrev := pairwise_mergeSort (invIdIndex queryResult) checked
    exact (List.pairwise_reverse.mpr hrev).sublist (List.dedup_sublist _)
  have hplaces := (pairwise_dedup queryResult).filter fun id => id ∈ checked
  have hperm : (queryResult.dedup.filter fun id => id ∈ checked).Perm
      (inOrder queryResult checked).dedup.reverse := by
    refine (List.perm_ext_iff_of_nodup ?_ ?_).mpr fun id => ?_
    · exact (List.nodup_dedup _).filter _
    · exact List.nodup_reverse.mpr (List.nodup_dedup _)
    · rw [hmem, List.mem_filter, List.mem_dedup, decide_eq_true_eq]
      exact and_iff_right_of_imp fun hid => h hid
  refine (eq_of_pairwise_key hperm ?_ (hplaces.imp Nat.le_of_lt) hsorted).symm
  intro a ha b hb heq
  have hnodup : ((queryResult.dedup.filter fun id => id ∈ checked).map
      (invIdIndex queryResult)).Nodup := List.pairwise_map.mpr (hplaces.imp Nat.ne_of_lt)
  exact List.inj_on_of_nodup_map hnodup ha hb heq

/-! ### One article -/

/-- The rows after the move of an article: the old ones are gone and the new one is last. -/
def reinserted (now : DartInt → Str) (target : ℤ) (id : DartInt) (i : ℤ)
    (rows : List BookmarkArticle) : List BookmarkArticle :=
  rows.filter (fun row => !decide (row.article = intToString id)) ++
    [⟨i, intToString id, now id, target⟩]

/-- The object with another table of articles and another cache of them. -/
def withArticles (s : Bookmark) (articles : KeyedTable BookmarkArticle) (ids : Finset ℤ) :
    Bookmark :=
  { s with db := { s.db with articles := articles }, bookmarkSet := some ids }

/-- The rows of the article are deleted. -/
def deleted (articles : KeyedTable BookmarkArticle) (id : DartInt) : KeyedTable BookmarkArticle :=
  articles.delete fun row => row.article = intToString id

/-- The row of the article is inserted. -/
def inserted (now : DartInt → Str) (target : ℤ) (articles : KeyedTable BookmarkArticle)
    (id : DartInt) : KeyedTable BookmarkArticle :=
  articles.insert fun i => ⟨i, intToString id, now id, target⟩

section

variable {articles : KeyedTable BookmarkArticle} {known : Finset ℤ}

lemma step_deleting : step now target (withArticles s articles known, .deleting id rest) () =
    some (withArticles s (deleted articles id) known, .removing id rest) := by
  simp only [step, exec_write, goOn_some]
  rfl

lemma step_removing : step now target (withArticles s articles known, .removing id rest) () =
    some (withArticles s articles (known.erase id), .inserting true id rest) := by
  simp only [step, removeArticle, exec_get_bind, withArticles, exec_set, goOn_some]

lemma step_inserting (b : Bool) :
    step now target (withArticles s articles known, .inserting b id rest) () =
      some (withArticles s (inserted now target articles id) known, .adding id rest) := by
  simp only [step, exec_write, goOn_some]
  rfl

lemma step_adding : step now target (withArticles s articles known, .adding id rest) () =
    some (withArticles s articles (insert id.1 known), .asking rest) := by
  have hadd := exec_addParsed (s := withArticles s articles known) rfl
    (intTryParse_intToString id.2.1 id.2.2)
  simp only [step, hadd, goOn_some]
  rfl

lemma covered_inserted (h : Bookmark.Covered (articles, some known)) (id : DartInt) :
    Bookmark.Covered (inserted now target articles id, some (insert id.1 known)) := by
  have hnew := intTryParse_intToString id.2.1 id.2.2
  refine ⟨fun row hrow => ?_, fun known' hknown row hrow id' hid' => ?_⟩
  · rcases List.mem_append.mp hrow with hrow | hrow
    · exact h.1 row hrow
    · obtain rfl := List.mem_singleton.mp hrow
      rw [hnew]
      rfl
  · cases hknown
    rcases List.mem_append.mp hrow with hrow | hrow
    · exact Finset.mem_insert_of_mem (h.2 known rfl row hrow id' hid')
    · obtain rfl := List.mem_singleton.mp hrow
      obtain rfl := intToString_inj hid'
      exact Finset.mem_insert_self _ known

lemma covered_deleted (h : Bookmark.Covered (articles, some known)) (id : DartInt) :
    Bookmark.Covered (deleted articles id, some (known.erase id)) := by
  refine ⟨fun row hrow => h.1 row (List.mem_of_mem_filter hrow), ?_⟩
  intro known' hknown row hrow id' hid'
  cases hknown
  refine Finset.mem_erase.mpr ⟨fun heq => ?_, ?_⟩
  · have hno := (List.mem_filter.mp hrow).2
    simp [hid', heq] at hno
  · exact h.2 known rfl row (List.mem_of_mem_filter hrow) id' hid'

end

/-- The old rows of the article are removed and a new one is added at the end. -/
lemma exists_reinserted (now : DartInt → Str) (target : ℤ) (h : CoversArticles s)
    (id : DartInt) (rest : List DartInt) :
    ∃ t i, Reaches (step now target) anyEvent (s, .asking (id :: rest)) (t, .asking rest) ∧
      CoversArticles t ∧
      t.db.articles.rows = reinserted now target id i s.db.articles.rows := by
  obtain ⟨ids, hexec, hcovered⟩ := exec_isBookmark_of_covers h id
  by_cases hid : id.1 ∈ ids
  · have hasking : step now target (s, .asking (id :: rest)) () =
        some (withArticles s s.db.articles ids, .deleting id rest) := by
      simp only [step, hexec, hid, decide_true]
      rfl
    refine ⟨withArticles s (inserted now target (deleted s.db.articles id) id)
      (insert id.1 (ids.erase id)), _, ?_, covered_inserted (covered_deleted hcovered id) id, rfl⟩
    exact .tail (.tail (.tail (.tail (.tail .refl trivial hasking) trivial step_deleting) trivial
      step_removing) trivial (step_inserting true)) trivial step_adding
  · have hasking : step now target (s, .asking (id :: rest)) () =
        some (withArticles s s.db.articles ids, .inserting false id rest) := by
      simp only [step, hexec, hid, decide_false]
      rfl
    refine ⟨withArticles s (inserted now target s.db.articles id) (insert id.1 ids),
      s.db.articles.sequence + 1, ?_, covered_inserted hcovered id, ?_⟩
    · exact .tail (.tail (.tail .refl trivial hasking) trivial (step_inserting false)) trivial
        step_adding
    · have hnone : s.db.articles.rows.filter (fun row => !decide (row.article = intToString id)) =
          s.db.articles.rows := by
        refine List.filter_eq_self.mpr fun row hrow => ?_
        have hne : row.article ≠ intToString id := fun heq =>
          hid (hcovered.2 ids rfl row hrow id heq)
        simp [hne]
      rw [reinserted, hnone]
      rfl

/-! ### All articles -/

lemma articleId_of_text {row : BookmarkArticle} (h : row.article = intToString id) :
    row.articleId = some id.1 := by
  rw [BookmarkArticle.articleId, h, intTryParse_intToString id.2.1 id.2.2]

lemma isOf_iff {row : BookmarkArticle} :
    row.isOf ids = true ↔ ∃ id ∈ ids, row.articleId = some id.1 := by
  simp [BookmarkArticle.isOf]

lemma isTextOf_iff {row : BookmarkArticle} :
    row.isTextOf ids = true ↔ ∃ id ∈ ids, row.article = intToString id := by
  simp [BookmarkArticle.isTextOf]

/-- The later articles of the move take their rows out of those that are there. -/
lemma filter_reinserted (rows : List BookmarkArticle) (i : ℤ) :
    (reinserted now target id i rows).filter (fun row => !row.isTextOf rest) =
      rows.filter (fun row => !row.isTextOf (id :: rest)) ++
        if id ∈ rest then [] else [⟨i, intToString id, now id, target⟩] := by
  rw [reinserted, List.filter_append, List.filter_filter]
  congr 1
  · refine List.filter_congr fun row _ => ?_
    rw [BookmarkArticle.isTextOf, BookmarkArticle.isTextOf, List.any_cons, Bool.not_or,
      Bool.and_comm]
  · split_ifs with hid
    · have hof : BookmarkArticle.isTextOf rest ⟨i, intToString id, now id, target⟩ = true :=
        isTextOf_iff.mpr ⟨id, hid, rfl⟩
      simp [hof]
    · have hof : BookmarkArticle.isTextOf rest ⟨i, intToString id, now id, target⟩ = false := by
        refine Bool.eq_false_iff.mpr fun htrue => hid ?_
        obtain ⟨id', hid', heq⟩ := isTextOf_iff.mp htrue
        exact intToString_inj heq ▸ hid'
      simp [hof]

/-- The move removes the rows of its articles and adds one for each of them at the end. An article
that comes up more than once gets its row the last time. -/
lemma exists_moved (now : DartInt → Str) (target : ℤ) (h : CoversArticles s) (rest : List DartInt) :
    ∃ t new, Reaches (step now target) anyEvent (s, .asking rest) (t, .asking []) ∧
      t.db.articles.rows = s.db.articles.rows.filter (fun row => !row.isTextOf rest) ++ new ∧
      new.map BookmarkArticle.article = rest.dedup.map (fun id => intToString id.1) ∧
      ∀ row ∈ new, row.group = target := by
  induction rest generalizing s with
  | nil =>
    refine ⟨s, [], .refl, ?_, rfl, nofun⟩
    rw [List.append_nil]
    exact (List.filter_eq_self.mpr fun row _ => rfl).symm
  | cons id rest ih =>
    obtain ⟨t, i, hfirst, hcovers, hrows⟩ := exists_reinserted now target h id rest
    obtain ⟨u, new, hrest, hrows', hnew, hgroup⟩ := ih hcovers
    refine ⟨u, (if id ∈ rest then [] else [⟨i, intToString id, now id, target⟩]) ++ new,
      hfirst.trans hrest, ?_, ?_, ?_⟩
    · rw [hrows', hrows, filter_reinserted, List.append_assoc]
    · rw [List.map_append, hnew]
      split_ifs with hid
      · rw [List.dedup_cons_of_mem hid]
        rfl
      · rw [List.dedup_cons_of_notMem hid]
        rfl
    · intro row hrow
      rcases List.mem_append.mp hrow with hrow | hrow
      · split_ifs at hrow
        · cases hrow
        · rw [List.mem_singleton.mp hrow]
      · exact hgroup row hrow

lemma start_of_subset (h : checked ⊆ queryResult) :
    start queryResult checked = .asking (inOrder queryResult checked) := by
  rw [start, if_neg]
  · rfl
  · exact fun hno => hno.2 fun id hid => h hid

lemma mem_inOrder : id ∈ inOrder queryResult checked ↔ id ∈ checked := by
  rw [inOrder, List.mem_reverse, List.mem_mergeSort]

lemma isTextOf_inOrder (queryResult checked : List DartInt) (row : BookmarkArticle) :
    row.isTextOf (inOrder queryResult checked) = row.isTextOf checked := by
  apply Bool.eq_iff_iff.mpr
  simp only [isTextOf_iff, mem_inOrder]

/-- The new rows are of the checked articles, in the order of the list. -/
lemma articleId_of_new (hsub : checked ⊆ queryResult) {new : List BookmarkArticle}
    (hnew : new.map BookmarkArticle.article =
      (inOrder queryResult checked).dedup.map fun id => intToString id.1) :
    new.reverse.map BookmarkArticle.articleId =
      (queryResult.dedup.filter fun id => id ∈ checked).map fun id => some id.1 := by
  have hparse : ((inOrder queryResult checked).dedup.map fun id => intToString id.1).map
      intTryParse = (inOrder queryResult checked).dedup.map fun id => some id.1 := by
    rw [List.map_map]
    exact List.map_congr_left fun id _ => intTryParse_intToString id.2.1 id.2.2
  have hids : new.map BookmarkArticle.articleId =
      (inOrder queryResult checked).dedup.map fun id => some id.1 := by
    rw [← hparse, ← hnew, List.map_map]
    rfl
  rw [List.map_reverse, hids, ← List.map_reverse, reverse_dedup_inOrder hsub]

/-- The rows of an article are found by its text when they hold it. -/
lemma filter_isTextOf {before : UserDatabase} (h : StoresDecimals checked before) :
    before.articles.rows.filter (fun row => !row.isTextOf checked) =
      before.articles.rows.filter fun row => !row.isOf checked := by
  refine List.filter_congr fun row hrow => congrArg not (Bool.eq_iff_iff.mpr ?_)
  rw [isTextOf_iff, isOf_iff]
  exact ⟨fun ⟨id, hid, htext⟩ => ⟨id, hid, articleId_of_text htext⟩,
    fun ⟨id, hid, hrowId⟩ => ⟨id, hid, h row hrow id hid hrowId⟩⟩

section

variable {new : List BookmarkArticle} (hsub : checked ⊆ queryResult)
  (hnew : new.map BookmarkArticle.article =
    (inOrder queryResult checked).dedup.map fun id => intToString id.1)

include hsub hnew

lemma isOf_of_mem_new {row : BookmarkArticle} (hrow : row ∈ new) : row.isOf checked = true := by
  have hmem : row.articleId ∈ new.reverse.map BookmarkArticle.articleId :=
    List.mem_map_of_mem (List.mem_reverse.mpr hrow)
  rw [articleId_of_new hsub hnew] at hmem
  obtain ⟨id, hid, heq⟩ := List.mem_map.mp hmem
  exact isOf_iff.mpr ⟨id, of_decide_eq_true (List.mem_filter.mp hid).2, heq.symm⟩

/-- Each checked article has one new row. -/
lemma count_articleId_new (hid : id ∈ checked) :
    (new.map BookmarkArticle.articleId).count (some id.1) = 1 := by
  rw [← List.count_reverse, ← List.map_reverse, articleId_of_new hsub hnew]
  refine List.count_eq_one_of_mem ?_ ?_
  · exact ((List.nodup_dedup _).filter _).map fun _ _ heq => Subtype.ext (Option.some.inj heq)
  · exact List.mem_map.mpr ⟨id, List.mem_filter.mpr
      ⟨List.mem_dedup.mpr (hsub hid), decide_eq_true hid⟩, rfl⟩

/-- The identifiers of the new rows, as they are shown. -/
lemma filterMap_articleId_new : new.reverse.filterMap BookmarkArticle.articleId =
    (queryResult.dedup.filter fun id => id ∈ checked).map fun id => id.1 := by
  have hsplit : new.reverse.filterMap BookmarkArticle.articleId =
      (new.reverse.map BookmarkArticle.articleId).filterMap id := by
    rw [List.filterMap_map]
    rfl
  rw [hsplit, articleId_of_new hsub hnew, List.filterMap_map, ← List.filterMap_eq_map]
  rfl

end

section

variable {before after : UserDatabase} {new : List BookmarkArticle} (hsub : checked ⊆ queryResult)
  (hrows : after.articles.rows =
    before.articles.rows.filter (fun row => !row.isTextOf (inOrder queryResult checked)) ++ new)
  (hnew : new.map BookmarkArticle.article =
    (inOrder queryResult checked).dedup.map fun id => intToString id.1)

include hsub hrows hnew

/-- A move that leaves no other row of an article has found all of them by their text. -/
lemma storesDecimals_of_movedExactly (h : MovedExactly queryResult checked target before after) :
    StoresDecimals checked before := by
  intro row hrow id hid hrowId
  by_contra hne
  simp only [isTextOf_inOrder] at hrows
  have hstays : row.isTextOf checked = false := by
    refine Bool.eq_false_iff.mpr fun htext => hne ?_
    obtain ⟨id', -, htext'⟩ := isTextOf_iff.mp htext
    have heq : id' = id :=
      Subtype.ext (Option.some.inj ((articleId_of_text htext').symm.trans hrowId))
    exact heq ▸ htext'
  have hadded : some id.1 ∈ new.map BookmarkArticle.articleId := by
    rw [← List.count_pos_iff, count_articleId_new hsub hnew hid]
    exact Nat.one_pos
  obtain ⟨row', hrow', hrowId'⟩ := List.mem_map.mp hadded
  have hone := congrArg List.length (h.one id hid)
  rw [List.length_map, hrows, List.filter_append, List.length_append, List.length_singleton] at hone
  have hold : 0 < ((before.articles.rows.filter fun row => !row.isTextOf checked).filter
      fun row => decide (row.articleId = some id.1)).length :=
    List.length_pos_of_mem (List.mem_filter.mpr
      ⟨List.mem_filter.mpr ⟨hrow, by rw [hstays]; rfl⟩, decide_eq_true hrowId⟩)
  have hlast : 0 < (new.filter fun row => decide (row.articleId = some id.1)).length :=
    List.length_pos_of_mem (List.mem_filter.mpr ⟨hrow', decide_eq_true hrowId'⟩)
  omega

/-- The rows after the move are those of a move of exactly the checked articles. -/
lemma movedExactly_of_storesDecimals (hgroup : ∀ row ∈ new, row.group = target)
    (h : StoresDecimals checked before) :
    MovedExactly queryResult checked target before after := by
  simp only [isTextOf_inOrder, filter_isTextOf h] at hrows
  refine ⟨fun id hid => ?_, ?_, ?_⟩
  · have hold : (before.articles.rows.filter fun row => !row.isOf checked).filter
        (fun row => decide (row.articleId = some id.1)) = [] := by
      refine List.filter_eq_nil_iff.mpr fun row hrow heq => ?_
      have hno := (List.mem_filter.mp hrow).2
      rw [isOf_iff.mpr ⟨id, hid, of_decide_eq_true heq⟩] at hno
      cases hno
    rw [hrows, List.filter_append, hold, List.nil_append, ← List.replicate_one,
      List.eq_replicate_iff]
    constructor
    · rw [List.length_map, ← List.countP_eq_length_filter, ← count_articleId_new hsub hnew hid,
        List.count, List.countP_map]
      exact List.countP_congr fun row _ => by simp
    · intro group hmem
      obtain ⟨row, hrow, rfl⟩ := List.mem_map.mp hmem
      exact hgroup row (List.mem_of_mem_filter hrow)
  · have hgone : new.filter (fun row => !row.isOf checked) = [] :=
      List.filter_eq_nil_iff.mpr fun row hrow => by simp [isOf_of_mem_new hsub hnew hrow]
    rw [hrows, List.filter_append, hgone, List.append_nil, List.filter_filter]
    simp
  · have hall : new.filter (fun row => decide (row.group = target)) = new :=
      List.filter_eq_self.mpr fun row hrow => decide_eq_true (hgroup row hrow)
    rw [UserDatabase.displayed, hrows, List.filter_append, hall, List.reverse_append,
      List.filterMap_append, filterMap_articleId_new hsub hnew]
    exact ⟨_, rfl⟩

end

/-- The move completes in one way. -/
lemma completed_unique {start : MoveStep}
    (ht : Reaches (step now target) anyEvent (s, start) (t, .asking []))
    {u : Bookmark} (hu : Reaches (step now target) anyEvent (s, start) (u, .asking [])) :
    t = u := by
  have hlast {t u : Bookmark}
      (h : Reaches (step now target) anyEvent (t, .asking []) (u, .asking [])) : t = u := by
    rcases h.cases_head with heq | ⟨_, v, -, hs, hv⟩
    · exact congrArg Prod.fst heq
    · cases hs
      rcases hv.cases_head with heq | ⟨_, _, -, hs, -⟩
      · cases heq
      · cases hs
  rcases ht.linear hu with h | h
  · exact hlast h
  · exact (hlast h).symm

/-- In every state that the operations lead to, the move of articles that are shown completes if it
is not cut off, and then exactly these articles have moved if and only if their rows held their
decimal texts. The state is one of a database whose bookmarks are numbers. -/
theorem movedExactly_iff_storesDecimals (db : UserDatabase)
    (hdb : ∀ row ∈ db.articles.rows, (intTryParse row.article).isSome) (s : Bookmark)
    (hs : Reaches stepWritable AddsNumbers (load db) s) (now : DartInt → Str)
    (queryResult checked : List DartInt) (hsub : checked ⊆ queryResult) (target : ℤ) :
    (∃ t, Reaches (step now target) anyEvent (s, start queryResult checked) (t, .asking [])) ∧
      ∀ t, Reaches (step now target) anyEvent (s, start queryResult checked) (t, .asking []) →
        (MovedExactly queryResult checked target s.db t.db ↔ StoresDecimals checked s.db) := by
  obtain ⟨u, new, hu, hrows, hnew, hgroup⟩ := exists_moved now target
    (coversArticles_of_reaches hdb hs) (inOrder queryResult checked)
  rw [start_of_subset hsub]
  refine ⟨⟨u, hu⟩, fun t ht => ?_⟩
  rw [completed_unique ht hu]
  exact ⟨storesDecimals_of_movedExactly hsub hrows hnew,
    movedExactly_of_storesDecimals hsub hrows hnew hgroup⟩

theorem movedExactly_iff_storesDecimals_articleThree :
    (∃ t, Reaches (step (fun _ => []) 2) anyEvent
        (articleThree, start [⟨3, three_bounds⟩] [⟨3, three_bounds⟩]) (t, .asking [])) ∧
      ∀ t, Reaches (step (fun _ => []) 2) anyEvent
          (articleThree, start [⟨3, three_bounds⟩] [⟨3, three_bounds⟩]) (t, .asking []) →
        MovedExactly [⟨3, three_bounds⟩] [⟨3, three_bounds⟩] 2 articleThree.db t.db := by
  obtain ⟨hends, hiff⟩ := movedExactly_iff_storesDecimals articleThree.db (by decide +kernel)
    articleThree .refl (fun _ => []) [⟨3, three_bounds⟩] [⟨3, three_bounds⟩] (List.Subset.refl _) 2
  refine ⟨hends, fun t ht => (hiff t ht).mpr ?_⟩
  rintro row hrow id hid -
  obtain rfl := List.mem_singleton.mp hrow
  obtain rfl := List.mem_singleton.mp hid
  decide +kernel

/-- A bookmark of article 3 as the import of a list stores it. -/
def zeroThree : Bookmark :=
  load { UserDatabase.create [] with
    articles := ({} : KeyedTable BookmarkArticle).insert fun id => ⟨id, "03".toList, [], 1⟩ }

/-- Article 3 stays in the group that it is moved from. -/
theorem not_movedExactly_zeroThree :
    ¬ ∀ t, Reaches (step (fun _ => []) 2) anyEvent
        (zeroThree, start [⟨3, three_bounds⟩] [⟨3, three_bounds⟩]) (t, .asking []) →
      MovedExactly [⟨3, three_bounds⟩] [⟨3, three_bounds⟩] 2 zeroThree.db t.db := by
  intro h
  have hdb : ∀ row ∈ zeroThree.db.articles.rows, (intTryParse row.article).isSome := by
    decide +kernel
  obtain ⟨u, new, hu, hrows, hnew, -⟩ := exists_moved (fun _ => []) 2
    (coversArticles_of_reaches hdb .refl) (inOrder [⟨3, three_bounds⟩] [⟨3, three_bounds⟩])
  have hstored := storesDecimals_of_movedExactly (List.Subset.refl _) hrows hnew (h u hu)
  have htext := hstored _ (List.mem_singleton.mpr rfl) _ (List.mem_singleton.mpr rfl)
    (by decide +kernel)
  revert htext
  decide +kernel

end MoveStep

end Violet
