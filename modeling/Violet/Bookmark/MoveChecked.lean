import Violet.Bookmark.References
import Violet.Bookmark.Concurrent

/-!
# The move of checked articles

`moveChecked` removes the bookmark of each checked article and adds one in the target group. The
move can be cut off between any two calls of the database.
-/

namespace Violet

open Dart Method Transition

/-! ### The sequence of calls -/

/-- Where the move is: before which of its steps. -/
inductive MoveStep where
  /-- Before `isBookmark` of the next article. -/
  | asking (rest : List DartInt)
  /-- Before the deletion of the rows of the article. -/
  | deleting (id : DartInt) (rest : List DartInt)
  /-- Before the change of the cache that follows. -/
  | removing (id : DartInt) (rest : List DartInt)
  /-- Before the insertion, with or without a deletion before it. -/
  | inserting (deleted : Bool) (id : DartInt) (rest : List DartInt)
  | adding (id : DartInt) (rest : List DartInt)
  | ended
  deriving DecidableEq, Repr

namespace MoveStep

/-- `invIdIndex`: the last place of an article in the list. -/
def invIdIndex (queryResult : List DartInt) (id : DartInt) : ℕ :=
  queryResult.length - 1 - queryResult.reverse.idxOf id

/-- The checked articles from the last one in the list to the first. The comparison throws when an
article is not in the list. -/
def start (queryResult checked : List DartInt) : MoveStep :=
  if 1 < checked.length ∧ ¬ ∀ id ∈ checked, id ∈ queryResult then .ended
  else .asking (checked.mergeSort fun x y =>
    invIdIndex queryResult x ≤ invIdIndex queryResult y).reverse

variable (now : DartInt → Str) (target : ℤ)

/-- The move goes on after a method, unless this throws. -/
def goOn (r : Option Unit × Bookmark) (next : MoveStep) : Bookmark × MoveStep :=
  (r.2, if r.1.isSome then next else .ended)

/-- The next step of the move. -/
def step (s : Bookmark × MoveStep) (_ : Unit) : Option (Bookmark × MoveStep) :=
  match s.2 with
  | .asking [] => some (s.1, .ended)
  | .asking (id :: rest) =>
    match (Bookmark.isBookmark id).exec s.1 with
    | (none, t) => some (t, .ended)
    | (some true, t) => some (t, .deleting id rest)
    | (some false, t) => some (t, .inserting false id rest)
  | .deleting id rest =>
    some (goOn ((Bookmark.write true fun db => { db with
      articles := db.articles.delete fun row => row.article = intToString id }).exec s.1)
        (.removing id rest))
  | .removing id rest =>
    some (goOn ((Bookmark.removeArticle id).exec s.1) (.inserting true id rest))
  | .inserting _ id rest =>
    some (goOn ((Bookmark.write true fun db => { db with
      articles := db.articles.insert fun i =>
        { id := i, article := intToString id, datetime := now id, group := target } }).exec s.1)
          (.adding id rest))
  | .adding id rest =>
    some (goOn ((Bookmark.addParsed (intToString id)).exec s.1) (.asking rest))
  | .ended => none

/-! ### The invariant -/

/-- The article has a row in the source or in the target group. -/
def Kept (source target : ℤ) (db : UserDatabase) (id : DartInt) : Prop :=
  ∃ row ∈ db.articles.rows,
    row.article = intToString id ∧ (row.group = source ∨ row.group = target)

/-- The bookmark of an article has been deleted and not yet been added again. -/
def Deleted : MoveStep → Option DartInt
  | .removing id _ | .inserting true id _ => some id
  | _ => none

/-- The articles that are still to be moved, the current one among them. -/
def pending : MoveStep → List DartInt
  | .asking rest => rest
  | .deleting id rest | .removing id rest | .inserting _ id rest | .adding id rest => id :: rest
  | .ended => []

/-- The cache is there, as far as the step needs it. -/
def Cached (s : Bookmark) : MoveStep → Prop
  | .asking _ | .ended => True
  | _ => s.bookmarkSet.isSome

/-- Every checked article has a row, but for one that has been deleted and has none. -/
structure Moves (source target : ℤ) (checked : List DartInt) (s : Bookmark × MoveStep) : Prop where
  kept : ∀ id ∈ checked, s.2.Deleted ≠ some id → Kept source target s.1.db id
  lost : ∀ id ∈ s.2.Deleted, ¬ Kept source target s.1.db id
  cached : Cached s.1 s.2
  pending : s.2.pending ⊆ checked

variable {now : DartInt → Str} {source target : ℤ} {checked rest : List DartInt} {id id' : DartInt}
  {s t : Bookmark} {next : MoveStep} {db : UserDatabase}

/-! ### Steps -/

lemma goOn_some (t : Bookmark) (next : MoveStep) : goOn (some (), t) next = (t, next) := rfl

lemma Kept.delete (h : Kept source target db id') (hne : id' ≠ id) :
    Kept source target { db with
      articles := db.articles.delete fun row => row.article = intToString id } id' := by
  obtain ⟨row, hrow, hid, hgroup⟩ := h
  refine ⟨row, List.mem_filter.mpr ⟨hrow, ?_⟩, hid, hgroup⟩
  have htext : row.article ≠ intToString id := fun heq =>
    hne (intToString_inj (hid.symm.trans heq))
  simpa using htext

lemma not_kept_delete : ¬ Kept source target { db with
    articles := db.articles.delete fun row => row.article = intToString id } id := by
  rintro ⟨row, hrow, hid, -⟩
  have hno := (List.mem_filter.mp hrow).2
  simp [hid] at hno

lemma Kept.insert (h : id' ≠ id → Kept source target db id') (datetime : Str) :
    Kept source target { db with
      articles := db.articles.insert fun i => ⟨i, intToString id, datetime, target⟩ } id' := by
  by_cases hid : id' = id
  · subst hid
    exact ⟨_, List.mem_append_right _ (List.mem_singleton.mpr rfl), rfl, .inr rfl⟩
  · obtain ⟨row, hrow, htext, hgroup⟩ := h hid
    exact ⟨row, List.mem_append_left _ hrow, htext, hgroup⟩

/-- An answer of `isBookmark` comes from a cache, and the table is as before. -/
lemma isBookmark_some {answer : Bool} (h : (Bookmark.isBookmark id).exec s = (some answer, t)) :
    t.bookmarkSet.isSome := by
  rw [Bookmark.isBookmark, exec_bind] at h
  rcases hfill : Bookmark.fillBookmarkSet.exec s with ⟨_ | u, t'⟩
  · rw [hfill] at h
    cases h
  · rw [hfill] at h
    simp only [exec_get_bind] at h
    cases hset : t'.bookmarkSet with
    | none => simp [hset] at h
    | some ids =>
      simp only [hset, exec_pure, Prod.mk.injEq] at h
      rw [← h.2, hset]
      rfl

lemma step_moves (h : Moves source target checked (s, next)) {u : Bookmark × MoveStep} {e : Unit}
    (hs : step now target (s, next) e = some u) : Moves source target checked u := by
  cases next with
  | asking rest =>
    have hkept (id : DartInt) (hid : id ∈ checked) : Kept source target s.db id :=
      h.kept id hid (by simp [Deleted])
    cases rest with
    | nil =>
      cases hs
      exact ⟨fun id hid _ => hkept id hid, by simp [Deleted], trivial, List.nil_subset _⟩
    | cons id rest =>
      have hdb : ((Bookmark.isBookmark id).exec s).2.db = s.db :=
        Bookmark.keepsDb_isBookmark (P := fun db => db = s.db) id s rfl
      simp only [step] at hs
      rw [← hdb] at hkept
      split at hs
      · rename_i t hexec
        cases hs
        rw [hexec] at hkept
        exact ⟨fun id hid _ => hkept id hid, by simp [Deleted], trivial, List.nil_subset _⟩
      · rename_i t hexec
        cases hs
        rw [hexec] at hkept
        exact ⟨fun id hid _ => hkept id hid, by simp [Deleted], isBookmark_some hexec, h.pending⟩
      · rename_i t hexec
        cases hs
        rw [hexec] at hkept
        exact ⟨fun id hid _ => hkept id hid, by simp [Deleted], isBookmark_some hexec, h.pending⟩
  | deleting id rest =>
    simp only [step, Bookmark.exec_write, goOn_some] at hs
    cases hs
    refine ⟨fun id' hid' hne => ?_, fun id' hid' => ?_, h.cached, h.pending⟩
    · exact (h.kept id' hid' (by simp [Deleted])).delete fun heq => hne (congrArg some heq.symm)
    · obtain rfl := Option.some.inj hid'
      exact not_kept_delete
  | removing id rest =>
    obtain ⟨ids, hset⟩ := Option.isSome_iff_exists.mp h.cached
    have hremove : (Bookmark.removeArticle id).exec s =
        (some (), { s with bookmarkSet := some (ids.erase id) }) := by
      have hset' : s.bookmarkSet = some ids := hset
      simp [Bookmark.removeArticle, hset']
    simp only [step, hremove, goOn_some] at hs
    cases hs
    exact ⟨h.kept, h.lost, rfl, h.pending⟩
  | inserting deleted id rest =>
    simp only [step, Bookmark.exec_write, goOn_some] at hs
    cases hs
    refine ⟨fun id' hid' _ => Kept.insert (fun hne => h.kept id' hid' ?_) _, by simp [Deleted],
      h.cached, h.pending⟩
    cases deleted
    · simp [Deleted]
    · exact fun heq => hne (Option.some.inj heq).symm
  | adding id rest =>
    obtain ⟨ids, hset⟩ := Option.isSome_iff_exists.mp h.cached
    have hadd := Bookmark.exec_addParsed (s := s) hset (intTryParse_intToString id.2.1 id.2.2)
    simp only [step, hadd, goOn_some] at hs
    cases hs
    exact ⟨fun id' hid' _ => h.kept id' hid' (by simp [Deleted]), by simp [Deleted], trivial,
      List.subset_of_cons_subset h.pending⟩
  | ended => cases hs

/-! ### Every place where the move can be cut off -/

lemma start_pending (queryResult checked : List DartInt) :
    (start queryResult checked).pending ⊆ checked := by
  rw [start]
  split_ifs
  · exact List.nil_subset _
  · intro id hid
    exact (List.mergeSort_perm _ _).mem_iff.mp (List.mem_reverse.mp hid)

lemma start_deleted (queryResult checked : List DartInt) :
    (start queryResult checked).Deleted = none := by
  rw [start]
  split_ifs <;> rfl

/-- Wherever the move is cut off, every checked article has a row, in the source or in the target
group, if and only if it is not cut off between the deletion of an article and its insertion. -/
theorem kept_iff_not_deleted (s : Bookmark) (queryResult checked : List DartInt)
    (source target : ℤ) (now : DartInt → Str)
    (h : ∀ id ∈ checked, Kept source target s.db id) (cut : Bookmark × MoveStep)
    (hcut : Reaches (step now target) anyEvent (s, start queryResult checked) cut) :
    (∀ id ∈ checked, Kept source target cut.1.db id) ↔ cut.2.Deleted = none := by
  have hmoves : Moves source target checked cut := by
    apply hcut.invariant (P := Moves source target checked)
    · refine ⟨fun id hid _ => h id hid, ?_, ?_, start_pending queryResult checked⟩
      · simp [start_deleted]
      · rw [start]
        split_ifs <;> trivial
    · intro t e u ht _ hs
      exact step_moves ht hs
  constructor
  · intro hkept
    cases hdeleted : cut.2.Deleted with
    | none => rfl
    | some id =>
      have hid : id ∈ cut.2.pending := by
        revert hdeleted
        cases cut.2 <;> simp only [Deleted, pending] <;> grind
      exact absurd (hkept id (hmoves.pending hid)) (hmoves.lost id hdeleted)
  · intro hdeleted id hid
    exact hmoves.kept id hid (by simp [hdeleted])

/-- Article 3 in the default group. -/
def articleThree : Bookmark :=
  Bookmark.load { UserDatabase.create [] with
    articles := ({} : KeyedTable BookmarkArticle).insert fun id => ⟨id, "3".toList, [], 1⟩ }

lemma kept_articleThree : ∀ id ∈ [(⟨3, by decide⟩ : DartInt)], Kept 1 2 articleThree.db id := by
  intro id hid
  obtain rfl := List.mem_singleton.mp hid
  exact ⟨⟨1, "3".toList, [], 1⟩, List.mem_singleton.mpr rfl, by decide +kernel, .inl rfl⟩

/-- The move of article 3 to the second group, after some steps. -/
def moved (steps : ℕ) : Option (Bookmark × MoveStep) :=
  run (step (fun _ => []) 2) anyEvent
    (articleThree, start [⟨3, three_bounds⟩] [⟨3, three_bounds⟩]) (List.replicate steps ())

theorem kept_iff_not_deleted_articleThree :
    ∃ cut, moved 5 = some cut ∧
      ((∀ id ∈ [(⟨3, by decide⟩ : DartInt)], Kept 1 2 cut.1.db id) ↔ cut.2.Deleted = none) := by
  have hrun : (moved 5).isSome := by decide +kernel
  obtain ⟨cut, hcut⟩ := Option.isSome_iff_exists.mp hrun
  exact ⟨cut, hcut, kept_iff_not_deleted articleThree [⟨3, by decide⟩] [⟨3, by decide⟩] 1 2
    (fun _ => []) kept_articleThree cut (reaches_of_run hcut)⟩

/-- The move is cut off behind the deletion, and the article has no row. -/
theorem not_kept_of_cut :
    ¬ ∀ (s : Bookmark) (queryResult checked : List DartInt) (source target : ℤ)
      (now : DartInt → Str), (∀ id ∈ checked, Kept source target s.db id) →
        ∀ cut, Reaches (step now target) anyEvent (s, start queryResult checked) cut →
          ∀ id ∈ checked, Kept source target cut.1.db id := by
  intro h
  have hrun : (moved 2).map (fun cut => cut.1.db.articles.rows) = some [] := by decide +kernel
  obtain ⟨cut, hcut, hrows⟩ := Option.map_eq_some_iff.mp hrun
  obtain ⟨row, hrow, -⟩ := h articleThree [⟨3, by decide⟩] [⟨3, by decide⟩] 1 2 (fun _ => [])
    kept_articleThree cut (reaches_of_run hcut) _ (List.mem_singleton.mpr rfl)
  rw [hrows] at hrow
  cases hrow

end MoveStep

end Violet
