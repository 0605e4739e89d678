import Violet.Bookmark.Caches
import Violet.Transition.Interleaving

/-!
# The order of the groups

The operations on groups read their positions and write them back after one or more `await`s. Each
call of the database is a step of its own.
-/

namespace Violet

open Dart Method Transition

/-! ### Calls -/

/-- Where a call is suspended: before which call of the database. -/
inductive GroupCall where
  /-- `fixGroup` before its query. -/
  | fixing
  /-- `fixGroup` before the update of the group with this number. -/
  | repairing (groups : List BookmarkGroup) (i : ℕ)
  /-- `getGroup` before its query. -/
  | listing
  /-- `createGroup` before the query of `getGroup`. -/
  | reading (name description : Str) (color : ℤ) (now : Str)
  /-- `createGroup` before the insertion behind the last group. -/
  | creating (name description : Str) (color : ℤ) (now : Str) (last : BookmarkGroup)
  /-- `positionSwap` before the query of `getGroup`. -/
  | sorting (source target : ℕ)
  /-- `positionSwap` before the next exchange. -/
  | moving (up : Bool) (steps place : ℕ) (groups : List BookmarkGroup)
  | modifying (group : BookmarkGroup)
  /-- `deleteGroup` before the deletion of the articles. -/
  | deletingArticles (group : ℤ)
  | deletingArtists (group : ℤ)
  | deleting (group : ℤ)
  | forgetting
  | ended
  deriving DecidableEq, Repr

inductive GroupOperation where
  | getGroup
  | createGroup (name description : Str) (color : ℤ) (now : Str)
  | positionSwap (source target : ℕ)
  | modfiyGroup (group : BookmarkGroup)
  | deleteGroup (group : ℤ)
  deriving DecidableEq, Repr

namespace GroupCall

/-- `getGroup` does not await `fixGroup`, which goes on as a call of its own. -/
def start : GroupOperation → List GroupCall
  | .getGroup => [.fixing, .listing]
  | .createGroup name description color now => [.fixing, .reading name description color now]
  | .positionSwap source target => [.fixing, .sorting source target]
  | .modfiyGroup group => [.modifying group]
  | .deleteGroup group => [.deletingArticles group]

/-- `ORDER BY Gorder ASC`. -/
def inOrder (groups : List BookmarkGroup) : List BookmarkGroup :=
  groups.mergeSort fun a b => a.gorder ≤ b.gorder

/-- A call after a write. -/
def write (s : Bookmark) (f : UserDatabase → UserDatabase) (c : GroupCall) :
    Option (Bookmark × GroupCall) :=
  some (((Bookmark.write true f).exec s).2, c)

/-- A call goes on from one `await` to the next. -/
def resume (s : Bookmark) : GroupCall → Option (Bookmark × GroupCall)
  | .fixing =>
    match s.db.groups.rows with
    | first :: second :: rest =>
      if second.gorder = 1 then some (s, .repairing (first :: second :: rest) 1)
      else some (s, .ended)
    | _ => some (s, .ended)
  | .repairing groups i =>
    match groups[i]? with
    | none => some (s, .ended)
    | some group =>
      some (((Bookmark.modfiyGroup true { group with gorder := i + 1 }).exec s).2,
        .repairing groups (i + 1))
  | .listing => some (s, .ended)
  | .reading name description color now =>
    match (inOrder s.db.groups.rows).getLast? with
    | none => some (s, .ended)
    | some last => some (s, .creating name description color now last)
  | .creating name description color now last =>
    write s (fun db => { db with
      groups := db.groups.insert fun id =>
        { id := id, name := name, datetime := now, description := description, color := color,
          gorder := last.gorder + 1 } }) .ended
  | .sorting source target =>
    let groups := inOrder s.db.groups.rows
    if source < target then some (s, .moving true (target - source) source groups)
    else some (s, .moving false (source - target) source groups)
  | .moving _ 0 _ _ => some (s, .ended)
  | .moving up (steps + 1) place groups =>
    let next := if up then place + 1 else place - 1
    match groups[place]?, groups[next]? with
    | some group, some target =>
      some (((Bookmark.swap true group target).exec s).2,
        .moving up steps next ((groups.set place { target with gorder := group.gorder }).set next
          { group with gorder := target.gorder }))
    | _, _ => some (s, .ended)
  | .modifying group => some (((Bookmark.modfiyGroup true group).exec s).2, .ended)
  | .deletingArticles group =>
    write s (fun db => { db with articles := db.articles.delete fun row => row.group = group })
      (.deletingArtists group)
  | .deletingArtists group =>
    write s (fun db => { db with artists := db.artists.delete fun row => row.group = group })
      (.deleting group)
  | .deleting group =>
    write s (fun db => { db with groups := db.groups.delete fun row => row.id = group }) .forgetting
  | .forgetting => some ({ s with bookmarkSet := none }, .ended)
  | .ended => none

end GroupCall

namespace UserDatabase

/-- No two groups have one position. -/
def DistinctOrders (db : UserDatabase) : Prop := (db.groups.rows.map BookmarkGroup.gorder).Nodup

/-- The group is stored, at the position that it was read with. -/
def Holds (db : UserDatabase) (group : BookmarkGroup) : Prop :=
  (∃ row ∈ db.groups.rows, row.id = group.id) ∧
    ∀ row ∈ db.groups.rows, row.id = group.id → row.gorder = group.gorder

variable {db : UserDatabase} {group target : BookmarkGroup}

/-! ### Changes of the table -/

/-- A group behind all the others. -/
lemma DistinctOrders.insert {row : ℤ → BookmarkGroup} (h : db.DistinctOrders)
    (hlast : ∀ other ∈ db.groups.rows, ∀ id, other.gorder < (row id).gorder) :
    DistinctOrders { db with groups := db.groups.insert row } := by
  rw [DistinctOrders, KeyedTable.rows_insert, List.map_append]
  refine List.nodup_append.mpr ⟨h, List.nodup_singleton _, fun a ha b hb heq => ?_⟩
  obtain ⟨other, hother, rfl⟩ := List.mem_map.mp ha
  obtain rfl := List.mem_singleton.mp hb
  exact (hlast other hother _).ne heq

lemma DistinctOrders.delete (h : db.DistinctOrders) (p : BookmarkGroup → Bool) :
    DistinctOrders { db with groups := db.groups.delete p } :=
  h.sublist (List.filter_sublist.map _)

/-- An update under which no two groups come to one position. -/
lemma DistinctOrders.update {rows : List BookmarkGroup} {f : BookmarkGroup → BookmarkGroup}
    (h : db.DistinctOrders) (hrows : rows = db.groups.rows.map f)
    (hf : ∀ row ∈ db.groups.rows, ∀ other ∈ db.groups.rows, (f row).gorder = (f other).gorder →
      row.gorder = other.gorder) :
    DistinctOrders { db with groups := { db.groups with rows := rows } } := by
  rw [DistinctOrders, hrows, List.map_map]
  refine (List.Nodup.of_map _ h).map_on fun row hrow other hother heq => ?_
  exact List.inj_on_of_nodup_map h hrow hother (hf row hrow other hother heq)

/-- The group keeps its position. -/
lemma DistinctOrders.modify (h : db.DistinctOrders)
    (hgroup : ∀ row ∈ db.groups.rows, row.id = group.id → row.gorder = group.gorder) :
    DistinctOrders { db with
      groups := db.groups.update (fun row => row.id = group.id) fun _ => group } := by
  have hkeep (row : BookmarkGroup) (hrow : row ∈ db.groups.rows) :
      (if decide (row.id = group.id) then group else row).gorder = row.gorder := by
    split_ifs with hid
    · exact (hgroup row hrow (of_decide_eq_true hid)).symm
    · rfl
  refine DistinctOrders.update h rfl ?_
  intro row hrow other hother heq
  rwa [hkeep row hrow, hkeep other hother] at heq

/-- Two groups exchange the positions that they have. -/
lemma DistinctOrders.swap (h : db.DistinctOrders) (hgroup : db.Holds group)
    (htarget : db.Holds target) :
    DistinctOrders { db with
      groups := (db.groups.update (fun row => row.id = group.id)
          fun row => { row with gorder := target.gorder }).update (fun row => row.id = target.id)
        fun row => { row with gorder := group.gorder } } := by
  obtain ⟨⟨group', hgroup', hid⟩, hg⟩ := hgroup
  obtain ⟨⟨target', htarget', hid'⟩, ht⟩ := htarget
  let f (row : BookmarkGroup) : BookmarkGroup :=
    if row.id = target.id then { row with gorder := group.gorder }
    else if row.id = group.id then { row with gorder := target.gorder }
    else row
  have hrows : ((db.groups.update (fun row => row.id = group.id)
      fun row => { row with gorder := target.gorder }).update (fun row => row.id = target.id)
        fun row => { row with gorder := group.gorder }).rows = db.groups.rows.map f := by
    rw [KeyedTable.rows_update, KeyedTable.rows_update, List.map_map]
    refine List.map_congr_left fun row _ => ?_
    by_cases hg' : row.id = group.id <;> by_cases ht' : row.id = target.id <;>
      simp_all [f]
  have hswap (row : BookmarkGroup) (hrow : row ∈ db.groups.rows) :
      (f row).gorder = Equiv.swap group.gorder target.gorder row.gorder := by
    by_cases ht' : row.id = target.id
    · rw [ht row hrow ht', Equiv.swap_apply_right]
      simp [f, ht']
    · by_cases hg' : row.id = group.id
      · rw [hg row hrow hg', Equiv.swap_apply_left]
        simp [f, hg', hg' ▸ ht']
      · rw [Equiv.swap_apply_of_ne_of_ne]
        · simp [f, hg', ht']
        · intro heq
          rw [← hg group' hgroup' hid] at heq
          exact hg' (List.inj_on_of_nodup_map h hrow hgroup' heq ▸ hid)
        · intro heq
          rw [← ht target' htarget' hid'] at heq
          exact ht' (List.inj_on_of_nodup_map h hrow htarget' heq ▸ hid')
  apply h.update hrows
  intro row hrow other hother heq
  rw [hswap row hrow, hswap other hother] at heq
  exact (Equiv.swap _ _).injective heq

end UserDatabase

namespace GroupCall

variable {s t : Bookmark} {c d : GroupCall}

/-! ### Runs -/

/-- What the call has read is still so: the last group is still the last one, the groups that
change places are still there at theirs, and a group that is written back has not moved. `fixGroup`
finds no second group at the first position. -/
def ReadsCurrent (s : Bookmark) : GroupCall → Prop
  | .fixing => ∀ second ∈ s.db.groups.rows[1]?, second.gorder ≠ 1
  | .creating _ _ _ _ last => ∀ row ∈ s.db.groups.rows, row.gorder ≤ last.gorder
  | .moving up (_ + 1) place groups => ∀ group ∈ groups[place]?,
      ∀ target ∈ groups[if up then place + 1 else place - 1]?, s.db.Holds group ∧ s.db.Holds target
  | .modifying group => ∀ row ∈ s.db.groups.rows, row.id = group.id → row.gorder = group.gorder
  | _ => True

/-- No call repairs the order. -/
def Repairs (c : GroupCall) : Prop := ∃ groups i, c = .repairing groups i

lemma resume_distinctOrders (h : s.db.DistinctOrders) (hc : ¬ c.Repairs) (hg : ReadsCurrent s c)
    (hs : resume s c = some (t, d)) : t.db.DistinctOrders ∧ ¬ d.Repairs := by
  have hended : ¬ ended.Repairs := by simp [Repairs]
  cases c with
  | fixing =>
    rw [resume] at hs
    split at hs
    · rename_i first second rest hrows
      split_ifs at hs with hfirst
      · exact absurd hfirst (hg second (by simp [hrows]))
      · cases hs
        exact ⟨h, hended⟩
    · cases hs
      exact ⟨h, hended⟩
  | repairing groups i => exact absurd ⟨groups, i, rfl⟩ hc
  | listing =>
    cases hs
    exact ⟨h, hended⟩
  | reading name description color now =>
    rw [resume] at hs
    split at hs
    · cases hs
      exact ⟨h, hended⟩
    · cases hs
      exact ⟨h, by simp [Repairs]⟩
  | creating name description color now last =>
    cases hs
    exact ⟨h.insert fun other hother _ => Int.lt_add_one_of_le (hg other hother), hended⟩
  | sorting source target =>
    rw [resume] at hs
    split_ifs at hs
    · cases hs
      exact ⟨h, by simp [Repairs]⟩
    · cases hs
      exact ⟨h, by simp [Repairs]⟩
  | moving up steps place groups =>
    cases steps with
    | zero =>
      cases hs
      exact ⟨h, hended⟩
    | succ steps =>
      rw [resume] at hs
      split at hs
      · rename_i group target hgroup htarget
        cases hs
        obtain ⟨hgroup, htarget⟩ := hg group hgroup target htarget
        exact ⟨h.swap hgroup htarget, by simp [Repairs]⟩
      · cases hs
        exact ⟨h, hended⟩
  | modifying group =>
    cases hs
    exact ⟨h.modify hg, hended⟩
  | deletingArticles group =>
    cases hs
    exact ⟨h, by simp [Repairs]⟩
  | deletingArtists group =>
    cases hs
    exact ⟨h, by simp [Repairs]⟩
  | deleting group =>
    cases hs
    exact ⟨h.delete _, by simp [Repairs]⟩
  | forgetting =>
    cases hs
    exact ⟨h, hended⟩
  | ended => cases hs

/-- The calls on a database. -/
def load (db : UserDatabase) : Calls Bookmark GroupCall := { shared := Bookmark.load db }

/-- In every run in which a call writes only while what it has read is still so, the groups have
distinct positions. -/
theorem distinctOrders_of_readsCurrent (db : UserDatabase) (hdb : db.DistinctOrders)
    (s : Calls Bookmark GroupCall)
    (h : Reaches (Calls.step start resume) (Calls.admits ReadsCurrent fun _ _ => True) (load db)
      s) :
    s.shared.db.DistinctOrders := by
  have hs : s.Invariant (fun s => s.db.DistinctOrders) (fun _ c => ¬ c.Repairs)
      (fun _ _ => True) := by
    apply Calls.invariant_of_reaches h
    · exact ⟨hdb, by simp [load], fun _ _ _ _ _ _ _ => trivial⟩
    · intro shared op _ c hc
      refine ⟨?_, fun _ => ⟨trivial, trivial⟩⟩
      rintro ⟨groups, i, rfl⟩
      cases op <;> simp [start] at hc
    · intro shared c shared' c' hI hP halone hres
      obtain ⟨hI', hP'⟩ := resume_distinctOrders hI hP halone hres
      exact ⟨hI', hP', fun d hd _ _ _ => ⟨hd, trivial, trivial⟩⟩
  exact hs.shared

instance (db : UserDatabase) (group : BookmarkGroup) : Decidable (db.Holds group) :=
  inferInstanceAs (Decidable (_ ∧ _))

instance (s : Bookmark) (c : GroupCall) : Decidable (ReadsCurrent s c) :=
  match c with
  | .fixing => inferInstanceAs (Decidable (∀ second ∈ s.db.groups.rows[1]?, second.gorder ≠ 1))
  | .creating _ _ _ _ last =>
    inferInstanceAs (Decidable (∀ row ∈ s.db.groups.rows, row.gorder ≤ last.gorder))
  | .moving up (_ + 1) place groups => inferInstanceAs (Decidable (∀ group ∈ groups[place]?,
      ∀ target ∈ groups[if up then place + 1 else place - 1]?,
        s.db.Holds group ∧ s.db.Holds target))
  | .modifying group => inferInstanceAs (Decidable (∀ row ∈ s.db.groups.rows,
      row.id = group.id → row.gorder = group.gorder))
  | .repairing .. | .listing | .reading .. | .sorting .. | .moving _ 0 _ _ | .deletingArticles _
  | .deletingArtists _ | .deleting _ | .forgetting | .ended => .isTrue trivial

/-- One call of `createGroup` from its start to its end. -/
def oneGroup : List (CallEvent GroupOperation) :=
  [.start (.createGroup [] [] 0 []), .resume 0, .resume 1, .resume 1]

/-- Two calls of `createGroup` that read the last group before either of them adds its own. -/
def twoGroups : List (CallEvent GroupOperation) :=
  [.start (.createGroup [] [] 0 []), .start (.createGroup [] [] 0 []), .resume 0, .resume 2,
    .resume 1, .resume 3, .resume 1, .resume 3]

theorem distinctOrders_of_readsCurrent_oneGroup :
    ∃ s, run (Calls.step start resume) (Calls.admits ReadsCurrent fun _ _ => True)
      (load (.create [])) oneGroup = some s ∧ s.shared.db.DistinctOrders := by
  have hrun : (run (Calls.step start resume) (Calls.admits ReadsCurrent fun _ _ => True)
      (load (.create [])) oneGroup).isSome := by
    decide +kernel
  obtain ⟨s, hs⟩ := Option.isSome_iff_exists.mp hrun
  refine ⟨s, hs, distinctOrders_of_readsCurrent (.create []) ?_ s (reaches_of_run hs)⟩
  exact List.nodup_singleton _

/-- Both calls have ended, and the new groups are both at the second position. -/
theorem not_distinctOrders_of_twoGroups :
    ¬ ∀ db : UserDatabase, db.DistinctOrders → ∀ s,
      Reaches (Calls.step start resume) anyEvent (load db) s → (∀ c ∈ s.calls, c = .ended) →
        s.shared.db.DistinctOrders := by
  intro h
  have hrun : (run (Calls.step start resume) anyEvent (load (.create [])) twoGroups).map
      (fun s => (s.calls, s.shared.db.groups.rows.map BookmarkGroup.gorder)) =
        some (List.replicate 4 .ended, [1, 2, 2]) := by
    decide +kernel
  obtain ⟨s, hs, hend⟩ := Option.map_eq_some_iff.mp hrun
  obtain ⟨hcalls, horders⟩ := Prod.mk.inj hend
  have hdistinct := h (.create []) (List.nodup_singleton _) s (reaches_of_run hs) fun c hc => by
    rw [hcalls] at hc
    exact List.eq_of_mem_replicate hc
  rw [UserDatabase.DistinctOrders, horders] at hdistinct
  exact absurd hdistinct (by decide)

/-! ### A call alone -/

/-- The exchanges of a call alone are those of `positionSwap` without a break. -/
theorem finish_moving (up : Bool) (steps place : ℕ) (groups : List BookmarkGroup) (s : Bookmark) :
    Calls.finish resume (steps + 1) s (.moving up steps place groups) =
      ((Bookmark.moveGroup true up steps place groups).exec s).2 := by
  induction steps generalizing place groups s with
  | zero => rfl
  | succ steps ih =>
    cases hgroup : groups[place]? with
    | none =>
      rw [Calls.finish_succ _ (t := s) (d := .ended) (by simp [resume, hgroup]),
        Calls.finish_of_none _ rfl]
      simp [Bookmark.moveGroup, hgroup]
    | some group =>
      cases htarget : groups[if up then place + 1 else place - 1]? with
      | none =>
        rw [Calls.finish_succ _ (t := s) (d := .ended) (by simp [resume, hgroup, htarget]),
          Calls.finish_of_none _ rfl]
        simp [Bookmark.moveGroup, hgroup, htarget]
      | some target =>
        have hswap : (Bookmark.swap true group target).exec s =
            (some (), ((Bookmark.swap true group target).exec s).2) := by
          rw [Bookmark.swap, Bookmark.exec_write]
        rw [Calls.finish_succ _ (by simp only [resume, hgroup, htarget]; rfl), ih]
        simp only [Bookmark.moveGroup, hgroup, htarget]
        rw [exec_bind_of_some hswap]

end GroupCall

end Violet
