import Violet.Bookmark.GroupOrder
import Violet.Dart.Sort
import Violet.Edit.Move

/-!
# Moving a group

`positionSwap` exchanges a group with its neighbours, one after the other, in the table and in the
list in memory. The positions stay where they are and the groups change places, so that in the end
one group has moved and the list in memory is what the table holds.
-/

namespace Violet

open Dart Method Edit

/-- The columns other than the position. -/
def BookmarkGroup.unplaced (group : BookmarkGroup) : BookmarkGroup := { group with gorder := 0 }

/-- The groups as they are numbered: the default group is the first one, at position 1, and no two
groups share a position. -/
structure UserDatabase.GroupsPlaced (db : UserDatabase) : Prop where
  ids : db.groups.rows.Pairwise fun a b => a.id < b.id
  orders : db.DistinctOrders
  first : ∃ default rest, db.groups.rows = default :: rest ∧ default.gorder = 1 ∧
    ∀ group ∈ rest, 1 < group.gorder

/-- In the order of their positions the groups are those before, but for one that has moved. The
positions are the same, and so are all other columns. -/
structure GroupMoved (source target : ℕ) (before after : List BookmarkGroup) : Prop where
  moved : (GroupCall.inOrder after).map BookmarkGroup.unplaced =
    moveItem ((GroupCall.inOrder before).map BookmarkGroup.unplaced) source target
  orders : (after.map BookmarkGroup.gorder).Perm (before.map BookmarkGroup.gorder)
  columns : after.map BookmarkGroup.unplaced = before.map BookmarkGroup.unplaced

namespace Reorder

variable {groups rows : List BookmarkGroup} {group target : BookmarkGroup} {i j : ℕ} {s : Bookmark}

/-! ### One exchange -/

/-- What `swap` does to a row. -/
def exchanged (group target row : BookmarkGroup) : BookmarkGroup :=
  if row.id = target.id then { row with gorder := group.gorder }
  else if row.id = group.id then { row with gorder := target.gorder }
  else row

/-- The object with other rows of groups. -/
def withRows (s : Bookmark) (rows : List BookmarkGroup) : Bookmark :=
  { s with db := { s.db with groups := { s.db.groups with rows := rows } } }

lemma exec_swap (s : Bookmark) (group target : BookmarkGroup) :
    (Bookmark.swap true group target).exec s =
      (some (), withRows s (s.db.groups.rows.map (exchanged group target))) := by
  have hrows : ((s.db.groups.update (fun row => row.id = group.id)
      fun row => { row with gorder := target.gorder }).update (fun row => row.id = target.id)
        fun row => { row with gorder := group.gorder }) =
      { s.db.groups with rows := s.db.groups.rows.map (exchanged group target) } := by
    simp only [KeyedTable.update, List.map_map]
    congr 1
    refine List.map_congr_left fun row _ => ?_
    by_cases hg : row.id = group.id <;> by_cases ht : row.id = target.id <;>
      simp_all [exchanged]
  rw [Bookmark.swap, Bookmark.exec_write, hrows]
  rfl

lemma id_exchanged (group target row : BookmarkGroup) :
    (exchanged group target row).id = row.id := by
  rw [exchanged]
  split_ifs <;> rfl

lemma unplaced_exchanged (group target row : BookmarkGroup) :
    (exchanged group target row).unplaced = row.unplaced := by
  rw [exchanged]
  split_ifs <;> rfl

/-- The list in memory is the table, in the order of the positions. -/
structure InMemory (groups rows : List BookmarkGroup) : Prop where
  perm : groups.Perm rows
  sorted : (groups.map BookmarkGroup.gorder).Pairwise (· < ·)
  ids : (groups.map BookmarkGroup.id).Nodup

lemma inOrder_perm (rows : List BookmarkGroup) : (GroupCall.inOrder rows).Perm rows :=
  List.mergeSort_perm rows _

lemma pairwise_inOrder (rows : List BookmarkGroup) :
    (GroupCall.inOrder rows).Pairwise fun a b => a.gorder ≤ b.gorder :=
  pairwise_mergeSort BookmarkGroup.gorder rows

lemma InMemory.inOrder_eq (h : InMemory groups rows) : GroupCall.inOrder rows = groups := by
  have hlt : groups.Pairwise fun a b => a.gorder < b.gorder := List.pairwise_map.mp h.sorted
  have hperm := h.perm.trans (inOrder_perm rows).symm
  refine (eq_of_pairwise_key hperm (fun a ha b hb heq => ?_) (hlt.imp le_of_lt)
    (pairwise_inOrder rows)).symm
  exact List.inj_on_of_nodup_map (h.sorted.imp fun hlt => hlt.ne) ha hb heq

lemma inMemory_inOrder (horders : (rows.map BookmarkGroup.gorder).Nodup)
    (hids : rows.Pairwise fun a b => a.id < b.id) : InMemory (GroupCall.inOrder rows) rows := by
  have hperm := inOrder_perm rows
  refine ⟨hperm, List.pairwise_map.mpr ?_, (hperm.map _).nodup_iff.mpr ?_⟩
  · have hne : (GroupCall.inOrder rows).Pairwise fun a b => a.gorder ≠ b.gorder :=
      List.pairwise_map.mp ((hperm.map _).nodup_iff.mpr horders)
    exact ((pairwise_inOrder rows).and hne).imp fun h => lt_of_le_of_ne h.1 h.2
  · exact List.pairwise_map.mpr (hids.imp fun h => h.ne)

/-- The list after an exchange is the one before, with two groups exchanged and given each other's
positions. -/
lemma set_set_eq (h : (groups.map BookmarkGroup.id).Nodup) (hi : groups[i]? = some group)
    (hj : groups[j]? = some target) (hij : i ≠ j) :
    (groups.set i { target with gorder := group.gorder }).set j
        { group with gorder := target.gorder } =
      (exchange groups i j).map (exchanged group target) := by
  obtain ⟨hilt, rfl⟩ := List.getElem?_eq_some_iff.mp hi
  obtain ⟨hjlt, rfl⟩ := List.getElem?_eq_some_iff.mp hj
  have hid {k l : ℕ} (hk : k < groups.length) (hl : l < groups.length)
      (heq : groups[k].id = groups[l].id) : k = l := by
    have hlen : k < (groups.map BookmarkGroup.id).length := by simpa using hk
    exact (List.getElem?_inj hlen h).mp (by simp [hk, hl, heq])
  apply List.ext_getElem?
  intro k
  simp only [exchange, hi, hj, List.getElem?_map, List.getElem?_set, List.length_set]
  by_cases hkj : j = k
  · subst hkj
    have hne : groups[i].id ≠ groups[j].id := fun heq => hij (hid hilt hjlt heq)
    simp [hjlt, exchanged, hne]
  · by_cases hki : i = k
    · subst hki
      simp [hkj, hilt, exchanged]
    · cases hk : groups[k]? with
      | none => simp [hkj, hki]
      | some row =>
        obtain ⟨hklt, rfl⟩ := List.getElem?_eq_some_iff.mp hk
        have hnj : groups[k].id ≠ groups[j].id := fun heq => hkj (hid hklt hjlt heq).symm
        have hni : groups[k].id ≠ groups[i].id := fun heq => hki (hid hklt hilt heq).symm
        simp [hkj, hki, exchanged, hnj, hni]

lemma exchange_perm {α : Type*} (l : List α) (i j : ℕ) : (exchange l i j).Perm l := by
  rw [exchange]
  split
  · rename_i x y hx hy
    obtain ⟨hi, rfl⟩ := List.getElem?_eq_some_iff.mp hx
    obtain ⟨hj, rfl⟩ := List.getElem?_eq_some_iff.mp hy
    exact List.set_set_perm hi hj
  · exact .refl l

lemma map_exchange {α β : Type*} (f : α → β) (l : List α) (i j : ℕ) :
    (exchange l i j).map f = exchange (l.map f) i j := by
  simp only [exchange, List.getElem?_map]
  cases l[i]? <;> cases l[j]? <;> simp

/-- The list in memory and the table after an exchange. -/
lemma InMemory.exchange (h : InMemory groups rows) (hi : groups[i]? = some group)
    (hj : groups[j]? = some target) (hij : i ≠ j) {groups' : List BookmarkGroup}
    (hgroups' : groups' = (groups.set i { target with gorder := group.gorder }).set j
      { group with gorder := target.gorder }) :
    InMemory groups' (rows.map (exchanged group target)) ∧
      groups'.map BookmarkGroup.gorder = groups.map BookmarkGroup.gorder ∧
      groups'.map BookmarkGroup.unplaced =
        Edit.exchange (groups.map BookmarkGroup.unplaced) i j := by
  have horders : groups'.map BookmarkGroup.gorder = groups.map BookmarkGroup.gorder := by
    obtain ⟨hilt, rfl⟩ := List.getElem?_eq_some_iff.mp hi
    obtain ⟨hjlt, rfl⟩ := List.getElem?_eq_some_iff.mp hj
    rw [hgroups', List.map_set, List.map_set]
    apply List.ext_getElem?
    intro k
    simp only [List.getElem?_set, List.length_set, List.length_map, List.getElem?_map]
    by_cases hkj : j = k
    · subst hkj
      simp [hjlt]
    · by_cases hki : i = k
      · subst hki
        simp [hkj, hilt]
      · simp [hkj, hki]
  have heq : groups' = (Edit.exchange groups i j).map (exchanged group target) :=
    hgroups'.trans (set_set_eq h.ids hi hj hij)
  have hperm := exchange_perm groups i j
  refine ⟨⟨heq ▸ (hperm.trans h.perm).map _, horders ▸ h.sorted, ?_⟩, horders, ?_⟩
  · have hids : groups'.map BookmarkGroup.id = (Edit.exchange groups i j).map BookmarkGroup.id := by
      rw [heq, List.map_map]
      exact List.map_congr_left fun row _ => id_exchanged group target row
    exact hids ▸ (hperm.map _).nodup_iff.mpr h.ids
  · rw [heq, List.map_map, ← map_exchange]
    exact List.map_congr_left fun row _ => unplaced_exchanged group target row

/-! ### The loops -/

/-- All places of the loop are in the list. -/
def Fits (steps place n : ℕ) : Bool → Prop
  | true => place + steps < n
  | false => steps ≤ place ∧ place < n

/-- The list in memory and the table after the loops. -/
structure Shifted (up : Bool) (steps place : ℕ) (groups groups' rows rows' : List BookmarkGroup) :
    Prop where
  memory : InMemory groups' rows'
  orders : groups'.map BookmarkGroup.gorder = groups.map BookmarkGroup.gorder
  moved : groups'.map BookmarkGroup.unplaced =
    shift up steps place (groups.map BookmarkGroup.unplaced)
  columns : rows'.map BookmarkGroup.unplaced = rows.map BookmarkGroup.unplaced

lemma exec_moveGroup {up : Bool} {steps place : ℕ} (hfits : Fits steps place groups.length up)
    (h : InMemory groups s.db.groups.rows) :
    ∃ groups' rows,
      (Bookmark.moveGroup true up steps place groups).exec s = (some groups', withRows s rows) ∧
        Shifted up steps place groups groups' s.db.groups.rows rows := by
  induction steps generalizing place groups s with
  | zero => exact ⟨groups, s.db.groups.rows, rfl, h, rfl, rfl, rfl⟩
  | succ steps ih =>
    obtain ⟨next, hnext⟩ : ∃ next, next = if up then place + 1 else place - 1 := ⟨_, rfl⟩
    have hplaces : place < groups.length ∧ next < groups.length ∧ place ≠ next ∧
        Fits steps next groups.length up := by
      cases up <;> simp only [Fits, if_true, Bool.false_eq_true, if_false] at hfits hnext ⊢ <;>
        omega
    obtain ⟨hplace, hnextlt, hne, hfits'⟩ := hplaces
    have hgroup := List.getElem?_eq_getElem hplace
    have htarget := List.getElem?_eq_getElem hnextlt
    obtain ⟨hmemory, horders, hmoved⟩ := h.exchange hgroup htarget hne rfl
    have hexec := exec_swap s groups[place] groups[next]
    obtain ⟨groups', rows', hrun, hshifted⟩ :=
      ih (s := withRows s _) (by simpa using hfits') hmemory
    refine ⟨groups', rows', ?_, hshifted.memory, hshifted.orders.trans horders, ?_, ?_⟩
    · rw [Bookmark.moveGroup, ← hnext]
      simp only [hgroup, htarget]
      rw [exec_bind_of_some hexec, hrun]
      rfl
    · rw [hshifted.moved, hmoved, shift, ← hnext]
    · rw [hshifted.columns]
      simp only [withRows, List.map_map]
      exact List.map_congr_left fun row _ => unplaced_exchanged _ _ row

/-! ### The move -/

/-- With the default group at the first position there is nothing to repair. -/
lemma exec_getGroup (h : s.db.GroupsPlaced) :
    (Bookmark.getGroup true).exec s = (some (GroupCall.inOrder s.db.groups.rows), s) := by
  have hfixed : Bookmark.fixed s.db.groups.rows = s.db.groups.rows := by
    obtain ⟨default, rest, hrows, -, hrest⟩ := h.first
    rw [hrows]
    cases rest with
    | nil => rfl
    | cons second rest =>
      have hne : second.gorder ≠ 1 := (hrest second List.mem_cons_self).ne'
      simp [Bookmark.fixed, hne]
  have hfix : (Bookmark.fixGroup true).exec s = (some (), s) := by
    simp [Bookmark.fixGroup, hfixed]
  rw [Bookmark.getGroup, exec_get_bind, exec_bind_of_some hfix]
  rfl

/-- `positionSwap` between two places of the list moves the group, and the list in memory is what
is stored in the end. -/
theorem positionSwap_moves (s : Bookmark) (h : s.db.GroupsPlaced) {source target : ℕ}
    (hsource : 1 ≤ source ∧ source < s.db.groups.rows.length)
    (htarget : 1 ≤ target ∧ target < s.db.groups.rows.length) :
    ∃ groups rows,
      (Bookmark.positionSwap true source target).exec s = (some groups, withRows s rows) ∧
        GroupMoved source target s.db.groups.rows rows ∧ groups = GroupCall.inOrder rows := by
  obtain ⟨-, hsource⟩ := hsource
  obtain ⟨-, htarget⟩ := htarget
  have hmemory := inMemory_inOrder h.orders h.ids
  rw [← hmemory.perm.length_eq] at hsource htarget
  have hmove := shift_eq_moveItem
    ((GroupCall.inOrder s.db.groups.rows).map BookmarkGroup.unplaced)
    (by simpa using hsource) (by simpa using htarget)
  have hspec {up : Bool} {steps : ℕ} {groups rows : List BookmarkGroup}
      (hshifted :
        Shifted up steps source (GroupCall.inOrder s.db.groups.rows) groups s.db.groups.rows rows)
      (hshift : shift up steps source
        ((GroupCall.inOrder s.db.groups.rows).map BookmarkGroup.unplaced) =
          moveItem ((GroupCall.inOrder s.db.groups.rows).map BookmarkGroup.unplaced) source
            target) :
      GroupMoved source target s.db.groups.rows rows := by
    have hlist := hshifted.memory.inOrder_eq
    refine ⟨?_, ?_, hshifted.columns⟩
    · rw [hlist, hshifted.moved, hshift]
    · have horders := (hshifted.memory.perm.map BookmarkGroup.gorder).symm
      rw [hshifted.orders] at horders
      exact horders.trans (hmemory.perm.map _)
  rw [Bookmark.positionSwap, exec_bind_of_some (exec_getGroup h)]
  by_cases hlt : source < target
  · have hfits :
        Fits (target - source) source (GroupCall.inOrder s.db.groups.rows).length true := by
      rw [Fits]
      omega
    obtain ⟨groups, rows, hrun, hshifted⟩ := exec_moveGroup hfits hmemory
    rw [if_pos hlt] at hmove
    rw [if_pos hlt]
    exact ⟨groups, rows, hrun, hspec hshifted hmove, hshifted.memory.inOrder_eq.symm⟩
  · have hfits : Fits (source - target) source (GroupCall.inOrder s.db.groups.rows).length false :=
      ⟨Nat.sub_le source target, hsource⟩
    obtain ⟨groups, rows, hrun, hshifted⟩ := exec_moveGroup hfits hmemory
    rw [if_neg hlt] at hmove
    rw [if_neg hlt]
    exact ⟨groups, rows, hrun, hspec hshifted hmove, hshifted.memory.inOrder_eq.symm⟩

/-- Three groups with a gap between their positions. -/
def threeGroups : Bookmark :=
  let row (id gorder : ℤ) : BookmarkGroup := ⟨id, [], [], [], 0, gorder⟩
  { db := { groups := { rows := [row 1 1, row 2 7, row 3 4], sequence := 3 } } }

theorem positionSwap_moves_threeGroups :
    ∃ groups rows, (Bookmark.positionSwap true 1 2).exec threeGroups =
        (some groups, withRows threeGroups rows) ∧
      GroupMoved 1 2 threeGroups.db.groups.rows rows ∧ groups = GroupCall.inOrder rows := by
  have hplaced : threeGroups.db.GroupsPlaced :=
    ⟨by decide, by simp [UserDatabase.DistinctOrders, threeGroups], _, _, rfl, rfl, by decide⟩
  exact positionSwap_moves threeGroups hplaced (by decide) (by decide)

end Reorder

end Violet
