import Violet.Algorithm.Distance
import Violet.Dart.FixedList
import Violet.Edit.Alignment

/-!
# The route of the Levenshtein distance

`Distance.levenshteinDistanceRoute` fills the whole table, column by column, and walks back through
it from the last cell. Nothing stands for a range error.
-/

namespace Violet

namespace Distance

/-- `dist[i][j]` -/
def cell (dist : List (List ℕ)) (i j : ℕ) : Option ℕ := dist[i]?.bind fun row => row[j]?

/-- `dist[i][j] = v` -/
def setCell (dist : List (List ℕ)) (i j v : ℕ) : Option (List (List ℕ)) := do
  let row ← dist[i]?
  let row ← Dart.setAt row j v
  some (dist.set i row)

variable {T : Type*} [BEq T]

/-- The table with its first column and its first row. -/
def borders (l1 l2 : List T) : Option (List (List ℕ)) := do
  let dist := List.replicate (l1.length + 1) (List.replicate (l2.length + 1) 0)
  let dist ← (List.range (l1.length + 1)).foldlM (fun dist i => setCell dist i 0 i) dist
  (List.range (l2.length + 1)).foldlM (fun dist j => setCell dist 0 j j) dist

def fillCell (l1 l2 : List T) (dist : List (List ℕ)) (i j : ℕ) : Option (List (List ℕ)) :=
  match l1[i - 1]?, l2[j - 1]? with
  | some x, some y => do
    let lu ← cell dist (i - 1) (j - 1)
    if x == y then setCell dist i j lu
    else do
      let l ← cell dist i (j - 1)
      let u ← cell dist (i - 1) j
      setCell dist i j (min (lu + 1) (min (l + 1) (u + 1)))
  | _, _ => none

def fillColumn (l1 l2 : List T) (dist : List (List ℕ)) (j : ℕ) : Option (List (List ℕ)) :=
  (List.range l1.length).foldlM (fun dist i => fillCell l1 l2 dist (i + 1) j) dist

def fillTable (l1 l2 : List T) : Option (List (List ℕ)) := do
  let dist ← borders l1 l2
  (List.range l2.length).foldlM (fun dist j => fillColumn l1 l2 dist (j + 1)) dist

/-- The loop from the cell `i`, `j` on, whose value is `fz`. -/
def walk (dist : List (List ℕ)) (i j : ℤ) (fz : ℕ) (route : List ℕ) : Option (List ℕ) :=
  if _h : 0 ≤ i ∧ 0 ≤ j then do
    let lu ← (if 0 ≤ i - 1 ∧ 0 ≤ j - 1 then cell dist (i - 1).toNat (j - 1).toNat
      else some 987654321)
    let u ← (if 0 ≤ i - 1 then cell dist (i - 1).toNat j.toNat else some 987654321)
    let l ← (if 0 ≤ j - 1 then cell dist i.toNat (j - 1).toNat else some 987654321)
    let mm := min lu (min l u)
    let route ← (if mm = fz then Dart.setAt route i.toNat 1 else some route)
    if mm = lu then walk dist (i - 1) (j - 1) mm route
    else if mm = u then walk dist (i - 1) j mm route
    else walk dist i (j - 1) mm route
  else some route
termination_by (i + j + 2).toNat

def levenshteinDistanceRoute (l1 l2 : List T) : Option (List ℕ) := do
  let dist ← fillTable l1 l2
  let route := List.replicate (l1.length + 1) 0
  let fz ← cell dist l1.length l2.length
  walk dist l1.length l2.length fz route

/-! ### The table holds distances -/

open Edit Dart

/-- The table has `x` rows of `y` cells. -/
structure Shape (x y : ℕ) (dist : List (List ℕ)) : Prop where
  length : dist.length = x
  row : ∀ (i : ℕ) (row : List ℕ), dist[i]? = some row → row.length = y

section Table

variable {x y i j v : ℕ} {dist : List (List ℕ)}

lemma Shape.replicate (x y : ℕ) : Shape x y (List.replicate x (List.replicate y 0)) := by
  refine ⟨List.length_replicate, fun i row h => ?_⟩
  rw [List.eq_of_mem_replicate (List.mem_of_getElem? h), List.length_replicate]

/-- A write in range changes one cell. -/
lemma Shape.setCell (hd : Shape x y dist) (hi : i < x) (hj : j < y) (v : ℕ) :
    ∃ dist', setCell dist i j v = some dist' ∧ Shape x y dist' ∧
      ∀ i' j', cell dist' i' j' = if i' = i ∧ j' = j then some v else cell dist i' j' := by
  have hi' : i < dist.length := hd.length ▸ hi
  have hrow : dist[i]? = some dist[i] := List.getElem?_eq_getElem hi'
  have hj' : j < dist[i].length := (hd.row i _ hrow).symm ▸ hj
  refine ⟨dist.set i (dist[i].set j v), ?_, ⟨?_, fun k row hk => ?_⟩, fun i' j' => ?_⟩
  · rw [Distance.setCell, hrow, Option.bind_eq_bind, Option.bind_some, setAt, if_pos hj']
    rfl
  · rw [List.length_set, hd.length]
  · rw [List.getElem?_set] at hk
    split_ifs at hk with hki
    · obtain rfl := Option.some.inj hk
      rw [List.length_set, hd.row i _ hrow]
    · exact hd.row k row hk
  · rw [cell, cell, List.getElem?_set]
    by_cases hii : i = i'
    · subst hii
      rw [if_pos rfl, if_pos hi', Option.bind_some, hrow, Option.bind_some, List.getElem?_set]
      by_cases hjj : j = j'
      · rw [if_pos hjj, if_pos hj', if_pos ⟨rfl, hjj.symm⟩]
      · rw [if_neg hjj, if_neg fun h => hjj h.2.symm]
    · rw [if_neg hii, if_neg fun h => hii h.1.symm]

end Table

variable {l1 l2 : List T} {dist : List (List ℕ)} {i j k m : ℕ}

/-- The cell holds the distance of the first `i` elements of `l1` from the first `j` of `l2`. -/
def HoldsCell (l1 l2 : List T) (dist : List (List ℕ)) (i j : ℕ) : Prop :=
  ∃ d, cell dist i j = some d ∧ IsDistance (l1.take i).reverse (l2.take j).reverse d

/-- The table is filled up to the column `m`, and in the next column up to the row `k`. -/
structure Filled (l1 l2 : List T) (m k : ℕ) (dist : List (List ℕ)) : Prop where
  shape : Shape (l1.length + 1) (l2.length + 1) dist
  cells : ∀ i ≤ l1.length, ∀ j ≤ l2.length, i = 0 ∨ j ≤ m ∨ (j = m + 1 ∧ i ≤ k) →
    HoldsCell l1 l2 dist i j

lemma holdsCell_left (hj : j ≤ l2.length) (h : cell dist 0 j = some j) :
    HoldsCell l1 l2 dist 0 j := by
  refine ⟨j, h, ?_⟩
  have hnil := IsDistance.nil_left (l2.take j).reverse
  rwa [List.length_reverse, List.length_take, Nat.min_eq_left hj] at hnil

lemma holdsCell_top (hi : i ≤ l1.length) (h : cell dist i 0 = some i) :
    HoldsCell l1 l2 dist i 0 := by
  refine ⟨i, h, ?_⟩
  have hnil := IsDistance.nil_right (l1.take i).reverse
  rwa [List.length_reverse, List.length_take, Nat.min_eq_left hi] at hnil

lemma borders_spec (l1 l2 : List T) :
    ∃ dist, borders l1 l2 = some dist ∧ Filled l1 l2 0 0 dist := by
  obtain ⟨dist, hdist, hshape, hcolumn⟩ := foldlM_range
    (fun m dist => Shape (l1.length + 1) (l2.length + 1) dist ∧ ∀ i < m, cell dist i 0 = some i)
    (f := fun dist i => setCell dist i 0 i) (n := l1.length + 1)
    ⟨Shape.replicate _ _, fun _ h => absurd h (Nat.not_lt_zero _)⟩ (by
      rintro m hm dist ⟨hshape, hcolumn⟩
      obtain ⟨dist', hset, hshape', hcells⟩ := hshape.setCell hm (Nat.succ_pos _) m
      refine ⟨dist', hset, hshape', fun i hi => ?_⟩
      rw [hcells]
      split_ifs with h
      · rw [h.1]
      · exact hcolumn i (by omega))
  obtain ⟨dist', hdist', hshape', hcolumn', hrow⟩ := foldlM_range
    (fun m dist => Shape (l1.length + 1) (l2.length + 1) dist ∧
      (∀ i < l1.length + 1, cell dist i 0 = some i) ∧ ∀ j < m, cell dist 0 j = some j)
    (f := fun dist j => setCell dist 0 j j) (n := l2.length + 1)
    ⟨hshape, hcolumn, fun _ h => absurd h (Nat.not_lt_zero _)⟩ (by
      rintro m hm dist ⟨hshape, hcolumn, hrow⟩
      obtain ⟨dist', hset, hshape', hcells⟩ := hshape.setCell (Nat.succ_pos _) hm m
      refine ⟨dist', hset, hshape', fun i hi => ?_, fun j hj => ?_⟩
      · rw [hcells]
        split_ifs with h
        · rw [h.1, ← h.2]
        · exact hcolumn i hi
      · rw [hcells]
        split_ifs with h
        · rw [h.2]
        · exact hrow j (by omega))
  refine ⟨dist', ?_, hshape', fun i hi j hj h => ?_⟩
  · rw [borders, hdist]
    exact hdist'
  · by_cases hi0 : i = 0
    · subst hi0
      exact holdsCell_left hj (hrow j (by omega))
    · obtain rfl : j = 0 := by omega
      exact holdsCell_top hi (hcolumn' i (by omega))

/-- One cell is filled from its neighbours. -/
lemma fillCell_spec (hk : k < l1.length) (hm : m < l2.length) (h : Filled l1 l2 m k dist) :
    ∃ dist', fillCell l1 l2 dist (k + 1) (m + 1) = some dist' ∧ Filled l1 l2 m (k + 1) dist' := by
  obtain ⟨lu, hlu, hr⟩ := h.cells k (by omega) m (by omega) (by omega)
  obtain ⟨l, hl, hq⟩ := h.cells (k + 1) (by omega) m (by omega) (by omega)
  obtain ⟨u, hu, hp⟩ := h.cells k (by omega) (m + 1) (by omega) (by omega)
  have hx : l1[k + 1 - 1]? = some l1[k] := List.getElem?_eq_getElem hk
  have hy : l2[m + 1 - 1]? = some l2[m] := List.getElem?_eq_getElem hm
  -- the value that is written is the distance, whether the elements are equal or not
  have hcell : ∃ d, fillCell l1 l2 dist (k + 1) (m + 1) = setCell dist (k + 1) (m + 1) d ∧
      IsDistance (l1.take (k + 1)).reverse (l2.take (m + 1)).reverse d := by
    rw [fillCell, hx, hy]
    simp only [Nat.add_sub_cancel, hlu, hl, hu, Option.bind_eq_bind, Option.bind_some]
    rw [reverse_take_succ hk] at hq
    rw [reverse_take_succ hm] at hp
    rw [reverse_take_succ hk, reverse_take_succ hm]
    split_ifs with hxy
    · exact ⟨lu, rfl, hr.keep hxy⟩
    · refine ⟨_, rfl, ?_⟩
      have hcons := IsDistance.cons hp hq hr
      rw [if_neg hxy] at hcons
      convert hcons using 1
      omega
  obtain ⟨d, hfill, hd⟩ := hcell
  obtain ⟨dist', hset, hshape, hcells⟩ :=
    h.shape.setCell (Nat.succ_lt_succ hk) (Nat.succ_lt_succ hm) d
  refine ⟨dist', hfill.trans hset, hshape, fun i hi j hj hij => ?_⟩
  rw [HoldsCell, hcells]
  split_ifs with heq
  · obtain ⟨rfl, rfl⟩ := heq
    exact ⟨d, rfl, hd⟩
  · exact h.cells i hi j hj (by omega)

lemma fillColumn_spec (hm : m < l2.length) (h : Filled l1 l2 m 0 dist) :
    ∃ dist', fillColumn l1 l2 dist (m + 1) = some dist' ∧ Filled l1 l2 (m + 1) 0 dist' := by
  obtain ⟨dist', hdist', hfilled⟩ := foldlM_range (fun k dist => Filled l1 l2 m k dist)
    (f := fun dist i => fillCell l1 l2 dist (i + 1) (m + 1)) (n := l1.length) h
    (fun k hk dist hdist => fillCell_spec hk hm hdist)
  exact ⟨dist', hdist', hfilled.shape, fun i hi j hj hij =>
    hfilled.cells i hi j hj (by omega)⟩

/-- Every cell of the table holds a distance. -/
lemma fillTable_spec (l1 l2 : List T) :
    ∃ dist, fillTable l1 l2 = some dist ∧
      ∀ i ≤ l1.length, ∀ j ≤ l2.length, HoldsCell l1 l2 dist i j := by
  obtain ⟨dist, hdist, hborders⟩ := borders_spec l1 l2
  obtain ⟨dist', hdist', hfilled⟩ := foldlM_range (fun m dist => Filled l1 l2 m 0 dist)
    (f := fun dist j => fillColumn l1 l2 dist (j + 1)) (n := l2.length) hborders
    (fun m hm dist hdist => fillColumn_spec hm hdist)
  refine ⟨dist', ?_, fun i hi j hj => hfilled.cells i hi j hj (.inr (.inl hj))⟩
  rw [fillTable, hdist]
  exact hdist'

/-! ### The walk follows an alignment -/

lemma walk_neg {i j : ℤ} (h : i < 0 ∨ j < 0) (fz : ℕ) (route : List ℕ) :
    walk dist i j fz route = some route := by
  rw [walk, dif_neg (by omega)]

/-- One turn of the loop, when the three neighbours have been read. -/
lemma walk_turn {i j : ℤ} {lu u l fz : ℕ} {route : List ℕ} (hi : 0 ≤ i) (hj : 0 ≤ j)
    (hlu : (if 0 ≤ i - 1 ∧ 0 ≤ j - 1 then cell dist (i - 1).toNat (j - 1).toNat
      else some 987654321) = some lu)
    (hu : (if 0 ≤ i - 1 then cell dist (i - 1).toNat j.toNat else some 987654321) = some u)
    (hl : (if 0 ≤ j - 1 then cell dist i.toNat (j - 1).toNat else some 987654321) = some l) :
    walk dist i j fz route =
      (if min lu (min l u) = fz then setAt route i.toNat 1 else some route).bind fun route =>
        if min lu (min l u) = lu then walk dist (i - 1) (j - 1) (min lu (min l u)) route
        else if min lu (min l u) = u then walk dist (i - 1) j (min lu (min l u)) route
        else walk dist i (j - 1) (min lu (min l u)) route := by
  rw [walk, dif_pos ⟨hi, hj⟩, hlu, hu, hl]
  rfl

lemma walk_origin (route : List ℕ) : walk dist 0 0 0 route = some route := by
  rw [walk_turn le_rfl le_rfl rfl rfl rfl]
  exact walk_neg (.inl (by decide)) _ _

/-- In the first row the walk goes to the left, and no entry changes. The number that stands for a
missing neighbour ends the walk early when the row is longer than that. -/
lemma walk_left (hrow : ∀ j ≤ m, cell dist 0 j = some j) (route : List ℕ) :
    walk dist 0 m m route = some route := by
  induction m with
  | zero => exact walk_origin route
  | succ m ih =>
    have hl : cell dist 0 m = some m := hrow m (Nat.le_succ m)
    rw [walk_turn le_rfl (Int.natCast_nonneg _) (if_neg fun h => absurd h.1 (by decide))
      (if_neg (by decide)) (by simpa using hl)]
    rw [if_neg (by omega), Option.bind_some]
    by_cases hm : m < 987654321
    · have hcast : ((m + 1 : ℕ) : ℤ) - 1 = m := by omega
      have hmin : min 987654321 (min m 987654321) = m := by omega
      rw [hmin, if_neg (by omega), if_neg (by omega), hcast]
      exact ih fun j hj => hrow j (Nat.le_succ_of_le hj)
    · rw [if_pos (by omega)]
      exact walk_neg (.inl (by decide)) _ _

/-- In the first column the walk goes up, and no entry changes. -/
lemma walk_up (hcolumn : ∀ i ≤ m, cell dist i 0 = some i) (route : List ℕ) :
    walk dist m 0 m route = some route := by
  induction m with
  | zero => exact walk_origin route
  | succ m ih =>
    have hu : cell dist m 0 = some m := hcolumn m (Nat.le_succ m)
    rw [walk_turn (Int.natCast_nonneg _) le_rfl (if_neg fun h => absurd h.2 (by decide))
      (by simpa using hu) (if_neg (by decide))]
    rw [if_neg (by omega), Option.bind_some]
    by_cases hm : m < 987654321
    · have hcast : ((m + 1 : ℕ) : ℤ) - 1 = m := by omega
      have hmin : min 987654321 (min 987654321 m) = m := by omega
      rw [hmin, if_neg (by omega), if_pos rfl, hcast]
      exact ih fun j hj => hcolumn j (Nat.le_succ_of_le hj)
    · rw [if_pos (by omega)]
      exact walk_neg (.inr (by decide)) _ _

/-- A turn at a cell with three neighbours. -/
lemma walk_inner {lu u l fz : ℕ} {route : List ℕ} (hlu : cell dist i j = some lu)
    (hu : cell dist i (j + 1) = some u) (hl : cell dist (i + 1) j = some l) :
    walk dist (i + 1 : ℕ) (j + 1 : ℕ) fz route =
      (if min lu (min l u) = fz then setAt route (i + 1) 1 else some route).bind fun route =>
        if min lu (min l u) = lu then walk dist i j (min lu (min l u)) route
        else if min lu (min l u) = u then walk dist i (j + 1 : ℕ) (min lu (min l u)) route
        else walk dist (i + 1 : ℕ) j (min lu (min l u)) route := by
  have hi : ((i + 1 : ℕ) : ℤ) - 1 = i := by omega
  have hj : ((j + 1 : ℕ) : ℤ) - 1 = j := by omega
  rw [walk_turn (Int.natCast_nonneg _) (Int.natCast_nonneg _) (by simpa [hi, hj] using hlu)
    (by simpa [hi] using hu) (by simpa [hj] using hl), hi, hj]
  rfl

/-- The entries of the route for an alignment. -/
def routeOf {a b : List T} (al : Alignment a b) : List ℕ := 0 :: al.marks.map Bool.toNat

/-- One more column, which may write one more entry. -/
lemma exists_concat {a b a' b' : List T} (al : Alignment a b) (c : Column T)
    (ha : a' = a ++ c.source.toList) (hb : b' = b ++ c.target.toList) :
    ∃ al' : Alignment a' b', al'.cost = al.cost + c.cost ∧
      routeOf al' = routeOf al ++ c.mark.toList.map Bool.toNat := by
  subst ha hb
  refine ⟨al.concat c, al.cost_concat c, ?_⟩
  rw [routeOf, routeOf, Alignment.marks_concat, List.map_append, List.cons_append]

lemma cell_left (hj : j ≤ l2.length) (h : HoldsCell l1 l2 dist 0 j) : cell dist 0 j = some j := by
  obtain ⟨d, hd, hdist⟩ := h
  have hnil := IsDistance.nil_left (l2.take j).reverse
  rw [List.length_reverse, List.length_take, Nat.min_eq_left hj] at hnil
  rw [hd, hdist.eq hnil]

lemma cell_top (hi : i ≤ l1.length) (h : HoldsCell l1 l2 dist i 0) : cell dist i 0 = some i := by
  obtain ⟨d, hd, hdist⟩ := h
  have hnil := IsDistance.nil_right (l1.take i).reverse
  rw [List.length_reverse, List.length_take, Nat.min_eq_left hi] at hnil
  rw [hd, hdist.eq hnil]

/-- The entry in front of those that are written already. -/
lemma replicate_append (tail : List ℕ) :
    List.replicate (i + 1 + 1) 0 ++ tail = List.replicate (i + 1) 0 ++ 0 :: tail := by
  rw [List.replicate_succ' (n := i + 1), List.append_assoc]
  rfl

lemma setAt_replicate (tail : List ℕ) :
    setAt (List.replicate (i + 1 + 1) 0 ++ tail) (i + 1) 1 =
      some (List.replicate (i + 1) 0 ++ 1 :: tail) := by
  have h := setAt_append (List.replicate (i + 1) 0) tail 0 1
  rwa [List.length_replicate, ← replicate_append] at h

/-- The value of a cell is one of its neighbours': the one to the upper left, when the elements are
equal and it is the least of them, or else one less than the value. -/
lemma least_neighbour {a b : List T} {x y : T} {d lu u l : ℕ}
    (hd : IsDistance (x :: a) (y :: b) d) (hr : IsDistance a b lu)
    (hp : IsDistance a (y :: b) u) (hq : IsDistance (x :: a) b l) :
    (min lu (min l u) = d ∧ (x == y) = true ∧ lu = d) ∨
      (min lu (min l u) + 1 = d ∧ ((x == y) = true → min lu (min l u) ≠ lu)) := by
  have hl := IsDistance.le_cons_left hq hr
  have hu := IsDistance.le_cons_right hp hr
  by_cases hxy : (x == y) = true
  · have hlu := (hr.keep hxy).eq hd
    by_cases hmin : min lu (min l u) = lu
    · exact .inl ⟨hmin.trans hlu, hxy, hlu⟩
    · exact .inr ⟨by omega, fun _ => hmin⟩
  · have hmin := (IsDistance.cons hp hq hr).eq hd
    rw [if_neg hxy] at hmin
    exact .inr ⟨by omega, fun h => absurd h hxy⟩

/-- From any cell, the walk writes the entries of an alignment of the elements in front of it. -/
lemma walk_spec (hdist : ∀ i ≤ l1.length, ∀ j ≤ l2.length, HoldsCell l1 l2 dist i j) {i j d : ℕ}
    (hi : i ≤ l1.length) (hj : j ≤ l2.length) (hd : cell dist i j = some d) (tail : List ℕ) :
    ∃ al : Alignment (l1.take i) (l2.take j), al.cost = d ∧
      walk dist i j d (List.replicate (i + 1) 0 ++ tail) = some (routeOf al ++ tail) := by
  induction hn : i + j using Nat.strong_induction_on generalizing i j d tail with
  | _ n ih =>
    rcases i with _ | i
    · have hrow : ∀ k ≤ j, cell dist 0 k = some k := fun k hk =>
        cell_left (hk.trans hj) (hdist 0 (Nat.zero_le _) k (hk.trans hj))
      obtain rfl : j = d := Option.some.inj ((hrow j le_rfl).symm.trans hd)
      rw [List.take_zero]
      refine ⟨.insertAll (l2.take j), ?_, (walk_left hrow _).trans ?_⟩
      · rw [Alignment.cost_insertAll, List.length_take, Nat.min_eq_left hj]
      · rw [routeOf, Alignment.marks_insertAll]
        rfl
    rcases j with _ | j
    · have hcolumn : ∀ k ≤ i + 1, cell dist k 0 = some k := fun k hk =>
        cell_top (hk.trans hi) (hdist k (hk.trans hi) 0 (Nat.zero_le _))
      obtain rfl : i + 1 = d := Option.some.inj ((hcolumn (i + 1) le_rfl).symm.trans hd)
      have hlen : (l1.take (i + 1)).length = i + 1 := by
        rw [List.length_take, Nat.min_eq_left hi]
      rw [List.take_zero]
      refine ⟨.deleteAll (l1.take (i + 1)), ?_, (walk_up hcolumn _).trans ?_⟩
      · rw [Alignment.cost_deleteAll, hlen]
      · rw [routeOf, Alignment.marks_deleteAll, hlen, List.map_replicate]
        rfl
    obtain ⟨lu, hlu, hr⟩ := hdist i (by omega) j (by omega)
    obtain ⟨u, hu, hp⟩ := hdist i (by omega) (j + 1) hj
    obtain ⟨l, hl, hq⟩ := hdist (i + 1) hi j (by omega)
    obtain ⟨d', hd', hdist'⟩ := hdist (i + 1) hi (j + 1) hj
    obtain rfl : d' = d := Option.some.inj (hd'.symm.trans hd)
    have htake1 : l1.take (i + 1) = l1.take i ++ [l1[i]] := List.take_succ_eq_append_getElem hi
    have htake2 : l2.take (j + 1) = l2.take j ++ [l2[j]] := List.take_succ_eq_append_getElem hj
    rw [reverse_take_succ hi] at hq hdist'
    rw [reverse_take_succ hj] at hp hdist'
    rw [walk_inner hlu hu hl]
    rcases least_neighbour hdist' hr hp hq with ⟨hmin, hxy, rfl⟩ | ⟨rfl, hxy⟩
    · -- equal elements, above each other
      obtain ⟨al, hcost, hwalk⟩ := ih (i + j) (by omega) (by omega) (by omega) hlu (1 :: tail) rfl
      obtain ⟨al', hcost', hroute⟩ := exists_concat al (.pair l1[i] l2[j]) htake1 htake2
      refine ⟨al', ?_, ?_⟩
      · rw [hcost', hcost, Column.cost, if_pos hxy, Nat.add_zero]
      · rw [hmin, if_pos rfl, setAt_replicate, Option.bind_some, if_pos rfl, hwalk, hroute,
          Column.mark, hxy]
        simp
    rw [if_neg (by omega), Option.bind_some]
    split_ifs with hminlu hminu
    · -- the elements stand above each other, but are not equal
      have hne : (l1[i] == l2[j]) = false := by
        by_contra h
        exact hxy (by simpa using h) hminlu
      obtain ⟨al, hcost, hwalk⟩ := ih (i + j) (by omega) (by omega) (by omega) hlu (0 :: tail) rfl
      obtain ⟨al', hcost', hroute⟩ := exists_concat al (.pair l1[i] l2[j]) htake1 htake2
      refine ⟨al', ?_, ?_⟩
      · rw [hcost', hcost, Column.cost, hne, hminlu]
        rfl
      · rw [hminlu, replicate_append, hwalk, hroute, Column.mark, hne]
        simp
    · -- the element of the first list stands alone
      obtain ⟨al, hcost, hwalk⟩ := ih (i + (j + 1)) (by omega) (by omega) hj hu (0 :: tail) rfl
      obtain ⟨al', hcost', hroute⟩ := exists_concat al (.delete l1[i]) htake1
        (List.append_nil (l2.take (j + 1))).symm
      refine ⟨al', ?_, ?_⟩
      · rw [hcost', hcost, Column.cost, hminu]
      · rw [hminu, replicate_append, hwalk, hroute, Column.mark]
        simp
    · -- the element of the second list stands alone
      have hminl : min lu (min l u) = l := by omega
      obtain ⟨al, hcost, hwalk⟩ := ih (i + 1 + j) (by omega) hi (by omega) hl tail rfl
      obtain ⟨al', hcost', hroute⟩ := exists_concat al (.insert l2[j])
        (List.append_nil (l1.take (i + 1))).symm htake2
      refine ⟨al', ?_, ?_⟩
      · rw [hcost', hcost, Column.cost, hminl]
      · rw [hminl, hwalk, hroute, Column.mark]
        simp

/-- The route follows a cheapest alignment: behind the first entry, each entry tells whether the
element of the first list stands over an equal one. -/
theorem levenshteinDistanceRoute_spec (l1 l2 : List T) :
    ∃ route, levenshteinDistanceRoute l1 l2 = some route ∧ route.length = l1.length + 1 ∧
      route[0]? = some 0 ∧ ∃ al : Alignment l1 l2, al.Optimal ∧
        ∀ i, 1 ≤ i → i ≤ l1.length → (route[i]? = some 1 ↔ al.Matches (i - 1)) := by
  obtain ⟨dist, htable, hdist⟩ := fillTable_spec l1 l2
  obtain ⟨fz, hfz, hleast⟩ := hdist l1.length le_rfl l2.length le_rfl
  have hspec := walk_spec hdist le_rfl le_rfl hfz []
  rw [List.take_length, List.take_length] at hspec
  rw [List.take_length, List.take_length, IsDistance.reverse_iff] at hleast
  obtain ⟨al, rfl, hwalk⟩ := hspec
  rw [List.append_nil, List.append_nil] at hwalk
  refine ⟨routeOf al, ?_, ?_, rfl, al, al.optimal_of_isDistance hleast, fun i hi hi' => ?_⟩
  · rw [levenshteinDistanceRoute, htable, Option.bind_eq_bind, Option.bind_some, hfz]
    exact hwalk
  · rw [routeOf, List.length_cons, List.length_map, al.length_marks]
  · obtain ⟨i, rfl⟩ := Nat.exists_eq_add_of_le' hi
    rw [al.matches_iff, routeOf, List.getElem?_cons_succ, List.getElem?_map, Nat.add_sub_cancel]
    constructor
    · intro h
      obtain ⟨m, hm, hone⟩ := Option.map_eq_some_iff.mp h
      rw [hm, Bool.toNat_eq_one.mp hone]
    · intro h
      rw [h]
      rfl

end Distance

end Violet
