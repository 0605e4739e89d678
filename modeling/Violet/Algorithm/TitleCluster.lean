import Violet.Algorithm.DisjointSet
import Violet.Algorithm.Distance
import Violet.Dart.Map
import Violet.Dart.Sort
import Violet.Dart.Text

/-!
# Clusters of titles

`HitomiTitleCluster.doClustering` asks a KD-tree for the titles next to each title and joins all
titles of an answer. The tree comes from a package; it may put the list of points in another order.
-/

namespace Violet

namespace HitomiTitleCluster

open Dart

structure Idata where
  title : Units
  index : ℕ
  deriving DecidableEq

/-- A KD-tree: the list of points behind its construction, and the nodes that are nearest to a
point, with their distances, of which there are so many at most and none is further away than the
last argument. -/
structure KDTree where
  points : List Idata
  nearest : Idata → ℕ → ℕ → List (Idata × ℕ)

/-- The tree keeps the points that it is made of, and every answer has some of them. -/
structure KDTree.Answers (tree : KDTree) (points : List Idata) : Prop where
  perm : tree.points.Perm points
  nonempty : ∀ p ∈ points, ∀ maxnode > 0, tree.nearest p maxnode 8 ≠ []
  node : ∀ p ∈ points, ∀ maxnode > 0, ∀ e ∈ tree.nearest p maxnode 8, e.1 ∈ points

/-- `sort` of numbers. -/
def sorted (l : List ℕ) : List ℕ := l.mergeSort fun a b => decide (a ≤ b)

def ctitles (titles : List Units) : List Idata := titles.zipIdx.map fun e => ⟨e.1, e.2⟩

def maxnode (titles : List Units) : ℕ := if titles.length > 100 then 100 else titles.length

/-- The indices of the answer for a title. -/
def near (tree : KDTree) (titles : List Units) (element : Idata) : List ℕ :=
  sorted ((tree.nearest element (maxnode titles) 8).map fun e => e.1.index)

/-- `x.join(',')` -/
def joinText (x : List ℕ) : Units := Units.join (units ",") (x.map Units.ofNat)

/-- The elements of the first one of equal lists are joined. -/
def joinGroup (fuel : ℕ) (ds : List ℕ) (value : List (List ℕ)) : Option (List ℕ) := do
  let group ← value[0]?
  group.foldlM (fun ds element => do
    let first ← group[0]?
    if first = element then some ds else DisjointSet.union fuel ds first element) ds

/-- An index is collected under its representative. -/
def collect (fuel : ℕ) (s : Map ℕ (List ℕ) × List ℕ) (i : ℕ) :
    Option (Map ℕ (List ℕ) × List ℕ) := do
  let (v, ds) ← DisjointSet.find fuel s.2 i
  let join := if s.1.containsKey v then s.1 else s.1.set v []
  let l ← join.get? v
  some (join.set v (l ++ [i]), ds)

def doClustering (fuel : ℕ) (kdtree : List Idata → KDTree) (titles : List Units) :
    Option (List (List ℕ)) := do
  let tree := kdtree (ctitles titles)
  let groups := tree.points.map (near tree titles)
  let gg := Map.groupBy joinText groups
  let ds ← gg.foldlM (fun ds e => joinGroup fuel ds e.2) (DisjointSet.ofSize titles.length)
  let (join, _) ← (List.range titles.length).foldlM (collect fuel) ([], ds)
  some (join.map Prod.snd)

/-- Two indices occur together in the answer for some title. -/
def Together (tree : KDTree) (titles : List Units) (i j : ℕ) : Prop :=
  ∃ p ∈ ctitles titles, ∃ a ∈ tree.nearest p (maxnode titles) 8,
    ∃ b ∈ tree.nearest p (maxnode titles) 8, a.1.index = i ∧ b.1.index = j

/-- The groups are the components: each index is in one group, the groups are in ascending order,
and two indices are in the same group exactly when answers join them. -/
structure Clusters (tree : KDTree) (titles : List Units) (result : List (List ℕ)) : Prop where
  perm : result.flatten.Perm (List.range titles.length)
  nonempty : ∀ g ∈ result, g ≠ []
  ascending : ∀ g ∈ result, g.Pairwise (· < ·)
  component : ∀ g ∈ result, ∀ i ∈ g, ∀ j < titles.length,
    j ∈ g ↔ Relation.EqvGen (Together tree titles) i j

/-! ### Equal lists -/

lemma mem_sorted {l : List ℕ} {i : ℕ} : i ∈ sorted l ↔ i ∈ l :=
  (List.mergeSort_perm l _).mem_iff

lemma ofNat_injective {m n : ℕ} (h : Units.ofNat m = Units.ofNat n) : m = n := by
  rw [← Units.value_ofNat m, h, Units.value_ofNat]

/-- The text of a list tells it apart from other lists. -/
lemma eq_of_joinText {l l' : List ℕ} (hl : l ≠ []) (hl' : l' ≠ [])
    (h : joinText l = joinText l') : l = l' := by
  have hcomma : units "," = [44] := by decide
  have hsplit : ∀ {l : List ℕ}, l ≠ [] → (joinText l).splitOn 44 = l.map Units.ofNat := by
    intro l hl
    rw [joinText, hcomma]
    refine List.splitOn_intercalate 44 (fun part hpart hmem => ?_) (by simpa using hl)
    obtain ⟨n, -, rfl⟩ := List.mem_map.mp hpart
    exact absurd (Units.isDigit_of_mem_ofNat hmem) (by decide)
  have hmap : l.map Units.ofNat = l'.map Units.ofNat := by
    rw [← hsplit hl, h, hsplit hl']
  exact List.map_injective_iff.mpr (fun _ _ => ofNat_injective) hmap

/-! ### The groups that are joined -/

open DisjointSet (Valid)
open Links (Connected)

variable {tree : KDTree} {titles : List Units} {links : List (ℕ × ℕ)} {ds : List ℕ}
  {i j n fuel : ℕ}

/-- The links of a group: its first element with the others. -/
def star : List ℕ → List (ℕ × ℕ)
  | [] => []
  | first :: rest => (rest.filter (first ≠ ·)).map fun e => (first, e)

lemma connected_star {g : List ℕ} (hi : i ∈ g) (hj : j ∈ g) : Connected (star g) i j := by
  cases g with
  | nil => exact absurd hi List.not_mem_nil
  | cons first rest =>
    have hfirst : ∀ {e}, e ∈ first :: rest → Connected (star (first :: rest)) first e := by
      intro e he
      by_cases heq : first = e
      · exact heq ▸ .refl _ _
      · have hrest := (List.mem_cons.mp he).resolve_left (Ne.symm heq)
        refine .of_mem (List.mem_map.mpr ⟨e, List.mem_filter.mpr ⟨hrest, ?_⟩, rfl⟩)
        simpa using heq
    exact (hfirst hi).symm.trans (hfirst hj)

lemma mem_of_mem_star {g : List ℕ} (h : (i, j) ∈ star g) : i ∈ g ∧ j ∈ g := by
  cases g with
  | nil => exact absurd h List.not_mem_nil
  | cons first rest =>
    obtain ⟨e, he, heq⟩ := List.mem_map.mp h
    obtain ⟨rfl, rfl⟩ := Prod.mk.inj heq
    exact ⟨List.mem_cons_self, List.mem_cons_of_mem _ (List.mem_of_mem_filter he)⟩

/-- The loop over the elements of a group links them to the first one. -/
lemma joinGroup_spec {g : List ℕ} (h : Valid n links ds) (hrange : ∀ i ∈ g, i < n)
    (hfuel : n ≤ fuel) (rest : List (List ℕ)) :
    ∃ ds', joinGroup fuel ds (g :: rest) = some ds' ∧ Valid n (links ++ star g) ds' := by
  cases g with
  | nil => exact ⟨ds, rfl, by rwa [star, List.append_nil]⟩
  | cons first others =>
    have hfirst : first < n := hrange first List.mem_cons_self
    have hskip : (first :: others).filter (first ≠ ·) = others.filter (first ≠ ·) := by simp
    rw [star, ← hskip]
    refine Dart.foldlM_inv (fun done ds =>
      Valid n (links ++ (done.filter (first ≠ ·)).map fun e => (first, e)) ds)
      (by simpa using h) fun done e he ds h => ?_
    have hunit : ((first :: others)[0]? : Option ℕ) = some first := rfl
    rw [hunit, Option.bind_eq_bind, Option.bind_some]
    by_cases heq : first = e
    · refine ⟨ds, if_pos heq, ?_⟩
      simpa [heq] using h
    · obtain ⟨ds', hunion, h'⟩ := h.union hfirst (hrange e he) hfuel
      refine ⟨ds', (if_neg heq).trans hunion, ?_⟩
      simpa [heq] using h'

/-- The links of all groups. -/
def unions (gg : Map Units (List (List ℕ))) : List (ℕ × ℕ) :=
  gg.flatMap fun e => star (e.2.headD [])

lemma index_lt {p : Idata} (hp : p ∈ ctitles titles) : p.index < titles.length := by
  obtain ⟨e, he, rfl⟩ := List.mem_map.mp hp
  have h := List.snd_lt_of_mem_zipIdx he
  omega

/-- The answers, grouped by their texts. -/
abbrev groupsOf (tree : KDTree) (titles : List Units) : Map Units (List (List ℕ)) :=
  Map.groupBy joinText (tree.points.map (near tree titles))

lemma mem_near {p : Idata} :
    i ∈ near tree titles p ↔ ∃ a ∈ tree.nearest p (maxnode titles) 8, a.1.index = i := by
  rw [near, mem_sorted, List.mem_map]

lemma maxnode_pos {p : Idata} (hp : p ∈ ctitles titles) : 0 < maxnode titles := by
  have hlt := index_lt hp
  rw [maxnode]
  split_ifs <;> omega

section

variable (htree : tree.Answers (ctitles titles))
include htree

lemma near_ne_nil {p : Idata} (hp : p ∈ ctitles titles) : near tree titles p ≠ [] := by
  obtain ⟨a, ha⟩ := List.exists_mem_of_ne_nil _ (htree.nonempty p hp _ (maxnode_pos hp))
  exact List.ne_nil_of_mem (mem_near.mpr ⟨a, ha, rfl⟩)

/-- A group of equal lists is one answer. -/
lemma exists_near {e : Units × List (List ℕ)} (he : e ∈ groupsOf tree titles) :
    ∃ p ∈ ctitles titles, ∃ rest, e.2 = near tree titles p :: rest := by
  obtain ⟨hne, hfilter⟩ := Map.mem_groupBy he
  obtain ⟨g, rest, hg⟩ := List.exists_cons_of_ne_nil hne
  have hmem : g ∈ e.2 := hg ▸ List.mem_cons_self
  rw [hfilter] at hmem
  obtain ⟨p, hp, rfl⟩ := List.mem_map.mp (List.mem_of_mem_filter hmem)
  exact ⟨p, htree.perm.mem_iff.mp hp, rest, hg⟩

/-- Each answer is joined, as one of the lists that equal it. -/
lemma exists_group {p : Idata} (hp : p ∈ ctitles titles) :
    ∃ e ∈ groupsOf tree titles, ∃ rest, e.2 = near tree titles p :: rest := by
  have hgroup := List.mem_map_of_mem (f := near tree titles) (htree.perm.mem_iff.mpr hp)
  have he := Map.exists_mem_groupBy joinText hgroup
  refine ⟨_, he, ?_⟩
  obtain ⟨g, rest, hg⟩ := List.exists_cons_of_ne_nil (Map.mem_groupBy he).1
  obtain ⟨hmem, hkey⟩ := List.mem_filter.mp (hg ▸ List.mem_cons_self)
  obtain ⟨q, hq, rfl⟩ := List.mem_map.mp hmem
  have heq := eq_of_joinText (near_ne_nil htree (htree.perm.mem_iff.mp hq)) (near_ne_nil htree hp)
    (of_decide_eq_true hkey)
  exact ⟨rest, heq ▸ hg⟩

/-- The unions connect what the answers join. -/
lemma connected_unions_iff :
    Connected (unions (groupsOf tree titles)) i j ↔
      Relation.EqvGen (Together tree titles) i j := by
  constructor
  · refine fun h => h.lift (Relation.EqvGen.is_equivalence _) fun i j hij => ?_
    obtain ⟨e, he, hstar⟩ := List.mem_flatMap.mp hij
    obtain ⟨p, hp, rest, hrest⟩ := exists_near htree he
    rw [hrest] at hstar
    obtain ⟨hi, hj⟩ := mem_of_mem_star hstar
    obtain ⟨a, ha, rfl⟩ := mem_near.mp hi
    obtain ⟨b, hb, rfl⟩ := mem_near.mp hj
    exact .rel _ _ ⟨p, hp, a, ha, b, hb, rfl, rfl⟩
  · refine Connected.of_eqvGen fun i j hij => ?_
    obtain ⟨p, hp, a, ha, b, hb, rfl, rfl⟩ := hij
    obtain ⟨e, he, rest, hrest⟩ := exists_group htree hp
    refine (connected_star (mem_near.mpr ⟨a, ha, rfl⟩) (mem_near.mpr ⟨b, hb, rfl⟩)).mono
      fun i j hij => .of_mem (List.mem_flatMap.mpr ⟨e, he, ?_⟩)
    rwa [hrest]

/-- No union fails. -/
lemma joinGroups_spec (hfuel : titles.length ≤ fuel) :
    ∃ ds, (groupsOf tree titles).foldlM (fun ds e => joinGroup fuel ds e.2)
        (DisjointSet.ofSize titles.length) = some ds ∧
      Valid titles.length (unions (groupsOf tree titles)) ds := by
  refine Dart.foldlM_inv (fun done ds => Valid titles.length (unions done) ds)
    (DisjointSet.valid_ofSize _) fun done e he ds h => ?_
  obtain ⟨p, hp, rest, hrest⟩ := exists_near htree he
  have hrange : ∀ i ∈ near tree titles p, i < titles.length := by
    intro i hi
    obtain ⟨a, ha, rfl⟩ := mem_near.mp hi
    exact index_lt (htree.node p hp _ (maxnode_pos hp) a ha)
  obtain ⟨ds', hjoin, h'⟩ := joinGroup_spec h hrange hfuel rest
  refine ⟨ds', by rw [hrest, hjoin], ?_⟩
  rw [unions, List.flatMap_append, List.flatMap_singleton, hrest]
  exact h'

end

/-! ### Collecting -/

/-- An index comes under the representative of its class. -/
lemma collect_spec {join : Map ℕ (List ℕ)} (h : Valid n links ds) (hi : i < n) (hfuel : i < fuel) :
    ∃ ds', collect fuel (join, ds) i = some (join.add (DisjointSet.rootOf ds i) i, ds') ∧
      Valid n links ds' ∧ DisjointSet.rootOf ds' = DisjointSet.rootOf ds := by
  obtain ⟨ds', hfind, h', hroot⟩ := h.find hi hfuel
  refine ⟨ds', ?_, h', hroot⟩
  rw [collect, hfind, Option.bind_eq_bind, Option.bind_some]
  rcases hget : join.get? (DisjointSet.rootOf ds i) with _ | l
  · have hcontains : join.containsKey (DisjointSet.rootOf ds i) = false := by
      rw [Map.containsKey, hget]
      rfl
    simp [hcontains, Map.add, hget, Map.set_set]
  · have hcontains : join.containsKey (DisjointSet.rootOf ds i) = true := by
      rw [Map.containsKey, hget]
      rfl
    simp [hcontains, Map.add, hget]

lemma collectAll_spec (h : Valid n links ds) (hfuel : n ≤ fuel) :
    ∃ s, (List.range n).foldlM (collect fuel) ([], ds) = some s ∧
      s.1 = Map.groupBy (DisjointSet.rootOf ds) (List.range n) := by
  obtain ⟨s, hfold, hgroup, -⟩ := Dart.foldlM_range (fun k s =>
    s.1 = Map.groupBy (DisjointSet.rootOf ds) (List.range k) ∧
      Valid n links s.2 ∧ DisjointSet.rootOf s.2 = DisjointSet.rootOf ds)
    (f := collect fuel) (n := n) (s := ([], ds)) ⟨rfl, h, rfl⟩ (by
      rintro k hk ⟨join, ds'⟩ ⟨rfl, h', hroot⟩
      obtain ⟨ds'', hcollect, h'', hroot'⟩ := collect_spec h' hk (hk.trans_le hfuel)
      refine ⟨_, hcollect, ?_, h'', hroot'.trans hroot⟩
      rw [List.range_succ, Map.groupBy_concat, hroot])
  exact ⟨s, hfold, hgroup⟩

/-- The groups of the representatives are the clusters. -/
lemma clusters_groupBy (htree : tree.Answers (ctitles titles))
    (h : Valid titles.length (unions (groupsOf tree titles)) ds) :
    Clusters tree titles
      ((Map.groupBy (DisjointSet.rootOf ds) (List.range titles.length)).map Prod.snd) := by
  refine ⟨Map.perm_flatten_groupBy _ _, ?_, ?_, ?_⟩
  · intro g hg
    obtain ⟨e, he, rfl⟩ := List.mem_map.mp hg
    exact (Map.mem_groupBy he).1
  · intro g hg
    obtain ⟨e, he, rfl⟩ := List.mem_map.mp hg
    rw [(Map.mem_groupBy he).2]
    exact List.pairwise_lt_range.filter _
  · intro g hg i hi j hj
    obtain ⟨e, he, rfl⟩ := List.mem_map.mp hg
    rw [(Map.mem_groupBy he).2, List.mem_filter, decide_eq_true_eq] at hi
    rw [(Map.mem_groupBy he).2, List.mem_filter, decide_eq_true_eq, ← hi.2,
      ← connected_unions_iff htree, ← h.represents i j]
    exact ⟨fun hmem => hmem.2.symm, fun heq => ⟨List.mem_range.mpr hj, heq.symm⟩⟩

/-- The titles are divided into the components of what the answers join. -/
theorem clusters_doClustering {kdtree : List Idata → KDTree} {titles : List Units} {fuel : ℕ}
    (htree : (kdtree (ctitles titles)).Answers (ctitles titles)) (hfuel : titles.length ≤ fuel) :
    ∃ result, doClustering fuel kdtree titles = some result ∧
      Clusters (kdtree (ctitles titles)) titles result := by
  obtain ⟨ds, hjoin, h⟩ := joinGroups_spec htree hfuel
  obtain ⟨s, hcollect, hgroup⟩ := collectAll_spec h hfuel
  refine ⟨s.1.map Prod.snd, ?_, hgroup ▸ clusters_groupBy htree h⟩
  rw [doClustering, hjoin, Option.bind_eq_bind, Option.bind_some, hcollect]
  rfl

/-- `_distance`: of the original titles, in front of `|`. -/
def distance (a b : Idata) : ℕ :=
  let original (title : Units) : Units :=
    (((title.trim).replaceAll (units "(decensored)") []).splitOn 124).headD []
  Distance.levenshteinDistance (runes (original a.title)) (runes (original b.title))

/-- A tree that goes through all points. -/
def linearTree (points : List Idata) : KDTree where
  points := points
  nearest p maxnode d :=
    (((points.map fun q => (q, distance p q)).filter fun e => e.2 ≤ d).mergeSort
      fun e e' => decide (e.2 ≤ e'.2)).take maxnode

lemma answers_linearTree {points : List Idata}
    (hself : ∀ p ∈ points, (points.filter fun q => distance p q ≤ 8) ≠ []) :
    (linearTree points).Answers points where
  perm := .refl _
  nonempty p hp n hn := by
    obtain ⟨q, hq⟩ := List.exists_mem_of_ne_nil _ (hself p hp)
    obtain ⟨hq, hd⟩ := List.mem_filter.mp hq
    have hmem : (q, distance p q) ∈
        (points.map fun q => (q, distance p q)).filter fun e => e.2 ≤ 8 :=
      List.mem_filter.mpr ⟨List.mem_map_of_mem hq, hd⟩
    rw [linearTree]
    refine fun hnil => (List.take_eq_nil_iff.mp hnil).elim (Nat.ne_of_gt hn) fun hsorted => ?_
    rw [← List.mem_mergeSort, hsorted] at hmem
    cases hmem
  node p hp n hn e he := by
    have hmem := List.mem_mergeSort.mp (List.mem_of_mem_take he)
    obtain ⟨q, hq, rfl⟩ := List.mem_map.mp (List.mem_of_mem_filter hmem)
    exact hq

lemma mem_nearest_linearTree {points : List Idata} {p q : Idata} (hq : q ∈ points)
    (hd : distance p q ≤ 8) (hn : points.length ≤ n) :
    (q, distance p q) ∈ (linearTree points).nearest p n 8 := by
  have hle : ((points.map fun q => (q, distance p q)).filter fun e => e.2 ≤ 8).length ≤ n :=
    (List.length_filter_le _ _).trans (by rwa [List.length_map])
  simp only [linearTree]
  rw [List.take_of_length_le (by rwa [List.length_mergeSort]), List.mem_mergeSort]
  exact List.mem_filter.mpr ⟨List.mem_map_of_mem hq, decide_eq_true hd⟩

def threeTitles : List Units := [units "aaaaaaaaaa", units "aaaaaaaaa", units "b"]

/-- Of three titles the first two are joined. -/
theorem clusters_doClustering_threeTitles :
    ∃ result, doClustering 3 linearTree threeTitles = some result ∧
      ∃ g ∈ result, 0 ∈ g ∧ 1 ∈ g := by
  have hself : ∀ p ∈ ctitles threeTitles,
      ((ctitles threeTitles).filter fun q => distance p q ≤ 8) ≠ [] := by decide +kernel
  have htree := answers_linearTree hself
  obtain ⟨result, hresult, hclusters⟩ : ∃ result,
      doClustering 3 linearTree threeTitles = some result ∧
        Clusters (linearTree (ctitles threeTitles)) threeTitles result :=
    clusters_doClustering htree le_rfl
  have hzero : 0 ∈ result.flatten :=
    hclusters.perm.mem_iff.mpr (List.mem_range.mpr (by decide))
  obtain ⟨g, hg, hmem⟩ := List.mem_flatten.mp hzero
  have htogether : Together (linearTree (ctitles threeTitles)) threeTitles 0 1 :=
    ⟨⟨units "aaaaaaaaaa", 0⟩, List.mem_cons_self,
      _, mem_nearest_linearTree List.mem_cons_self (by decide +kernel) (by decide),
      _, mem_nearest_linearTree (q := ⟨units "aaaaaaaaa", 1⟩)
        (List.mem_cons_of_mem _ List.mem_cons_self) (by decide +kernel) (by decide), rfl, rfl⟩
  exact ⟨result, hresult, g, hg, hmem,
    (hclusters.component g hg 0 hmem 1 (by decide)).mpr (.rel _ _ htogether)⟩

end HitomiTitleCluster

end Violet
