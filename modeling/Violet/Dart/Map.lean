import Mathlib.Data.List.Induction
import Mathlib.Data.List.Nodup
import Mathlib.Tactic.Lemma

/-!
# Maps

A Dart map keeps its keys in the order in which they were put in. A key that is set again keeps its
place.
-/

namespace Dart

/-- A map as its entries, in order. -/
abbrev Map (κ α : Type) := List (κ × α)

namespace Map

variable {κ α : Type} [DecidableEq κ]

/-- `map[key]`, where `none` is null. -/
def get? (m : Map κ α) (k : κ) : Option α := m.lookup k

def containsKey (m : Map κ α) (k : κ) : Bool := (m.get? k).isSome

/-- `map[key] = value`. -/
def set : Map κ α → κ → α → Map κ α
  | [], k, a => [(k, a)]
  | e :: m, k, a => if e.1 = k then (k, a) :: m else e :: set m k a

variable {m : Map κ α} {k k' : κ} {a : α}

@[simp] lemma get?_nil (k : κ) : get? ([] : Map κ α) k = none := rfl

lemma get?_cons (e : κ × α) (m : Map κ α) (k : κ) :
    get? (e :: m) k = if k = e.1 then some e.2 else get? m k := by
  rw [get?, List.lookup_cons, get?]
  by_cases h : k = e.1
  · simp [h]
  · rw [if_neg h, beq_false_of_ne h]

lemma get?_set (m : Map κ α) (k : κ) (a : α) (k' : κ) :
    (m.set k a).get? k' = if k' = k then some a else m.get? k' := by
  induction m with
  | nil => rw [set, get?_cons, get?_nil]
  | cons e m ih =>
    rw [set]
    by_cases he : e.1 = k
    · rw [if_pos he, get?_cons, get?_cons, he]
      by_cases hk : k' = k <;> simp [hk]
    · rw [if_neg he, get?_cons, get?_cons, ih]
      by_cases hk : k' = e.1
      · simp [hk, he]
      · simp [hk]

@[simp] lemma get?_set_self (m : Map κ α) (k : κ) (a : α) : (m.set k a).get? k = some a := by
  rw [get?_set, if_pos rfl]

lemma get?_set_ne (m : Map κ α) (a : α) (h : k' ≠ k) : (m.set k a).get? k' = m.get? k' := by
  rw [get?_set, if_neg h]

/-! ### Keys -/

def keys (m : Map κ α) : List κ := m.map Prod.fst

lemma get?_eq_none_iff : m.get? k = none ↔ k ∉ m.keys := by
  induction m with
  | nil => simp [keys]
  | cons e m ih =>
    rw [get?_cons]
    by_cases hk : k = e.1
    · simp [keys, hk]
    · rw [if_neg hk, ih]
      simp [keys, hk]

lemma containsKey_eq_false_iff : m.containsKey k = false ↔ k ∉ m.keys := by
  rw [containsKey, Option.isSome_eq_false_iff, Option.isNone_iff_eq_none, get?_eq_none_iff]

/-- A key that is not there yet comes last. -/
lemma set_of_notMem (h : k ∉ m.keys) (a : α) : m.set k a = m ++ [(k, a)] := by
  induction m with
  | nil => rfl
  | cons e m ih =>
    have hne : e.1 ≠ k := fun heq => h (heq ▸ List.mem_cons_self)
    rw [set, if_neg hne, ih fun hmem => h (List.mem_cons_of_mem e.1 hmem)]
    rfl

lemma mem_keys_set : k' ∈ (m.set k a).keys ↔ k' = k ∨ k' ∈ m.keys := by
  induction m with
  | nil => exact List.mem_singleton.trans (by simp [keys])
  | cons e m ih =>
    rw [set]
    by_cases he : e.1 = k
    · rw [if_pos he]
      simp [keys, he]
    · rw [if_neg he]
      simp only [keys, List.map_cons, List.mem_cons] at ih ⊢
      rw [ih]
      exact or_left_comm

lemma nodup_set (h : m.keys.Nodup) (k : κ) (a : α) : (m.set k a).keys.Nodup := by
  induction m with
  | nil => exact List.nodup_singleton k
  | cons e m ih =>
    obtain ⟨hnotmem, hnodup⟩ := List.nodup_cons.mp h
    rw [set]
    by_cases he : e.1 = k
    · rw [if_pos he]
      exact List.nodup_cons.mpr ⟨he ▸ hnotmem, hnodup⟩
    · rw [if_neg he]
      refine List.nodup_cons.mpr ⟨fun hmem => ?_, ih hnodup⟩
      exact (mem_keys_set.mp hmem).elim he hnotmem

lemma mem_of_get? (h : m.get? k = some a) : (k, a) ∈ m := by
  induction m with
  | nil => cases h
  | cons e m ih =>
    rw [get?_cons] at h
    split_ifs at h with hk
    · cases h
      exact hk ▸ List.mem_cons_self
    · exact List.mem_cons_of_mem e (ih h)

lemma mem_set {e : κ × α} (h : e ∈ m.set k a) : e = (k, a) ∨ e ∈ m := by
  induction m with
  | nil => exact .inl (List.mem_singleton.mp h)
  | cons e' m ih =>
    rw [set] at h
    split_ifs at h
    · exact (List.mem_cons.mp h).imp_right (List.mem_cons_of_mem e')
    · rcases List.mem_cons.mp h with rfl | h
      · exact .inr List.mem_cons_self
      · exact (ih h).imp_right (List.mem_cons_of_mem e')

/-- In a map whose keys are different, the entries are what is found. -/
lemma mem_iff_get? (h : m.keys.Nodup) : (k, a) ∈ m ↔ m.get? k = some a := by
  induction m with
  | nil => simp
  | cons e m ih =>
    obtain ⟨hnotmem, hnodup⟩ := List.nodup_cons.mp h
    rw [List.mem_cons, ih hnodup, get?_cons]
    by_cases hk : k = e.1
    · rw [if_pos hk]
      constructor
      · rintro (rfl | hget)
        · rfl
        · exact absurd (List.mem_map_of_mem ((ih hnodup).mpr hget)) (hk ▸ hnotmem)
      · exact fun hget => .inl (Prod.ext hk (Option.some.inj hget).symm)
    · rw [if_neg hk]
      refine or_iff_right ?_
      rintro rfl
      exact hk rfl

lemma set_set (m : Map κ α) (k : κ) (a b : α) : (m.set k a).set k b = m.set k b := by
  induction m with
  | nil => exact if_pos rfl
  | cons e m ih =>
    rw [set, set]
    by_cases he : e.1 = k
    · rw [if_pos he, if_pos he, set, if_pos rfl]
    · rw [if_neg he, if_neg he, set, if_neg he, ih]

/-! ### Without a key -/

lemma get?_filter_self (m : Map κ α) (k : κ) : get? (m.filter fun x => x.1 ≠ k) k = none := by
  rw [get?_eq_none_iff, keys, List.mem_map]
  rintro ⟨x, hx, rfl⟩
  simp at hx

lemma get?_filter_ne (m : Map κ α) (h : k' ≠ k) :
    get? (m.filter fun x => x.1 ≠ k) k' = m.get? k' := by
  induction m with
  | nil => rfl
  | cons e m ih =>
    by_cases he : e.1 = k
    · rw [List.filter_cons_of_neg (by simp [he]), ih, get?_cons, he, if_neg h]
    · rw [List.filter_cons_of_pos (by simp [he]), get?_cons, get?_cons, ih]

/-! ### Groups -/

variable {β : Type} {key : β → κ} {l : List β} {g : List β} {b : β}

/-- One more element of the list at a key. -/
def add (m : Map κ (List β)) (k : κ) (b : β) : Map κ (List β) :=
  m.set k ((m.get? k).getD [] ++ [b])

/-- `groupBy`: the elements by their keys. -/
def groupBy (key : β → κ) (l : List β) : Map κ (List β) :=
  l.foldl (fun m b => m.add (key b) b) []

lemma groupBy_concat (key : β → κ) (l : List β) (b : β) :
    groupBy key (l ++ [b]) = (groupBy key l).add (key b) b := by
  rw [groupBy, List.foldl_append]
  rfl

lemma nodup_groupBy (key : β → κ) (l : List β) : (groupBy key l).keys.Nodup := by
  induction l using List.reverseRecOn with
  | nil => exact List.nodup_nil
  | append_singleton l b ih =>
    rw [groupBy_concat]
    exact nodup_set ih _ _

/-- The group of a key has the elements with this key, in order. -/
lemma get?_groupBy (key : β → κ) (l : List β) (k : κ) :
    (groupBy key l).get? k =
      if l.filter (key · = k) = [] then none else some (l.filter (key · = k)) := by
  induction l using List.reverseRecOn with
  | nil => rfl
  | append_singleton l b ih =>
    rw [groupBy_concat, add, get?_set]
    by_cases hk : k = key b
    · subst hk
      have hfilter : (l ++ [b]).filter (key · = key b) = l.filter (key · = key b) ++ [b] := by
        simp
      rw [if_pos rfl, hfilter, if_neg (by simp), ih]
      split_ifs with hnil
      · rw [hnil]
        rfl
      · rfl
    · have hfilter : (l ++ [b]).filter (key · = k) = l.filter (key · = k) := by
        simp [Ne.symm hk]
      rw [if_neg hk, hfilter, ih]

/-- A group has elements, which are those with its key. -/
lemma mem_groupBy (h : (k, g) ∈ groupBy key l) : g ≠ [] ∧ g = l.filter (key · = k) := by
  have hget := (mem_iff_get? (nodup_groupBy key l)).mp h
  rw [get?_groupBy] at hget
  split_ifs at hget with hnil
  obtain rfl := Option.some.inj hget
  exact ⟨hnil, rfl⟩

/-- Every element is in the group of its key. -/
lemma exists_mem_groupBy (key : β → κ) (h : b ∈ l) :
    (key b, l.filter (key · = key b)) ∈ groupBy key l := by
  refine (mem_iff_get? (nodup_groupBy key l)).mpr ?_
  rw [get?_groupBy, if_neg]
  exact List.ne_nil_of_mem (List.mem_filter.mpr ⟨h, decide_eq_true rfl⟩)

lemma flatten_add (m : Map κ (List β)) (k : κ) (b : β) :
    ((m.add k b).map Prod.snd).flatten.Perm ((m.map Prod.snd).flatten ++ [b]) := by
  rw [add]
  induction m with
  | nil => exact List.Perm.refl _
  | cons e m ih =>
    rw [get?_cons, set]
    by_cases he : e.1 = k
    · rw [if_pos he, if_pos he.symm]
      simp only [List.map_cons, List.flatten_cons, Option.getD_some, List.append_assoc]
      exact List.perm_append_comm.append_left e.2
    · rw [if_neg he, if_neg (Ne.symm he)]
      simp only [List.map_cons, List.flatten_cons, List.append_assoc]
      exact ih.append_left e.2

/-- The groups have all elements, each of them once. -/
lemma perm_flatten_groupBy (key : β → κ) (l : List β) :
    ((groupBy key l).map Prod.snd).flatten.Perm l := by
  induction l using List.reverseRecOn with
  | nil => exact List.Perm.refl _
  | append_singleton l b ih =>
    rw [groupBy_concat]
    exact (flatten_add _ _ _).trans (ih.append_right [b])

end Map

/-- Rows of two tables go together, and so do the rows that are looked up. -/
lemma lookup_of_forall₂ {κ α β : Type} [BEq κ] [LawfulBEq κ] {R : κ × α → κ × β → Prop}
    {as : List (κ × α)} {bs : List (κ × β)} (hR : ∀ e f, R e f → e.1 = f.1)
    (h : List.Forall₂ R as bs) {k : κ} {a : α} (ha : as.lookup k = some a) :
    ∃ b, bs.lookup k = some b ∧ R (k, a) (k, b) := by
  induction h with
  | nil => cases ha
  | @cons e f as bs hef _ ih =>
    obtain ⟨j, a'⟩ := e
    obtain ⟨j', b⟩ := f
    obtain rfl : j = j' := hR _ _ hef
    rw [List.lookup_cons] at ha ⊢
    by_cases hk : k = j
    · subst hk
      rw [beq_self_eq_true] at ha ⊢
      cases ha
      exact ⟨b, rfl, hef⟩
    · rw [beq_false_of_ne hk] at ha ⊢
      exact ih ha

end Dart
