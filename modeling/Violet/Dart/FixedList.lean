import Mathlib.Data.List.Basic
import Mathlib.Tactic.Lemma

/-!
# Lists of a fixed length

An entry is written in its place, or the program fails. Loops whose bodies may fail return what
their invariants say.
-/

namespace Dart

variable {α : Type*} {l : List α} {i j : ℕ} {v : α}

/-- `l[i] = v`, when `i` is in range. -/
def setAt (l : List α) (i : ℕ) (v : α) : Option (List α) :=
  if i < l.length then some (l.set i v) else none

lemma setAt_of_lt (hi : i < l.length) (v : α) : setAt l i v = some (l.set i v) := if_pos hi

/-- A list with more entries is written in the same place. -/
lemma setAt_append (l l' : List α) (a v : α) :
    setAt (l ++ a :: l') l.length v = some (l ++ v :: l') := by
  rw [setAt_of_lt (by simp)]
  simp

section Loops

universe u

variable {σ : Type u}

/-- What holds in front of a loop over the elements and is kept by its body holds behind it, as a
property of the elements that have been read. -/
lemma foldlM_inv (P : List α → σ → Prop) {f : σ → α → Option σ} {l : List α} {s : σ}
    (hs : P [] s) (hf : ∀ done a, a ∈ l → ∀ s, P done s → ∃ t, f s a = some t ∧ P (done ++ [a]) t) :
    ∃ t, l.foldlM f s = some t ∧ P l t := by
  suffices h : ∀ done s, P done s → ∃ t, l.foldlM f s = some t ∧ P (done ++ l) t from
    h [] s hs
  clear hs s
  induction l with
  | nil => exact fun done s hs => ⟨s, rfl, by rwa [List.append_nil]⟩
  | cons a l ih =>
    intro done s hs
    obtain ⟨t, ht, hP⟩ := hf done a List.mem_cons_self s hs
    obtain ⟨t', ht', hP'⟩ := ih (fun done b hb => hf done b (List.mem_cons_of_mem a hb)) _ t hP
    refine ⟨t', ?_, ?_⟩
    · rw [List.foldlM_cons, ht]
      exact ht'
    · rwa [List.append_assoc] at hP'

/-- The same for a loop over `0`, …, `n - 1`. -/
lemma foldlM_range (P : ℕ → σ → Prop) {f : σ → ℕ → Option σ} {n : ℕ} {s : σ} (hs : P 0 s)
    (hf : ∀ k < n, ∀ s, P k s → ∃ t, f s k = some t ∧ P (k + 1) t) :
    ∃ t, (List.range n).foldlM f s = some t ∧ P n t := by
  induction n with
  | zero => exact ⟨s, rfl, hs⟩
  | succ n ih =>
    obtain ⟨t, ht, hP⟩ := ih fun k hk => hf k (Nat.lt_succ_of_lt hk)
    obtain ⟨t', ht', hP'⟩ := hf n n.lt_succ_self t hP
    refine ⟨t', ?_, hP'⟩
    rw [List.range_succ, List.foldlM_append, ht, Option.bind_eq_bind, Option.bind_some]
    simp only [List.foldlM_cons, List.foldlM_nil, ht']
    rfl

end Loops

/-! ### Elements one by one -/

section Elements

variable {α β : Type} {f : α → Option β} {l : List α}

lemma isSome_mapM_iff (f : α → Option β) (l : List α) :
    (l.mapM f).isSome = true ↔ ∀ a ∈ l, (f a).isSome = true := by
  induction l with
  | nil => simp
  | cons a l ih =>
    rw [List.mapM_cons, List.forall_mem_cons, ← ih]
    cases f a with
    | none => simp
    | some b => cases l.mapM f <;> simp

lemma mapM_eq_some_map {g : α → β} (h : ∀ a ∈ l, f a = some (g a)) :
    l.mapM f = some (l.map g) := by
  induction l with
  | nil => rfl
  | cons a l ih =>
    rw [List.mapM_cons, h a List.mem_cons_self, ih fun b hb => h b (List.mem_cons_of_mem a hb)]
    rfl

/-- Every result is that of an element. -/
lemma exists_of_mem_mapM {bs : List β} (h : l.mapM f = some bs) {b : β} (hb : b ∈ bs) :
    ∃ a ∈ l, f a = some b := by
  induction l generalizing bs with
  | nil =>
    obtain rfl := Option.some.inj h
    exact absurd hb List.not_mem_nil
  | cons a l ih =>
    rw [List.mapM_cons] at h
    obtain ⟨b', hb', htail⟩ := Option.bind_eq_some_iff.mp h
    obtain ⟨bs', hbs', hcons⟩ := Option.bind_eq_some_iff.mp htail
    obtain rfl := Option.some.inj hcons
    rcases List.mem_cons.mp hb with rfl | hb
    · exact ⟨a, List.mem_cons_self, hb'⟩
    · obtain ⟨a', ha', heq⟩ := ih hbs' hb
      exact ⟨a', List.mem_cons_of_mem a ha', heq⟩

end Elements

end Dart
