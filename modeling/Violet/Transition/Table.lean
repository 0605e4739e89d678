import Mathlib.Data.List.Forall2
import Mathlib.Logic.Relation
import Mathlib.Tactic.Lemma

/-!
# Tables

A system keeps its components in a table, the latest first. They go on where they are or are
removed, and new ones are entered in front. What each of them keeps holds of all, and what is kept
by any two of them holds of all pairs, if it holds when a component is entered.
-/

namespace Transition

variable {τ : Type*} {next : τ → τ → Prop} {fresh : List τ → τ → Prop} {table table' : List τ}

/-- A component after a change. -/
def Follows (next : τ → τ → Prop) (t' t : τ) : Prop := t' = t ∨ next t t'

/-- A change of a table. -/
inductive Changes (next : τ → τ → Prop) (fresh : List τ → τ → Prop) (table : List τ) :
    List τ → Prop
  | go {table' : List τ} (h : List.SublistForall₂ (Follows next) table' table) :
      Changes next fresh table table'
  | enter (t : τ) (h : fresh table t) : Changes next fresh table (t :: table)

lemma sublistForall₂_refl (table : List τ) :
    List.SublistForall₂ (Follows next) table table := by
  induction table with
  | nil => exact .nil
  | cons t table ih => exact .cons (.inl rfl) ih

/-- One component goes on. -/
lemma sublistForall₂_set {i : ℕ} {t t' : τ} (ht : table[i]? = some t) (h : Follows next t' t) :
    List.SublistForall₂ (Follows next) (table.set i t') table := by
  induction table generalizing i with
  | nil => cases ht
  | cons u table ih =>
    cases i with
    | zero =>
      cases ht
      exact .cons h (sublistForall₂_refl table)
    | succ i => exact .cons (.inl rfl) (ih ht)

lemma exists_of_sublistForall₂ {R : τ → τ → Prop} (h : List.SublistForall₂ R table' table) :
    ∀ t' ∈ table', ∃ t ∈ table, R t' t := by
  induction h with
  | nil => simp
  | cons hR _ ih =>
    intro t' ht'
    rcases List.mem_cons.mp ht' with rfl | ht'
    · exact ⟨_, List.mem_cons_self, hR⟩
    · obtain ⟨t, ht, hR⟩ := ih t' ht'
      exact ⟨t, List.mem_cons_of_mem _ ht, hR⟩
  | cons_right _ ih =>
    intro t' ht'
    obtain ⟨t, ht, hR⟩ := ih t' ht'
    exact ⟨t, List.mem_cons_of_mem _ ht, hR⟩

/-- What each component keeps. -/
theorem Changes.all {I : τ → Prop} (h : Changes next fresh table table')
    (hfresh : ∀ t, fresh table t → I t) (hnext : ∀ t t', I t → next t t' → I t')
    (h0 : ∀ t ∈ table, I t) : ∀ t ∈ table', I t := by
  cases h with
  | go h =>
    intro t' ht'
    obtain ⟨t, ht, rfl | hn⟩ := exists_of_sublistForall₂ h t' ht'
    · exact h0 t' ht
    · exact hnext t t' (h0 t ht) hn
  | enter t h => exact List.forall_mem_cons.mpr ⟨hfresh t h, h0⟩

lemma pairwise_of_sublistForall₂ {R S : τ → τ → Prop} (h : List.SublistForall₂ S table' table)
    (hkeeps : ∀ t t' u u', S t' t → S u' u → R t u → R t' u') (h0 : table.Pairwise R) :
    table'.Pairwise R := by
  induction h with
  | nil => exact .nil
  | cons ht hrest ih =>
    obtain ⟨hpair, h0⟩ := List.pairwise_cons.mp h0
    refine List.pairwise_cons.mpr ⟨fun u' hu' => ?_, ih h0⟩
    obtain ⟨u, hu, hfollows⟩ := exists_of_sublistForall₂ hrest u' hu'
    exact hkeeps _ _ u u' ht hfollows (hpair u hu)
  | cons_right _ ih => exact ih (List.pairwise_cons.mp h0).2

/-- Those of a kind do not become more, when no component changes its kind. -/
lemma countP_of_sublistForall₂ {S : τ → τ → Prop} {q : τ → Bool}
    (h : List.SublistForall₂ S table' table) (hq : ∀ t t', S t' t → q t' = q t) :
    table'.countP q ≤ table.countP q := by
  induction h with
  | nil => exact Nat.zero_le _
  | cons ht _ ih =>
    rw [List.countP_cons, List.countP_cons, hq _ _ ht]
    exact Nat.add_le_add_right ih _
  | cons_right _ ih =>
    rw [List.countP_cons]
    exact Nat.le_trans ih (Nat.le_add_right _ _)

/-- What any two components keep. -/
theorem Changes.pairwise {R : τ → τ → Prop} (h : Changes next fresh table table')
    (hfresh : ∀ t, fresh table t → ∀ u ∈ table, R t u)
    (hkeeps : ∀ t t' u u', Follows next t' t → Follows next u' u → R t u → R t' u')
    (h0 : table.Pairwise R) : table'.Pairwise R := by
  cases h with
  | go h => exact pairwise_of_sublistForall₂ h hkeeps h0
  | enter t h => exact List.pairwise_cons.mpr ⟨hfresh t h, h0⟩

/-! ### Changes in a row -/

theorem all_of_changes {I : τ → Prop} (h : Relation.ReflTransGen (Changes next fresh) table table')
    (hfresh : ∀ table t, fresh table t → I t) (hnext : ∀ t t', I t → next t t' → I t')
    (h0 : ∀ t ∈ table, I t) : ∀ t ∈ table', I t := by
  induction h with
  | refl => exact h0
  | tail _ hchange ih => exact hchange.all (hfresh _) hnext ih

theorem pairwise_of_changes {R : τ → τ → Prop}
    (h : Relation.ReflTransGen (Changes next fresh) table table')
    (hfresh : ∀ table t, fresh table t → ∀ u ∈ table, R t u)
    (hkeeps : ∀ t t' u u', Follows next t' t → Follows next u' u → R t u → R t' u')
    (h0 : table.Pairwise R) : table'.Pairwise R := by
  induction h with
  | refl => exact h0
  | tail _ hchange ih => exact hchange.pairwise (hfresh _) hkeeps ih

end Transition
