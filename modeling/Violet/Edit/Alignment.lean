import Mathlib.Algebra.Ring.Nat
import Mathlib.Data.List.Basic
import Violet.Edit.Edits

/-!
# Alignments

An alignment writes two lists below each other: an element of the one stands over an element of the
other, or alone. A column costs one change unless it holds equal elements, so that a cheapest
alignment costs as much as the lists are apart.
-/

namespace Edit

variable {α : Type*}

inductive Column (α : Type*) where
  | delete (x : α)
  | insert (y : α)
  | pair (x y : α)

namespace Column

def source : Column α → Option α
  | delete x => some x
  | insert _ => none
  | pair x _ => some x

def target : Column α → Option α
  | delete _ => none
  | insert y => some y
  | pair _ y => some y

variable [BEq α]

def cost : Column α → ℕ
  | delete _ => 1
  | insert _ => 1
  | pair x y => if x == y then 0 else 1

/-- Whether the element of the first list stands over an equal one, when there is one. -/
def mark : Column α → Option Bool
  | delete _ => some false
  | insert _ => none
  | pair x y => some (x == y)

end Column

structure Alignment (a b : List α) where
  columns : List (Column α)
  sources_eq : columns.filterMap Column.source = a
  targets_eq : columns.filterMap Column.target = b

namespace Alignment

variable {a b : List α} {k : ℕ}

/-- One more column. -/
def concat (al : Alignment a b) (c : Column α) :
    Alignment (a ++ c.source.toList) (b ++ c.target.toList) where
  columns := al.columns ++ [c]
  sources_eq := by
    rw [List.filterMap_append, al.sources_eq]
    cases c <;> rfl
  targets_eq := by
    rw [List.filterMap_append, al.targets_eq]
    cases c <;> rfl

/-- Every element is deleted. -/
def deleteAll (a : List α) : Alignment a [] where
  columns := a.map Column.delete
  sources_eq := by
    induction a with
    | nil => rfl
    | cons x a ih => exact congrArg (x :: ·) ih
  targets_eq := by
    induction a with
    | nil => rfl
    | cons x a ih => exact ih

/-- Every element is inserted. -/
def insertAll (b : List α) : Alignment [] b where
  columns := b.map Column.insert
  sources_eq := by
    induction b with
    | nil => rfl
    | cons y b ih => exact ih
  targets_eq := by
    induction b with
    | nil => rfl
    | cons y b ih => exact congrArg (y :: ·) ih

variable [BEq α]

def cost (al : Alignment a b) : ℕ := (al.columns.map Column.cost).sum

/-- Whether the elements of the first list stand over equal ones. -/
def marks (al : Alignment a b) : List Bool := al.columns.filterMap Column.mark

/-- The element at the place `k` of the first list stands over an equal element of the second. -/
def Matches (al : Alignment a b) (k : ℕ) : Prop :=
  ∃ before x y after, al.columns = before ++ Column.pair x y :: after ∧
    (before.filterMap Column.source).length = k ∧ (x == y) = true

/-- No alignment costs less. -/
def Optimal (al : Alignment a b) : Prop := ∀ al' : Alignment a b, al.cost ≤ al'.cost

@[simp] lemma cost_concat (al : Alignment a b) (c : Column α) :
    (al.concat c).cost = al.cost + c.cost := by
  simp [cost, concat]

@[simp] lemma marks_concat (al : Alignment a b) (c : Column α) :
    (al.concat c).marks = al.marks ++ c.mark.toList := by
  rw [marks, marks, concat, List.filterMap_append]
  cases c <;> rfl

@[simp] lemma cost_deleteAll (a : List α) : (deleteAll a).cost = a.length := by
  induction a with
  | nil => rfl
  | cons x a ih =>
    rw [List.length_cons, Nat.add_comm, ← ih]
    rfl

@[simp] lemma marks_deleteAll (a : List α) :
    (deleteAll a).marks = List.replicate a.length false := by
  induction a with
  | nil => rfl
  | cons x a ih =>
    rw [List.length_cons, List.replicate_succ, ← ih]
    rfl

@[simp] lemma cost_insertAll (b : List α) : (insertAll b).cost = b.length := by
  induction b with
  | nil => rfl
  | cons y b ih =>
    rw [List.length_cons, Nat.add_comm, ← ih]
    rfl

@[simp] lemma marks_insertAll (b : List α) : (insertAll b).marks = [] := by
  induction b with
  | nil => rfl
  | cons y b ih => exact ih

lemma length_marks (al : Alignment a b) : al.marks.length = a.length := by
  obtain ⟨cols, rfl, rfl⟩ := al
  rw [marks]
  induction cols with
  | nil => rfl
  | cons c cols ih =>
    cases c with
    | delete _ | pair _ _ => exact congrArg Nat.succ ih
    | insert _ => exact ih

/-- The columns are changes that lead from the one list to the other. -/
lemma edits (al : Alignment a b) : Edits a b al.cost := by
  obtain ⟨cols, rfl, rfl⟩ := al
  rw [cost]
  induction cols with
  | nil => exact .nil
  | cons c cols ih =>
    rw [List.map_cons, List.sum_cons, Nat.add_comm]
    cases c with
    | delete x => exact ih.delete
    | insert y => exact ih.insert
    | pair x y =>
      rw [Column.cost]
      split_ifs with hxy
      · exact ih.keep hxy
      · exact ih.replace

/-- An alignment that costs as much as the lists are apart is optimal. -/
lemma optimal_of_isDistance (al : Alignment a b) (h : IsDistance a b al.cost) : al.Optimal :=
  fun al' => h.2 al'.edits

private lemma marks_eq_true_iff (cols : List (Column α)) (k : ℕ) :
    (cols.filterMap Column.mark)[k]? = some true ↔
      ∃ before x y after, cols = before ++ Column.pair x y :: after ∧
        (before.filterMap Column.source).length = k ∧ (x == y) = true := by
  induction cols generalizing k with
  | nil => simp
  | cons c cols ih =>
    constructor
    · intro h
      cases c with
      | insert y =>
        obtain ⟨before, x, y', after, rfl, rfl, hxy⟩ := (ih k).mp h
        exact ⟨.insert y :: before, x, y', after, rfl, rfl, hxy⟩
      | delete x =>
        cases k with
        | zero => cases h
        | succ k =>
          obtain ⟨before, x', y, after, rfl, rfl, hxy⟩ := (ih k).mp h
          exact ⟨.delete x :: before, x', y, after, rfl, rfl, hxy⟩
      | pair x y =>
        cases k with
        | zero => exact ⟨[], x, y, cols, rfl, rfl, Option.some.inj h⟩
        | succ k =>
          obtain ⟨before, x', y', after, rfl, rfl, hxy⟩ := (ih k).mp h
          exact ⟨.pair x y :: before, x', y', after, rfl, rfl, hxy⟩
    · rintro ⟨before, x, y, after, hcols, rfl, hxy⟩
      cases before with
      | nil =>
        obtain ⟨rfl, rfl⟩ := List.cons.inj hcols
        exact congrArg some hxy
      | cons c' before =>
        obtain ⟨rfl, rfl⟩ := List.cons.inj hcols
        have h := (ih _).mpr ⟨before, x, y, after, rfl, rfl, hxy⟩
        cases c <;> exact h

lemma matches_iff (al : Alignment a b) : al.Matches k ↔ al.marks[k]? = some true :=
  (marks_eq_true_iff al.columns k).symm

end Alignment

end Edit
