import Violet.Transition.Log
import Mathlib.Data.List.Induction
import Mathlib.Data.List.Perm.Basic

/-!
# Descriptors

A program opens files and closes them. A log of that is in order when no descriptor is given out
that is in use, and only descriptors in use are closed. What is open then is what the program holds.
-/

namespace Transition

inductive FileAction
  | opening (file : ℕ)
  | closing (file : ℕ)
  /-- A call without a descriptor. -/
  | invalid
  deriving DecidableEq, Repr

/-- What is open after an action. -/
def FileAction.apply (files : List ℕ) : FileAction → List ℕ
  | opening file => file :: files
  | closing file => files.erase file
  | invalid => files

def openFiles (log : List FileAction) : List ℕ := log.foldl FileAction.apply []

def FileAction.Allowed (before : List FileAction) : FileAction → Prop
  | opening file => file ∉ openFiles before
  | closing file => file ∈ openFiles before
  | invalid => False

variable {log : List FileAction} {held held' : List ℕ} {file : ℕ}

@[simp] lemma openFiles_nil : openFiles [] = [] := rfl

@[simp] lemma openFiles_concat (log : List FileAction) (a : FileAction) :
    openFiles (log ++ [a]) = a.apply (openFiles log) := by
  simp [openFiles, List.foldl_append]

/-- No descriptor is open twice. -/
lemma nodup_openFiles (h : Each FileAction.Allowed log) : (openFiles log).Nodup := by
  induction log using List.reverseRecOn with
  | nil => exact List.nodup_nil
  | append_singleton log a ih =>
    obtain ⟨hlog, ha⟩ := Each.concat_iff.mp h
    rw [openFiles_concat]
    cases a with
    | opening file => exact List.nodup_cons.mpr ⟨ha, ih hlog⟩
    | closing file => exact (ih hlog).erase file
    | invalid => exact absurd ha id

/-- A log in order, after which these descriptors are open. -/
structure Holding (held : List ℕ) (log : List FileAction) : Prop where
  each : Each FileAction.Allowed log
  perm : (openFiles log).Perm held

namespace Holding

lemma nil : Holding [] [] := ⟨.nil, .refl _⟩

lemma nodup (h : Holding held log) : held.Nodup := h.perm.nodup_iff.mp (nodup_openFiles h.each)

lemma congr (h : Holding held log) (hperm : held.Perm held') : Holding held' log :=
  ⟨h.each, h.perm.trans hperm⟩

lemma opening (h : Holding held log) (hfile : file ∉ openFiles log) :
    Holding (file :: held) (log ++ [.opening file]) := by
  refine ⟨h.each.concat hfile, ?_⟩
  rw [openFiles_concat]
  exact h.perm.cons file

lemma closing (h : Holding (file :: held) log) : Holding held (log ++ [.closing file]) := by
  have hmem : file ∈ openFiles log := h.perm.mem_iff.mpr List.mem_cons_self
  refine ⟨h.each.concat hmem, ?_⟩
  rw [openFiles_concat]
  simpa [FileAction.apply] using h.perm.erase file

end Holding

/-! ### Components that hold a descriptor -/

variable {τ : Type*} {file : τ → Option ℕ} {closings : τ → List FileAction} {t t' t'' : τ}
  {rest : List ℕ}

/-- What a component does to its descriptor: nothing, or it closes it. -/
inductive Frees (file : τ → Option ℕ) (closings : τ → List FileAction) (t t' : τ) : Prop
  | keeps (hclosings : closings t' = closings t) (hfile : file t' = file t)
  | closes (f : ℕ) (hfile : file t = some f) (hclosings : closings t' = closings t ++ [.closing f])
      (hnone : file t' = none)

namespace Frees

lemma refl (t : τ) : Frees file closings t t := .keeps rfl rfl

lemma trans (h : Frees file closings t t') (h' : Frees file closings t' t'') :
    Frees file closings t t'' := by
  cases h with
  | keeps hclosings hfile =>
    cases h' with
    | keeps hclosings' hfile' => exact .keeps (hclosings'.trans hclosings) (hfile'.trans hfile)
    | closes f hfile' hclosings' hnone =>
      exact .closes f (hfile ▸ hfile') (hclosings ▸ hclosings') hnone
  | closes f hfile hclosings hnone =>
    cases h' with
    | keeps hclosings' hfile' =>
      exact .closes f hfile (hclosings'.trans hclosings) (hfile'.trans hnone)
    | closes f' hfile' hclosings' hnone' =>
      rw [hnone] at hfile'
      cases hfile'

end Frees

/-- What the component has closed goes into the log. -/
lemma Holding.frees (h : Holding ((file t).toList ++ rest) log)
    (hfrees : Frees file closings t t') :
    Holding ((file t').toList ++ rest)
      (log ++ (closings t').drop (closings t).length) := by
  cases hfrees with
  | keeps hclosings hfile => simpa [hclosings, hfile] using h
  | closes f hfile hclosings hnone =>
    rw [hfile, Option.toList_some, List.singleton_append] at h
    simpa [hclosings, hnone] using h.closing

/-- The descriptors of a table of components. -/
def heldBy (file : τ → Option ℕ) (table : List τ) : List ℕ :=
  table.flatMap fun t => (file t).toList

@[simp] lemma heldBy_nil : heldBy file ([] : List τ) = [] := rfl

@[simp] lemma heldBy_cons (table : List τ) :
    heldBy file (t :: table) = (file t).toList ++ heldBy file table := rfl

lemma perm_heldBy_cons (table : List τ) :
    (heldBy file (t :: table) ++ rest).Perm (heldBy file table ++ ((file t).toList ++ rest)) := by
  rw [heldBy_cons, List.append_assoc]
  exact List.perm_append_comm_assoc _ _ _

/-- One component of a table goes on. -/
lemma Holding.set {table : List τ} {i : ℕ} (h : Holding (heldBy file table ++ rest) log)
    (ht : table[i]? = some t) (hfrees : Frees file closings t t') :
    Holding (heldBy file (table.set i t') ++ rest)
      (log ++ (closings t').drop (closings t).length) := by
  induction table generalizing i rest with
  | nil => cases ht
  | cons u table ih =>
    cases i with
    | zero =>
      cases ht
      rw [heldBy_cons, List.append_assoc] at h
      rw [List.set_cons_zero, heldBy_cons, List.append_assoc]
      exact h.frees hfrees
    | succ i =>
      have hrest := ih (h.congr (perm_heldBy_cons table)) ht
      exact hrest.congr (perm_heldBy_cons (table.set i t')).symm

end Transition
