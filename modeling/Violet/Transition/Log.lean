import Mathlib.Data.List.Basic
import Mathlib.Tactic.Lemma

/-!
# Logs

What a system has done is kept in a log, the last action at its end. Whether an action was allowed
may depend on what had been done before.
-/

namespace Transition

variable {α : Type*} {good good' : List α → α → Prop} {log : List α} {a : α}

/-- Each action of the log is good after the actions before it. -/
def Each (good : List α → α → Prop) (log : List α) : Prop :=
  ∀ before a after, log = before ++ a :: after → good before a

namespace Each

@[simp] lemma nil : Each good [] := by
  intro before a after h
  simp at h

lemma concat_iff : Each good (log ++ [a]) ↔ Each good log ∧ good log a := by
  constructor
  · intro h
    refine ⟨fun before b after hlog => h before b (after ++ [a]) ?_, h log a [] rfl⟩
    rw [hlog, List.append_assoc, List.cons_append]
  · rintro ⟨hlog, ha⟩ before b after heq
    rcases List.eq_nil_or_concat after with rfl | ⟨after, b', rfl⟩
    · obtain ⟨rfl, hb⟩ := List.append_inj' heq rfl
      cases hb
      exact ha
    · rw [List.concat_eq_append, ← List.cons_append, ← List.append_assoc] at heq
      exact hlog before b after (List.append_inj' heq rfl).1

lemma concat (h : Each good log) (ha : good log a) : Each good (log ++ [a]) :=
  concat_iff.mpr ⟨h, ha⟩

end Each

end Transition
