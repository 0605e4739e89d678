import Mathlib.Logic.Relation
import Mathlib.Order.WellFounded
import Mathlib.Tactic.Lemma

/-!
# Links without cycles

Links lead from an element to those inside it. As long as no element is inside itself, whatever goes
into the elements ends. New links keep this when nothing that they lead to has one of the elements
inside of which they begin.
-/

namespace Links

open Relation

variable {α : Type*} {r r' : α → α → Prop} {s t : α → Prop}

/-- `r y x` says that `y` is inside `x`. The new links lead from elements of `s` to elements of `t`,
and nothing within an element of `t` is in `s`. -/
theorem wellFounded_of_links (h : WellFounded r) (hlinks : ∀ y x, r' y x → r y x ∨ s x ∧ t y)
    (hcycle : ∀ y, t y → ∀ z, ReflTransGen r z y → ¬ s z) : WellFounded r' := by
  -- within the elements of `t` there are the old links only
  have hwithin : ∀ z, (∃ y, t y ∧ ReflTransGen r z y) → Acc r' z := by
    intro z
    induction z using h.induction with
    | _ z ih =>
      rintro ⟨y, hy, hzy⟩
      refine .intro z fun x hx => ?_
      rcases hlinks x z hx with hx | ⟨hz, -⟩
      · exact ih x hx ⟨y, hy, .head hx hzy⟩
      · exact absurd hz (hcycle y hy z hzy)
  refine ⟨fun a => ?_⟩
  induction a using h.induction with
  | _ a ih =>
    refine .intro a fun x hx => ?_
    rcases hlinks x a hx with hx | ⟨-, hx⟩
    · exact ih x hx
    · exact hwithin x ⟨x, hx, .refl⟩

end Links
