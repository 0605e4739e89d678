import Mathlib.Logic.Relation
import Mathlib.Order.Bounds.Basic
import Mathlib.Order.MinMax
import Mathlib.Tactic.Lemma

/-!
# Connected elements

Links connect the elements at their ends, and what these are connected with. A function represents
the classes when it has the same value at two elements exactly when they are connected; one more
link merges two of its values.
-/

namespace Links

variable {α : Type*} {links links' : List (α × α)} {a b c : α}

def Connected (links : List (α × α)) (a b : α) : Prop :=
  Relation.EqvGen (fun a b => (a, b) ∈ links) a b

namespace Connected

lemma of_mem (h : (a, b) ∈ links) : Connected links a b := .rel a b h

lemma refl (links : List (α × α)) (a : α) : Connected links a a :=
  Relation.EqvGen.refl a

lemma symm (h : Connected links a b) : Connected links b a :=
  Relation.EqvGen.symm a b h

lemma trans (h : Connected links a b) (h' : Connected links b c) : Connected links a c :=
  Relation.EqvGen.trans a b c h h'

/-- What an equivalence says of all links it says of all connected elements. -/
lemma lift {r : α → α → Prop} (hr : Equivalence r) (hlinks : ∀ a b, (a, b) ∈ links → r a b)
    (h : Connected links a b) : r a b := by
  induction h with
  | rel a b h => exact hlinks a b h
  | refl a => exact hr.refl a
  | symm a b _ ih => exact hr.symm ih
  | trans a b c _ _ ih ih' => exact hr.trans ih ih'

/-- The links connect what a relation generates, when they connect what it says. -/
lemma of_eqvGen {r : α → α → Prop} (hr : ∀ a b, r a b → Connected links a b)
    (h : Relation.EqvGen r a b) : Connected links a b := by
  induction h with
  | rel a b h => exact hr a b h
  | refl a => exact refl links a
  | symm a b _ ih => exact ih.symm
  | trans a b c _ _ ih ih' => exact ih.trans ih'

lemma mono (hsub : ∀ a b, (a, b) ∈ links → Connected links' a b) (h : Connected links a b) :
    Connected links' a b :=
  h.lift ⟨refl links', symm, trans⟩ hsub

end Connected

/-- Two elements have the same value exactly when they are connected. -/
def Represents (f : α → α) (links : List (α × α)) : Prop :=
  ∀ x y, f x = f y ↔ Connected links x y

lemma represents_nil : Represents id ([] : List (α × α)) := by
  intro x y
  constructor
  · rintro rfl
    exact .refl _ x
  · exact fun h => h.lift ⟨fun _ => rfl, Eq.symm, Eq.trans⟩ fun _ _ h => absurd h List.not_mem_nil

variable {f : α → α}

/-- A link between connected elements changes nothing. -/
lemma Represents.of_connected (h : Represents f links) (hab : Connected links a b) :
    Represents f (links ++ [(a, b)]) := by
  intro x y
  rw [h x y]
  constructor
  · exact Connected.mono fun _ _ hmem => .of_mem (List.mem_append_left _ hmem)
  · refine Connected.mono fun x y hmem => ?_
    rcases List.mem_append.mp hmem with hmem | hmem
    · exact .of_mem hmem
    · obtain ⟨rfl, rfl⟩ := Prod.mk.inj (List.mem_singleton.mp hmem)
      exact hab

/-- A link has no direction. -/
lemma Represents.swap (h : Represents f (links ++ [(a, b)])) :
    Represents f (links ++ [(b, a)]) := by
  have hswap : ∀ {a b x y : α}, (x, y) ∈ links ++ [(a, b)] →
      Connected (links ++ [(b, a)]) x y := by
    intro a b x y hmem
    rcases List.mem_append.mp hmem with hmem | hmem
    · exact .of_mem (List.mem_append_left _ hmem)
    · obtain ⟨rfl, rfl⟩ := Prod.mk.inj (List.mem_singleton.mp hmem)
      exact .symm (.of_mem (List.mem_append_right _ (List.mem_singleton_self _)))
  intro x y
  rw [h x y]
  exact ⟨.mono fun _ _ => hswap, .mono fun _ _ => hswap⟩

variable [LinearOrder α] {x y : α}

/-- The values at `a` and `b` become the lesser of them. -/
def merge (f : α → α) (a b x : α) : α := if f x = f a ∨ f x = f b then min (f a) (f b) else f x

lemma merge_eq_iff :
    merge f a b x = merge f a b y ↔
      f x = f y ∨ ((f x = f a ∨ f x = f b) ∧ (f y = f a ∨ f y = f b)) := by
  have hmin : min (f a) (f b) = f a ∨ min (f a) (f b) = f b := min_choice _ _
  rw [merge, merge]
  split_ifs with hx hy hy
  · exact iff_of_true rfl (.inr ⟨hx, hy⟩)
  · constructor
    · intro h
      rw [← h] at hy
      exact absurd hmin hy
    · rintro (h | h)
      · rw [h] at hx
        exact absurd hx hy
      · exact absurd h.2 hy
  · constructor
    · intro h
      rw [h] at hx
      exact absurd hmin hx
    · rintro (h | h)
      · rw [← h] at hy
        exact absurd hy hx
      · exact absurd h.1 hx
  · exact ⟨.inl, fun h => h.resolve_right fun h => hx h.1⟩

/-- One more link. -/
lemma Represents.merge (h : Represents f links) (a b : α) :
    Represents (merge f a b) (links ++ [(a, b)]) := by
  intro x y
  have hold : ∀ {x y}, f x = f y → Connected (links ++ [(a, b)]) x y := fun hxy =>
    ((h _ _).mp hxy).mono fun _ _ hmem => .of_mem (List.mem_append_left _ hmem)
  have hnew : Connected (links ++ [(a, b)]) a b :=
    .of_mem (List.mem_append_right _ (List.mem_singleton_self _))
  -- the merged class is that of `a`
  have hclass : ∀ {x}, f x = f a ∨ f x = f b → Connected (links ++ [(a, b)]) x a := by
    rintro x (hx | hx)
    · exact hold hx
    · exact (hold hx).trans hnew.symm
  constructor
  · intro hxy
    rcases merge_eq_iff.mp hxy with hxy | ⟨hx, hy⟩
    · exact hold hxy
    · exact (hclass hx).trans (hclass hy).symm
  · refine fun hxy => hxy.lift (r := fun x y => Links.merge f a b x = Links.merge f a b y)
      ⟨fun _ => rfl, Eq.symm, Eq.trans⟩ fun x y hmem => merge_eq_iff.mpr ?_
    rcases List.mem_append.mp hmem with hmem | hmem
    · exact .inl ((h x y).mpr (.of_mem hmem))
    · obtain ⟨rfl, rfl⟩ := Prod.mk.inj (List.mem_singleton.mp hmem)
      exact .inr ⟨.inl rfl, .inr rfl⟩

end Links
