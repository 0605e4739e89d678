import Mathlib.Tactic.Lemma
import Mathlib.Tactic.SplitIfs

/-!
# Methods

A method of an object reads and writes its fields and may throw. An exception keeps what has been
written before it.
-/

namespace Dart

variable {σ α β : Type}

/-- A method that returns an `α`, or throws, of an object with the fields `σ`. -/
abbrev Method (σ α : Type) := OptionT (StateM σ) α

namespace Method

/-- What the method returns, unless it throws, and the object afterwards. -/
def exec (m : Method σ α) (s : σ) : Option α × σ := m.run s

@[simp] lemma exec_pure (a : α) (s : σ) : (pure a : Method σ α).exec s = (some a, s) := rfl

@[simp] lemma exec_failure (s : σ) : (failure : Method σ α).exec s = (none, s) := rfl

@[simp] lemma exec_get (s : σ) : (get : Method σ σ).exec s = (some s, s) := rfl

@[simp] lemma exec_modify (f : σ → σ) (s : σ) :
    (modify f : Method σ PUnit).exec s = (some ⟨⟩, f s) := rfl

@[simp] lemma exec_set (s t : σ) : (set t : Method σ PUnit).exec s = (some ⟨⟩, t) := rfl

lemma exec_bind (m : Method σ α) (f : α → Method σ β) (s : σ) :
    (m >>= f).exec s =
      match m.exec s with
      | (some a, t) => (f a).exec t
      | (none, t) => (none, t) := by
  unfold exec
  change (match m.run s with
    | (a, t) => (match a with | some a => (f a).run | none => pure none) t) = _
  rcases m.run s with ⟨_ | a, t⟩ <;> rfl

/-- Go on after a call that returns. -/
lemma exec_bind_of_some {m : Method σ α} {f : α → Method σ β} {s t : σ} {a : α}
    (h : m.exec s = (some a, t)) : (m >>= f).exec s = (f a).exec t := by
  rw [exec_bind, h]

/-- A method throws when one of its parts does. -/
lemma fst_bind_of_none {m : Method σ α} {f : α → Method σ β} {s : σ}
    (h : (m.exec s).1 = none ∨ ∀ a t, ((f a).exec t).1 = none) : ((m >>= f).exec s).1 = none := by
  rw [exec_bind]
  rcases hexec : m.exec s with ⟨_ | a, t⟩
  · rfl
  · exact h.resolve_left (by simp [hexec]) a t

@[simp] lemma exec_get_bind (f : σ → Method σ β) (s : σ) : (get >>= f).exec s = (f s).exec s :=
  exec_bind_of_some (exec_get s)

@[simp] lemma exec_modify_bind (g : σ → σ) (f : PUnit → Method σ β) (s : σ) :
    (modify g >>= f).exec s = (f ⟨⟩).exec (g s) :=
  exec_bind_of_some (exec_modify g s)

@[simp] lemma exec_set_bind (t : σ) (f : PUnit → Method σ β) (s : σ) :
    (set t >>= f).exec s = (f ⟨⟩).exec t :=
  exec_bind_of_some (exec_set s t)

/-- The method keeps a property of the object, whether it returns or throws. -/
def Keeps (P : σ → Prop) (m : Method σ α) : Prop := ∀ s, P s → P (m.exec s).2

section

variable {P : σ → Prop} {m : Method σ α} {f : α → Method σ β}

lemma keeps_pure (a : α) : Keeps P (pure a : Method σ α) := fun _ h => h

lemma keeps_failure : Keeps P (failure : Method σ α) := fun _ h => h

lemma keeps_get : Keeps P (get : Method σ σ) := fun _ h => h

lemma keeps_modify {g : σ → σ} (hg : ∀ s, P s → P (g s)) :
    Keeps P (modify g : Method σ PUnit) := hg

lemma Keeps.bind (hm : Keeps P m) (hf : ∀ a, Keeps P (f a)) : Keeps P (m >>= f) := by
  intro s hs
  have ht := hm s hs
  rw [exec_bind]
  rcases hexec : m.exec s with ⟨_ | a, t⟩ <;> rw [hexec] at ht
  · exact ht
  · exact hf a t ht

lemma Keeps.ite {c : Prop} [Decidable c] {m m' : Method σ α} (hm : Keeps P m) (hm' : Keeps P m') :
    Keeps P (if c then m else m') := by
  split_ifs
  · exact hm
  · exact hm'

end

/-- The method leaves a part of the object as it is. -/
def Frames {γ : Type} (part : σ → γ) (m : Method σ α) : Prop := ∀ s, part (m.exec s).2 = part s

section

variable {γ : Type} {part : σ → γ} {m : Method σ α} {f : α → Method σ β}

lemma Frames.keeps (hm : Frames part m) (P : γ → Prop) : Keeps (fun s => P (part s)) m := by
  intro s hs
  rw [hm s]
  exact hs

lemma frames_pure (a : α) : Frames part (pure a : Method σ α) := fun _ => rfl

lemma frames_failure : Frames part (failure : Method σ α) := fun _ => rfl

lemma frames_modify {g : σ → σ} (hg : ∀ s, part (g s) = part s) :
    Frames part (modify g : Method σ PUnit) := hg

lemma Frames.bind (hm : Frames part m) (hf : ∀ a, Frames part (f a)) : Frames part (m >>= f) := by
  intro s
  have hs := hm s
  rw [exec_bind]
  rcases hexec : m.exec s with ⟨_ | a, t⟩ <;> rw [hexec] at hs
  · exact hs
  · exact (hf a t).trans hs

/-- What follows a reading of the object only has to be looked at for what has been read. -/
lemma frames_get_bind {f : σ → Method σ β} (hf : ∀ s, part ((f s).exec s).2 = part s) :
    Frames part (get >>= f) := by
  intro s
  rw [exec_get_bind]
  exact hf s

lemma Frames.ite {c : Prop} [Decidable c] {m m' : Method σ α} (hm : Frames part m)
    (hm' : Frames part m') : Frames part (if c then m else m') := by
  split_ifs
  · exact hm
  · exact hm'

end

end Method

end Dart
