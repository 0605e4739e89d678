import Mathlib.Data.List.TakeWhile
import Mathlib.Tactic.Lemma

/-!
# Blocks

A code whose words are blocks: a plain letter, marked letters, and perhaps more plain letters. Words
that are written one after the other without separators can be told apart, since the last plain
letter in front of marked ones begins a block.
-/

namespace Coding

variable {α : Type*} {p : α → Bool}

/-- A block: `p` marks the inner letters, and at least one letter is marked. -/
@[ext]
structure Block (p : α → Bool) where
  initial : α
  medial : List α
  final : List α
  initial_plain : p initial = false
  medial_marked : ∀ a ∈ medial, p a = true
  medial_ne_nil : medial ≠ []
  final_plain : ∀ a ∈ final, p a = false

namespace Block

def word (b : Block p) : List α := b.initial :: (b.medial ++ b.final)

/-- Words one after the other. -/
def text (bs : List (Block p)) : List α := bs.flatMap word

@[simp] lemma text_nil : text ([] : List (Block p)) = [] := rfl

@[simp] lemma text_cons (b : Block p) (bs : List (Block p)) :
    text (b :: bs) = b.initial :: (b.medial ++ (b.final ++ text bs)) := by
  simp [text, word]

/-- A text begins with a plain letter, behind which a marked one stands. -/
lemma text_cases (bs : List (Block p)) :
    text bs = [] ∨ ∃ a m l, text bs = a :: m :: l ∧ p a = false ∧ p m = true := by
  cases bs with
  | nil => exact .inl rfl
  | cons b bs =>
    obtain ⟨m, medial, hmedial⟩ := List.exists_cons_of_ne_nil b.medial_ne_nil
    refine .inr ⟨b.initial, m, medial ++ (b.final ++ text bs), ?_, b.initial_plain, ?_⟩
    · rw [text_cons, hmedial]
      rfl
    · exact b.medial_marked m (hmedial ▸ List.mem_cons_self)

/-- What follows marked letters begins with a plain one. -/
lemma head_plain {l : List α} (hl : ∀ a ∈ l, p a = false) (bs : List (Block p)) {a : α}
    (ha : (l ++ text bs).head? = some a) : p a = false := by
  cases l with
  | cons b l =>
    obtain rfl := Option.some.inj ha
    exact hl b List.mem_cons_self
  | nil =>
    rcases text_cases bs with h | ⟨b, m, rest, h, hb, -⟩
    · rw [List.nil_append, h] at ha
      cases ha
    · rw [List.nil_append, h] at ha
      obtain rfl := Option.some.inj ha
      exact hb

/-- Marked letters end where a plain one stands. -/
lemma append_inj_of_marked {l l' r r' : List α} (hl : ∀ a ∈ l, p a = true)
    (hl' : ∀ a ∈ l', p a = true) (hr : ∀ a, r.head? = some a → p a = false)
    (hr' : ∀ a, r'.head? = some a → p a = false) (h : l ++ r = l' ++ r') : l = l' ∧ r = r' := by
  induction l generalizing l' with
  | nil =>
    cases l' with
    | nil => exact ⟨rfl, h⟩
    | cons a l' =>
      have hplain := hr a (congrArg List.head? h)
      rw [hl' a List.mem_cons_self] at hplain
      cases hplain
  | cons a l ih =>
    cases l' with
    | nil =>
      have hplain := hr' a (congrArg List.head? h.symm)
      rw [hl a List.mem_cons_self] at hplain
      cases hplain
    | cons a' l' =>
      obtain ⟨rfl, htail⟩ := List.cons.inj h
      obtain ⟨rfl, rfl⟩ := ih (fun b hb => hl b (List.mem_cons_of_mem a hb))
        (fun b hb => hl' b (List.mem_cons_of_mem a hb)) htail
      exact ⟨rfl, rfl⟩

/-- A text does not begin with two plain letters, or with one that no text follows. -/
lemma text_ne_cons {l : List α} {a : α} {bs bs' : List (Block p)} (hl : ∀ b ∈ l, p b = false) :
    text bs ≠ a :: (l ++ text bs') := by
  intro h
  rcases text_cases bs with hnil | ⟨b, m, rest, hcons, -, hm⟩
  · rw [hnil] at h
    cases h
  · rw [hcons] at h
    have hplain := head_plain hl bs' (congrArg List.head? (List.cons.inj h).2.symm)
    rw [hm] at hplain
    cases hplain

/-- Plain letters end where a text begins. -/
lemma append_inj_of_plain {l l' : List α} {bs bs' : List (Block p)}
    (hl : ∀ a ∈ l, p a = false) (hl' : ∀ a ∈ l', p a = false)
    (h : l ++ text bs = l' ++ text bs') : l = l' ∧ text bs = text bs' := by
  induction l generalizing l' with
  | nil =>
    cases l' with
    | nil => exact ⟨rfl, h⟩
    | cons a l' => exact absurd h (text_ne_cons fun b hb => hl' b (List.mem_cons_of_mem a hb))
  | cons a l ih =>
    cases l' with
    | nil =>
      exact absurd h.symm (text_ne_cons fun b hb => hl b (List.mem_cons_of_mem a hb))
    | cons a' l' =>
      obtain ⟨rfl, htail⟩ := List.cons.inj h
      obtain ⟨rfl, htext⟩ := ih (fun b hb => hl b (List.mem_cons_of_mem a hb))
        (fun b hb => hl' b (List.mem_cons_of_mem a hb)) htail
      exact ⟨rfl, htext⟩

/-- A text comes from one list of blocks. -/
theorem text_injective {bs bs' : List (Block p)} (h : text bs = text bs') : bs = bs' := by
  induction bs generalizing bs' with
  | nil =>
    cases bs' with
    | nil => rfl
    | cons b bs' => cases h.symm.trans rfl
  | cons b bs ih =>
    cases bs' with
    | nil => cases h
    | cons b' bs' =>
      rw [text_cons, text_cons] at h
      obtain ⟨hinitial, h⟩ := List.cons.inj h
      obtain ⟨hmedial, h⟩ := append_inj_of_marked b.medial_marked b'.medial_marked
        (fun _ => head_plain b.final_plain bs) (fun _ => head_plain b'.final_plain bs') h
      obtain ⟨hfinal, h⟩ := append_inj_of_plain b.final_plain b'.final_plain h
      rw [ih h, Block.ext hinitial hmedial hfinal]

end Block

end Coding
