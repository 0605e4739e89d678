import Violet.Dart.FixedList
import Violet.Links.Connected

/-!
# Disjoint sets

`DisjointSet` keeps for every element another one of its class, which is no greater, or the element
itself when it is the representative. `find` follows these links and shortens the path that it has
followed. Nothing stands for a range error, and for a call that has not returned within so many
calls of `find`.
-/

namespace Violet

namespace DisjointSet

open Dart (setAt setAt_of_lt)

/-- The constructor. -/
def ofSize (n : ℕ) : List ℕ := List.range n

/-- The result and the array afterwards. -/
def find : ℕ → List ℕ → ℕ → Option (ℕ × List ℕ)
  | 0, _, _ => none
  | fuel + 1, array, x => do
    let p ← array[x]?
    if p = x then some (x, array)
    else do
      let (r, array) ← find fuel array p
      let array ← setAt array x r
      some (r, array)

def union (fuel : ℕ) (array : List ℕ) (a b : ℕ) : Option (List ℕ) := do
  let (aa, array) ← find fuel array a
  let (bb, array) ← find fuel array b
  if aa = bb then some array
  else if aa > bb then setAt array aa bb
  else setAt array bb aa

inductive SetCall where
  | find (x : ℕ)
  | union (a b : ℕ)

/-- The arguments are in range. -/
def SetCall.InRange (n : ℕ) : SetCall → Prop
  | find x => x < n
  | union a b => a < n ∧ b < n

/-- The array after a call. -/
def SetCall.exec (fuel : ℕ) (array : List ℕ) : SetCall → Option (List ℕ)
  | find x => (DisjointSet.find fuel array x).map Prod.snd
  | union a b => DisjointSet.union fuel array a b

/-- The array after the calls. -/
def run (fuel : ℕ) (array : List ℕ) (calls : List SetCall) : Option (List ℕ) :=
  calls.foldlM (SetCall.exec fuel) array

/-- What a call connects. -/
def SetCall.links : SetCall → List (ℕ × ℕ)
  | find _ => []
  | union a b => [(a, b)]

/-- The unions of the calls. -/
def links (calls : List SetCall) : List (ℕ × ℕ) := calls.flatMap SetCall.links

/-! ### Roots -/

/-- No element refers to a greater one. -/
def Descending (array : List ℕ) : Prop :=
  ∀ x p : ℕ, array[x]? = some p → p ≤ x

/-- The last element on the way from `x` down. -/
def rootOf (array : List ℕ) (x : ℕ) : ℕ :=
  match array[x]? with
  | none => x
  | some p => if _h : p < x then rootOf array p else x
termination_by x

variable {array : List ℕ} {x y p r n fuel : ℕ}

lemma rootOf_of_lt (hp : array[x]? = some p) (h : p < x) : rootOf array x = rootOf array p := by
  rw [rootOf, hp]
  exact dif_pos h

lemma rootOf_of_self (h : array[x]? = some x) : rootOf array x = x := by
  rw [rootOf, h]
  exact dif_neg (lt_irrefl x)

lemma rootOf_of_none (h : array[x]? = none) : rootOf array x = x := by
  rw [rootOf, h]

/-- The cases of the recursion. -/
lemma root_cases (harray : Descending array) (x : ℕ) :
    rootOf array x = x ∨ ∃ p, array[x]? = some p ∧ p < x ∧ rootOf array x = rootOf array p := by
  rcases hp : array[x]? with _ | p
  · exact .inl (rootOf_of_none hp)
  · rcases (harray x p hp).eq_or_lt with rfl | h
    · exact .inl (rootOf_of_self hp)
    · exact .inr ⟨p, rfl, h, rootOf_of_lt hp h⟩

lemma rootOf_le (harray : Descending array) (x : ℕ) : rootOf array x ≤ x := by
  induction x using Nat.strong_induction_on with
  | _ x ih =>
    rcases root_cases harray x with h | ⟨p, -, hlt, h⟩
    · exact h.le
    · rw [h]
      exact (ih p hlt).trans hlt.le

lemma rootOf_rootOf (harray : Descending array) (x : ℕ) :
    rootOf array (rootOf array x) = rootOf array x := by
  induction x using Nat.strong_induction_on with
  | _ x ih =>
    rcases root_cases harray x with h | ⟨p, -, hlt, h⟩
    · rw [h, h]
    · rw [h]
      exact ih p hlt

lemma Descending.set (harray : Descending array) (hr : r ≤ x) : Descending (array.set x r) := by
  intro y p hp
  rw [List.getElem?_set] at hp
  split_ifs at hp with hxy
  · obtain rfl := Option.some.inj hp
    exact hxy ▸ hr
  · exact harray y p hp

lemma descending_ofSize (n : ℕ) : Descending (ofSize n) := by
  intro x p hp
  obtain ⟨-, rfl⟩ := List.getElem?_eq_some_iff.mp hp
  exact (List.getElem_range _).le

lemma rootOf_ofSize (n x : ℕ) : rootOf (ofSize n) x = x := by
  by_cases hx : x < n
  · exact rootOf_of_self (List.getElem?_range hx)
  · exact rootOf_of_none (List.getElem?_eq_none (by simpa [ofSize] using hx))

/-- An entry is written. What becomes of the root of `x` becomes of the roots of all elements. -/
lemma rootOf_set (harray : Descending array) {f : ℕ → ℕ} (hf : ∀ s, s ≠ x → f s = s)
    (hx : (∀ y < x, rootOf (array.set x r) y = f (rootOf array y)) →
      rootOf (array.set x r) x = f (rootOf array x)) (y : ℕ) :
    rootOf (array.set x r) y = f (rootOf array y) := by
  induction y using Nat.strong_induction_on with
  | _ y ih =>
    by_cases hxy : x = y
    · subst hxy
      exact hx ih
    · have hget : (array.set x r)[y]? = array[y]? := List.getElem?_set_ne hxy
      rcases hp : array[y]? with _ | p
      · rw [rootOf_of_none (hget.trans hp), rootOf_of_none hp, hf y (Ne.symm hxy)]
      · rcases (harray y p hp).eq_or_lt with rfl | hlt
        · rw [rootOf_of_self (hget.trans hp), rootOf_of_self hp, hf p (Ne.symm hxy)]
        · rw [rootOf_of_lt (hget.trans hp) hlt, rootOf_of_lt hp hlt]
          exact ih p hlt

/-- A shorter path leads to the same root. -/
lemma rootOf_set_rootOf (harray : Descending array) (hx : x < array.length) :
    rootOf (array.set x (rootOf array x)) = rootOf array := by
  funext y
  refine rootOf_set (f := id) harray (fun _ _ => rfl) (fun hbelow => ?_) y
  have hget : (array.set x (rootOf array x))[x]? = some (rootOf array x) :=
    List.getElem?_set_self hx
  rcases (rootOf_le harray x).eq_or_lt with h | h
  · rw [h] at hget ⊢
    exact rootOf_of_self hget
  · rw [rootOf_of_lt hget h, hbelow _ h, rootOf_rootOf harray]

/-- A root that refers to a lesser one hands over its class. -/
lemma rootOf_set_of_root (harray : Descending array) (hx : x < array.length) (hlt : r < x)
    (hr : rootOf array r = r) (hroot : rootOf array x = x) (y : ℕ) :
    rootOf (array.set x r) y = if rootOf array y = x then r else rootOf array y := by
  refine rootOf_set (f := fun s => if s = x then r else s) harray (fun s hs => if_neg hs)
    (fun hbelow => ?_) y
  rw [rootOf_of_lt (List.getElem?_set_self hx) hlt, hbelow r hlt, hr, hroot, if_neg hlt.ne,
    if_pos rfl]

/-! ### Calls -/

/-- The array of `n` elements represents the classes that the links make. -/
structure Valid (n : ℕ) (links : List (ℕ × ℕ)) (array : List ℕ) : Prop where
  length : array.length = n
  descending : Descending array
  represents : Links.Represents (rootOf array) links

variable {links : List (ℕ × ℕ)} {a b : ℕ}

lemma valid_ofSize (n : ℕ) : Valid n [] (ofSize n) := by
  refine ⟨List.length_range, descending_ofSize n, ?_⟩
  rw [funext (rootOf_ofSize n)]
  exact Links.represents_nil

/-- The root of an element is the least one of its class. -/
lemma Valid.isLeast (h : Valid n links array) (a : ℕ) :
    IsLeast {x | Links.Connected links a x} (rootOf array a) := by
  constructor
  · exact (h.represents a _).mp (rootOf_rootOf h.descending a).symm
  · intro x hx
    rw [(h.represents a x).mpr hx]
    exact rootOf_le h.descending x

/-- `find` returns the root, and the classes stay as they are. -/
lemma Valid.find (h : Valid n links array) (hx : x < n) (hfuel : x < fuel) :
    ∃ array', find fuel array x = some (rootOf array x, array') ∧ Valid n links array' ∧
      rootOf array' = rootOf array := by
  induction fuel generalizing x with
  | zero => exact absurd hfuel (Nat.not_lt_zero x)
  | succ fuel ih =>
    obtain ⟨p, hp⟩ : ∃ p, array[x]? = some p :=
      ⟨_, List.getElem?_eq_getElem (h.length ▸ hx)⟩
    rw [DisjointSet.find, hp, Option.bind_eq_bind, Option.bind_some]
    rcases (h.descending x p hp).eq_or_lt with rfl | hlt
    · rw [if_pos rfl, rootOf_of_self hp]
      exact ⟨array, rfl, h, rfl⟩
    · obtain ⟨array', hfind, h', hroot⟩ := ih (hlt.trans hx) (by omega)
      have hx' : x < array'.length := h'.length ▸ hx
      have hset : rootOf (array'.set x (rootOf array p)) = rootOf array' := by
        rw [← rootOf_of_lt hp hlt, ← hroot]
        exact rootOf_set_rootOf h'.descending hx'
      rw [if_neg hlt.ne, hfind, Option.bind_eq_bind, Option.bind_some]
      refine ⟨array'.set x (rootOf array p), ?_, ⟨?_, ?_, ?_⟩, hset.trans hroot⟩
      · rw [rootOf_of_lt hp hlt]
        simp only [setAt_of_lt hx']
        rfl
      · rw [List.length_set, h'.length]
      · exact h'.descending.set ((rootOf_le h.descending p).trans hlt.le)
      · rw [hset]
        exact h'.represents

/-- One root that is set to a lesser one merges two classes. -/
lemma Valid.set (h : Valid n links array) (hb : b < n)
    (hlt : rootOf array a < rootOf array b) :
    Valid n (links ++ [(a, b)]) (array.set (rootOf array b) (rootOf array a)) := by
  have hlen : rootOf array b < array.length := by
    rw [h.length]
    exact (rootOf_le h.descending b).trans_lt hb
  refine ⟨?_, h.descending.set hlt.le, ?_⟩
  · rw [List.length_set, h.length]
  · have hmerge : rootOf (array.set (rootOf array b) (rootOf array a)) =
        Links.merge (rootOf array) a b := by
      funext y
      rw [rootOf_set_of_root h.descending hlen hlt (rootOf_rootOf h.descending a)
        (rootOf_rootOf h.descending b), Links.merge, min_eq_left hlt.le]
      split_ifs <;> simp_all
    rw [hmerge]
    exact h.represents.merge a b

/-- `union` makes one more link. -/
lemma Valid.union (h : Valid n links array) (ha : a < n) (hb : b < n) (hfuel : n ≤ fuel) :
    ∃ array', union fuel array a b = some array' ∧ Valid n (links ++ [(a, b)]) array' := by
  obtain ⟨array₁, hfind₁, h₁, hroot₁⟩ := h.find ha (ha.trans_le hfuel)
  obtain ⟨array₂, hfind₂, h₂, hroot₂⟩ := h₁.find hb (hb.trans_le hfuel)
  rw [← hroot₁, ← hroot₂] at hfind₁
  rw [← hroot₂] at hfind₂
  rw [DisjointSet.union, hfind₁, Option.bind_eq_bind, Option.bind_some]
  simp only [hfind₂, Option.bind_some]
  rcases lt_trichotomy (rootOf array₂ a) (rootOf array₂ b) with hlt | heq | hgt
  · rw [if_neg hlt.ne, if_neg hlt.not_gt, setAt_of_lt]
    · exact ⟨_, rfl, h₂.set hb hlt⟩
    · rw [h₂.length]
      exact (rootOf_le h₂.descending b).trans_lt hb
  · rw [if_pos heq]
    refine ⟨array₂, rfl, h₂.length, h₂.descending, ?_⟩
    exact h₂.represents.of_connected ((h₂.represents a b).mp heq)
  · rw [if_neg hgt.ne', if_pos hgt, setAt_of_lt]
    · have h' := h₂.set ha hgt
      exact ⟨_, rfl, h'.length, h'.descending, h'.represents.swap⟩
    · rw [h₂.length]
      exact (rootOf_le h₂.descending a).trans_lt ha

lemma links_append (calls : List SetCall) (c : SetCall) :
    DisjointSet.links (calls ++ [c]) = DisjointSet.links calls ++ c.links := by
  rw [DisjointSet.links, List.flatMap_append, List.flatMap_singleton]
  rfl

/-- No call fails, and the array represents what the unions connect. -/
lemma run_spec {calls : List SetCall} (hcalls : ∀ c ∈ calls, c.InRange n) (hfuel : n ≤ fuel) :
    ∃ array, run fuel (ofSize n) calls = some array ∧
      Valid n (DisjointSet.links calls) array := by
  refine Dart.foldlM_inv (fun calls array => Valid n (DisjointSet.links calls) array)
    (valid_ofSize n) fun calls c hc array h => ?_
  rw [links_append]
  have hrange := hcalls c hc
  cases c with
  | find x =>
    obtain ⟨array', hfind, h', -⟩ := h.find hrange (hrange.trans_le hfuel)
    refine ⟨array', ?_, ?_⟩
    · rw [SetCall.exec, hfind]
      rfl
    · rwa [SetCall.links, List.append_nil]
  | union a b => exact h.union hrange.1 hrange.2 hfuel

/-- After any calls, `find` returns, and what it returns is the least element that the unions
connect with its argument. It returns the same for two elements exactly when the unions connect
them. -/
theorem find_of_run {n fuel : ℕ} {calls : List SetCall} (hcalls : ∀ c ∈ calls, c.InRange n)
    (hfuel : n ≤ fuel) :
    ∃ array, run fuel (ofSize n) calls = some array ∧
      ∀ a < n, ∃ r array', find fuel array a = some (r, array') ∧
        IsLeast {x | Links.Connected (DisjointSet.links calls) a x} r ∧
        ∀ b < n, ∃ s array'', find fuel array' b = some (s, array'') ∧
          (r = s ↔ Links.Connected (DisjointSet.links calls) a b) := by
  obtain ⟨array, hrun, h⟩ := run_spec hcalls hfuel
  refine ⟨array, hrun, fun a ha => ?_⟩
  obtain ⟨array', hfind, h', hroot⟩ := h.find ha (ha.trans_le hfuel)
  refine ⟨_, array', hfind, h.isLeast a, fun b hb => ?_⟩
  obtain ⟨array'', hfind', -⟩ := h'.find hb (hb.trans_le hfuel)
  refine ⟨_, array'', hfind', ?_⟩
  rw [hroot]
  exact h.represents a b

/-- Two elements out of three, joined after the third has been looked up. -/
theorem find_of_run_threeElements :
    ∃ array, run 3 (ofSize 3) [.find 2, .union 2 1] = some array ∧
      ∀ a < 3, ∃ r array', find 3 array a = some (r, array') ∧
        IsLeast {x | Links.Connected (DisjointSet.links [.find 2, .union 2 1]) a x} r ∧
        ∀ b < 3, ∃ s array'', find 3 array' b = some (s, array'') ∧
          (r = s ↔ Links.Connected (DisjointSet.links [.find 2, .union 2 1]) a b) := by
  refine find_of_run ?_ le_rfl
  intro c hc
  rcases List.mem_pair.mp hc with rfl | rfl
  · exact Nat.lt_succ_self 2
  · exact ⟨Nat.lt_succ_self 2, by decide⟩

end DisjointSet

end Violet
