import Mathlib.Data.List.Forall2
import Mathlib.Tactic.Lemma

/-!
# Grammars whose words have values

A production rewrites a symbol and computes a value of it from the values of what it stands for. A
production may be forbidden in front of a symbol: this resolves the conflicts of a grammar that has
several derivations of one word. A word is read as a list of symbols when it is cut into words of
these, each production being complete in front of what follows.
-/

namespace Parsing

/-- Symbols are numbers. The productions are those below `size`, and a token has a symbol that is
marked as one. -/
structure Grammar (ν : Type) where
  lhs : ℕ → ℕ
  rhs : ℕ → List ℕ
  size : ℕ
  token : ℕ → Bool
  allowed : ℕ → ℕ → Bool
  semantics : ℕ → List ν → Option ν

namespace Grammar

variable {ν : Type} {g : Grammar ν}

/-- The first symbol of a word with `a` behind it. -/
def lookahead (ts : List (ℕ × ν)) (a : ℕ) : ℕ := (ts.head?.map Prod.fst).getD a

@[simp] lemma lookahead_nil (a : ℕ) : lookahead ([] : List (ℕ × ν)) a = a := rfl

@[simp] lemma lookahead_cons (t : ℕ × ν) (ts : List (ℕ × ν)) (a : ℕ) :
    lookahead (t :: ts) a = t.1 := rfl

@[simp] lemma lookahead_append (ts us : List (ℕ × ν)) (a : ℕ) :
    lookahead (ts ++ us) a = lookahead ts (lookahead us a) := by
  cases ts <;> rfl

/-- The word `ts` is read as the symbols, in front of `a`, with the values `vs`. -/
inductive Reads (g : Grammar ν) : List ℕ → ℕ → List (ℕ × ν) → List ν → Prop where
  | nil (a : ℕ) : Reads g [] a [] []
  | token {X : ℕ} {c : ν} {Xs : List ℕ} {a : ℕ} {ts : List (ℕ × ν)} {vs : List ν}
      (hX : g.token X = true) (h : Reads g Xs a ts vs) :
      Reads g (X :: Xs) a ((X, c) :: ts) (c :: vs)
  | produce {k : ℕ} {us : List (ℕ × ν)} {ws : List ν} {v : ν} {Xs : List ℕ} {a : ℕ}
      {ts : List (ℕ × ν)} {vs : List ν} (hk : k < g.size)
      (hallowed : g.allowed k (lookahead ts a) = true) (hsem : g.semantics k ws = some v)
      (hrhs : Reads g (g.rhs k) (lookahead ts a) us ws) (h : Reads g Xs a ts vs) :
      Reads g (g.lhs k :: Xs) a (us ++ ts) (v :: vs)

/-- The symbols derive a word of terminal symbols. -/
inductive Derives (g : Grammar ν) (terminal : ℕ → Bool) : List ℕ → List ℕ → Prop where
  | nil : Derives g terminal [] []
  | terminal {X : ℕ} {Xs w : List ℕ} (hX : terminal X = true) (h : Derives g terminal Xs w) :
      Derives g terminal (X :: Xs) (X :: w)
  | produce {k : ℕ} {u Xs w : List ℕ} (hk : k < g.size) (hrhs : Derives g terminal (g.rhs k) u)
      (h : Derives g terminal Xs w) : Derives g terminal (g.lhs k :: Xs) (u ++ w)

namespace Reads

variable {X k a : ℕ} {Xs Ys : List ℕ} {ts us : List (ℕ × ν)} {v c : ν} {vs ws : List ν}

lemma length_eq (h : Reads g Xs a ts vs) : Xs.length = vs.length := by
  induction h with
  | nil => rfl
  | token _ _ ih => exact congrArg (· + 1) ih
  | produce _ _ _ _ _ _ ih => exact congrArg (· + 1) ih

/-- One token. -/
lemma singleton (hX : g.token X = true) (a : ℕ) (c : ν) : Reads g [X] a [(X, c)] [c] :=
  .token hX (.nil a)

/-- One production. -/
lemma of_rhs (hk : k < g.size) (hallowed : g.allowed k a = true)
    (hsem : g.semantics k ws = some v) (hrhs : Reads g (g.rhs k) a us ws) :
    Reads g [g.lhs k] a us [v] := by
  have h : Reads g [g.lhs k] a (us ++ []) [v] := .produce hk hallowed hsem hrhs (.nil a)
  rwa [List.append_nil] at h

lemma append (h : Reads g Xs (lookahead us a) ts vs) (h' : Reads g Ys a us ws) :
    Reads g (Xs ++ Ys) a (ts ++ us) (vs ++ ws) := by
  generalize hb : lookahead us a = b at h
  induction h with
  | nil => exact h'
  | token hX _ ih => exact .token hX (ih hb)
  | @produce k us' ws' v Xs b ts vs hk hallowed hsem hrhs _ _ ih =>
    have hahead : lookahead ts b = lookahead (ts ++ us) a := by rw [lookahead_append, hb]
    rw [hahead] at hallowed hrhs
    rw [List.append_assoc]
    exact .produce hk hallowed hsem hrhs (ih hb)

/-- The word of several symbols is cut behind the first ones. -/
lemma split (h : Reads g (Xs ++ Ys) a ts vs) :
    ∃ ts₁ ts₂ vs₁ vs₂, ts = ts₁ ++ ts₂ ∧ vs = vs₁ ++ vs₂ ∧ Reads g Xs (lookahead ts₂ a) ts₁ vs₁ ∧
      Reads g Ys a ts₂ vs₂ := by
  generalize hZs : Xs ++ Ys = Zs at h
  induction h generalizing Xs with
  | nil a =>
    obtain ⟨rfl, rfl⟩ := List.append_eq_nil_iff.mp hZs
    exact ⟨[], [], [], [], rfl, rfl, .nil a, .nil a⟩
  | @token X c Zs a ts vs hX h ih =>
    cases Xs with
    | nil =>
      rw [List.nil_append] at hZs
      subst hZs
      exact ⟨[], _, [], _, rfl, rfl, .nil _, .token hX h⟩
    | cons X' Xs =>
      obtain ⟨rfl, rfl⟩ := List.cons.inj hZs
      obtain ⟨ts₁, ts₂, vs₁, vs₂, rfl, rfl, h₁, h₂⟩ := ih rfl
      exact ⟨(X', c) :: ts₁, ts₂, c :: vs₁, vs₂, rfl, rfl, .token hX h₁, h₂⟩
  | @produce k us ws v Zs a ts vs hk hallowed hsem hrhs h _ ih =>
    cases Xs with
    | nil =>
      rw [List.nil_append] at hZs
      subst hZs
      exact ⟨[], _, [], _, rfl, rfl, .nil _, .produce hk hallowed hsem hrhs h⟩
    | cons X' Xs =>
      obtain ⟨rfl, rfl⟩ := List.cons.inj hZs
      obtain ⟨ts₁, ts₂, vs₁, vs₂, rfl, rfl, h₁, h₂⟩ := ih rfl
      rw [lookahead_append] at hallowed hrhs
      exact ⟨us ++ ts₁, ts₂, v :: vs₁, vs₂, by rw [List.append_assoc], rfl,
        .produce hk hallowed hsem hrhs h₁, h₂⟩

/-- Reading a word derives it. -/
theorem derives {terminal : ℕ → Bool} (h : Reads g Xs a ts vs)
    (hts : ∀ t ∈ ts, terminal t.1 = true) : g.Derives terminal Xs (ts.map Prod.fst) := by
  induction h with
  | nil => exact .nil
  | token _ _ ih =>
    exact .terminal (hts _ List.mem_cons_self) (ih fun t ht => hts t (List.mem_cons_of_mem _ ht))
  | produce hk _ _ _ _ ihrhs ih =>
    rw [List.map_append]
    exact .produce hk (ihrhs fun t ht => hts t (by simp [ht])) (ih fun t ht => hts t (by simp [ht]))

/-- Every symbol of the word is a token. -/
lemma token_of_mem (h : Reads g Xs a ts vs) : ∀ t ∈ ts, g.token t.1 = true := by
  induction h with
  | nil => simp
  | token hX _ ih => simpa using ⟨hX, fun X c => ih (X, c)⟩
  | produce _ _ _ _ _ ihrhs ih =>
    intro t ht
    rcases List.mem_append.mp ht with ht | ht
    · exact ihrhs t ht
    · exact ih t ht

/-- A property of tokens that the productions ask for when they compute their values. -/
lemma forall_mem {P : ℕ → ν → Prop}
    (hP : ∀ k < g.size, ∀ ws v, g.semantics k ws = some v →
      ∀ e ∈ (g.rhs k).zip ws, g.token e.1 = true → P e.1 e.2)
    (h : Reads g Xs a ts vs) (htop : ∀ e ∈ Xs.zip vs, g.token e.1 = true → P e.1 e.2) :
    ∀ t ∈ ts, P t.1 t.2 := by
  induction h with
  | nil => simp
  | token hX _ ih =>
    intro t ht
    rcases List.mem_cons.mp ht with rfl | ht
    · exact htop _ (by simp) hX
    · exact ih (fun e he => htop e (by simp [he])) t ht
  | produce hk _ hsem _ _ ihrhs ih =>
    intro t ht
    rcases List.mem_append.mp ht with ht | ht
    · exact ihrhs (hP _ hk _ _ hsem) t ht
    · exact ih (fun e he => htop e (by simp [he])) t ht

end Reads

/-- Values that fit their symbols: every production computes a value that fits from values that
do, and there is a token of every token symbol. -/
structure Typed (g : Grammar ν) (Fits : ℕ → ν → Prop) : Prop where
  semantics : ∀ k < g.size, ∀ vs, List.Forall₂ Fits (g.rhs k) vs →
    ∃ v, g.semantics k vs = some v ∧ Fits (g.lhs k) v
  token : ∀ X, g.token X = true → ∃ c, Fits X c

lemma Typed.fits {Fits : ℕ → ν → Prop} (hg : g.Typed Fits) {Xs : List ℕ} {a : ℕ}
    {ts : List (ℕ × ν)} {vs : List ν} (h : Reads g Xs a ts vs) (hts : ∀ t ∈ ts, Fits t.1 t.2) :
    List.Forall₂ Fits Xs vs := by
  induction h with
  | nil => exact .nil
  | token _ _ ih =>
    exact .cons (hts _ List.mem_cons_self) (ih fun t ht => hts t (List.mem_cons_of_mem _ ht))
  | @produce k us ws v Xs a ts vs hk _ hsem _ _ ihrhs ih =>
    obtain ⟨v', hv', hfits⟩ := hg.semantics k hk ws (ihrhs fun t ht => hts t (by simp [ht]))
    obtain rfl : v = v' := Option.some.inj (hsem.symm.trans hv')
    exact .cons hfits (ih fun t ht => hts t (by simp [ht]))

end Grammar

/-! ### First symbols -/

/-- A table of the first symbols of the words of each symbol, and of the symbols that may stand for
the empty word. -/
structure FirstTable where
  first : ℕ → List ℕ
  nullable : ℕ → Bool

namespace FirstTable

variable (F : FirstTable) {ν : Type} (g : Grammar ν)

/-- The possible first symbols of a word of `Xs` with `a` behind it. -/
def firsts : List ℕ → ℕ → List ℕ
  | [], a => [a]
  | X :: Xs, a => F.first X ++ if F.nullable X then firsts Xs a else []

/-- The first symbols of the words of `Xs` that are not empty. -/
def inner : List ℕ → List ℕ
  | [] => []
  | X :: Xs => F.first X ++ if F.nullable X then inner Xs else []

lemma mem_inner_or {Xs : List ℕ} {a b : ℕ} (h : b ∈ F.firsts Xs a) :
    b ∈ F.inner Xs ∨ b = a ∧ Xs.all F.nullable = true := by
  induction Xs with
  | nil => exact .inr ⟨List.mem_singleton.mp h, rfl⟩
  | cons X Xs ih =>
    rw [firsts] at h
    rw [inner]
    split_ifs at h ⊢ with hX
    · rcases List.mem_append.mp h with hfirst | hrest
      · exact .inl (List.mem_append_left _ hfirst)
      · rcases ih hrest with hinner | ⟨rfl, hall⟩
        · exact .inl (List.mem_append_right _ hinner)
        · exact .inr ⟨rfl, by simp [hX, hall]⟩
    · exact .inl h

/-- The table is closed under the productions. -/
structure Closed : Prop where
  token : ∀ X, g.token X = true → X ∈ F.first X
  produce : ∀ k < g.size, ∀ a, ∀ b ∈ F.firsts (g.rhs k) a,
    b ∈ F.first (g.lhs k) ∨ b = a ∧ F.nullable (g.lhs k) = true

variable {F g}

/-- The first symbol of a word that is read. -/
theorem Closed.lookahead_mem (hF : F.Closed g) {Xs : List ℕ} {a : ℕ} {ts : List (ℕ × ν)}
    {vs : List ν} (h : g.Reads Xs a ts vs) : Grammar.lookahead ts a ∈ F.firsts Xs a := by
  induction h with
  | nil a => exact List.mem_singleton_self a
  | token hX _ _ => exact List.mem_append_left _ (hF.token _ hX)
  | @produce k us ws v Xs a ts vs hk _ _ _ _ ihrhs ih =>
    rw [Grammar.lookahead_append]
    rcases hF.produce k hk _ _ ihrhs with hmem | ⟨heq, hnull⟩
    · exact List.mem_append_left _ hmem
    · rw [heq, firsts, if_pos hnull]
      exact List.mem_append_right _ ih

end FirstTable

end Parsing
