import Mathlib.Algebra.GroupWithZero.Nat
import Mathlib.Logic.Relation
import Violet.Grammar.Reads

/-!
# Shift-reduce parsers

An automaton keeps a stack of states with the values of the symbols that it has read. A token is
shifted, after the productions that are complete in front of it have been reduced. Certificates that
are checked on the tables tell what the automaton does on every word: it reads exactly the words of
the grammar, and every reduction comes to an end.
-/

namespace Parsing

inductive Action where
  | shift
  | reduce (k : ℕ)
  | accept
  | error
  deriving DecidableEq, Repr

/-- The action at a state in front of a symbol, and the state behind a symbol: `0` where there is
none. The automaton starts in the state `0`. -/
structure Automaton where
  action : ℕ → ℕ → Action
  next : ℕ → ℕ → ℕ

variable {ν : Type}

/-- The states with the values of their symbols, the last one first. -/
abbrev Stack (ν : Type) := List (ℕ × ν)

/-- The state at the top. -/
def Stack.top (st : Stack ν) : ℕ := (st.head?.map Prod.fst).getD 0

@[simp] lemma Stack.top_nil : Stack.top ([] : Stack ν) = 0 := rfl

@[simp] lemma Stack.top_cons (e : ℕ × ν) (st : Stack ν) : Stack.top (e :: st) = e.1 := rfl

/-- What becomes of a token. -/
inductive Fed (ν : Type) where
  | shifted (st : Stack ν)
  | accepted (st : Stack ν)
  | rejected
  | stuck

namespace Automaton

variable (M : Automaton) (g : Grammar ν)

/-- The state behind a symbol is put on the stack. -/
def push (st : Stack ν) (X : ℕ) (v : ν) : Stack ν := (M.next st.top X, v) :: st

/-- A production is reduced, unless its value cannot be computed. -/
def reduceBy (k : ℕ) (st : Stack ν) : Option (Stack ν) :=
  let n := (g.rhs k).length
  (g.semantics k ((st.take n).reverse.map Prod.snd)).map (M.push (st.drop n) (g.lhs k))

/-- A token is read: at most `fuel` actions are taken. -/
def feed : ℕ → Stack ν → ℕ × ν → Option (Fed ν)
  | 0, _, _ => none
  | fuel + 1, st, t =>
    match M.action st.top t.1 with
    | .shift => some (.shifted (M.push st t.1 t.2))
    | .reduce k =>
      match M.reduceBy g k st with
      | some st' => feed fuel st' t
      | none => some .stuck
    | .accept => some (.accepted st)
    | .error => some .rejected

/-- One action on a stack and the word that is left. -/
inductive Step : Stack ν × List (ℕ × ν) → Stack ν × List (ℕ × ν) → Prop where
  | shift {st : Stack ν} {t : ℕ × ν} {ts : List (ℕ × ν)} (h : M.action st.top t.1 = .shift) :
      Step (st, t :: ts) (M.push st t.1 t.2, ts)
  | reduce {st st' : Stack ν} {t : ℕ × ν} {ts : List (ℕ × ν)} {k : ℕ}
      (h : M.action st.top t.1 = .reduce k) (hst : M.reduceBy g k st = some st') :
      Step (st, t :: ts) (st', t :: ts)

/-- Actions one after the other. -/
abbrev Steps : Stack ν × List (ℕ × ν) → Stack ν × List (ℕ × ν) → Prop :=
  Relation.ReflTransGen (M.Step g)

/-- The states and values of several symbols are put on the stack. -/
def pushAll : Stack ν → List ℕ → List ν → Stack ν
  | st, X :: Xs, v :: vs => pushAll (M.push st X v) Xs vs
  | st, _, _ => st

/-- The state behind several symbols, if there is one. -/
def walk? (q : ℕ) : List ℕ → Option ℕ
  | [] => some q
  | X :: Xs => if M.next q X = 0 then none else walk? (M.next q X) Xs

/-- The state behind several symbols. -/
def walk (q : ℕ) (Xs : List ℕ) : ℕ := Xs.foldl M.next q

variable {M g} {st : Stack ν} {Xs : List ℕ} {vs : List ν}

@[simp] lemma top_push (X : ℕ) (v : ν) : (M.push st X v).top = M.next st.top X := rfl

lemma walk?_append (q : ℕ) (Xs Ys : List ℕ) :
    M.walk? q (Xs ++ Ys) = (M.walk? q Xs).bind fun r => M.walk? r Ys := by
  induction Xs generalizing q with
  | nil => rfl
  | cons X Xs ih =>
    rw [List.cons_append, walk?, walk?]
    split_ifs
    · rfl
    · exact ih _

lemma feed_mono {fuel : ℕ} {t : ℕ × ν} {r : Fed ν} (h : M.feed g fuel st t = some r) :
    M.feed g (fuel + 1) st t = some r := by
  induction fuel generalizing st with
  | zero => cases h
  | succ fuel ih =>
    rw [feed] at h ⊢
    cases hact : M.action st.top t.1 with
    | shift | accept | error => simpa [hact] using h
    | reduce k =>
      rw [hact] at h
      cases hst : M.reduceBy g k st with
      | none => simpa [hst] using h
      | some st' =>
        simp only [hst] at h ⊢
        exact ih h

lemma feed_le {fuel fuel' : ℕ} {t : ℕ × ν} {r : Fed ν} (h : M.feed g fuel st t = some r)
    (hle : fuel ≤ fuel') : M.feed g fuel' st t = some r := by
  induction hle with
  | refl => exact h
  | step _ ih => exact feed_mono ih

/-- Actions that consume the first token belong to reading it. -/
lemma exists_feed_of_steps {t : ℕ × ν} {ts ts' : List (ℕ × ν)} {st' : Stack ν}
    (h : M.Steps g (st, t :: ts) (st', ts')) (hne : ts' ≠ t :: ts) :
    ∃ fuel st₁, M.feed g fuel st t = some (.shifted st₁) ∧ M.Steps g (st₁, ts) (st', ts') := by
  generalize hc : (st, t :: ts) = c at h
  induction h using Relation.ReflTransGen.head_induction_on generalizing st with
  | refl =>
    cases hc
    exact absurd rfl hne
  | head hstep hsteps ih =>
    subst hc
    cases hstep with
    | shift h => exact ⟨1, _, by simp only [feed, h], hsteps⟩
    | reduce h hst =>
      obtain ⟨fuel, st₁, hfeed, hrest⟩ := ih rfl
      exact ⟨fuel + 1, st₁, by simp only [feed, h, hst, hfeed], hrest⟩

lemma steps_of_feed {t : ℕ × ν} {st' : Stack ν} {fuel : ℕ}
    (h : M.feed g fuel st t = some (.shifted st')) (ts : List (ℕ × ν)) :
    M.Steps g (st, t :: ts) (st', ts) := by
  induction fuel generalizing st with
  | zero => cases h
  | succ fuel ih =>
    rw [feed] at h
    cases hact : M.action st.top t.1 with
    | shift =>
      simp only [hact, Option.some.injEq, Fed.shifted.injEq] at h
      exact h ▸ .single (.shift hact)
    | reduce k =>
      cases hst : M.reduceBy g k st with
      | none => simp [hact, hst] at h
      | some st₁ =>
        simp only [hact, hst] at h
        exact .head (.reduce hact hst) (ih h)
    | accept | error => simp [hact] at h

lemma feed_unique {t : ℕ × ν} {r r' : Fed ν} {fuel fuel' : ℕ} (h : M.feed g fuel st t = some r)
    (h' : M.feed g fuel' st t = some r') : r = r' := by
  rcases Nat.le_total fuel fuel' with hle | hle
  · exact Option.some.inj ((feed_le h hle).symm.trans h')
  · exact Option.some.inj (h.symm.trans (feed_le h' hle))

/-- No two actions are possible. -/
lemma step_rightUnique : Relator.RightUnique (M.Step g) := by
  intro c c₁ c₂ h₁ h₂
  cases h₁ with
  | shift hact =>
    cases h₂ with
    | shift _ => rfl
    | reduce hact' _ =>
      rw [hact] at hact'
      cases hact'
  | reduce hact hst =>
    cases h₂ with
    | shift hact' =>
      rw [hact] at hact'
      cases hact'
    | reduce hact' hst' =>
      obtain rfl := Action.reduce.inj (hact.symm.trans hact')
      rw [Option.some.inj (hst.symm.trans hst')]

lemma suffix_of_steps {ts ts' : List (ℕ × ν)} {st' : Stack ν}
    (h : M.Steps g (st, ts) (st', ts')) : ts' <:+ ts := by
  generalize hc : (st, ts) = c at h
  generalize hc' : (st', ts') = c' at h
  induction h generalizing st' ts' with
  | refl =>
    subst hc
    cases hc'
    exact List.suffix_rfl
  | tail _ hstep ih =>
    subst hc'
    cases hstep with
    | shift _ => exact (List.suffix_cons _ _).trans (ih rfl)
    | reduce _ _ => exact ih rfl

/-- Actions in front of a token do not change what becomes of it. -/
lemma exists_feed_of_steps_self {t : ℕ × ν} {ts : List (ℕ × ν)} {st' : Stack ν} {r : Fed ν}
    {fuel : ℕ} (h : M.Steps g (st, t :: ts) (st', t :: ts))
    (hfeed : M.feed g fuel st' t = some r) : ∃ fuel, M.feed g fuel st t = some r := by
  generalize hc : (st, t :: ts) = c at h
  induction h using Relation.ReflTransGen.head_induction_on generalizing st with
  | refl =>
    cases hc
    exact ⟨fuel, hfeed⟩
  | head hstep hsteps ih =>
    subst hc
    cases hstep with
    | shift h =>
      have hlen := (suffix_of_steps hsteps).length_le
      rw [List.length_cons] at hlen
      omega
    | reduce h hst =>
      obtain ⟨fuel, hfeed⟩ := ih rfl
      exact ⟨fuel + 1, by simp only [feed, h, hst, hfeed]⟩

/-! ### Every word of the grammar is read -/

lemma top_pushAll (h : Xs.length = vs.length) : (M.pushAll st Xs vs).top = M.walk st.top Xs := by
  induction Xs generalizing st vs with
  | nil => rfl
  | cons X Xs ih =>
    cases vs with
    | nil => cases h
    | cons v vs =>
      show (M.pushAll (M.push st X v) Xs vs).top = _
      exact ih (Nat.succ.inj h)

lemma pushAll_eq (h : Xs.length = vs.length) :
    ∃ es, M.pushAll st Xs vs = es ++ st ∧ es.length = Xs.length ∧ es.reverse.map Prod.snd = vs := by
  induction Xs generalizing st vs with
  | nil =>
    cases vs with
    | nil => exact ⟨[], rfl, rfl, rfl⟩
    | cons v vs => cases h
  | cons X Xs ih =>
    cases vs with
    | nil => cases h
    | cons v vs =>
      obtain ⟨es, hes, hlen, hvs⟩ :
          ∃ es, M.pushAll (M.push st X v) Xs vs = es ++ M.push st X v ∧ es.length = Xs.length ∧
            es.reverse.map Prod.snd = vs := ih (Nat.succ.inj h)
      refine ⟨es ++ [(M.next st.top X, v)], ?_, by simp [hlen], by simp [hvs]⟩
      rw [pushAll, hes, push, List.append_assoc]
      rfl

/-- The right-hand side of a production at the top of the stack is reduced. -/
lemma reduceBy_pushAll {k : ℕ} {v : ν} (h : (g.rhs k).length = vs.length)
    (hsem : g.semantics k vs = some v) :
    M.reduceBy g k (M.pushAll st (g.rhs k) vs) = some (M.push st (g.lhs k) v) := by
  obtain ⟨es, hes, hlen, hvs⟩ := @pushAll_eq _ M st _ _ h
  simp [reduceBy, hes, ← hlen, hvs, hsem]

/-- A table of the symbols that may follow a symbol at a state, closed under the productions: where
a symbol may begin, its token is shifted, and its productions are read to their ends and reduced in
front of everything that may follow. -/
structure FollowTable extends FirstTable where
  follow : ℕ → ℕ → List ℕ

namespace FollowTable

variable (F : FollowTable) (M : Automaton) (g : Grammar ν)

/-- The symbols may be read at the state, in front of `a`. -/
def chain (q : ℕ) : List ℕ → ℕ → Bool
  | [], _ => true
  | X :: Xs, a =>
    (F.toFirstTable.firsts Xs a).all (fun b => decide (b ∈ F.follow q X)) &&
      chain (M.next q X) Xs a

structure Closed : Prop where
  first : F.toFirstTable.Closed g
  shift : ∀ q X a, a ∈ F.follow q X → g.token X = true → M.action q X = .shift
  reduce : ∀ q k a, k < g.size → a ∈ F.follow q (g.lhs k) → g.allowed k a = true →
    F.chain M q (g.rhs k) a = true ∧ M.action (M.walk q (g.rhs k)) a = .reduce k

end FollowTable

variable {F : FollowTable}

/-- The automaton reads a word as symbols that may begin at its state. -/
theorem steps_of_reads (hF : F.Closed M g) {Xs : List ℕ} {a : ℕ} {ts : List (ℕ × ν)}
    {vs : List ν} (h : g.Reads Xs a ts vs) {st : Stack ν} (hchain : F.chain M st.top Xs a = true)
    (c : ν) (rest : List (ℕ × ν)) :
    M.Steps g (st, ts ++ (a, c) :: rest) (M.pushAll st Xs vs, (a, c) :: rest) := by
  induction h generalizing st c rest with
  | nil => exact .refl
  | @token X d Xs a ts vs hX h ih =>
    obtain ⟨hfollow, hchain⟩ := Bool.and_eq_true_iff.mp hchain
    have hmem := of_decide_eq_true (List.all_eq_true.mp hfollow _ (hF.first.lookahead_mem h))
    exact .head (.shift (hF.shift _ _ _ hmem hX)) (@ih (M.push st X d) hchain c rest)
  | @produce k us ws v Xs a ts vs hk hallowed hsem hrhs h ihrhs ih =>
    obtain ⟨hfollow, hchain⟩ := Bool.and_eq_true_iff.mp hchain
    have hmem := of_decide_eq_true (List.all_eq_true.mp hfollow _ (hF.first.lookahead_mem h))
    obtain ⟨hrule, hreduce⟩ := hF.reduce _ k _ hk hmem hallowed
    obtain ⟨t, rest', hrest, ht⟩ : ∃ t rest', ts ++ (a, c) :: rest = t :: rest' ∧
        t.1 = Grammar.lookahead ts a := by
      cases ts with
      | nil => exact ⟨_, _, rfl, rfl⟩
      | cons t ts => exact ⟨_, _, rfl, rfl⟩
    have hlen := hrhs.length_eq
    have hread := @ihrhs st hrule t.2 rest'
    rw [← ht] at hread hreduce
    rw [List.append_assoc, hrest]
    refine hread.trans (.head (.reduce (by rwa [top_pushAll hlen]) (reduceBy_pushAll hlen hsem)) ?_)
    rw [← hrest]
    exact @ih (M.push st (g.lhs k) v) hchain c rest

/-! ### Only words of the grammar are read -/

/-- The stack holds the states and values of the symbols (the last one first) that the word has been
read as, in front of `a`. -/
inductive Built (M : Automaton) (g : Grammar ν) : Stack ν → List ℕ → List (ℕ × ν) → ℕ → Prop where
  | nil (a : ℕ) : Built M g [] [] [] a
  | push {st : Stack ν} {Xs : List ℕ} {us ts : List (ℕ × ν)} {X a : ℕ} {v : ν}
      (h : Built M g st Xs us (Grammar.lookahead ts a)) (hX : g.Reads [X] a ts [v])
      (hnext : M.next st.top X ≠ 0) : Built M g (M.push st X v) (X :: Xs) (us ++ ts) a

lemma Built.length_eq {us : List (ℕ × ν)} {a : ℕ} (h : Built M g st Xs us a) :
    st.length = Xs.length := by
  induction h with
  | nil => rfl
  | push _ _ _ ih => exact congrArg (· + 1) ih

lemma Built.next_ne_zero {X : ℕ} {v : ν} {us : List (ℕ × ν)} {a : ℕ}
    (h : Built M g (M.push st X v) (X :: Xs) us a) : M.next st.top X ≠ 0 := by
  generalize hst : M.push st X v = st' at h
  cases h with
  | push _ _ hnext =>
    rw [Automaton.push, Automaton.push, List.cons_eq_cons] at hst
    obtain ⟨hentry, rfl⟩ := hst
    exact hnext

/-- The top of a stack in front of `a`: the symbols `Rs` (the last one first), and what is below. -/
lemma Built.pop {Rs Zs : List ℕ} {us : List (ℕ × ν)} {a : ℕ} (h : Built M g st (Rs ++ Zs) us a) :
    ∃ es st₀ us₀ ts, st = es ++ st₀ ∧ es.length = Rs.length ∧ us = us₀ ++ ts ∧
      g.Reads Rs.reverse a ts (es.reverse.map Prod.snd) ∧
      Built M g st₀ Zs us₀ (Grammar.lookahead ts a) ∧ M.walk? st₀.top Rs.reverse = some st.top := by
  generalize hXs : Rs ++ Zs = Xs at h
  induction Rs generalizing st us a Xs with
  | nil =>
    rw [List.nil_append] at hXs
    subst hXs
    exact ⟨[], st, us, [], rfl, rfl, by simp, .nil a, h, rfl⟩
  | cons X Rs ih =>
    cases h with
    | nil => cases hXs
    | @push st Xs us ts X' a v h hX hnext =>
      obtain ⟨rfl, rfl⟩ := List.cons.inj hXs
      obtain ⟨es, st₀, us₀, ts₀, rfl, hlen, rfl, hreads, hbuilt, hwalk⟩ := ih _ rfl h
      refine ⟨(M.next (Stack.top (es ++ st₀)) X, v) :: es, st₀, us₀, ts₀ ++ ts, rfl, by simp [hlen],
        by rw [List.append_assoc], ?_, by rwa [Grammar.lookahead_append], ?_⟩
      · simpa using hreads.append hX
      · rw [List.reverse_cons, walk?_append, hwalk, Option.bind_some, walk?, if_neg hnext]
        rfl

/-- A table of the symbols that are known to be at the top of the stack at each state, with what it
certifies about the actions: only productions at the top of the stack are reduced, and there is a
state behind them; the automaton accepts behind the start symbol. -/
structure PastTable where
  past : ℕ → List ℕ
  start : ℕ
  eof : ℕ

structure PastTable.Sound (P : PastTable) (M : Automaton) (g : Grammar ν) : Prop where
  zero : P.past 0 = []
  next : ∀ q X, M.next q X ≠ 0 → P.past (M.next q X) <+: X :: P.past q
  shift : ∀ q a, M.action q a = .shift → M.next q a ≠ 0
  reduce : ∀ q a k, M.action q a = .reduce k →
    k < g.size ∧ g.allowed k a = true ∧ (g.rhs k).reverse <+: P.past q
  goto : ∀ q a k, M.action q a = .reduce k → ∀ q₀, M.walk? q₀ (g.rhs k) = some q →
    M.next q₀ (g.lhs k) ≠ 0
  accept : ∀ q a, M.action q a = .accept → a = P.eof ∧ P.past q = [P.start] ∧
    ∀ q₀ X, M.next q₀ X = q → q₀ = 0
  eof : ∀ q, M.action q P.eof ≠ .shift

variable {P : PastTable} {Fits : ℕ → ν → Prop} {us : List (ℕ × ν)} {a : ℕ}

lemma Built.past (hP : P.Sound M g) (h : Built M g st Xs us a) : P.past st.top <+: Xs := by
  induction h with
  | nil => simp [hP.zero]
  | push _ _ hnext ih =>
    refine (hP.next _ _ hnext).trans ?_
    exact List.prefix_cons_inj _ |>.mpr ih

/-- A token that is shifted is on the stack in front of anything. -/
lemma Built.shift (h : Built M g st Xs us a) (ha : g.token a = true) (hnext : M.next st.top a ≠ 0)
    (c : ν) (b : ℕ) : Built M g (M.push st a c) (a :: Xs) (us ++ [(a, c)]) b :=
  .push h (.singleton ha b c) hnext

/-- A reduction keeps what has been read. -/
lemma Built.reduce (hP : P.Sound M g) (hg : g.Typed Fits) (hfits : ∀ t ∈ us, Fits t.1 t.2)
    (h : Built M g st Xs us a) {k : ℕ} (hact : M.action st.top a = .reduce k) :
    ∃ st' Zs, M.reduceBy g k st = some st' ∧ Xs = (g.rhs k).reverse ++ Zs ∧
      Built M g st' (g.lhs k :: Zs) us a ∧
      ∃ q₀, M.walk? q₀ (g.rhs k) = some st.top ∧ st'.top = M.next q₀ (g.lhs k) := by
  obtain ⟨hk, hallowed, hrhs⟩ := hP.reduce _ _ _ hact
  obtain ⟨Zs, rfl⟩ := hrhs.trans (h.past hP)
  obtain ⟨es, st₀, us₀, ts, rfl, hlen, rfl, hreads, hbuilt, hwalk⟩ := h.pop
  rw [List.reverse_reverse] at hreads hwalk
  obtain ⟨v, hv, -⟩ := hg.semantics k hk _ (hg.fits hreads fun t ht => hfits t (by simp [ht]))
  have hred : M.reduceBy g k (es ++ st₀) = some (M.push st₀ (g.lhs k) v) := by
    rw [List.length_reverse] at hlen
    simp only [reduceBy, ← hlen, List.take_left, List.drop_left, hv, Option.map_some]
  have hnext := hP.goto _ _ _ hact _ hwalk
  exact ⟨_, Zs, hred, rfl, .push hbuilt (.of_rhs hk hallowed hv hreads) hnext,
    st₀.top, hwalk, rfl⟩

/-- Reading a token keeps what has been read: the stack is built of the word with the token, or the
word is one of the start symbol. -/
theorem Built.feed (hP : P.Sound M g) (hg : g.Typed Fits) (hfits : ∀ t ∈ us, Fits t.1 t.2)
    (h : Built M g st Xs us a) (ha : g.token a = true ∨ a = P.eof) {c : ν} {fuel : ℕ} {r : Fed ν}
    (hfeed : M.feed g fuel st (a, c) = some r) :
    (∃ st₀ Zs, r = .shifted (M.push st₀ a c) ∧ g.token a = true ∧ Built M g st₀ Zs us a ∧
      M.next st₀.top a ≠ 0) ∨
    (∃ v, r = .accepted [(M.next 0 P.start, v)] ∧ a = P.eof ∧ g.Reads [P.start] P.eof us [v]) ∨
    r = .rejected := by
  induction fuel generalizing st Xs with
  | zero => cases hfeed
  | succ fuel ih =>
    rw [Automaton.feed] at hfeed
    cases hact : M.action st.top a with
    | shift =>
      simp only [hact, Option.some.injEq] at hfeed
      have htoken : g.token a = true := ha.resolve_right fun heof => hP.eof _ (heof ▸ hact)
      exact .inl ⟨st, Xs, hfeed.symm, htoken, h, hP.shift _ _ hact⟩
    | reduce k =>
      obtain ⟨st', Zs, hst, -, hbuilt, -⟩ := h.reduce hP hg hfits hact
      simp only [hact, hst] at hfeed
      exact ih hbuilt hfeed
    | accept =>
      simp only [hact, Option.some.injEq] at hfeed
      obtain ⟨rfl, hpast, hzero⟩ := hP.accept _ _ hact
      refine .inr (.inl ?_)
      cases h with
      | nil =>
        rw [Stack.top_nil, hP.zero] at hpast
        cases hpast
      | @push st Xs us ts X a v h hX hnext =>
        have hXs := h.push hX hnext |>.past hP
        rw [hpast] at hXs
        obtain rfl : P.start = X := (List.cons_prefix_cons.mp hXs).1
        have h0 : st.top = 0 := hzero _ _ rfl
        cases h with
        | nil => exact ⟨v, hfeed.symm, rfl, hX⟩
        | push _ _ hnext' => exact absurd h0 hnext'
    | error =>
      simp only [hact, Option.some.injEq] at hfeed
      exact .inr (.inr hfeed.symm)

/-! ### Reductions come to an end -/

/-- Weights of the symbols, and of the states at which an empty production may be reduced. -/
structure WeightTable where
  weight : ℕ → ℕ
  pot : ℕ → ℕ

/-- Every reduction makes a stack lighter. -/
def WeightTable.Falls (W : WeightTable) (M : Automaton) (g : Grammar ν) : Prop :=
  ∀ q a k, M.action q a = .reduce k → ∀ q₀, M.walk? q₀ (g.rhs k) = some q →
    W.weight (g.lhs k) + W.pot (M.next q₀ (g.lhs k)) <
      ((g.rhs k).map W.weight).sum + W.pot q

/-- The weight of a stack with these symbols and this top. -/
def WeightTable.total (W : WeightTable) (Xs : List ℕ) (q : ℕ) : ℕ :=
  (Xs.map W.weight).sum + W.pot q

variable {W : WeightTable}

/-- A token is read with as much fuel as the stack is heavy. -/
theorem Built.exists_feed (hP : P.Sound M g) (hg : g.Typed Fits) (hW : W.Falls M g)
    (hfits : ∀ t ∈ us, Fits t.1 t.2) (h : Built M g st Xs us a) (c : ν) {fuel : ℕ}
    (hfuel : W.total Xs st.top < fuel) : ∃ r, M.feed g fuel st (a, c) = some r := by
  induction fuel generalizing st Xs with
  | zero => cases hfuel
  | succ fuel ih =>
    rw [Automaton.feed]
    cases hact : M.action st.top a with
    | shift | accept | error => exact ⟨_, rfl⟩
    | reduce k =>
      obtain ⟨st', Zs, hst, rfl, hbuilt, q₀, hwalk, htop⟩ := h.reduce hP hg hfits hact
      simp only [hst]
      refine ih hbuilt ?_
      have hfalls := hW _ _ _ hact q₀ hwalk
      rw [htop]
      simp only [WeightTable.total, List.map_cons, List.sum_cons, List.map_append, List.map_reverse,
        List.sum_append, List.sum_reverse] at hfuel ⊢
      omega

end Automaton

end Parsing
