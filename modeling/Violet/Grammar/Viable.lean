import Violet.Grammar.ShiftReduce

/-!
# Viable prefixes

A stack is never a dead end: what has been read without an error is the beginning of a word of the
grammar. For each symbol that may come next at a state, a table names a production that needs it
there; the rest of the production is filled with short words, and the symbol that it produces is
then placed below, until the start symbol is reached.
-/

namespace Parsing

variable {ν : Type}

namespace Grammar

variable {g : Grammar ν}

/-- No production is forbidden in front of the symbol. -/
def Free (g : Grammar ν) (a : ℕ) : Prop := ∀ k < g.size, g.allowed k a = true

/-- A word that is read as the symbol in front of every free symbol, and has none but free symbols
itself. -/
def ReadsFreely (g : Grammar ν) (Xs : List ℕ) (ts : List (ℕ × ν)) (vs : List ν) : Prop :=
  (∀ t ∈ ts, g.Free t.1) ∧ ∀ a, g.Free a → g.Reads Xs a ts vs

lemma ReadsFreely.free_lookahead {Xs : List ℕ} {ts : List (ℕ × ν)} {vs : List ν}
    (h : g.ReadsFreely Xs ts vs) {a : ℕ} (ha : g.Free a) : g.Free (lookahead ts a) := by
  cases ts with
  | nil => exact ha
  | cons t ts => exact h.1 t List.mem_cons_self

variable {Fits : ℕ → ν → Prop}

/-- A word of several symbols from words of each one. -/
lemma exists_readsFreely {Xs : List ℕ}
    (h : ∀ X ∈ Xs, ∃ ts v, g.ReadsFreely [X] ts [v] ∧ ∀ t ∈ ts, Fits t.1 t.2) :
    ∃ ts vs, g.ReadsFreely Xs ts vs ∧ ∀ t ∈ ts, Fits t.1 t.2 := by
  induction Xs with
  | nil => exact ⟨[], [], ⟨by simp, fun a _ => .nil a⟩, by simp⟩
  | cons X Xs ih =>
    obtain ⟨ts, v, hts, hfits⟩ := h X List.mem_cons_self
    obtain ⟨us, vs, hus, hfits'⟩ := ih fun Y hY => h Y (List.mem_cons_of_mem _ hY)
    refine ⟨ts ++ us, v :: vs, ⟨fun t ht => ?_, fun a ha => ?_⟩, fun t ht => ?_⟩
    · exact (List.mem_append.mp ht).elim (hts.1 t) (hus.1 t)
    · exact (hts.2 _ (hus.free_lookahead ha)).append (hus.2 a ha)
    · exact (List.mem_append.mp ht).elim (hfits t) (hfits' t)

end Grammar

/-- A table of short words for some of the symbols: a token stands for itself, and another symbol is
produced from symbols of smaller rank. -/
structure ShortTable where
  symbols : List ℕ
  rank : ℕ → ℕ
  rule : ℕ → Option ℕ

namespace ShortTable

variable (T : ShortTable) (g : Grammar ν)

def Closed : Prop :=
  ∀ X ∈ T.symbols,
    match T.rule X with
    | none => g.token X = true ∧ g.Free X
    | some k => k < g.size ∧ g.lhs k = X ∧ ∀ Y ∈ g.rhs k, Y ∈ T.symbols ∧ T.rank Y < T.rank X

variable {T g} {Fits : ℕ → ν → Prop}

/-- The word of the table for a symbol. -/
theorem Closed.exists_readsFreely (hT : T.Closed g) (hg : g.Typed Fits) {e : ℕ} (he : g.Free e)
    {X : ℕ} (hX : X ∈ T.symbols) :
    ∃ ts v, g.ReadsFreely [X] ts [v] ∧ ∀ t ∈ ts, Fits t.1 t.2 := by
  generalize hn : T.rank X = n
  induction n using Nat.strongRecOn generalizing X with
  | ind n ih =>
    have hrule := hT X hX
    cases hkX : T.rule X with
    | none =>
      rw [hkX] at hrule
      obtain ⟨c, hc⟩ := hg.token X hrule.1
      exact ⟨[(X, c)], c, ⟨by simpa using hrule.2, fun a _ => .singleton hrule.1 a c⟩,
        by simpa using hc⟩
    | some k =>
      rw [hkX] at hrule
      obtain ⟨hk, rfl, hrhs⟩ := hrule
      obtain ⟨ts, vs, hts, hfits⟩ := Grammar.exists_readsFreely fun Y hY =>
        ih (T.rank Y) (hn ▸ (hrhs Y hY).2) (hrhs Y hY).1 rfl
      obtain ⟨v, hv, -⟩ := hg.semantics k hk vs (hg.fits (hts.2 e he) hfits)
      exact ⟨ts, v, ⟨hts.1, fun a ha => .of_rhs hk (ha k hk) hv (hts.2 a ha)⟩, hfits⟩

end ShortTable

/-- A table of the productions that a symbol is needed for: for each symbol that has a next state, a
production and the place of the symbol in it. The symbols before it are at the top of the stack, and
the symbols behind it have short words. -/
structure NeedTable extends ShortTable where
  need : ℕ → ℕ → Option (ℕ × ℕ)
  order : ℕ → ℕ → ℕ

namespace NeedTable

variable (T : NeedTable) (P : Automaton.PastTable) (M : Automaton) (g : Grammar ν)

/-- What the table says about the symbol `X` at the state `q`. When the production begins with `X`,
the symbol that it produces comes earlier in the order of the state. -/
def Needs (q X : ℕ) : Prop :=
  match T.need q X with
  | none => q = 0 ∧ X = P.start
  | some (k, d) =>
    k < g.size ∧ (g.rhs k)[d]? = some X ∧ ((g.rhs k).take d).reverse <+: P.past q ∧
      (∀ Y ∈ (g.rhs k).drop (d + 1), Y ∈ T.symbols) ∧
      (d = 0 → T.order q (g.lhs k) < T.order q X) ∧
      ∀ q₀, M.walk? q₀ ((g.rhs k).take d) = some q → M.next q₀ (g.lhs k) ≠ 0

structure Closed : Prop where
  toClosed : T.toShortTable.Closed g
  needs : ∀ q X, M.next q X ≠ 0 → T.Needs P M g q X
  eof : g.Free P.eof

variable {T P M g} {Fits : ℕ → ν → Prop}

/-- A production is completed around a symbol that may come next: the symbols before it are taken
from the stack, and short words are put behind it. -/
lemma exists_production (hT : T.Closed P M g) (hP : P.Sound M g) (hg : g.Typed Fits)
    {st : Stack ν} {Xs : List ℕ} {us ts : List (ℕ × ν)} {X k d : ℕ} {v : ν}
    (hfits : ∀ t ∈ us ++ ts, Fits t.1 t.2) (hne : ts ≠ [])
    (hst : M.Built g st Xs us (Grammar.lookahead ts P.eof))
    (hX : ∀ a, g.Free a → g.Reads [X] a ts [v]) (hneeds : T.Needs P M g st.top X)
    (hneed : T.need st.top X = some (k, d)) :
    ∃ st₀ Zs us₀ us₁ w v', st₀.length + d = st.length ∧ us = us₀ ++ us₁ ∧
      M.Built g st₀ Zs us₀ (Grammar.lookahead (us₁ ++ ts ++ w) P.eof) ∧
      (∀ a, g.Free a → g.Reads [g.lhs k] a (us₁ ++ ts ++ w) [v']) ∧ (∀ t ∈ w, Fits t.1 t.2) ∧
      M.next st₀.top (g.lhs k) ≠ 0 ∧ (d = 0 → st₀ = st) := by
  rw [Needs, hneed] at hneeds
  obtain ⟨hk, hd, hpast, hshort, -, hgoto⟩ := hneeds
  obtain ⟨hdlt, hXd⟩ := List.getElem?_eq_some_iff.mp hd
  have hrhs : g.rhs k = (g.rhs k).take d ++ (X :: (g.rhs k).drop (d + 1)) := by
    rw [← hXd, List.getElem_cons_drop, List.take_append_drop]
  have hahead (b : ℕ) : Grammar.lookahead ts b = Grammar.lookahead ts P.eof := by
    obtain ⟨t, ts, rfl⟩ := List.exists_cons_of_ne_nil hne
    rfl
  obtain ⟨Zs, rfl⟩ := hpast.trans (hst.past hP)
  obtain ⟨es, st₀, us₀, us₁, rfl, hlen, rfl, hreads, hbuilt, hwalk⟩ := hst.pop
  rw [List.reverse_reverse] at hreads hwalk
  rw [List.length_reverse, List.length_take, Nat.min_eq_left (Nat.le_of_lt hdlt)] at hlen
  obtain ⟨w, ws, hw, hwfits⟩ := Grammar.exists_readsFreely fun Y hY =>
    hT.toClosed.exists_readsFreely hg hT.eof (hshort Y hY)
  have hall (a : ℕ) (ha : g.Free a) :
      g.Reads (g.rhs k) a (us₁ ++ (ts ++ w)) (es.reverse.map Prod.snd ++ (v :: ws)) := by
    rw [hrhs]
    refine Grammar.Reads.append ?_ ((hX _ (hw.free_lookahead ha)).append (hw.2 a ha))
    rwa [Grammar.lookahead_append, hahead]
  have hfits' : ∀ t ∈ us₁ ++ (ts ++ w), Fits t.1 t.2 := by
    intro t ht
    rw [List.mem_append, List.mem_append] at ht
    rcases ht with ht | ht | ht
    · exact hfits t (by simp [ht])
    · exact hfits t (by simp [ht])
    · exact hwfits t ht
  obtain ⟨v', hv', -⟩ := hg.semantics k hk _ (hg.fits (hall P.eof hT.eof) hfits')
  refine ⟨st₀, Zs, us₀, us₁, w, v', by simp [hlen, Nat.add_comm], rfl, ?_, fun a ha => ?_, hwfits,
    hgoto _ hwalk, fun h0 => ?_⟩
  · rwa [List.append_assoc, Grammar.lookahead_append, Grammar.lookahead_append, hahead]
  · rw [List.append_assoc]
    exact .of_rhs hk (ha k hk) hv' (hall a ha)
  · rw [List.length_eq_zero_iff.mp (hlen.trans h0), List.nil_append]

/-- A word of a symbol that may come next is completed to a word of the start symbol. -/
theorem exists_reads (hT : T.Closed P M g) (hP : P.Sound M g) (hg : g.Typed Fits) {st : Stack ν}
    {Xs : List ℕ} {us ts : List (ℕ × ν)} {X : ℕ} {v : ν} (hfits : ∀ t ∈ us ++ ts, Fits t.1 t.2)
    (hne : ts ≠ []) (hst : M.Built g st Xs us (Grammar.lookahead ts P.eof))
    (hX : ∀ a, g.Free a → g.Reads [X] a ts [v]) (hnext : M.next st.top X ≠ 0) :
    ∃ rest w, g.Reads [P.start] P.eof (us ++ ts ++ rest) [w] ∧ ∀ t ∈ rest, Fits t.1 t.2 := by
  generalize hlen : st.length = len
  induction len using Nat.strongRecOn generalizing st Xs us ts X v with
  | ind len ihlen =>
  generalize hord : T.order st.top X = ord
  induction ord using Nat.strongRecOn generalizing st Xs us ts X v with
  | ind ord ihord =>
  have hneeds := hT.needs _ _ hnext
  cases hneed : T.need st.top X with
  | none =>
    rw [Needs, hneed] at hneeds
    obtain ⟨h0, rfl⟩ := hneeds
    cases hst with
    | nil => exact ⟨[], v, by simpa using hX P.eof hT.eof, by simp⟩
    | push _ _ hnext' => exact absurd h0 hnext'
  | some kd =>
    obtain ⟨k, d⟩ := kd
    obtain ⟨st₀, Zs, us₀, us₁, w, v', hlen₀, rfl, hbuilt, hreads, hwfits, hnext₀, hst₀⟩ :=
      exists_production hT hP hg hfits hne hst hX hneeds hneed
    have hfits₀ : ∀ t ∈ us₀ ++ (us₁ ++ ts ++ w), Fits t.1 t.2 := by
      intro t ht
      rw [← List.append_assoc, ← List.append_assoc] at ht
      exact (List.mem_append.mp ht).elim (hfits t) (hwfits t)
    have hne₀ : us₁ ++ ts ++ w ≠ [] := by simp [hne]
    obtain ⟨rest, x, hrest, hrestfits⟩ : ∃ rest x,
        g.Reads [P.start] P.eof (us₀ ++ (us₁ ++ ts ++ w) ++ rest) [x] ∧
          ∀ t ∈ rest, Fits t.1 t.2 := by
      rcases Nat.eq_zero_or_pos d with h0 | hpos
      · rw [Needs, hneed] at hneeds
        obtain ⟨-, -, -, -, horder, -⟩ := hneeds
        obtain rfl := hst₀ h0
        exact ihord _ (hord ▸ horder h0) hfits₀ hne₀ hbuilt hreads hnext₀ hlen rfl
      · exact ihlen _ (by omega) hfits₀ hne₀ hbuilt hreads hnext₀ rfl
    refine ⟨w ++ rest, x, by simpa [List.append_assoc] using hrest, fun t ht => ?_⟩
    exact (List.mem_append.mp ht).elim (hwfits t) (hrestfits t)

end NeedTable

/-! ### What has been reached -/

namespace Automaton

/-- The stack behind a word whose tokens have been shifted. -/
inductive Reached (M : Automaton) (g : Grammar ν) (Fits : ℕ → ν → Prop) :
    Stack ν → List (ℕ × ν) → Prop where
  | nil : Reached M g Fits [] []
  | shift {st st' : Stack ν} {us : List (ℕ × ν)} {X : ℕ} {c : ν} {fuel : ℕ}
      (h : Reached M g Fits st us) (hX : g.token X = true) (hfits : Fits X c)
      (hfeed : M.feed g fuel st (X, c) = some (.shifted st')) :
      Reached M g Fits st' (us ++ [(X, c)])

namespace Reached

variable {M : Automaton} {g : Grammar ν} {P : PastTable} {F : FollowTable} {W : WeightTable}
  {T : NeedTable} {Fits : ℕ → ν → Prop} {st : Stack ν} {us rest : List (ℕ × ν)} {X : ℕ} {c v : ν}

lemma fits (h : Reached M g Fits st us) : ∀ t ∈ us, Fits t.1 t.2 := by
  induction h with
  | nil => simp
  | shift _ _ hfits _ ih =>
    intro t ht
    rcases List.mem_append.mp ht with ht | ht
    · exact ih t ht
    · exact List.mem_singleton.mp ht ▸ hfits

lemma built (hP : P.Sound M g) (hg : g.Typed Fits) (h : Reached M g Fits st us) :
    ∃ Xs, ∀ a, M.Built g st Xs us a := by
  induction h with
  | nil => exact ⟨[], .nil⟩
  | @shift st st' us X c fuel h hX _ hfeed ih =>
    obtain ⟨Xs, hbuilt⟩ := ih
    rcases (hbuilt X).feed hP hg h.fits (.inl hX) hfeed with ⟨st₀, Zs, hst, -, h₀, hnext⟩ | h' | h'
    · obtain rfl := Fed.shifted.inj hst
      exact ⟨X :: Zs, fun a => h₀.shift hX hnext c a⟩
    · obtain ⟨_, h', -⟩ := h'
      cases h'
    · cases h'

lemma steps (h : Reached M g Fits st us) (ts : List (ℕ × ν)) :
    M.Steps g ([], us ++ ts) (st, ts) := by
  induction h generalizing ts with
  | nil => exact .refl
  | @shift st st' us X c fuel _ _ _ hfeed ih =>
    rw [List.append_assoc]
    exact (ih _).trans (steps_of_feed hfeed ts)

/-- What becomes of the next token is found out. -/
theorem exists_feed (hP : P.Sound M g) (hg : g.Typed Fits) (hW : W.Falls M g)
    (h : Reached M g Fits st us) (X : ℕ) (c : ν) :
    ∃ fuel r, M.feed g fuel st (X, c) = some r := by
  obtain ⟨Xs, hbuilt⟩ := h.built hP hg
  exact ⟨_, (hbuilt X).exists_feed hP hg hW h.fits c (Nat.lt_succ_self _)⟩

/-- The tokens that have been shifted begin a word of the grammar. -/
theorem exists_reads (hT : T.Closed P M g) (hP : P.Sound M g) (hg : g.Typed Fits)
    (h : Reached M g Fits st us) (hne : us ≠ []) :
    ∃ rest w, g.Reads [P.start] P.eof (us ++ rest) [w] ∧ ∀ t ∈ rest, Fits t.1 t.2 := by
  cases h with
  | nil => exact absurd rfl hne
  | @shift st st' us X c fuel h hX hfits hfeed =>
    obtain ⟨Xs, hbuilt⟩ := h.built hP hg
    rcases (hbuilt X).feed hP hg h.fits (.inl hX) hfeed with ⟨st₀, Zs, -, -, h₀, hnext⟩ | h' | h'
    · refine NeedTable.exists_reads hT hP hg (fun t ht => ?_) (List.cons_ne_nil _ _) h₀
        (fun a _ => .singleton hX a c) hnext
      rcases List.mem_append.mp ht with ht | ht
      · exact h.fits t ht
      · exact List.mem_singleton.mp ht ▸ hfits
    · obtain ⟨_, h', -⟩ := h'
      cases h'
    · cases h'

/-- The next token of a word of the grammar is shifted. -/
theorem exists_shifted (hF : F.Closed M g) (hstart : F.chain M 0 [P.start] P.eof = true)
    (h : Reached M g Fits st us)
    (hreads : g.Reads [P.start] P.eof (us ++ (X, c) :: rest) [v]) :
    ∃ fuel st', M.feed g fuel st (X, c) = some (.shifted st') := by
  have hempty : F.chain M (Stack.top ([] : Stack ν)) [P.start] P.eof = true := hstart
  have hall := steps_of_reads hF hreads hempty c []
  have hus := h.steps ((X, c) :: rest ++ [(P.eof, c)])
  rw [← List.append_assoc] at hus
  rcases Relation.ReflTransGen.total_of_right_unique step_rightUnique hus hall with hrest | hback
  · obtain ⟨fuel, st', hfeed, -⟩ := exists_feed_of_steps hrest fun heq => by
      simpa using congrArg List.length heq
    exact ⟨fuel, st', hfeed⟩
  · have hlen := (suffix_of_steps hback).length_le
    simp at hlen

/-- A word of the grammar is accepted. -/
theorem exists_accepted (hF : F.Closed M g) (hstart : F.chain M 0 [P.start] P.eof = true)
    (haccept : M.action (M.next 0 P.start) P.eof = .accept) (h : Reached M g Fits st us)
    (hreads : g.Reads [P.start] P.eof us [v]) (c : ν) :
    ∃ fuel, M.feed g fuel st (P.eof, c) = some (.accepted [(M.next 0 P.start, v)]) := by
  have hempty : F.chain M (Stack.top ([] : Stack ν)) [P.start] P.eof = true := hstart
  have hall := steps_of_reads hF hreads hempty c []
  have hend : M.feed g 1 (M.pushAll [] [P.start] [v]) (P.eof, c) =
      some (.accepted [(M.next 0 P.start, v)]) := by
    simp [feed, pushAll, push, haccept]
  rcases Relation.ReflTransGen.total_of_right_unique step_rightUnique (h.steps [(P.eof, c)]) hall
    with hrest | hback
  · exact exists_feed_of_steps_self hrest hend
  · rcases Relation.ReflTransGen.cases_head hback with heq | ⟨c', hstep, -⟩
    · obtain rfl := (Prod.mk.inj heq).1
      exact ⟨1, hend⟩
    · cases hstep with
      | shift hact | reduce hact =>
        simp [pushAll, haccept] at hact

end Reached

end Automaton

end Parsing
