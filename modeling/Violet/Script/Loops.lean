import Violet.Script.Runs

/-!
# Loops over integers

The counter of a loop is an integer of 64 bits that wraps around, and its bound is inclusive. So a
loop up to the greatest integer never ends.
-/

namespace Violet

open Dart Program ScriptBuiltIn Prog

/-- The variable of a reference is an integer. -/
def Memory.HasInt (s : Memory) (r : Ref) (n : ℤ) : Prop :=
  ∃ v, s.deref r = some v ∧ v.isInteger = true ∧ v.value = some (.int n)

namespace ScriptIsolate

/-- The frame on top binds the name to a variable that is an integer. -/
def Holds (s : ScriptIsolate) (name : Units) (n : ℤ) : Prop :=
  ∃ e tail r, s.stack = .own e :: tail ∧ e.get? (some name) = some r ∧ s.memory.HasInt r n

/-- The integers from `a` to `b`. -/
def integers (a b : ℤ) : List ℤ := (List.range (b - a + 1).toNat).map fun k : ℕ => a + k

/-- A loop goes on from a value of its counter: the variable is bound to the values, one after the
other, and the body runs for each of them. -/
inductive Rounds (P : ScriptPlatform) (depth : ℕ) (name : Units) (blockEntry : PBlockEntry)
    (ii2 : Option ℤ) : Option ℤ → List ℤ → ScriptIsolate → ScriptIsolate → Prop where
  | stop {ii1 : Option ℤ} {s s' : ScriptIsolate}
      (hcount : count name ii1 ii2 s = .ok (false, s')) :
      Rounds P depth name blockEntry ii2 ii1 [] s s'
  | next {ii1 : Option ℤ} {n : ℤ} {values : List ℤ} {s t u s' : ScriptIsolate}
      (hcount : count name ii1 ii2 s = .ok (true, t)) (hvalue : t.Holds name n)
      (hbody : (runBlockEntry P depth blockEntry).Completes t () u)
      (hrest : Rounds P depth name blockEntry ii2 (ii1.map fun n => wrap (n + 1)) values u s') :
      Rounds P depth name blockEntry ii2 ii1 (n :: values) s s'

/-- The statement `loop (name = index1 to index2) blockEntry` completes, and runs its body exactly
for the values. -/
def LoopsOver (P : ScriptPlatform) (depth : ℕ) (name : Units) (index1 index2 : PIndex)
    (blockEntry : PBlockEntry) (s : ScriptIsolate) (values : List ℤ) : Prop :=
  ∃ s', (runRunnable P depth (.sloop name index1 index2 blockEntry)).Completes s () s' ∧
    ∃ i1 s1 i2 s2 bounds s3 s4,
      (runIndex P index1 false).Completes s i1 s1 ∧ (runIndex P index2 false).Completes s1 i2 s2 ∧
        beginLoop name i1 i2 s2 = .ok (bounds, s3) ∧
          Rounds P depth name blockEntry bounds.2 bounds.1 values s3 s4 ∧
            remove name s4 = .ok ((), s')

/-- The states in front of a round, with the counter: the first one, and those after a round that
has put the counter into the variable and run the body. -/
inductive InFront (P : ScriptPlatform) (depth : ℕ) (name : Units) (blockEntry : PBlockEntry)
    (ii2 : Option ℤ) : Option ℤ × ScriptIsolate → Option ℤ × ScriptIsolate → Prop where
  | first {c : Option ℤ × ScriptIsolate} : InFront P depth name blockEntry ii2 c c
  | next {c : Option ℤ × ScriptIsolate} {ii1 : Option ℤ} {s t u : ScriptIsolate}
      (h : InFront P depth name blockEntry ii2 c (ii1, s))
      (hcount : count name ii1 ii2 s = .ok (true, t))
      (hbody : (runBlockEntry P depth blockEntry).Completes t () u) :
      InFront P depth name blockEntry ii2 c (ii1.map fun n => wrap (n + 1), u)

/-- In every round of the loop from a state, the body completes, and leaves the variable an
integer. -/
def BodyCompletes (P : ScriptPlatform) (depth : ℕ) (name : Units) (blockEntry : PBlockEntry)
    (ii2 : Option ℤ) (c : Option ℤ × ScriptIsolate) : Prop :=
  ∀ ii1 s t n, InFront P depth name blockEntry ii2 c (ii1, s) →
    count name ii1 ii2 s = .ok (true, t) → t.Holds name n →
      ∃ u m, (runBlockEntry P depth blockEntry).Completes t () u ∧ u.Holds name m

variable {P : ScriptPlatform} {depth : ℕ} {name : Units} {index1 index2 : PIndex}
  {blockEntry : PBlockEntry} {s s' : ScriptIsolate} {a b m n : ℤ} {values : List ℤ}

/-! ### Integers -/

lemma integers_of_lt (h : b < a) : integers a b = [] := by
  rw [integers, Int.toNat_of_nonpos (by omega)]
  rfl

lemma integers_of_le (h : a ≤ b) : integers a b = a :: integers (a + 1) b := by
  have hlength : (b - a + 1).toNat = (b - (a + 1) + 1).toNat + 1 := by omega
  rw [integers, hlength, List.range_succ_eq_map, List.map_cons, List.map_map, integers]
  refine congrArg₂ List.cons (by simp) (List.map_congr_left fun k _ => ?_)
  simp only [Function.comp_apply, Nat.succ_eq_add_one]
  omega

lemma wrap_succ (hmin : intMin ≤ n) (hmax : n < intMax) : wrap (n + 1) = n + 1 := by
  rw [intMin, intMax] at *
  exact Int.bmod_eq_of_le_mul_two (by omega) (by omega)

lemma wrap_le (n : ℤ) : wrap n ≤ intMax := by
  have hlt := Int.bmod_lt (x := n) (m := 2 ^ 64) (by decide)
  rw [wrap, intMax]
  omega

/-! ### The counter -/

lemma count_stop (h : b < n) (s : ScriptIsolate) :
    count name (some n) (some b) s = .ok (false, s) := by
  change (if b < n then pure false else _ : ScriptStep Bool) s = _
  rw [if_pos h]
  rfl

/-- The counter is put into the variable, which stays an integer. -/
lemma count_goes (h : ¬ b < n) (hs : s.Holds name m) :
    ∃ t, count name (some n) (some b) s = .ok (true, t) ∧ t.Holds name n := by
  obtain ⟨memory, stack⟩ := s
  obtain ⟨e, tail, r, rfl, hr, v, hv, hinteger, -⟩ := hs
  obtain ⟨cell, rfl, rfl⟩ := Option.map_eq_some_iff.mp hv
  have hcell : cell < memory.cells.length := by
    by_contra hge
    rw [Memory.cell, List.getD, List.getElem?_eq_none (not_lt.mp hge)] at hinteger
    cases hinteger
  let v : RunVariable := { memory.cell cell with value := some (.int n) }
  refine ⟨⟨{ memory with cells := memory.cells.set cell v }, .own e :: tail⟩, ?_, e, tail,
    some cell, rfl, hr, v, ?_, hinteger, rfl⟩
  · change (if b < n then pure false else _ : ScriptStep Bool) _ = _
    rw [if_neg h]
    change (do
      let v ← onMemory (ScriptCall.deref (e.get? (some name)).join)
      onMemory (ScriptCall.setVariable (← onMemory (ScriptCall.onNull (e.get? (some name)).join))
        { v with value := some (.int n) })
      return true : ScriptStep Bool) _ = _
    rw [hr]
    rfl
  · simp [Memory.deref, Memory.cell, List.getD, hcell]

/-- A loop begins with a new variable. -/
lemma beginLoop_run {memory : Memory} (name : Units) (e : Map (Option Units) Ref)
    (tail : List ScriptFrame) {i1 i2 : Ref} (h1 : memory.HasInt i1 a) (h2 : memory.HasInt i2 b)
    (hfree : e.containsKey (some name) = false) :
    ∃ t, beginLoop name i1 i2 ⟨memory, .own e :: tail⟩ = .ok ((some a, some b), t) ∧
      t.Holds name a := by
  obtain ⟨v1, hv1, hinteger1, hvalue1⟩ := h1
  obtain ⟨v2, hv2, hinteger2, hvalue2⟩ := h2
  refine ⟨⟨{ memory with cells := memory.cells ++ [.fromInt a] },
    .own (e.set (some name) (some memory.cells.length)) :: tail⟩, ?_,
    e.set (some name) (some memory.cells.length), tail, some memory.cells.length, rfl,
    Map.get?_set_self _ _ _, .fromInt a, ?_, rfl, rfl⟩
  · unfold beginLoop
    simp only [Operation.bind_run_eq_ok, Operation.check_run_eq_ok, Operation.lift_run_eq_ok,
      Operation.pure_run_eq_ok, deref_eq_ok]
    refine ⟨v1, _, ⟨hv1, rfl⟩, by simp [hinteger1], v2, _, ⟨hv2, rfl⟩, by simp [hinteger2],
      some a, _, ⟨by rw [RunVariable.asInt, hvalue1], rfl⟩, some b, _,
      ⟨by rw [RunVariable.asInt, hvalue2], rfl⟩, (), _, checkUnused_eq_ok.mpr ⟨hfree, rfl⟩,
      some memory.cells.length, _, rfl, (), _, rfl, rfl, rfl⟩
  · simp [Memory.deref, Memory.cell, List.getD]

/-! ### Rounds -/

/-- The rounds are those of the loop of the runner. -/
lemma Rounds.completes {ii1 ii2 : Option ℤ}
    (h : Rounds P depth name blockEntry ii2 ii1 values s s') :
    (loop (fun ii1 : Option ℤ => do
      if ← perform (.counter name ii1 ii2) (count name ii1 ii2) then
        runBlockEntry P depth blockEntry
        return .inl (ii1.map fun n => wrap (n + 1))
      else return .inr ()) ii1 : ScriptProg Unit).Completes s () s' := by
  induction h with
  | stop hcount =>
    exact completes_loop_stop ((completes_perform.mpr hcount).bind (completes_ret.mpr ⟨rfl, rfl⟩))
  | next hcount _ hbody _ ih =>
    refine completes_loop_again ((completes_perform.mpr hcount).bind ?_) ih
    exact hbody.bind (completes_ret.mpr ⟨rfl, rfl⟩)

/-! ### Bodies -/

section

variable {ii1 ii2 : Option ℤ} {c d : Option ℤ × ScriptIsolate} {t u : ScriptIsolate}

lemma InFront.head (hcount : count name ii1 ii2 s = .ok (true, t))
    (hbody : (runBlockEntry P depth blockEntry).Completes t () u)
    (h : InFront P depth name blockEntry ii2 (ii1.map fun n => wrap (n + 1), u) d) :
    InFront P depth name blockEntry ii2 (ii1, s) d := by
  induction h with
  | first => exact .next .first hcount hbody
  | next _ hcount' hbody' ih => exact ih.next hcount' hbody'

/-- After a round, the body completes in all others. -/
lemma BodyCompletes.next (h : BodyCompletes P depth name blockEntry ii2 (ii1, s))
    (hcount : count name ii1 ii2 s = .ok (true, t))
    (hbody : (runBlockEntry P depth blockEntry).Completes t () u) :
    BodyCompletes P depth name blockEntry ii2 (ii1.map fun n => wrap (n + 1), u) :=
  fun _ _ _ _ hfront => h _ _ _ _ (hfront.head hcount hbody)

/-- A body completes in every round when every round keeps what it rests on. -/
lemma bodyCompletes_of_invariant {I : Option ℤ → ScriptIsolate → Prop} (hfirst : I c.1 c.2)
    (hround : ∀ ii1 s t n, I ii1 s → count name ii1 ii2 s = .ok (true, t) → t.Holds name n →
      ∃ u m, (runBlockEntry P depth blockEntry).Completes t () u ∧ u.Holds name m)
    (hkeeps : ∀ ii1 s t u, I ii1 s → count name ii1 ii2 s = .ok (true, t) →
      (runBlockEntry P depth blockEntry).Completes t () u →
        I (ii1.map fun n => wrap (n + 1)) u) :
    BodyCompletes P depth name blockEntry ii2 c := by
  have hall : ∀ d, InFront P depth name blockEntry ii2 c d → I d.1 d.2 := by
    intro d hd
    induction hd with
    | first => exact hfirst
    | next _ hcount hbody ih => exact hkeeps _ _ _ _ ih hcount hbody
  exact fun ii1 s t n hfront => hround ii1 s t n (hall _ hfront)

end

/-! ### Loops -/

/-- Below the greatest integer the counter reaches its bound. -/
lemma exists_rounds (hbody : BodyCompletes P depth name blockEntry (some b) (some n, s))
    (hb : b < intMax) (hmin : intMin ≤ n) (hs : s.Holds name m) : ∃ s' m',
      Rounds P depth name blockEntry (some b) (some n) (integers n b) s s' ∧ s'.Holds name m' := by
  induction hk : (b + 1 - n).toNat generalizing n m s with
  | zero =>
    rw [integers_of_lt (by omega)]
    exact ⟨s, m, .stop (count_stop (by omega) s), hs⟩
  | succ k ih =>
    have hn : n ≤ b := by omega
    obtain ⟨t, hcount, ht⟩ := count_goes (Int.not_lt.mpr hn) hs
    obtain ⟨u, m', hrun, hu⟩ := hbody _ s t n .first hcount ht
    have hnext := hbody.next hcount hrun
    rw [Option.map_some, wrap_succ hmin (by omega)] at hnext
    obtain ⟨s', m'', hrest, hs'⟩ := ih hnext (by omega) hu (by omega)
    rw [integers_of_le hn]
    refine ⟨s', m'', .next hcount ht hrun ?_, hs'⟩
    rwa [Option.map_some, wrap_succ hmin (by omega)]

/-- At the greatest integer the counter does not get beyond its bound. -/
lemma loop_meets_false (hbody : BodyCompletes P depth name blockEntry (some intMax) (some n, s))
    (hn : n ≤ intMax) (hs : s.Holds name m) : Contract.any.Meets (fun _ _ => False)
      (loop (fun ii1 : Option ℤ => do
        if ← perform (.counter name ii1 (some intMax)) (count name ii1 (some intMax)) then
          runBlockEntry P depth blockEntry
          return .inl (ii1.map fun n => wrap (n + 1))
        else return .inr ()) (some n) : ScriptProg Unit) s := by
  refine Contract.meets_loop (fun ii1 s => ∃ n m, ii1 = some n ∧ n ≤ intMax ∧ s.Holds name m ∧
    BodyCompletes P depth name blockEntry (some intMax) (some n, s))
    ⟨n, m, rfl, hn, hs, hbody⟩ ?_
  rintro _ s ⟨n, m, rfl, hn, hs, hbody⟩
  obtain ⟨t, hcount, ht⟩ := count_goes (Int.not_lt.mpr hn) hs
  obtain ⟨u, m', hrun, hu⟩ := hbody _ s t n .first hcount ht
  refine Contract.meets_bind (Contract.meets_of_completes (completes_perform.mpr hcount)) ?_
  rintro _ _ - ⟨rfl, rfl⟩
  refine Contract.meets_bind (Contract.meets_of_completes hrun) ?_
  rintro _ _ - ⟨-, rfl⟩
  exact Contract.meets_ret trivial ⟨_, m', rfl, wrap_le _, hu, hbody.next hcount hrun⟩

/-- A loop up to the greatest integer does not complete. -/
lemma not_completes_sloop {s s1 s2 s' : ScriptIsolate} {i1 i2 : Ref}
    (h1 : (runIndex P index1 false).Completes s i1 s1)
    (h2 : (runIndex P index2 false).Completes s1 i2 s2) {t : ScriptIsolate}
    (hbegin : beginLoop name i1 i2 s2 = .ok ((some a, some intMax), t)) (ht : t.Holds name a)
    (hbody : BodyCompletes P depth name blockEntry (some intMax) (some a, t)) (ha : a ≤ intMax) :
    ¬ (runRunnable P depth (.sloop name index1 index2 blockEntry)).Completes s () s' := by
  intro h
  refine Contract.Meets.result (C := .any) (Q := fun _ _ => False) ?_ h
  rw [runRunnable]
  refine Contract.meets_bind (Contract.meets_of_completes h1) ?_
  rintro _ _ - ⟨rfl, rfl⟩
  refine Contract.meets_bind (Contract.meets_of_completes h2) ?_
  rintro _ _ - ⟨rfl, rfl⟩
  refine Contract.meets_bind (Contract.meets_of_completes (completes_perform.mpr hbegin)) ?_
  rintro _ _ - ⟨rfl, rfl⟩
  exact Contract.meets_bind (loop_meets_false hbody ha ht) fun _ _ _ hfalse => hfalse.elim

/-- A loop runs its body for the integers from the first to the last bound if and only if the last
one is not the greatest integer, or is less than the first one. The body completes in all states
that the loop gets to, whatever it does to other variables. -/
theorem loopsOver_iff (P : ScriptPlatform) (depth : ℕ) (name : Units) (index1 index2 : PIndex)
    (blockEntry : PBlockEntry) {s s1 s2 : ScriptIsolate} {i1 i2 : Ref}
    (h1 : (runIndex P index1 false).Completes s i1 s1)
    (h2 : (runIndex P index2 false).Completes s1 i2 s2) {e : Map (Option Units) Ref}
    {tail : List ScriptFrame} (htop : s2.stack = .own e :: tail)
    (hfree : e.containsKey (some name) = false) {a b : ℤ} (ha : s2.memory.HasInt i1 a)
    (hb : s2.memory.HasInt i2 b) (hmin : intMin ≤ a) (hmax : a ≤ intMax ∧ b ≤ intMax)
    (hbody : ∀ bounds t, beginLoop name i1 i2 s2 = .ok (bounds, t) →
      BodyCompletes P depth name blockEntry bounds.2 (bounds.1, t)) :
    LoopsOver P depth name index1 index2 blockEntry s (integers a b) ↔ b < intMax ∨ b < a := by
  obtain ⟨memory, stack⟩ := s2
  obtain rfl : stack = .own e :: tail := htop
  obtain ⟨t, hbegin, ht⟩ := beginLoop_run _ _ _ ha hb hfree
  have hbody := hbody _ t hbegin
  constructor
  · rintro ⟨s', hcompletes, -⟩
    by_contra hnot
    obtain rfl : b = intMax := by omega
    exact not_completes_sloop h1 h2 hbegin ht hbody hmax.1 hcompletes
  · intro hor
    have hrounds : ∃ s3 m, Rounds P depth name blockEntry (some b) (some a) (integers a b) t s3 ∧
        s3.Holds name m := by
      rcases hor with hlt | hlt
      · exact exists_rounds hbody hlt hmin ht
      · rw [integers_of_lt hlt]
        exact ⟨t, a, .stop (count_stop hlt t), ht⟩
    obtain ⟨⟨memory3, stack3⟩, m, hrounds, e3, tail3, r, rfl, -⟩ := hrounds
    have hremove := remove_own memory3 e3 tail3 name
    refine ⟨_, ?_, i1, s1, i2, _, _, t, _, h1, h2, hbegin, hrounds, hremove⟩
    rw [runRunnable]
    refine h1.bind (h2.bind ((completes_perform.mpr hbegin).bind ?_))
    exact hrounds.completes.bind (completes_perform.mpr hremove)

/-! ### A loop that assigns a variable -/

/-- `x=i` -/
def assignsCounter : PBlockEntry :=
  .line (.mk (.sindex (.ofVariable (.name (units "x"))) (.ofVariable (.name (units "i")))))

/-- A frame with a variable `x`, above an empty map of the caller, and the integers that have been
read. -/
def withIntegers (x : ℤ) (ns : List ℤ) : ScriptIsolate :=
  ⟨{ cells := .fromInt x :: ns.map .fromInt, maps := [[]] },
    [.own [(some (units "x"), some 0)], .caller 0]⟩

/-- The loop over two integers with its variable `i`. -/
def inLoop (x a b i : ℤ) : ScriptIsolate :=
  ⟨{ cells := [.fromInt x, .fromInt a, .fromInt b, .fromInt i], maps := [[]] },
    [.own [(some (units "x"), some 0), (some (units "i"), some 3)], .caller 0]⟩

/-- An integer of the script, as an index. -/
def integerIndex (text : String) : PIndex := .ofVariable (.consts (.integer (units text)))

lemma completes_integerIndex (P : ScriptPlatform) {text : String} {n : ℤ} (x : ℤ) (ns : List ℤ)
    (h : (units text).intParse = some n) :
    (runIndex P (integerIndex text) false).Completes (withIntegers x ns) (some (ns.length + 1))
      (withIntegers x (ns ++ [n])) := by
  rw [integerIndex, runIndex, runVariable]
  refine completes_perform.mpr (onMemory_eq_ok.mpr
    ⟨{ cells := .fromInt x :: ns.map .fromInt ++ [.fromInt n], maps := [[]] }, ?_,
      by simp [withIntegers]⟩)
  rw [integer, h, ← List.length_map RunVariable.fromInt]
  rfl

lemma beginLoop_withIntegers (x a b : ℤ) :
    beginLoop (units "i") (some 1) (some 2) (withIntegers x [a, b]) =
      .ok ((some a, some b), inLoop x a b a) := rfl

lemma count_inLoop {x a b i n : ℤ} {t : ScriptIsolate}
    (h : count (units "i") (some n) (some b) (inLoop x a b i) = .ok (true, t)) :
    t = inLoop x a b n := by
  by_cases hlt : b < n
  · rw [count_stop hlt] at h
    cases h
  · have hgoes : count (units "i") (some n) (some b) (inLoop x a b i) =
        .ok (true, inLoop x a b n) := by
      change (if b < n then pure false else _ : ScriptStep Bool) _ = _
      rw [if_neg hlt]
      rfl
    cases hgoes.symm.trans h
    rfl

lemma completes_assignsCounter (P : ScriptPlatform) (depth : ℕ) (x a b n : ℤ) :
    (runBlockEntry P depth assignsCounter).Completes (inLoop x a b n) () (inLoop n a b n) := by
  rw [assignsCounter, runBlockEntry, runLine, runStatement, runIndex, runVariable, runIndex,
    runVariable]
  have hassign : assign (some 0) (some 3) (inLoop x a b n).memory =
      .ok ((), (inLoop n a b n).memory) := rfl
  have hleft : find (units "x") true (inLoop x a b n) = .ok (some 0, inLoop x a b n) := rfl
  have hright : find (units "i") false (inLoop x a b n) = .ok (some 3, inLoop x a b n) := rfl
  refine (completes_perform.mpr rfl).bind ?_
  refine (completes_perform.mpr hleft).bind ((completes_perform.mpr hright).bind ?_)
  exact completes_perform.mpr (onMemory_eq_ok.mpr ⟨_, hassign, rfl⟩)

lemma bodyCompletes_assignsCounter (P : ScriptPlatform) (depth : ℕ) (x a b i : ℤ) :
    BodyCompletes P depth (units "i") assignsCounter (some b) (some a, inLoop x a b i) := by
  have hround (x n : ℤ) {u : ScriptIsolate}
      (h : (runBlockEntry P depth assignsCounter).Completes (inLoop x a b n) () u) :
      u = inLoop n a b n :=
    ((Contract.meets_of_completes (completes_assignsCounter P depth x a b n)).result h).2
  refine bodyCompletes_of_invariant
    (I := fun ii1 s => ∃ n x i, ii1 = some n ∧ s = inLoop x a b i) ⟨a, x, i, rfl, rfl⟩ ?_ ?_
  · rintro _ _ t - ⟨n, x, i, rfl, rfl⟩ hcount -
    obtain rfl := count_inLoop hcount
    exact ⟨_, n, completes_assignsCounter P depth x a b n, _, _, some 3, rfl, rfl, .fromInt n, rfl,
      rfl, rfl⟩
  · rintro _ _ t u ⟨n, x, i, rfl, rfl⟩ hcount hbody
    obtain rfl := count_inLoop hcount
    exact ⟨_, n, n, rfl, hround x n hbody⟩

/-- `loop(i=1 to 2)x=i` -/
theorem loopsOver_iff_twice :
    LoopsOver .offline 1 (units "i") (integerIndex "1") (integerIndex "2") assignsCounter
        (withIntegers 7 []) (integers 1 2) := by
  have h1 := completes_integerIndex .offline 7 [] (show (units "1").intParse = some 1 by decide)
  have h2 := completes_integerIndex .offline 7 [1] (show (units "2").intParse = some 2 by decide)
  refine (loopsOver_iff .offline 1 (units "i") _ _ assignsCounter h1 h2 rfl rfl
    ⟨.fromInt 1, rfl, rfl, rfl⟩ ⟨.fromInt 2, rfl, rfl, rfl⟩ (by decide) (by decide) ?_).mpr
      (.inl (by decide))
  intro bounds t hbegin
  cases (beginLoop_withIntegers 7 1 2).symm.trans hbegin
  exact bodyCompletes_assignsCounter .offline 1 7 1 2 1

/-- `loop(i=9223372036854775807 to 9223372036854775807)x=i` does not end. -/
theorem not_loopsOver_greatest :
    ¬ ∀ (P : ScriptPlatform) (depth : ℕ) (name : Units) (index1 index2 : PIndex)
      (blockEntry : PBlockEntry) (s s1 s2 : ScriptIsolate) (i1 i2 : Ref),
      (runIndex P index1 false).Completes s i1 s1 → (runIndex P index2 false).Completes s1 i2 s2 →
        ∀ (e : Map (Option Units) Ref) (tail : List ScriptFrame), s2.stack = .own e :: tail →
          e.containsKey (some name) = false → ∀ a b : ℤ, s2.memory.HasInt i1 a →
            s2.memory.HasInt i2 b → intMin ≤ a → a ≤ intMax ∧ b ≤ intMax →
              (∀ bounds t, beginLoop name i1 i2 s2 = .ok (bounds, t) →
                BodyCompletes P depth name blockEntry bounds.2 (bounds.1, t)) →
                LoopsOver P depth name index1 index2 blockEntry s (integers a b) := by
  intro h
  have hparse : (units "9223372036854775807").intParse = some intMax := by decide +kernel
  have h1 := completes_integerIndex .offline 7 [] hparse
  have h2 := completes_integerIndex .offline 7 [intMax] hparse
  have hbegin := beginLoop_withIntegers 7 intMax intMax
  have hbody := bodyCompletes_assignsCounter .offline 1 7 intMax intMax intMax
  obtain ⟨s', hcompletes, -⟩ := h .offline 1 (units "i") _ _ assignsCounter _ _ _ _ _ h1 h2
    [(some (units "x"), some 0)] [.caller 0] rfl rfl intMax intMax ⟨.fromInt intMax, rfl, rfl, rfl⟩
    ⟨.fromInt intMax, rfl, rfl, rfl⟩ (by decide) (by decide) (by
      intro bounds t ht
      cases hbegin.symm.trans ht
      exact hbody)
  have hholds : (inLoop 7 intMax intMax intMax).Holds (units "i") intMax :=
    ⟨_, _, some 3, rfl, rfl, .fromInt intMax, rfl, rfl, rfl⟩
  exact not_completes_sloop h1 h2 hbegin hholds hbody (Int.le_refl _) hcompletes

end ScriptIsolate

end Violet
