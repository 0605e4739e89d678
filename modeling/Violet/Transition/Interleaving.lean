import Violet.Transition.Run

/-!
# Interleavings

Calls share a state. Each of them runs from one `await` to the next without a break, and in between
any other call may go on.
-/

namespace Transition

variable {σ τ ω : Type*}

/-- A shared state and the calls that work on it, each suspended somewhere. -/
structure Calls (σ τ : Type*) where
  shared : σ
  calls : List τ := []

inductive CallEvent (ω : Type*) where
  /-- New calls. -/
  | start (op : ω)
  /-- The call with this number goes on to its next `await`. -/
  | resume (i : ℕ)
  deriving DecidableEq, Repr

namespace Calls

variable (start : ω → List τ) (resume : σ → τ → Option (σ × τ))

def step (s : Calls σ τ) : CallEvent ω → Option (Calls σ τ)
  | .start op => some { s with calls := s.calls ++ start op }
  | .resume i =>
    (s.calls[i]?.bind (resume s.shared)).map fun r =>
      { shared := r.1, calls := s.calls.set i r.2 }

/-- A call that goes on alone for some steps. -/
def finish : ℕ → σ → τ → σ
  | 0, s, _ => s
  | steps + 1, s, c =>
    match resume s c with
    | none => s
    | some (t, d) => finish steps t d

/-- A call goes on only when it is admitted in the shared state and beside each other call. -/
def admits (alone : σ → τ → Prop) (beside : τ → τ → Prop) (s : Calls σ τ) :
    CallEvent ω → Prop
  | .start _ => True
  | .resume i => ∀ call ∈ s.calls[i]?, alone s.shared call ∧
      ∀ other ∈ s.calls.eraseIdx i, beside call other

instance {alone : σ → τ → Prop} {beside : τ → τ → Prop} [∀ s c, Decidable (alone s c)]
    [∀ c d, Decidable (beside c d)] (s : Calls σ τ) (e : CallEvent ω) :
    Decidable (s.admits alone beside e) :=
  match e with
  | .start _ => .isTrue trivial
  | .resume i => inferInstanceAs (Decidable (∀ call ∈ s.calls[i]?, alone s.shared call ∧
      ∀ other ∈ s.calls.eraseIdx i, beside call other))

/-- What holds of the shared state, of each call in it and of each two calls. -/
structure Invariant (I : σ → Prop) (P : σ → τ → Prop) (Q : τ → τ → Prop) (s : Calls σ τ) :
    Prop where
  shared : I s.shared
  call : ∀ call ∈ s.calls, P s.shared call
  pair : ∀ (i j : ℕ) (c d : τ), i ≠ j → s.calls[i]? = some c → s.calls[j]? = some d → Q c d

variable {start resume} {alone : σ → τ → Prop} {beside : τ → τ → Prop} {I : σ → Prop}
  {P : σ → τ → Prop} {Q : τ → τ → Prop} {s t : Calls σ τ}

lemma finish_succ {s t : σ} {c d : τ} (steps : ℕ) (h : resume s c = some (t, d)) :
    finish resume (steps + 1) s c = finish resume steps t d := by
  rw [finish, h]

lemma finish_of_none {s : σ} {c : τ} (steps : ℕ) (h : resume s c = none) :
    finish resume steps s c = s := by
  cases steps with
  | zero => rfl
  | succ steps => rw [finish, h]

namespace Invariant

/-- New calls that get along with the others and with each other. -/
lemma append (h : s.Invariant I P Q) {new : List τ} (hP : ∀ c ∈ new, P s.shared c)
    (hQ : ∀ c ∈ new, ∀ d, Q c d ∧ Q d c) :
    Calls.Invariant I P Q { s with calls := s.calls ++ new } := by
  refine ⟨h.shared, fun call hcall => ?_, fun i j c d hij hc hd => ?_⟩
  · rcases List.mem_append.mp hcall with hcall | hcall
    · exact h.call call hcall
    · exact hP call hcall
  · by_cases hi : i < s.calls.length
    · by_cases hj : j < s.calls.length
      · rw [List.getElem?_append_left hi] at hc
        rw [List.getElem?_append_left hj] at hd
        exact h.pair i j c d hij hc hd
      · rw [List.getElem?_append_right (by omega)] at hd
        exact (hQ d (List.mem_of_getElem? hd) c).2
    · rw [List.getElem?_append_right (by omega)] at hc
      exact (hQ c (List.mem_of_getElem? hc) d).1

/-- A step of one call that keeps what holds of each other call. -/
lemma set {i : ℕ} {c c' : τ} {shared : σ} (h : s.Invariant I P Q) (hi : s.calls[i]? = some c)
    (hI : I shared) (hP : P shared c')
    (hothers : ∀ d ∈ s.calls.eraseIdx i, P s.shared d → Q c d → Q d c →
      P shared d ∧ Q c' d ∧ Q d c') :
    Calls.Invariant I P Q { shared := shared, calls := s.calls.set i c' } := by
  have hother (j : ℕ) (d : τ) (hij : i ≠ j) (hd : s.calls[j]? = some d) :
      P shared d ∧ Q c' d ∧ Q d c' := by
    apply hothers d (List.mem_eraseIdx_iff_getElem?.mpr ⟨j, hij.symm, hd⟩)
    · exact h.call d (List.mem_of_getElem? hd)
    · exact h.pair i j c d hij hi hd
    · exact h.pair j i d c hij.symm hd hi
  have hset (j : ℕ) (d : τ) (hd : (s.calls.set i c')[j]? = some d) :
      i = j ∧ d = c' ∨ i ≠ j ∧ s.calls[j]? = some d := by
    rw [List.getElem?_set] at hd
    split_ifs at hd with hij hlt
    · exact .inl ⟨hij, (Option.some.inj hd).symm⟩
    · exact .inr ⟨hij, hd⟩
  refine ⟨hI, fun call hcall => ?_, fun j k d e hjk hd he => ?_⟩
  · obtain ⟨j, hj⟩ := List.mem_iff_getElem?.mp hcall
    rcases hset j call hj with ⟨-, rfl⟩ | ⟨hij, hcall⟩
    · exact hP
    · exact (hother j call hij hcall).1
  · rcases hset j d hd with ⟨rfl, rfl⟩ | ⟨hij, hd'⟩
    · rcases hset k e he with ⟨heq, -⟩ | ⟨hik, he'⟩
      · exact absurd heq hjk
      · exact (hother k e hik he').2.1
    · rcases hset k e he with ⟨rfl, rfl⟩ | ⟨hik, he'⟩
      · exact (hother j d hij hd').2.2
      · exact h.pair j k d e hjk hd' he'

end Invariant

/-- The invariant of a run: new calls meet it and get along with any call, and a call that goes on
keeps it. -/
theorem invariant_of_reaches (h : Reaches (step start resume) (admits alone beside) s t)
    (h0 : s.Invariant I P Q)
    (hstart : ∀ shared op, I shared → ∀ c ∈ start op, P shared c ∧ ∀ d, Q c d ∧ Q d c)
    (hresume : ∀ shared c shared' c', I shared → P shared c → alone shared c →
      resume shared c = some (shared', c') → I shared' ∧ P shared' c' ∧
        ∀ d, P shared d → beside c d → Q c d → Q d c → P shared' d ∧ Q c' d ∧ Q d c') :
    t.Invariant I P Q := by
  apply h.invariant h0
  intro s e u hs hg hstep
  cases e with
  | start op =>
    obtain rfl := Option.some.inj hstep
    apply hs.append
    · exact fun c hc => (hstart s.shared op hs.shared c hc).1
    · exact fun c hc => (hstart s.shared op hs.shared c hc).2
  | resume i =>
    obtain ⟨⟨shared, c'⟩, hres, rfl⟩ := Option.map_eq_some_iff.mp hstep
    obtain ⟨c, hc, hres⟩ := Option.bind_eq_some_iff.mp hres
    obtain ⟨halone, hbeside⟩ := hg c hc
    obtain ⟨hI, hP, hothers⟩ := hresume s.shared c shared c' hs.shared
      (hs.call c (List.mem_of_getElem? hc)) halone hres
    exact hs.set hc hI hP fun d hd hPd => hothers d hPd (hbeside d hd)

end Calls

end Transition
