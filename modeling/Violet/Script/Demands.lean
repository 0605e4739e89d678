import Violet.Script.Operators

/-!
# What the functions demand

The exceptions of the checks are thrown on purpose. What passes a check is read, indexed or looked
up, and need not be what the function takes it for. So each function has a demand on its arguments:
the arguments that pass its check can be used.
-/

namespace Violet

open Dart Program Operation ScriptBuiltIn ScriptCall

/-- No exceptions are thrown but those that the source throws itself. -/
abbrev Deliberate {α : Type} (x : Except ScriptError α) : Prop := ThrowsOnly ScriptError.Own x

/-! ### Checks -/

/-- The argument is a value whose cast to a text gives this. -/
def CastsText (v : Option RunVariable) (t : Option Units) : Prop :=
  ∃ r, v = some r ∧ r.asString = .ok t

/-- The argument is a value with the flag. -/
def Flagged (f : RunVariable → Bool) (v : Option RunVariable) : Prop := ∃ r, v = some r ∧ f r

/-- One argument can be checked. If it passes the check, `p` holds. -/
def FirstChecked (f : RunVariable → Bool) (v : Option RunVariable) (p : Prop) : Prop :=
  ∃ r, v = some r ∧ (f r → p)

/-- Two arguments can be checked. If they pass the check, `p` holds. -/
def EitherChecked (f g : RunVariable → Bool) (v w : Option RunVariable) (p : Prop) : Prop :=
  ∃ r, v = some r ∧ (f r = false → w ≠ none) ∧ (f r ∨ Flagged g w → p)

section

variable {α : Type} {f g : RunVariable → Bool} {v w u : Option RunVariable} {args : Args} {i : ℕ}
  {text : String} {p q : Prop} {x : Except ScriptError α}

lemma not_firstChecked_none : ¬ FirstChecked f none p := by
  rintro ⟨_, ⟨⟩, _⟩

lemma firstChecked_some {r : RunVariable} : FirstChecked f (some r) p ↔ (f r → p) := by
  rw [FirstChecked]
  simp

lemma not_eitherChecked_none : ¬ EitherChecked f g none w p := by
  rintro ⟨_, ⟨⟩, _⟩

lemma eitherChecked_some {r : RunVariable} :
    EitherChecked f g (some r) w p ↔ (f r = false → w ≠ none) ∧ (f r ∨ Flagged g w → p) := by
  rw [EitherChecked]
  simp

lemma FirstChecked.congr (h : p ↔ q) : FirstChecked f v p ↔ FirstChecked f v q := by
  rw [FirstChecked, FirstChecked, h]

lemma EitherChecked.congr (h : p ↔ q) : EitherChecked f g v w p ↔ EitherChecked f g v w q := by
  rw [EitherChecked, EitherChecked, h]

lemma deliberate_exception (t : Units) :
    Deliberate (throw (.exception t) : Except ScriptError α) :=
  throwsOnly_error_iff.mpr trivial

lemma not_deliberate {e : ScriptError} (he : ¬ e.Own) :
    ¬ Deliberate (throw e : Except ScriptError α) :=
  fun h => he (throwsOnly_error_iff.mp h)

/-- Null throws, and anything else goes on. -/
lemma deliberate_of_null {β : Type} {y : Option β} {g : β → Except ScriptError α}
    (hnone : y = none → x = .error .noSuchMethod) (hsome : ∀ b, y = some b → x = g b) :
    Deliberate x ↔ ∃ b, y = some b ∧ Deliberate (g b) := by
  cases y with
  | none =>
    rw [hnone rfl]
    refine iff_of_false (not_deliberate (e := .noSuchMethod) id) ?_
    rintro ⟨_, ⟨⟩, _⟩
  | some b =>
    rw [hsome b rfl]
    constructor
    · intro h
      exact ⟨b, rfl, h⟩
    · rintro ⟨_, ⟨⟩, h⟩
      exact h

lemma deliberate_checkFirst :
    Deliberate (checkFirst f (v :: args) text >>= fun _ => x) ↔
      FirstChecked f v (Deliberate x) := by
  rcases v with _ | r
  · exact iff_of_false (not_deliberate (e := .noSuchMethod) id) not_firstChecked_none
  · have hrun : (checkFirst f (some r :: args) text >>= fun _ => x) =
        if f r then x else throw (.exception (units text)) := by
      cases hr : f r <;> simp [checkFirst, argument, hr, bind, Except.bind, pure, Except.pure,
        throw, throwThe, MonadExceptOf.throw]
    rw [hrun, firstChecked_some]
    by_cases hr : f r
    · rw [if_pos hr]
      exact ⟨fun h _ => h, fun h => h hr⟩
    · rw [if_neg hr]
      exact iff_of_true (deliberate_exception _) fun h => absurd h hr

lemma deliberate_checkEither :
    Deliberate (checkEither f g (v :: w :: args) text >>= fun _ => x) ↔
      EitherChecked f g v w (Deliberate x) := by
  rcases v with _ | r
  · exact iff_of_false (not_deliberate (e := .noSuchMethod) id) not_eitherChecked_none
  rw [eitherChecked_some]
  cases hr : f r with
  | true =>
    have hrun : (checkEither f g (some r :: w :: args) text >>= fun _ => x) = x := by
      simp [checkEither, argument, hr, bind, Except.bind, pure, Except.pure]
    rw [hrun]
    simp
  | false =>
    rcases w with _ | r'
    · have hrun : (checkEither f g (some r :: none :: args) text >>= fun _ => x) =
          throw .noSuchMethod := by
        simp [checkEither, argument, hr, bind, Except.bind, throw, throwThe, MonadExceptOf.throw]
      rw [hrun]
      exact iff_of_false (not_deliberate id) fun h => h.1 rfl rfl
    · have hrun : (checkEither f g (some r :: some r' :: args) text >>= fun _ => x) =
          if g r' then x else throw (.exception (units text)) := by
        cases hr' : g r' <;> simp [checkEither, argument, hr, hr', bind, Except.bind, pure,
          Except.pure, throw, throwThe, MonadExceptOf.throw]
      rw [hrun]
      by_cases hr' : g r'
      · rw [if_pos hr']
        simp [Flagged, hr']
      · rw [if_neg hr']
        simp [Flagged, hr', deliberate_exception]

/-! ### Reading -/

lemma textAt_eq_ok {t : Option Units} :
    textAt args i = .ok t ↔ ∃ v, args[i]? = some v ∧ CastsText v t := by
  rw [textAt, bind_eq_ok, argument]
  rcases args[i]? with _ | _ | r
  · simp
  · simp [CastsText]
  · simp [CastsText]

lemma not_own_asInt {r : RunVariable} {e : ScriptError} (h : r.asInt = .error e) : ¬ e.Own := by
  rw [RunVariable.asInt] at h
  split at h <;> cases h
  exact id

lemma not_own_asString {r : RunVariable} {e : ScriptError} (h : r.asString = .error e) :
    ¬ e.Own := by
  rw [RunVariable.asString] at h
  split at h <;> cases h
  exact id

lemma deliberate_asInt {r : RunVariable} {f : Option ℤ → Except ScriptError α} :
    Deliberate (r.asInt >>= f) ↔ ∃ n, r.asInt = .ok n ∧ Deliberate (f n) :=
  throwsOnly_bind_of_not fun _ => not_own_asInt

lemma deliberate_asString {r : RunVariable} {f : Option Units → Except ScriptError α} :
    Deliberate (r.asString >>= f) ↔ ∃ t, r.asString = .ok t ∧ Deliberate (f t) :=
  throwsOnly_bind_of_not fun _ => not_own_asString

lemma not_own_argument {e : ScriptError} (h : argument args i = .error e) : ¬ e.Own := by
  rw [argument] at h
  split at h <;> cases h <;> exact id

lemma not_own_intAt {e : ScriptError} (h : intAt args i = .error e) : ¬ e.Own := by
  rw [intAt] at h
  cases hr : argument args i with
  | error e' =>
    rw [hr] at h
    cases h
    exact not_own_argument hr
  | ok r =>
    rw [hr] at h
    exact not_own_asInt h

lemma not_own_textAt {e : ScriptError} (h : textAt args i = .error e) : ¬ e.Own := by
  rw [textAt] at h
  cases hr : argument args i with
  | error e' =>
    rw [hr] at h
    cases h
    exact not_own_argument hr
  | ok r =>
    rw [hr] at h
    exact not_own_asString h

/-- A number is read. -/
lemma deliberate_intAt (hv : args[i]? = some v) {f : Option ℤ → Except ScriptError α} :
    Deliberate (intAt args i >>= f) ↔ ∃ n, Casts v n ∧ Deliberate (f n) := by
  rw [Deliberate, throwsOnly_bind_of_not fun e => not_own_intAt]
  simp [intAt_eq_ok, hv]

/-- A text is read. -/
lemma deliberate_textAt (hv : args[i]? = some v) {f : Option Units → Except ScriptError α} :
    Deliberate (textAt args i >>= f) ↔ ∃ t, CastsText v t ∧ Deliberate (f t) := by
  rw [Deliberate, throwsOnly_bind_of_not fun e => not_own_textAt]
  simp [textAt_eq_ok, hv]

lemma deliberate_check {c : Prop} [Decidable c] {t : Units} {f : Unit → Except ScriptError α} :
    Deliberate (if c then throw (.exception t) >>= f else f ()) ↔ (¬ c → Deliberate (f ())) := by
  by_cases hc : c
  · rw [if_pos hc]
    exact iff_of_true (deliberate_exception t) fun h => absurd hc h
  · rw [if_neg hc]
    exact ⟨fun h _ => h, fun h => h hc⟩

/-! ### Functions of texts -/

/-- A function of a text, of which it asks for more. -/
def OneText (p : Units → Prop) (v : Option RunVariable) : Prop :=
  FirstChecked (·.isString) v (∃ s, CastsText v (some s) ∧ p s)

def TwoTexts (v w : Option RunVariable) : Prop :=
  EitherChecked (·.isString) (·.isString) v w
    (∃ s t, CastsText v (some s) ∧ CastsText w (some t))

/-- A text and one of its places. -/
def TextAndPlace (v w : Option RunVariable) : Prop :=
  EitherChecked (·.isString) (·.isInteger) v w
    (∃ s i, CastsText v (some s) ∧ Casts w (some i) ∧ 0 ≤ i ∧ i < s.length)

def ThreeTexts (v w u : Option RunVariable) : Prop :=
  ∃ s t sub, CastsText v (some s) ∧ CastsText w (some t) ∧ CastsText u (some sub)

/-- The check goes on to the other two arguments when the first one is no text. -/
def Replaced (v w u : Option RunVariable) : Prop :=
  ∃ r, v = some r ∧ if r.isString then ThreeTexts v w u
    else EitherChecked (·.isString) (·.isString) w u (ThreeTexts v w u)

/-- No argument is null in front of the first list or map. -/
def Concatenated : Args → Prop
  | [] => True
  | none :: _ => False
  | some r :: args => r.isList ∨ r.isMap ∨ Concatenated args

/-- The check reads two arguments unless the first one is a text, and the third one if there is
one. The text is cut between two of its places. -/
def Cut : Args → Prop
  | [] => False
  | [v] => Flagged (·.isString) v
  | [v, w] => EitherChecked (·.isString) (·.isInteger) v w
    (∃ s i, CastsText v (some s) ∧ Casts w (some i) ∧ 0 ≤ i ∧ i ≤ s.length)
  | [v, w, u] => EitherChecked (·.isString) (·.isInteger) v w (FirstChecked (·.isInteger) u
    (∃ s i j, CastsText v (some s) ∧ Casts w (some i) ∧ Casts u j ∧
      0 ≤ i ∧ i ≤ j.getD s.length ∧ j.getD s.length ≤ s.length))
  | v :: w :: _ => EitherChecked (·.isString) (·.isInteger) v w True

lemma deliberate_ofText {f : Units → Except ScriptError α} {null : ScriptError}
    (hnull : ¬ null.Own) :
    Deliberate (ofText [v] text null f) ↔ OneText (fun s => Deliberate (f s)) v := by
  rw [ofText, deliberate_checkFirst, deliberate_textAt rfl]
  refine FirstChecked.congr ⟨?_, fun ⟨s, hs, h⟩ => ⟨some s, hs, h⟩⟩
  rintro ⟨t, ht, h⟩
  cases t with
  | none => exact absurd h (not_deliberate hnull)
  | some s => exact ⟨s, ht, h⟩

lemma deliberate_ofTexts {f : Units → Units → α} :
    Deliberate (ofTexts [v, w] text f) ↔ TwoTexts v w := by
  rw [ofTexts, deliberate_checkEither, deliberate_textAt rfl]
  refine EitherChecked.congr ?_
  simp only [deliberate_textAt (show [v, w][1]? = some w from rfl)]
  constructor
  · rintro ⟨a, ha, b, hb, h⟩
    rcases a with _ | s
    · exact absurd h (not_deliberate id)
    rcases b with _ | t
    · exact absurd h (not_deliberate id)
    exact ⟨s, t, ha, hb⟩
  · rintro ⟨s, t, hs, ht⟩
    exact ⟨some s, hs, some t, ht, throwsOnly_ok _⟩

lemma deliberate_unitAt {s : Units} {n : ℤ} {f : UInt16 → α} :
    Deliberate (do return f (← unitAt s n)) ↔ 0 ≤ n ∧ n < s.length := by
  by_cases hn : 0 ≤ n ∧ n < s.length
  · obtain ⟨k, rfl⟩ := Int.eq_ofNat_of_zero_le hn.1
    have hk : k < s.length := by omega
    have hunit : unitAt s k = .ok s[k] := by simp [unitAt, hk]
    rw [hunit]
    exact iff_of_true (throwsOnly_ok _) hn
  · have hunit : unitAt s n = .error .rangeError := by
      rw [unitAt]
      split
      · rename_i u hu
        rw [if_neg]
        have hlt := (List.getElem?_eq_some_iff.mp hu).1
        omega
      · rfl
    rw [hunit]
    exact iff_of_false (not_deliberate (e := .rangeError) id) hn

lemma deliberate_ofTextAt {f : UInt16 → α} :
    Deliberate (ofTextAt [v, w] text f) ↔ TextAndPlace v w := by
  rw [ofTextAt, deliberate_checkEither, deliberate_textAt rfl]
  refine EitherChecked.congr ?_
  simp only [deliberate_intAt (show [v, w][1]? = some w from rfl)]
  constructor
  · rintro ⟨a, ha, b, hb, h⟩
    rcases a with _ | s
    · exact absurd h (not_deliberate id)
    rcases b with _ | n
    · exact absurd h (not_deliberate id)
    exact ⟨s, n, ha, hb, deliberate_unitAt.mp h⟩
  · rintro ⟨s, n, hs, hn, h⟩
    exact ⟨some s, hs, some n, hn, deliberate_unitAt.mpr h⟩

/-- Behind the check three texts are read. -/
lemma deliberate_replaceAll :
    Deliberate (do
      match ← textAt [v, w, u] 0, ← textAt [v, w, u] 1, ← textAt [v, w, u] 2 with
      | some s, some pattern, some sub => return Units.replaceAll s pattern sub
      | some _, _, _ => throw .argumentError
      | none, _, _ => throw .noSuchMethod) ↔ ThreeTexts v w u := by
  rw [deliberate_textAt (v := v) rfl]
  simp only [deliberate_textAt (show [v, w, u][1]? = some w from rfl),
    deliberate_textAt (show [v, w, u][2]? = some u from rfl)]
  constructor
  · rintro ⟨a, ha, b, hb, c, hc, h⟩
    rcases a with _ | s
    · exact absurd h (not_deliberate id)
    rcases b with _ | t
    · exact absurd h (not_deliberate id)
    rcases c with _ | sub
    · exact absurd h (not_deliberate id)
    exact ⟨s, t, sub, ha, hb, hc⟩
  · rintro ⟨s, t, sub, hs, ht, hsub⟩
    exact ⟨some s, hs, some t, ht, some sub, hsub, throwsOnly_ok _⟩

lemma deliberate_strReplace : Deliberate (strReplace [v, w, u]) ↔ Replaced v w u := by
  rcases v with _ | r
  · refine iff_of_false (not_deliberate (e := .noSuchMethod) id) ?_
    rintro ⟨_, ⟨⟩, _⟩
  have hreplaced : Replaced (some r) w u ↔ if r.isString then ThreeTexts (some r) w u
      else EitherChecked (·.isString) (·.isString) w u (ThreeTexts (some r) w u) := by
    rw [Replaced]
    simp
  rw [hreplaced, strReplace]
  change Deliberate (if (!r.isString) = true then _ else _) ↔ _
  cases r.isString with
  | true => exact deliberate_replaceAll
  | false =>
    refine deliberate_checkEither.trans (EitherChecked.congr ?_)
    exact deliberate_replaceAll

lemma anyCompound_returns : (∃ b, anyCompound args = .ok b) ↔ Concatenated args := by
  induction args with
  | nil => exact iff_of_true ⟨false, rfl⟩ trivial
  | cons v args ih =>
    rcases v with _ | r
    · refine iff_of_false ?_ id
      rintro ⟨_, ⟨⟩⟩
    · rw [anyCompound, Concatenated, ← or_assoc, ← Bool.or_eq_true]
      by_cases hr : (r.isList || r.isMap) = true
      · rw [if_pos hr]
        exact iff_of_true ⟨true, rfl⟩ (.inl hr)
      · rw [if_neg hr, ih]
        exact (or_iff_right hr).symm

lemma not_own_anyCompound {e : ScriptError} (h : anyCompound args = .error e) : ¬ e.Own := by
  induction args with
  | nil => cases h
  | cons v args ih =>
    rcases v with _ | r
    · cases h
      exact id
    · rw [anyCompound] at h
      split_ifs at h
      · cases h
      · exact ih h

lemma deliberate_strConcat : Deliberate (strConcat args) ↔ Concatenated args := by
  rw [strConcat, Deliberate, throwsOnly_bind_of_not fun e => not_own_anyCompound,
    ← anyCompound_returns]
  refine exists_congr fun b => and_iff_left ?_
  exact deliberate_check.mpr fun _ => throwsOnly_ok _

/-- The first part of the check is the one of a text and a number. -/
lemma substrMistyped_bind (v w : Option RunVariable) (args : Args) (text : String)
    (f : Unit → Except ScriptError α) :
    (substrMistyped (v :: w :: args) >>= fun b =>
      if b = true then throw (.exception (units text)) >>= f else f ()) =
      checkEither (·.isString) (·.isInteger) (v :: w :: args) text >>= fun _ => f () := by
  rcases v with _ | r
  · rfl
  cases hr : r.isString with
  | true => simp [substrMistyped, checkEither, argument, hr, bind, Except.bind, pure, Except.pure]
  | false =>
    rcases w with _ | r'
    · simp [substrMistyped, checkEither, argument, hr, bind, Except.bind]
    · cases hr' : r'.isInteger <;> simp [substrMistyped, checkEither, argument, hr, hr', bind,
        Except.bind, pure, Except.pure, throw, throwThe, MonadExceptOf.throw]

lemma deliberate_substring {s : Units} {n : ℤ} {stop : Option ℤ} :
    Deliberate (ScriptBuiltIn.substring s n stop) ↔
      0 ≤ n ∧ n ≤ stop.getD s.length ∧ stop.getD s.length ≤ s.length := by
  rw [ScriptBuiltIn.substring]
  split_ifs with h
  · exact iff_of_true (throwsOnly_ok _) h
  · exact iff_of_false (not_deliberate (e := .rangeError) id) h

/-- Behind the check the text is cut. -/
lemma deliberate_cut {y : Except ScriptError (Option ℤ)} {j : Option ℤ → Prop}
    (hv : args[0]? = some v) (hw : args[1]? = some w)
    (hy : ∀ g : Option ℤ → Except ScriptError Units,
      Deliberate (y >>= g) ↔ ∃ n, j n ∧ Deliberate (g n)) :
    Deliberate (do
      let s ← textAt args 0
      let start ← intAt args 1
      let stop ← y
      match s, start with
      | some s, some start => ScriptBuiltIn.substring s start stop
      | _, _ => throw .noSuchMethod) ↔
      ∃ s n k, CastsText v (some s) ∧ Casts w (some n) ∧ j k ∧
        0 ≤ n ∧ n ≤ k.getD s.length ∧ k.getD s.length ≤ s.length := by
  rw [deliberate_textAt hv]
  simp only [deliberate_intAt hw, hy]
  constructor
  · rintro ⟨a, ha, b, hb, k, hk, h⟩
    rcases a with _ | s
    · exact absurd h (not_deliberate id)
    rcases b with _ | n
    · exact absurd h (not_deliberate id)
    exact ⟨s, n, k, ha, hb, hk, deliberate_substring.mp h⟩
  · rintro ⟨s, n, k, hs, hn, hk, h⟩
    exact ⟨some s, hs, some n, hn, k, hk, deliberate_substring.mpr h⟩

lemma deliberate_strSubstr : Deliberate (strSubstr args) ↔ Cut args := by
  rcases args with _ | ⟨v, _ | ⟨w, _ | ⟨u, _ | ⟨x, args⟩⟩⟩⟩
  · exact iff_of_false (not_deliberate (e := .rangeError) id) id
  · rcases v with _ | r
    · refine iff_of_false (not_deliberate (e := .noSuchMethod) id) ?_
      rintro ⟨_, ⟨⟩, _⟩
    · have hcut : Cut [some r] ↔ r.isString := by simp [Cut, Flagged]
      rw [hcut]
      cases hr : r.isString with
      | true =>
        have hrun : strSubstr [some r] =
            throw (.exception (units "[RUNNER-FUNCTION] Substr argument type error!")) := by
          simp [strSubstr, substrMistyped, argument, hr, bind, Except.bind, pure, Except.pure,
            throw, throwThe, MonadExceptOf.throw]
        rw [hrun]
        exact iff_of_true (deliberate_exception _) rfl
      | false =>
        have hrun : strSubstr [some r] = throw .rangeError := by
          simp [strSubstr, substrMistyped, argument, hr, bind, Except.bind, throw, throwThe,
            MonadExceptOf.throw]
        rw [hrun]
        exact iff_of_false (not_deliberate id) Bool.false_ne_true
  · rw [strSubstr, substrMistyped_bind, deliberate_checkEither]
    refine EitherChecked.congr ?_
    refine (deliberate_cut (y := pure none) (j := (· = none)) rfl rfl fun g => ?_).trans ?_
    · constructor
      · intro h
        exact ⟨none, rfl, h⟩
      · rintro ⟨_, rfl, h⟩
        exact h
    · simp
  · rw [strSubstr, substrMistyped_bind, deliberate_checkEither]
    refine EitherChecked.congr ?_
    rcases u with _ | r
    · exact iff_of_false (not_deliberate (e := .noSuchMethod) id) not_firstChecked_none
    rw [firstChecked_some]
    change Deliberate (if (!r.isInteger) = true then _ else _) ↔ _
    cases r.isInteger with
    | false => exact iff_of_true (deliberate_exception _) fun h => absurd h Bool.false_ne_true
    | true =>
      refine (deliberate_cut (y := intAt [v, w, some r] 2) (j := Casts (some r)) rfl rfl
        fun g => deliberate_intAt rfl).trans ?_
      exact ⟨fun h _ => h, fun h => h rfl⟩
  · rw [strSubstr, substrMistyped_bind, deliberate_checkEither]
    exact EitherChecked.congr (iff_of_true (deliberate_exception _) trivial)

/-! ### Functions of numbers -/

/-- A function of a number or null, of which it asks for more. -/
def OneInt (p : Option ℤ → Prop) (v : Option RunVariable) : Prop :=
  FirstChecked (·.isInteger) v (∃ n, Casts v n ∧ p n)

/-- An operator reads what it needs. -/
def Operands (op : IntOperator) (v w : Option RunVariable) : Prop :=
  EitherChecked (·.isInteger) (·.isInteger) v w (op.Reads v w)

/-- Two values with the same flags are read as numbers or else as texts. -/
def Alike (v w : Option RunVariable) : Prop :=
  ∃ a b, v = some a ∧ w = some b ∧ (a.isInteger = b.isInteger → a.isString = b.isString →
    if a.isInteger then ∃ x y, a.asInt = .ok x ∧ b.asInt = .ok y
    else ∃ x y, a.asString = .ok x ∧ b.asString = .ok y)

/-- A code point. -/
def CodePoint (n : Option ℤ) : Prop := ∃ k, n = some k ∧ 0 ≤ k ∧ k ≤ 0x10FFFF

lemma deliberate_strFromCharCode : Deliberate (strFromCharCode [v]) ↔ OneInt CodePoint v := by
  rw [strFromCharCode, deliberate_checkFirst, deliberate_intAt rfl]
  refine FirstChecked.congr (exists_congr fun n => and_congr_right fun _ => ?_)
  cases n with
  | none =>
    refine iff_of_false (not_deliberate id) ?_
    rintro ⟨_, ⟨⟩, _⟩
  | some k =>
    have hpoint : CodePoint (some k) ↔ 0 ≤ k ∧ k ≤ 0x10FFFF := by simp [CodePoint]
    rw [hpoint]
    dsimp only
    rw [fromCharCode]
    split_ifs with hrange
    · exact iff_of_false (not_deliberate (e := .rangeError) id) (by omega)
    · exact iff_of_true (throwsOnly_ok _) (by omega)
    · exact iff_of_true (throwsOnly_ok _) (by omega)

lemma deliberate_intToString :
    Deliberate (ScriptBuiltIn.intToString [v]) ↔ OneInt (fun _ => True) v := by
  rw [ScriptBuiltIn.intToString, deliberate_checkFirst, deliberate_intAt rfl]
  refine FirstChecked.congr (exists_congr fun n => and_congr_right fun _ => ?_)
  cases n <;> exact iff_of_true (throwsOnly_ok _) trivial

lemma deliberate_ofInts {f : ℤ → ℤ → Except ScriptError ℤ} :
    Deliberate (ofInts [v, w] text f) ↔ EitherChecked (·.isInteger) (·.isInteger) v w
      (∃ a b, Casts v (some a) ∧ Casts w (some b) ∧ Deliberate (f a b)) := by
  rw [ofInts, deliberate_checkEither, deliberate_intAt rfl]
  refine EitherChecked.congr ?_
  simp only [deliberate_intAt (show [v, w][1]? = some w from rfl)]
  constructor
  · rintro ⟨a, ha, b, hb, h⟩
    rcases a with _ | a
    · exact absurd h (not_deliberate id)
    rcases b with _ | b
    · exact absurd h (not_deliberate id)
    exact ⟨a, b, ha, hb, h⟩
  · rintro ⟨a, b, ha, hb, h⟩
    exact ⟨some a, ha, some b, hb, h⟩

lemma deliberate_nonZeroAt (hv : args[i]? = some v) {f : Bool → Except ScriptError α} :
    Deliberate (nonZeroAt args i >>= f) ↔ ∃ n, Casts v n ∧ Deliberate (f (n ≠ some 0)) := by
  have hrun : nonZeroAt args i >>= f = intAt args i >>= fun n => f (n ≠ some 0) := by
    rw [nonZeroAt]
    cases intAt args i <;> rfl
  rw [hrun, deliberate_intAt hv]

lemma deliberate_logicNot : Deliberate (logicNot [v]) ↔ OneInt (fun _ => True) v := by
  rw [logicNot, deliberate_checkFirst, deliberate_nonZeroAt rfl]
  exact FirstChecked.congr (exists_congr fun n => and_congr_right fun _ =>
    iff_of_true (throwsOnly_ok _) trivial)

/-- What comes of the second operand does not matter. -/
lemma deliberate_second {f : Bool → ℤ} :
    Deliberate (do return f (← nonZeroAt [v, w] 1)) ↔ ∃ b, Casts w b := by
  rw [deliberate_nonZeroAt (v := w) rfl]
  exact exists_congr fun n => and_iff_left (throwsOnly_ok _)

/-- The operators of two numbers. -/
lemma deliberate_operator {op : IntOperator} (hop : op.arity = 2) :
    Deliberate (op.builtIn [v, w]) ↔ Operands op v w := by
  have hreturn (text : String) (f : ℤ → ℤ → ℤ) :
      Deliberate (ofInts [v, w] text fun a b => return f a b) ↔
        EitherChecked (·.isInteger) (·.isInteger) v w
          (∃ a b, Casts v (some a) ∧ Casts w (some b)) := by
    refine deliberate_ofInts.trans (EitherChecked.congr (exists₂_congr fun a b => ?_))
    exact and_congr_right fun _ => and_iff_left (throwsOnly_ok _)
  have hdivide (text : String) (f : ℤ → ℤ → ℤ) :
      Deliberate (ofInts [v, w] text fun a b =>
        if b = 0 then throw .divisionByZero else return f a b) ↔
        EitherChecked (·.isInteger) (·.isInteger) v w
          (∃ a b, Casts v (some a) ∧ Casts w (some b) ∧ b ≠ 0) := by
    refine deliberate_ofInts.trans (EitherChecked.congr (exists₂_congr fun a b => ?_))
    refine and_congr_right fun _ => and_congr_right fun _ => ?_
    split_ifs with hb
    · exact iff_of_false (not_deliberate id) fun h => h hb
    · exact iff_of_true (throwsOnly_ok _) hb
  cases op with
  | add | sub | mul | gr | gre | ls | lse => exact hreturn _ _
  | div | mod => exact hdivide _ _
  | not => cases hop
  | and =>
    change Deliberate (logicAnd [v, w]) ↔ _
    rw [logicAnd, deliberate_checkEither, deliberate_nonZeroAt rfl]
    refine EitherChecked.congr (exists_congr fun a => and_congr_right fun _ => ?_)
    by_cases ha : a = some 0
    · rw [if_neg (by simpa using ha)]
      exact iff_of_true (throwsOnly_ok _) (.inl ha)
    · rw [if_pos (by simpa using ha), deliberate_second]
      exact (or_iff_right ha).symm
  | or =>
    change Deliberate (logicOr [v, w]) ↔ _
    rw [logicOr, deliberate_checkEither, deliberate_nonZeroAt rfl]
    refine EitherChecked.congr (exists_congr fun a => and_congr_right fun _ => ?_)
    by_cases ha : a = some 0
    · rw [if_neg (by simpa using ha), deliberate_second]
      exact (or_iff_right (not_not.mpr ha)).symm
    · rw [if_pos (by simpa using ha)]
      exact iff_of_true (throwsOnly_ok _) (.inl ha)
  | xor =>
    change Deliberate (logicXor [v, w]) ↔ _
    rw [logicXor, deliberate_checkEither, deliberate_nonZeroAt rfl]
    refine EitherChecked.congr (exists_congr fun a => ?_)
    rw [deliberate_second (f := fun b => ofBool (decide (a ≠ some 0) != b))]
    exact exists_and_left.symm

/-- Both casts have to succeed for a comparison. -/
lemma deliberate_decide [DecidableEq α] {x y : Except ScriptError α} {f : Bool → ℤ}
    (hx : ∀ e, x = .error e → ¬ e.Own) (hy : ∀ e, y = .error e → ¬ e.Own) :
    Deliberate (do return f (← (do return decide ((← x) = (← y))))) ↔
      ∃ a b, x = .ok a ∧ y = .ok b := by
  cases x with
  | error e =>
    refine iff_of_false (not_deliberate (hx e rfl)) ?_
    rintro ⟨_, _, ⟨⟩, _⟩
  | ok a =>
    cases y with
    | error e =>
      refine iff_of_false (not_deliberate (hy e rfl)) ?_
      rintro ⟨_, _, _, ⟨⟩⟩
    | ok b => exact iff_of_true (throwsOnly_ok _) ⟨a, b, rfl, rfl⟩

lemma deliberate_sameAt {f : Bool → ℤ} :
    Deliberate (do return f (← sameAt [v, w] text)) ↔ Alike v w := by
  rcases v with _ | a
  · refine iff_of_false (not_deliberate (e := .noSuchMethod) id) ?_
    rintro ⟨_, _, ⟨⟩, _⟩
  rcases w with _ | b
  · refine iff_of_false (not_deliberate (e := .noSuchMethod) id) ?_
    rintro ⟨_, _, _, ⟨⟩, _⟩
  have halike : Alike (some a) (some b) ↔ (a.isInteger = b.isInteger → a.isString = b.isString →
      if a.isInteger then ∃ x y, a.asInt = .ok x ∧ b.asInt = .ok y
      else ∃ x y, a.asString = .ok x ∧ b.asString = .ok y) := by
    simp [Alike]
  rw [halike, sameAt_run]
  by_cases hflags : a.isInteger = b.isInteger ∧ a.isString = b.isString
  · rw [if_neg (by tauto)]
    simp only [hflags, forall_const]
    split_ifs
    · exact deliberate_decide (fun e => not_own_asInt) fun e => not_own_asInt
    · exact deliberate_decide (fun e => not_own_asString) fun e => not_own_asString
  · rw [if_pos (by tauto)]
    exact iff_of_true (deliberate_exception _) fun hi hs => absurd ⟨hi, hs⟩ hflags

end

end Violet
