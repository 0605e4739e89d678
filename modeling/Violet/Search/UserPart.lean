import Violet.Search.Quoting
import Violet.Search.Query
import Violet.Sql.Alternative

/-!
# The part of the text in front of the filters

A search text is followed by the filters of the settings, and both are translated as one text. What
the user wrote leaves the parser in one of two positions: an operand is needed, or the tokens since
the last `or` form one operand. In both of them at most an `OR` is pending, and its left operand is
the condition of the tokens in front of that `or`.
-/

namespace Violet

open Dart Sql

/-! ### Frames -/

/-- At most an `OR` is pending. -/
def TopPend (pend : List Pending) : Prop := pend = [] ∨ ∃ a, pend = [.binary .or a]

/-- What is pending around an open parenthesis. -/
def OuterPend (pend : List Pending) : Prop :=
  TopPend pend ∨ ∃ x rest, TopPend rest ∧ pend = .binary .and x :: rest

/-- The condition of the tokens in front of an `or`. -/
def Source (ts : List Str) (a : Expr) : Prop :=
  ∃ l kw r, ts = l ++ kw :: r ∧ isOr kw = true ∧ parse ((items l).flatMap Item.tokens) = some a

/-- Where the tokens of the user leave the parser. -/
structure Frame (ts : List Str) (s : ParseState) (stack : List (List Pending))
    (pend : List Pending) : Prop where
  outer : ∀ l ∈ stack, OuterPend l
  top : TopPend pend
  source : ∀ a, .binary .or a ∈ stack.getLast?.getD pend → Source ts a
  mode : if endsOpen (items ts) then s = ⟨stack, pend, .need⟩
    else ∃ x, s.Carries 2 stack pend x

variable {ts : List Str} {s s' : ParseState} {stack : List (List Pending)} {pend : List Pending}

lemma TopPend.loose {p : ℕ} (h : TopPend pend) (hp : 2 ≤ p) : Loose p pend := by
  rcases h with rfl | ⟨a, rfl⟩
  · exact loose_nil p
  · exact loose_binary (show 1 < p by omega) a []

lemma Source.append {a : Expr} (h : Source ts a) (us : List Str) : Source (ts ++ us) a := by
  obtain ⟨l, kw, r, rfl, hkw, ha⟩ := h
  exact ⟨l, kw, r ++ us, by simp, hkw, ha⟩

/-! ### Steps of the parser -/

/-- Of the symbols, only a parenthesis may stand where an operand is needed. -/
lemma read_symbols_of_need {tok : Str} (hne : tok ≠ []) (hsym : tok <:+: "=<>()".toList)
    (h : ParseState.read ⟨stack, pend, .need⟩ (tok.map .symbol) = some s') :
    tok = openParen ∧ s' = ⟨pend :: stack, [], .need⟩ := by
  obtain ⟨c, cs, rfl⟩ := List.exists_cons_of_ne_nil hne
  have hc : c ∈ "=<>()".toList := hsym.subset (by simp)
  by_cases hopen : c = '('
  · subst hopen
    cases cs with
    | nil =>
      cases h
      exact ⟨rfl, rfl⟩
    | cons d ds =>
      have hd : d ∈ "=<>()".toList := hsym.subset (by simp)
      have hclose : d ≠ '(' := by
        rintro rfl
        have hcount := hsym.sublist.count_le '('
        simp at hcount
      have hminus : d ≠ '-' := by
        rintro rfl
        simp at hd
      rw [List.map_cons, List.map_cons, ParseState.read_cons, ParseState.step_open,
        Option.bind_some, ParseState.read_cons, ParseState.step_symbol_of_need hclose hminus] at h
      cases h
  · have hminus : c ≠ '-' := by
      rintro rfl
      simp at hc
    rw [List.map_cons, ParseState.read_cons, ParseState.step_symbol_of_need hopen hminus] at h
    cases h

/-- One token of the user where an operand is needed: it opens a parenthesis or is an operand. -/
lemma read_token_of_need {tok : Str} (hne : tok ≠ []) (hok : (Item.token tok).error = none)
    (hl : Loose 4 pend)
    (h : ParseState.read ⟨stack, pend, .need⟩ (Item.token tok).tokens = some s') :
    tok = openParen ∧ s' = ⟨pend :: stack, [], .need⟩ ∨
      tok ≠ openParen ∧ ∃ e, s'.Carries 4 stack pend e := by
  cases hr : readToken tok with
  | error e => simp [Item.error, hr] at hok
  | ok cl =>
    simp only [Item.tokens, hr] at h
    cases he : cl.expr? with
    | none =>
      cases cl with
      | symbol t =>
        obtain ⟨rfl, hsym⟩ := readToken_symbol hr
        exact .inl (read_symbols_of_need hne hsym h)
      | column => cases he
      | title => cases he
    | some e =>
      obtain ⟨s'', hs'', hc⟩ := read_operand he hl stack
      obtain rfl := Option.some.inj (h.symm.trans hs'')
      refine .inr ⟨?_, e, hc⟩
      rintro rfl
      rw [readToken_openParen] at hr
      cases hr
      cases he

/-! ### One more token -/

lemma frame_nil : Frame [] ParseState.init [] [] where
  outer := by simp
  top := .inl rfl
  source := by simp
  mode := rfl

lemma items_append_singleton (ts : List Str) (tok : Str) :
    items (ts ++ [tok]) = items ts ++
      (if endsOpen (items ts) then [.token tok]
        else if isOr tok then [.or]
        else if tok ≠ closeParen then [.and, .token tok]
        else [.token tok]) := items_append ts tok []

lemma endsOpen_append_token (is : List Item) (tok : Str) :
    endsOpen (is ++ [.token tok]) = decide (tok = openParen) := by
  rw [ReadsAs.endsOpen_append (by simp), endsOpen_token]

lemma base_eq (stack : List (List Pending)) (pend : List Pending) (m : ParseMode) :
    ParseState.base ⟨stack, pend, m⟩ = stack.getLast?.getD pend := rfl

lemma Frame.push {tok : Str} {m : ParseMode} {p : List Pending} (hf : Frame ts s stack pend)
    (hp : OuterPend p) (hbase : ∀ a, .binary .or a ∈ stack.getLast?.getD p →
      .binary .or a ∈ stack.getLast?.getD pend)
    (hopen : endsOpen (items (ts ++ [tok])) = true) :
    Frame (ts ++ [tok]) ⟨p :: stack, [], .need⟩ (p :: stack) [] where
  outer := by simpa using ⟨hp, hf.outer⟩
  top := .inl rfl
  source a ha := by
    rw [← base_eq (p :: stack) [] m, ParseState.base_cons p [] stack m m, base_eq] at ha
    exact (hf.source a (hbase a ha)).append [tok]
  mode := by rw [if_pos hopen]

/-- After a token that is read where an operand is needed. -/
lemma Frame.operand {tok : Str} {x : Expr} (hf : Frame ts s stack pend)
    (hx : s'.Carries 2 stack pend x) (hclosed : endsOpen (items (ts ++ [tok])) = false) :
    Frame (ts ++ [tok]) s' stack pend where
  outer := hf.outer
  top := hf.top
  source a ha := (hf.source a ha).append [tok]
  mode := by
    rw [hclosed]
    exact ⟨x, hx⟩

/-- After an `or`. -/
lemma Frame.or {kw : Str} {x : Expr} (hf : Frame ts s stack pend) (hx : s.Carries 2 stack pend x)
    (hs : ParseState.read ParseState.init ((items ts).flatMap Item.tokens) = some s)
    (hkw : isOr kw = true) (hopen : endsOpen (items (ts ++ [kw])) = true)
    (hs' : s.step (.keyword .or) = some s') :
    ∃ a, Frame (ts ++ [kw]) s' stack [.binary .or a] := by
  rw [hx.step_or (by decide)] at hs'
  refine ⟨(reduce 0 pend x).2, ⟨hf.outer, .inr ⟨_, rfl⟩, fun a ha => ?_, ?_⟩⟩
  · cases stack with
    | nil =>
      simp only [List.getLast?_nil, Option.getD_none, List.mem_singleton, Pending.binary.injEq,
        true_and] at ha
      refine ⟨ts, kw, [], rfl, hkw, ?_⟩
      rw [parse, hs, Option.bind_some, hx.result_eq, ha]
    | cons q stack =>
      refine (hf.source a ?_).append [kw]
      simpa [List.getLast?_cons] using ha
  · rw [if_pos hopen]
    cases hs'
    simp [ParseState.operator, BinaryOp.prec, reduce_one, reduce_zero_fst]

/-- After a closing parenthesis. -/
lemma Frame.close {x : Expr} (hf : Frame ts s stack pend) (hx : s.Carries 2 stack pend x)
    (hclosed : endsOpen (items (ts ++ [closeParen])) = false)
    (hs' : s.step (.symbol ')') = some s') :
    ∃ stack' pend', Frame (ts ++ [closeParen]) s' stack' pend' := by
  cases stack with
  | nil =>
    rw [hx.step_close_nil] at hs'
    cases hs'
  | cons q stack =>
    rw [hx.step_close] at hs'
    cases hs'
    have houter := fun l hl => hf.outer l (List.mem_cons_of_mem _ hl)
    have hsource : ∀ a, .binary .or a ∈ stack.getLast?.getD q → Source (ts ++ [closeParen]) a := by
      intro a ha
      refine (hf.source a ?_).append _
      rwa [← base_eq _ _ .need, ParseState.base_cons q pend stack .need .need, base_eq]
    have hcarries (p : ℕ) := ParseState.carries_got p stack q (reduce 0 pend x).2
    rcases hf.outer q (by simp) with htop | ⟨y, rest, htop, rfl⟩
    · exact ⟨stack, q, houter, htop, hsource, by rw [hclosed]; exact ⟨_, hcarries 2⟩⟩
    · refine ⟨stack, rest, houter, htop, fun a ha => hsource a ?_, ?_⟩
      · cases stack with
        | nil => exact List.mem_cons_of_mem _ ha
        | cons r stack => simpa [List.getLast?_cons] using ha
      · rw [hclosed]
        exact ⟨_, (hcarries 2).apply (by decide)⟩

/-- After a token that follows an operand: `AND` is inserted. -/
lemma Frame.juxt {tok : Str} {x : Expr} (hf : Frame ts s stack pend)
    (hx : s.Carries 2 stack pend x) (hne : tok ≠ []) (hok : (Item.token tok).error = none)
    (hopen : endsOpen (items (ts ++ [tok])) = decide (tok = openParen))
    (hs' : s.read (.keyword .and :: (Item.token tok).tokens) = some s') :
    ∃ stack' pend', Frame (ts ++ [tok]) s' stack' pend' := by
  rw [ParseState.read_cons, hx.step_and_of_loose le_rfl (hf.top.loose le_rfl),
    Option.bind_some] at hs'
  have hl : Loose 4 (.binary .and x :: pend) := loose_binary (by decide) _ _
  rcases read_token_of_need hne hok hl hs' with ⟨rfl, rfl⟩ | ⟨htok, e, he⟩
  · refine ⟨_, _, hf.push (m := .need) (.inr ⟨x, pend, hf.top, rfl⟩) (fun a ha => ?_) hopen⟩
    cases stack with
    | nil => simpa using ha
    | cons q stack => simpa [List.getLast?_cons] using ha
  · exact ⟨_, _, hf.operand ((he.mono (by decide)).apply (by decide)) (by simp [hopen, htok])⟩

/-- The tokens of the user, as far as the parser accepts them, end in a frame. -/
theorem exists_frame (hne : ∀ tok ∈ ts, tok ≠ [])
    (hok : ∀ tok ∈ ts, (Item.token tok).error = none)
    (h : ParseState.init.read ((items ts).flatMap Item.tokens) = some s) :
    ∃ stack pend, Frame ts s stack pend := by
  induction ts using List.reverseRecOn generalizing s with
  | nil =>
    cases h
    exact ⟨_, _, frame_nil⟩
  | append_singleton ts tok ih =>
    have hitems := items_append_singleton ts tok
    have hne' : tok ≠ [] := hne tok (by simp)
    have hok' : (Item.token tok).error = none := hok tok (by simp)
    rw [hitems, List.flatMap_append, ParseState.read_append] at h
    obtain ⟨s₁, hs₁, hs⟩ := Option.bind_eq_some_iff.mp h
    obtain ⟨stack, pend, hf⟩ := ih (fun t ht => hne t (by simp [ht]))
      (fun t ht => hok t (by simp [ht])) hs₁
    have hmode := hf.mode
    cases hopen : endsOpen (items ts) with
    | true =>
      rw [hopen, if_pos rfl] at hitems hs hmode
      have hends := hitems ▸ endsOpen_append_token (items ts) tok
      rw [List.flatMap_cons, List.flatMap_nil, List.append_nil, hmode] at hs
      rcases read_token_of_need hne' hok' (hf.top.loose (by decide)) hs with
        ⟨rfl, rfl⟩ | ⟨htok, e, he⟩
      · exact ⟨_, _, hf.push (m := .need) (.inl hf.top) (fun _ ha => ha) hends⟩
      · exact ⟨_, _, hf.operand (he.mono (by decide)) (by simp [hends, htok])⟩
    | false =>
      rw [hopen, if_neg Bool.false_ne_true] at hitems hs hmode
      obtain ⟨x, hx⟩ := hmode
      by_cases hor : isOr tok = true
      · rw [if_pos hor] at hitems hs
        have hends : endsOpen (items (ts ++ [tok])) = true := by
          rw [hitems, ReadsAs.endsOpen_append (by simp), endsOpen_or]
        have hstep : s₁.step (.keyword .or) = some s := by simpa [Item.tokens] using hs
        obtain ⟨a, ha⟩ := hf.or hx hs₁ hor hends hstep
        exact ⟨_, _, ha⟩
      · rw [if_neg hor] at hitems hs
        by_cases hclose : tok = closeParen
        · subst hclose
          rw [if_neg (by simp)] at hitems hs
          have hends := hitems ▸ endsOpen_append_token (items ts) closeParen
          have htokens : [Item.token closeParen].flatMap Item.tokens = [.symbol ')'] := by decide
          have hstep : s₁.step (.symbol ')') = some s := by
            simpa [htokens] using hs
          exact hf.close hx hends hstep
        · rw [if_pos hclose] at hitems hs
          have hends : endsOpen (items (ts ++ [tok])) = decide (tok = openParen) := by
            rw [hitems, ReadsAs.endsOpen_append (by simp), endsOpen_cons _ (by simp),
              endsOpen_token]
          have hread : s₁.read (.keyword .and :: (Item.token tok).tokens) = some s := by
            simpa [Item.tokens] using hs
          exact hf.juxt hx hne' hok' hends hread

end Violet
