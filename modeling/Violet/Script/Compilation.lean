import Violet.Script.ScriptCache

/-!
# What a compilation ends in

The tokens of a script are shifted until one of them has no symbol or fits nowhere, or until the
scanner has none left. What has been shifted begins a text of the grammar, so each of the ends can
be told from the tokens alone.
-/

namespace Violet

open Dart Parsing

namespace ScriptCache

/-! ### The words of tokens -/

/-- The symbol of a token; a name that the symbol table lacks has none. -/
def symbol? (tk : Token) : Option ℕ := scriptParser.symbolTable.lookup tk.name

/-- The word that the tokens make up. -/
def wordOf : List Token → Option (List (ℕ × ParseTreeNode))
  | [] => some []
  | tk :: tks => do
    let X ← symbol? tk
    let ts ← wordOf tks
    pure ((X, ScriptGrammar.leaf tk.contents) :: ts)

/-- The scanner yields the tokens of the script, up to an error. -/
def Yields (script : Units) (tks : List Token) (e : Option LexError) : Prop :=
  ∃ fuel calls, (Lexer.allocateTarget (source script)).run scriptLexer fuel = some (calls, e) ∧
    tks = calls.map fun c => c.2.token

/-- The construction of a `ScriptCache` of the script ends in this. -/
def Compiles (script : Units) (r : Except CompileError ParseTreeNode) : Prop :=
  ∃ fuel, compile fuel script = some r

lemma Compiles.unique {script : Units} {r r' : Except CompileError ParseTreeNode}
    (h : Compiles script r) (h' : Compiles script r') : r = r' := by
  obtain ⟨fuel, h⟩ := h
  obtain ⟨fuel', h'⟩ := h'
  rcases Nat.le_total fuel fuel' with hle | hle
  · exact Option.some.inj ((compile_le h hle).symm.trans h')
  · exact Option.some.inj (h.symm.trans (compile_le h' hle))

lemma Yields.unique {script : Units} {tks tks' : List Token} {e e' : Option LexError}
    (h : Yields script tks e) (h' : Yields script tks' e') : tks = tks' ∧ e = e' := by
  obtain ⟨fuel, calls, hrun, rfl⟩ := h
  obtain ⟨fuel', calls', hrun', rfl⟩ := h'
  have heq : (calls, e) = (calls', e') := by
    rcases Nat.le_total fuel fuel' with hle | hle
    · exact Option.some.inj ((Lexer.run_le hrun hle).symm.trans hrun')
    · exact Option.some.inj (hrun.symm.trans (Lexer.run_le hrun' hle))
  obtain ⟨rfl, rfl⟩ := Prod.mk.inj heq
  exact ⟨rfl, rfl⟩

/-! ### The tokens of the scanner fit their symbols -/

lemma length_of_stringEnd {s : Units} (h : Part.start.run s = some .stringEnd) : 2 ≤ s.length := by
  cases s with
  | nil => cases h
  | cons u s =>
    cases s with
    | nil =>
      simp only [Part.run_cons, Part.step, Part.run_nil] at h
      split_ifs at h <;> cases h
    | cons v s => simp

/-- A token has the symbol of a token, or none; a string literal has its quotes. -/
lemma names_fit : (List.range 46).all (fun node => ((scriptLexer.name? node).bind fun name =>
    scriptParser.symbolTable.lookup name).all fun X => ScriptGrammar.isToken X &&
      (X ≠ 16 || ScriptLexer.part node = .stringEnd)) = true := by
  decide +kernel

lemma fits_of_spelled {r : Scanned} (h : r.Spelled) {X : ℕ} (hX : symbol? r.token = some X) :
    ScriptGrammar.isToken X = true ∧
      ScriptGrammar.Fits X (ScriptGrammar.leaf r.token.contents) := by
  obtain ⟨node, hnode, hname, hrun⟩ := h.token
  have hcheck := List.all_eq_true.mp names_fit node (List.mem_range.mpr hnode)
  rw [hname, Option.bind_some, show scriptParser.symbolTable.lookup r.token.name = some X from hX,
    Option.all_some, Bool.and_eq_true, Bool.or_eq_true, decide_eq_true_eq, decide_eq_true_eq]
    at hcheck
  refine ⟨hcheck.1, ScriptGrammar.fits_leaf hcheck.1 fun h16 => ?_⟩
  rw [hcheck.2.resolve_left (not_not.mpr h16)] at hrun
  exact length_of_stringEnd hrun

/-! ### The loop over the tokens -/

abbrev Reached (st : Stack ParseTreeNode) (us : List (ℕ × ParseTreeNode)) : Prop :=
  scriptAutomaton.Reached scriptGrammar ScriptGrammar.Fits st us

variable {st : Stack ParseTreeNode} {us ts : List (ℕ × ParseTreeNode)} {p : ShiftReduceParser}
  {tk : Token} {X : ℕ}

/-- What inserting a token of the scanner ends in: the token is shifted, or it fits nowhere. -/
lemma insert_token (h : Reached st us) (hp : Holds p st) (hX : symbol? tk = some X)
    (htoken : ScriptGrammar.isToken X = true)
    (hfits : ScriptGrammar.Fits X (ScriptGrammar.leaf tk.contents)) :
    ∃ fuel, (∃ st', insert fuel p tk = some (.ok (holding st' false)) ∧
        Reached st' (us ++ [(X, ScriptGrammar.leaf tk.contents)])) ∨
      (insert fuel p tk = some (.error (.parser tk.line tk.column)) ∧
        scriptAutomaton.feed scriptGrammar fuel st (X, ScriptGrammar.leaf tk.contents) =
          some .rejected) := by
  obtain ⟨fuel, r, hfeed⟩ := h.exists_feed ScriptGrammar.past_sound ScriptGrammar.typed
    ScriptGrammar.weightTable_falls X (ScriptGrammar.leaf tk.contents)
  obtain ⟨Xs, hbuilt⟩ := h.built ScriptGrammar.past_sound ScriptGrammar.typed
  have hlt : X < 28 := Nat.lt_succ_of_lt (ScriptGrammar.lt_of_token htoken)
  have hinsert := insert_of_feed (hbuilt X) h.fits hp hlt hX hfeed
  refine ⟨fuel, ?_⟩
  rcases (hbuilt X).feed ScriptGrammar.past_sound ScriptGrammar.typed h.fits (.inl htoken) hfeed
    with ⟨st₀, Zs, rfl, -⟩ | ⟨v, -, heof, -⟩ | rfl
  · exact .inl ⟨_, hinsert, h.shift htoken hfits hfeed⟩
  · exact absurd heof (ScriptGrammar.lt_of_token htoken).ne
  · exact .inr ⟨hinsert, hfeed⟩

lemma insert_unknown (fuel : ℕ) (p : ShiftReduceParser) (hX : symbol? tk = none) :
    insert fuel p tk = some (.error (.dart .nullIndex)) := by
  have hlookup : scriptParser.symbolTable.lookup tk.name = none := hX
  simp only [insert, insertOnce, ShiftReduceParser.insertByTokenName, hlookup]

lemma next_le {l : Lexer} {fuel fuel' : ℕ} {r : Except LexError Scanned}
    (h : l.next scriptLexer fuel = some r) (hle : fuel ≤ fuel') :
    l.next scriptLexer fuel' = some r :=
  Scan.loop_le h hle

/-- The end of the loop over the tokens, behind a word that has been shifted before: all tokens have
been shifted, or one has no symbol or fits nowhere. -/
inductive Ends : List (ℕ × ParseTreeNode) → List Token → Option LexError →
    Except CompileError ShiftReduceParser → Prop where
  | done {us : List (ℕ × ParseTreeNode)} {st : Stack ParseTreeNode} {p : ShiftReduceParser}
      (h : Reached st us) (hp : Holds p st) : Ends us [] none (.ok p)
  | scanner {us : List (ℕ × ParseTreeNode)} {st : Stack ParseTreeNode} (h : Reached st us)
      (e : LexError) : Ends us [] (some e) (.error (.scanner e))
  | unknown {us : List (ℕ × ParseTreeNode)} {st : Stack ParseTreeNode} {tk : Token}
      (h : Reached st us) (hX : symbol? tk = none) (tks : List Token) (e : Option LexError) :
      Ends us (tk :: tks) e (.error (.dart .nullIndex))
  | rejected {us : List (ℕ × ParseTreeNode)} {st : Stack ParseTreeNode} {tk : Token} {X fuel : ℕ}
      (h : Reached st us) (hX : symbol? tk = some X)
      (hfeed : scriptAutomaton.feed scriptGrammar fuel st (X, ScriptGrammar.leaf tk.contents) =
        some .rejected) (tks : List Token) (e : Option LexError) :
      Ends us (tk :: tks) e (.error (.parser tk.line tk.column))
  | cons {us : List (ℕ × ParseTreeNode)} {tk : Token} {X : ℕ} {tks : List Token}
      {e : Option LexError} {r : Except CompileError ShiftReduceParser}
      (hX : symbol? tk = some X)
      (h : Ends (us ++ [(X, ScriptGrammar.leaf tk.contents)]) tks e r) : Ends us (tk :: tks) e r

/-- The tokens that the scanner yields are inserted one after the other. -/
theorem insertTokens_ends {l : Lexer} {fuel : ℕ} {calls : List (Lexer × Scanned)}
    {e : Option LexError} (hrun : l.run scriptLexer fuel = some (calls, e)) (h : Reached st us)
    (hp : Holds p st) :
    ∃ fuel' r, insertTokens fuel' l p = some r ∧ Ends us (calls.map fun c => c.2.token) e r := by
  have hspelled := Lexer.spelled_of_run hrun
  induction fuel generalizing l calls st us p with
  | zero => cases hrun
  | succ fuel ih =>
    by_cases hv : l.valid = true
    · simp only [Lexer.run, hv, if_true] at hrun
      rcases hnext : l.next scriptLexer fuel with _ | e' | r
      · simp [hnext] at hrun
      · rw [hnext] at hrun
        cases hrun
        exact ⟨fuel + 1, _, by simp only [insertTokens, hv, if_true, hnext], .scanner h e'⟩
      · rw [hnext] at hrun
        obtain ⟨⟨calls', e'⟩, hrest, heq⟩ := Option.map_eq_some_iff.mp hrun
        cases heq
        have hr : r.Spelled := hspelled _ List.mem_cons_self
        have hspelled' : ∀ c ∈ calls', c.2.Spelled := fun c hc =>
          hspelled c (List.mem_cons_of_mem _ hc)
        cases hX : symbol? r.token with
        | none =>
          have hins := insert_unknown fuel p hX
          exact ⟨fuel + 1, _, by simp only [insertTokens, hv, if_true, hnext, hins],
            .unknown h hX _ _⟩
        | some X =>
          obtain ⟨htoken, hfits⟩ := fits_of_spelled hr hX
          obtain ⟨f, ⟨st', hins, hreached⟩ | ⟨hins, hfeed⟩⟩ := insert_token h hp hX htoken hfits
          · obtain ⟨f', r', hins', hends⟩ := ih hrest hreached (holds_holding st' false) hspelled'
            have hle : fuel ≤ max (max fuel f) f' := by omega
            have hf : f ≤ max (max fuel f) f' := by omega
            refine ⟨max (max fuel f) f' + 1, r', ?_, .cons hX hends⟩
            simp only [insertTokens, hv, if_true, next_le hnext hle, insert_le hins hf]
            exact insertTokens_le hins' (Nat.le_max_right _ _)
          · refine ⟨max fuel f + 1, _, ?_, .rejected h hX hfeed _ _⟩
            simp only [insertTokens, hv, if_true, next_le hnext (Nat.le_max_left fuel f),
              insert_le hins (Nat.le_max_right fuel f)]
    · simp only [Lexer.run, if_neg hv, Option.some.injEq, Prod.mk.injEq] at hrun
      obtain ⟨rfl, rfl⟩ := hrun
      exact ⟨1, _, by simp only [insertTokens, if_neg hv], .done h hp⟩

/-! ### What the tokens tell -/

/-- The word is read as a script. -/
def IsScript (ts : List (ℕ × ParseTreeNode)) (tree : ParseTreeNode) : Prop :=
  scriptGrammar.Reads [1] 27 ts [tree]

/-- The word begins a script. -/
def Viable (ts : List (ℕ × ParseTreeNode)) : Prop := ∃ rest tree, IsScript (ts ++ rest) tree

/-- All tokens together are read as a script, and one of them is the lexeme `function`. -/
def TakesFunction (tks : List Token) (e : Option LexError) : Prop :=
  e = none ∧ ∃ ts tree, wordOf tks = some ts ∧ IsScript ts tree ∧ ∃ t ∈ ts, t.1 = 10

/-- A token without a symbol stands behind tokens that begin a script. -/
def MeetsUnknownName (tks : List Token) : Prop :=
  ∃ pre tk post ts, tks = pre ++ tk :: post ∧ symbol? tk = none ∧ wordOf pre = some ts ∧ Viable ts

/-- A unit outside of the columns stands behind tokens that begin a script. -/
def LeavesColumns (tks : List Token) (e : Option LexError) : Prop :=
  e = some .range ∧ ∃ ts, wordOf tks = some ts ∧ Viable ts

/-- The tokens are refused: neither they nor what stands before a token without a symbol begin a
script. -/
structure Refused (tks : List Token) (e : Option LexError) : Prop where
  script : e = none → ∀ ts tree, wordOf tks = some ts → ¬ IsScript ts tree
  unknown : ¬ MeetsUnknownName tks
  scanner : e ≠ none → ∀ ts, wordOf tks = some ts → ¬ Viable ts

lemma viable_of_append (h : Viable (us ++ ts)) : Viable us := by
  obtain ⟨rest, tree, hreads⟩ := h
  exact ⟨ts ++ rest, tree, by rwa [← List.append_assoc]⟩

lemma start_chain : ScriptGrammar.follow.chain scriptAutomaton 0 [1] 27 = true := by
  decide +kernel

/-- A token that fits nowhere begins nothing. -/
lemma not_viable_of_rejected {c : ParseTreeNode} {fuel : ℕ} (h : Reached st us)
    (hfeed : scriptAutomaton.feed scriptGrammar fuel st (X, c) = some .rejected) :
    ¬ Viable (us ++ (X, c) :: ts) := by
  rintro ⟨rest, tree, hreads⟩
  rw [List.append_assoc] at hreads
  obtain ⟨fuel', st', hshift⟩ := h.exists_shifted (P := ScriptGrammar.past)
    ScriptGrammar.follow_closed start_chain hreads
  cases Automaton.feed_unique hfeed hshift

lemma wordOf_cons (hX : symbol? tk = some X) (tks : List Token) :
    wordOf (tk :: tks) =
      (wordOf tks).map ((X, ScriptGrammar.leaf tk.contents) :: ·) := by
  rw [wordOf, hX]
  cases wordOf tks <;> rfl

lemma wordOf_append (pre post : List Token) :
    wordOf (pre ++ post) = (wordOf pre).bind fun ts => (wordOf post).map (ts ++ ·) := by
  induction pre with
  | nil => cases h : wordOf post <;> simp [wordOf, h]
  | cons tk pre ih =>
    cases hX : symbol? tk with
    | none => simp [wordOf, hX]
    | some X =>
      rw [List.cons_append, wordOf_cons hX, wordOf_cons hX, ih]
      cases wordOf pre <;> cases wordOf post <;> rfl

/-- Behind a rejected token nothing is read: the tokens are refused. -/
lemma refused_of_rejected {pre post : List Token} {fuel : ℕ} (hpre : wordOf pre = some us)
    (h : Reached st us) (hX : symbol? tk = some X)
    (hfeed : scriptAutomaton.feed scriptGrammar fuel st (X, ScriptGrammar.leaf tk.contents) =
      some .rejected) (e : Option LexError) : Refused (pre ++ tk :: post) e := by
  have hnone {ts : List (ℕ × ParseTreeNode)} {rest : List Token}
      (hword : wordOf (pre ++ tk :: rest) = some ts) : ¬ Viable ts := by
    rw [wordOf_append, hpre, Option.bind_some, wordOf_cons hX, Option.map_map] at hword
    obtain ⟨us', -, rfl⟩ := Option.map_eq_some_iff.mp hword
    exact not_viable_of_rejected h hfeed
  refine ⟨fun _ ts tree hword hreads => hnone hword ⟨[], tree, by rwa [List.append_nil]⟩, ?_,
    fun _ ts hword => hnone hword⟩
  rintro ⟨pre', tk', post', ts, heq, hX', hpre', hviable⟩
  rcases List.append_eq_append_iff.mp heq with ⟨mid, rfl, hmid⟩ | ⟨mid, rfl, hmid⟩
  · cases mid with
    | nil =>
      obtain ⟨rfl, -⟩ := List.cons.inj hmid
      rw [hX] at hX'
      cases hX'
    | cons tk₁ mid =>
      obtain ⟨rfl, -⟩ := List.cons.inj hmid
      exact hnone hpre' hviable
  · cases mid with
    | nil =>
      obtain ⟨rfl, -⟩ := List.cons.inj hmid
      rw [hX] at hX'
      cases hX'
    | cons tk₁ mid =>
      obtain ⟨rfl, -⟩ := List.cons.inj hmid
      rw [wordOf_append, wordOf, hX'] at hpre
      cases hword : wordOf pre' <;> simp [hword] at hpre

/-- The end marker is accepted behind a script. -/
lemma finish_of_isScript (h : Reached st us) (hp : Holds p st) {tree : ParseTreeNode}
    (hreads : IsScript us tree) : ∃ fuel, finish fuel p = some (.ok tree) := by
  obtain ⟨fuel, haccept⟩ := h.exists_accepted (P := ScriptGrammar.past)
    ScriptGrammar.follow_closed start_chain rfl hreads (ScriptGrammar.leaf endMarker.contents)
  obtain ⟨Xs, hbuilt⟩ := h.built ScriptGrammar.past_sound ScriptGrammar.typed
  have hinsert : insert fuel p endMarker = _ :=
    insert_of_feed (hbuilt 27) h.fits hp (by decide) rfl haccept
  have hp' : p.isError = false := hp.noError
  refine ⟨fuel, ?_⟩
  simp only [finish, hp', hinsert, Bool.false_eq_true, if_false]
  rfl

/-- The end marker is accepted behind a script, and rejected behind anything else. -/
lemma finish_ends (h : Reached st us) (hp : Holds p st) :
    ∃ fuel, (∃ tree, finish fuel p = some (.ok tree) ∧ IsScript us tree) ∨
      (finish fuel p = some (.error (.parser (-1) (-1))) ∧ ∀ tree, ¬ IsScript us tree) := by
  obtain ⟨fuel, r, hfeed⟩ := h.exists_feed ScriptGrammar.past_sound ScriptGrammar.typed
    ScriptGrammar.weightTable_falls 27 (ScriptGrammar.leaf endMarker.contents)
  obtain ⟨Xs, hbuilt⟩ := h.built ScriptGrammar.past_sound ScriptGrammar.typed
  have hinsert : insert fuel p endMarker = _ :=
    insert_of_feed (hbuilt 27) h.fits hp (by decide) rfl hfeed
  have hp' : p.isError = false := hp.noError
  refine ⟨fuel, ?_⟩
  rcases (hbuilt 27).feed ScriptGrammar.past_sound ScriptGrammar.typed h.fits (.inr rfl) hfeed
    with ⟨st₀, Zs, rfl, htoken, -⟩ | ⟨tree, rfl, -, hreads⟩ | rfl
  · exact absurd (ScriptGrammar.lt_of_token (X := 27) htoken) (by decide)
  · refine .inl ⟨tree, ?_, hreads⟩
    simp only [finish, hp', hinsert, Bool.false_eq_true, if_false]
    rfl
  · refine .inr ⟨?_, fun tree hreads => ?_⟩
    · simp only [finish, hp', hinsert, Bool.false_eq_true, if_false]
      rfl
    · obtain ⟨fuel', haccept⟩ := h.exists_accepted (P := ScriptGrammar.past)
        ScriptGrammar.follow_closed start_chain rfl hreads (ScriptGrammar.leaf endMarker.contents)
      cases Automaton.feed_unique hfeed haccept

/-! ### What a compilation ends in -/

/-- The end of a compilation, by the tokens of the scanner and its error. -/
inductive Result (tks : List Token) :
    Option LexError → Except CompileError ParseTreeNode → Prop where
  | accepted {ts : List (ℕ × ParseTreeNode)} {tree : ParseTreeNode}
      (hword : wordOf tks = some ts) (h : IsScript ts tree) : Result tks none (.ok tree)
  | refused {e : Option LexError} (h : Refused tks e) (line column : ℤ) :
      Result tks e (.error (.parser line column))
  | unknown (h : MeetsUnknownName tks) (e : Option LexError) :
      Result tks e (.error (.dart .nullIndex))
  | scanner {ts : List (ℕ × ParseTreeNode)} (hword : wordOf tks = some ts) (h : Viable ts)
      (e : LexError) : Result tks (some e) (.error (.scanner e))

/-- Nothing at all begins a script. -/
lemma viable_nil : Viable [] := by
  have hshift : scriptAutomaton.feed scriptGrammar 1 [] (13, ScriptGrammar.leaf []) =
      some (.shifted [(3, ScriptGrammar.leaf [])]) := by
    rfl
  have hreached : Reached [(3, ScriptGrammar.leaf [])] ([] ++ [(13, ScriptGrammar.leaf [])]) :=
    .shift .nil rfl (ScriptGrammar.fits_leaf rfl (by simp)) hshift
  obtain ⟨rest, tree, hreads, -⟩ := hreached.exists_reads ScriptGrammar.need_closed
    ScriptGrammar.past_sound ScriptGrammar.typed (by simp)
  have hviable : Viable ([] ++ [(13, ScriptGrammar.leaf [])]) := ⟨rest, tree, hreads⟩
  exact viable_of_append hviable

lemma viable_of_reached (h : Reached st us) : Viable us := by
  by_cases hne : us = []
  · exact hne ▸ viable_nil
  · obtain ⟨rest, tree, hreads, -⟩ := h.exists_reads ScriptGrammar.need_closed
      ScriptGrammar.past_sound ScriptGrammar.typed hne
    exact ⟨rest, tree, hreads⟩

/-- The loop over the tokens and the end marker. -/
lemma result_of_ends {pre tks : List Token} {e : Option LexError}
    {r : Except CompileError ShiftReduceParser} (h : Ends us tks e r)
    (hpre : wordOf pre = some us) :
    ∃ fuel r', (match r with
      | .error e => some (.error e)
      | .ok p => finish fuel p) = some r' ∧ Result (pre ++ tks) e r' := by
  induction h generalizing pre with
  | @done us st p h hp =>
    rw [List.append_nil]
    have hviable := viable_of_reached h
    obtain ⟨fuel, ⟨tree, hfinish, hreads⟩ | ⟨hfinish, hnone⟩⟩ := finish_ends h hp
    · exact ⟨fuel, _, hfinish, .accepted hpre hreads⟩
    · refine ⟨fuel, _, hfinish, .refused ⟨fun _ ts tree hword => ?_, ?_, fun h => absurd rfl h⟩ _ _⟩
      · rw [Option.some.inj (hpre.symm.trans hword)] at hnone
        exact hnone tree
      · rintro ⟨pre', tk, post, ts, rfl, hX, hpre', -⟩
        rw [wordOf_append, wordOf, hX] at hpre
        cases hword : wordOf pre' <;> simp [hword] at hpre
  | scanner h e =>
    rw [List.append_nil]
    exact ⟨0, _, rfl, .scanner hpre (viable_of_reached h) e⟩
  | @unknown us st tk h hX tks e =>
    exact ⟨0, _, rfl, .unknown ⟨pre, tk, tks, us, rfl, hX, hpre, viable_of_reached h⟩ e⟩
  | rejected h hX hfeed tks e =>
    exact ⟨0, _, rfl, .refused (refused_of_rejected hpre h hX hfeed e) _ _⟩
  | @cons us tk X tks e r hX _ ih =>
    rw [List.append_cons]
    refine ih ?_
    rw [wordOf_append, hpre, wordOf_cons hX]
    rfl

theorem exists_result (script : Units) :
    ∃ tks e r, Yields script tks e ∧ Compiles script r ∧ Result tks e r := by
  obtain ⟨calls, e, hrun, -⟩ :=
    Lexer.run_ends ScriptLexer.complete (l := Lexer.allocateTarget (source script))
      (Nat.lt_succ_self _)
  obtain ⟨fuel, r, hinsert, hends⟩ := insertTokens_ends hrun .nil holds_init
  obtain ⟨fuel', r', hr, hresult⟩ := @result_of_ends _ [] _ _ _ hends rfl
  refine ⟨_, e, r', ⟨_, calls, hrun, rfl⟩, ⟨max fuel fuel', ?_⟩, hresult⟩
  rw [compile, insertTokens_le hinsert (Nat.le_max_left _ _)]
  cases r with
  | error e => exact hr
  | ok p => exact finish_le hr (Nat.le_max_right _ _)

/-! ### Derivable scripts -/

/-- The tokens are derivable in the grammar from terminal symbols. -/
def Derivable (tks : List Token) : Prop :=
  ∃ ts, wordOf tks = some ts ∧
    scriptGrammar.Derives ScriptGrammar.isTerminal [1] (ts.map Prod.fst)

/-- The construction accepts a script only when its tokens are derivable, and throws the compiler's
own exception otherwise. -/
def CompilesSoundly (script : Units) : Prop :=
  ∃ tks e r, Yields script tks e ∧ Compiles script r ∧
    ((∃ tree, r = .ok tree ∧ e = none ∧ Derivable tks) ∨ ∃ err, r = .error err ∧ err.Own)

lemma terminal_of_derives {Xs w : List ℕ}
    (h : scriptGrammar.Derives ScriptGrammar.isTerminal Xs w) :
    ∀ X ∈ w, ScriptGrammar.isTerminal X = true := by
  induction h with
  | nil => simp
  | terminal hX _ ih => simpa using ⟨hX, ih⟩
  | produce _ _ _ ihrhs ih =>
    intro X hX
    rcases List.mem_append.mp hX with hX | hX
    · exact ihrhs X hX
    · exact ih X hX

/-- A script without the lexeme `function` is derivable. -/
lemma derivable_of_isScript {tks : List Token} {tree : ParseTreeNode}
    (hword : wordOf tks = some ts) (h : IsScript ts tree) (hnone : ∀ t ∈ ts, t.1 ≠ 10) :
    Derivable tks := by
  refine ⟨ts, hword, h.derives fun t ht => ?_⟩
  have htoken : ScriptGrammar.isToken t.1 = true := h.token_of_mem t ht
  simpa [ScriptGrammar.isToken, hnone t ht] using htoken

lemma not_derivable_of_function {tks : List Token} (hword : wordOf tks = some ts)
    (hmem : ∃ t ∈ ts, t.1 = 10) : ¬ Derivable tks := by
  rintro ⟨ts', hword', hderives⟩
  obtain rfl := Option.some.inj (hword.symm.trans hword')
  obtain ⟨t, ht, h10⟩ := hmem
  have hterminal := terminal_of_derives hderives t.1 (List.mem_map_of_mem ht)
  rw [h10] at hterminal
  cases hterminal

/-- A word that begins a script is not refused. -/
lemma Refused.not_leavesColumns {tks : List Token} {e : Option LexError} (h : Refused tks e) :
    ¬ LeavesColumns tks e := by
  rintro ⟨rfl, ts, hword, hviable⟩
  exact h.scanner (by simp) ts hword hviable

/-- The construction is sound exactly when no lexeme `function` is taken for a call, no lexeme
without a symbol is met, and no unit outside of the columns is met. -/
theorem compilesSoundly_iff (script : Units) :
    CompilesSoundly script ↔ ∀ tks e, Yields script tks e →
      ¬ TakesFunction tks e ∧ ¬ MeetsUnknownName tks ∧ ¬ LeavesColumns tks e := by
  obtain ⟨tks, e, r, hyields, hcompiles, hresult⟩ := exists_result script
  constructor
  · rintro ⟨tks₁, e₁, r₁, hyields₁, hcompiles₁, hsound⟩ tks' e' hyields'
    obtain ⟨rfl, rfl⟩ := hyields.unique hyields'
    obtain ⟨rfl, rfl⟩ := hyields.unique hyields₁
    obtain rfl := hcompiles.unique hcompiles₁
    cases hresult with
    | accepted hword h =>
      obtain ⟨tree, -, -, hderivable⟩ | ⟨err, herr, -⟩ := hsound
      · refine ⟨fun hfunction => ?_, ?_, fun hleaves => by cases hleaves.1⟩
        · obtain ⟨-, ts', tree', hword', -, hmem⟩ := hfunction
          exact not_derivable_of_function hword' hmem hderivable
        · rintro ⟨pre, tk, post, ts', rfl, hX, -⟩
          rw [wordOf_append, wordOf, hX] at hword
          cases hpre : wordOf pre <;> simp [hpre] at hword
      · cases herr
    | refused h line column =>
      refine ⟨?_, h.unknown, h.not_leavesColumns⟩
      rintro ⟨rfl, ts', tree', hword', hreads, -⟩
      exact h.script rfl ts' tree' hword' hreads
    | unknown h e =>
      obtain ⟨tree, htree, -⟩ | ⟨err, herr, hown⟩ := hsound
      · cases htree
      · obtain rfl := Except.error.inj herr
        exact absurd hown id
    | scanner hword h e =>
      obtain ⟨tree, htree, -⟩ | ⟨err, herr, hown⟩ := hsound
      · cases htree
      · obtain rfl := Except.error.inj herr
        refine ⟨fun hfunction => (by cases hfunction.1), ?_, fun hleaves => ?_⟩
        · rintro ⟨pre, tk, post, ts', rfl, hX, -⟩
          rw [wordOf_append, wordOf, hX] at hword
          cases hpre : wordOf pre <;> simp [hpre] at hword
        · obtain rfl := Option.some.inj hleaves.1
          exact hown
  · intro h
    obtain ⟨hfunction, hunknown, hleaves⟩ := h tks e hyields
    refine ⟨tks, e, r, hyields, hcompiles, ?_⟩
    cases hresult with
    | @accepted ts tree hword h =>
      refine .inl ⟨tree, rfl, rfl, derivable_of_isScript hword h fun t ht h10 => ?_⟩
      exact hfunction ⟨rfl, ts, tree, hword, h, t, ht, h10⟩
    | refused h line column => exact .inr ⟨_, rfl, trivial⟩
    | unknown h e => exact absurd h hunknown
    | scanner hword h e =>
      refine .inr ⟨_, rfl, ?_⟩
      cases e with
      | patternNotFound line column builder => trivial
      | range => exact absurd ⟨rfl, _, hword, h⟩ hleaves

lemma exists_of_mem_wordOf {tks : List Token} (hword : wordOf tks = some ts) (htk : tk ∈ tks) :
    ∃ t ∈ ts, symbol? tk = some t.1 := by
  induction tks generalizing ts with
  | nil => simp at htk
  | cons tk' tks ih =>
    cases hX : symbol? tk' with
    | none => simp [wordOf, hX] at hword
    | some X =>
      rw [wordOf_cons hX] at hword
      obtain ⟨ts', hword', rfl⟩ := Option.map_eq_some_iff.mp hword
      rcases List.mem_cons.mp htk with rfl | htk
      · exact ⟨_, List.mem_cons_self, hX⟩
      · obtain ⟨t, ht, hX'⟩ := ih hword' htk
        exact ⟨t, List.mem_cons_of_mem _ ht, hX'⟩

/-- The construction of a `ScriptCache` of the script succeeds. -/
def Accepts (script : Units) : Prop := ∃ tree, Compiles script (.ok tree)

lemma accepts_of_isOk {script : Units} (fuel : ℕ)
    (h : (compile fuel script).any Except.isOk = true) : Accepts script := by
  cases hr : compile fuel script with
  | none => simp [hr] at h
  | some r =>
    cases r with
    | ok tree => exact ⟨tree, fuel, hr⟩
    | error e => simp [hr, Except.isOk, Except.toBool] at h

lemma exists_tree (script : Units) (content : INode) (fuel : ℕ)
    (h : ((compile fuel script).bind fun r => r.toOption.bind ParseTreeNode.userContents) =
      some content) : ∃ tree, Compiles script (.ok tree) ∧ tree.userContents = some content := by
  obtain ⟨r, hr, h⟩ := Option.bind_eq_some_iff.mp h
  cases r with
  | error e => cases h
  | ok tree => exact ⟨tree, ⟨fuel, hr⟩, h⟩

/-- A script of the one lexeme `function`. -/
theorem not_compilesSoundly_function : ¬ CompilesSoundly (units "function") := by
  rintro ⟨tks, e, r, hyields, hcompiles, hsound⟩
  have hnames : ((Lexer.allocateTarget (source (units "function"))).run scriptLexer 40).map
      (fun run => run.1.map fun c => c.2.token.name) =
        some ["[".toList, "function".toList, "]".toList] := by
    decide +kernel
  have haccepts : Accepts (units "function") :=
    accepts_of_isOk 40 (by decide +kernel)
  obtain ⟨tree, hcompiles'⟩ := haccepts
  obtain rfl := hcompiles.unique hcompiles'
  obtain ⟨-, -, -, ts, hword, hderives⟩ | ⟨err, herr, -⟩ := hsound
  · obtain ⟨⟨calls, e'⟩, hrun, heq⟩ := Option.map_eq_some_iff.mp hnames
    obtain ⟨rfl, -⟩ := hyields.unique ⟨40, calls, hrun, rfl⟩
    have hmem : "function".toList ∈ calls.map fun c => c.2.token.name := by
      rw [heq]
      decide
    obtain ⟨c, hc, hname⟩ := List.mem_map.mp hmem
    obtain ⟨t, ht, hX⟩ := exists_of_mem_wordOf hword (List.mem_map_of_mem hc)
    have h10 : symbol? c.2.token = some 10 := by
      rw [symbol?, hname]
      rfl
    refine not_derivable_of_function hword ⟨t, ht, ?_⟩ ⟨ts, hword, hderives⟩
    exact Option.some.inj (hX.symm.trans h10)
  · cases herr

/-! ### Nothing is lost -/

/-- What the tokens and the dropped texts hold, in the order of the text, is the whole text. -/
def KeepsInput (script : Units) : Prop :=
  ∃ fuel calls, (Lexer.allocateTarget (source script)).run scriptLexer fuel = some (calls, none) ∧
    (Lexer.pieces calls).flatten = source script

/-- A script is accepted without a loss, and only when the lexical rules cover its text. -/
def LosesNothing (script : Units) : Prop :=
  (Accepts script → KeepsInput script) ∧ (¬ Covered (source script) → ¬ Accepts script)

lemma exists_run_of_accepts {script : Units} (h : Accepts script) :
    ∃ fuel calls,
      (Lexer.allocateTarget (source script)).run scriptLexer fuel = some (calls, none) := by
  obtain ⟨tree, hcompiles⟩ := h
  obtain ⟨tks, e, r, ⟨fuel, calls, hrun, -⟩, hcompiles', hresult⟩ := exists_result script
  obtain rfl := hcompiles.unique hcompiles'
  cases hresult with
  | accepted _ _ => exact ⟨fuel, calls, hrun⟩

lemma keepsInput_iff_of_run {script : Units} {fuel : ℕ} {calls : List (Lexer × Scanned)}
    (hrun : (Lexer.allocateTarget (source script)).run scriptLexer fuel = some (calls, none)) :
    KeepsInput script ↔ (Lexer.pieces calls).flatten = source script := by
  constructor
  · rintro ⟨fuel', calls', hrun', htext⟩
    have heq : (calls, none) = (calls', (none : Option LexError)) := by
      rcases Nat.le_total fuel fuel' with hle | hle
      · exact Option.some.inj ((Lexer.run_le hrun hle).symm.trans hrun')
      · exact Option.some.inj (hrun.symm.trans (Lexer.run_le hrun' hle))
    obtain ⟨rfl, -⟩ := Prod.mk.inj heq
    exact htext
  · exact fun htext => ⟨fuel, calls, hrun, htext⟩

/-- An accepted script is read without a loss exactly when the lexical rules cover its text. -/
theorem losesNothing_iff_covered {script : Units} (h : Accepts script) :
    (KeepsInput script ↔ Covered (source script)) ∧
      (LosesNothing script ↔ Covered (source script)) := by
  obtain ⟨fuel, calls, hrun⟩ := exists_run_of_accepts h
  have hkeeps : KeepsInput script ↔ Covered (source script) := by
    rw [keepsInput_iff_of_run hrun]
    exact Lexer.text_eq_iff_covered hrun
  refine ⟨hkeeps, fun hloses => hkeeps.mp (hloses.1 h), fun hcovered => ⟨fun _ => ?_, ?_⟩⟩
  · exact hkeeps.mpr hcovered
  · exact fun hnot => absurd hcovered hnot

/-- The call `print(1)`. -/
theorem losesNothing_print : LosesNothing (units "print(1)") := by
  have haccepts : Accepts (units "print(1)") := accepts_of_isOk 40 (by decide +kernel)
  refine (losesNothing_iff_covered haccepts).2.mpr ?_
  have htext : ((Lexer.allocateTarget (source (units "print(1)"))).run scriptLexer 40).map
      (fun run => ((Lexer.pieces run.1).flatten, run.2)) =
        some (source (units "print(1)"), none) := by
    decide +kernel
  obtain ⟨⟨calls, e⟩, hrun, heq⟩ := Option.map_eq_some_iff.mp htext
  obtain ⟨hflat, rfl⟩ := Prod.mk.inj heq
  exact (Lexer.text_eq_iff_covered hrun).mp hflat

/-- A semicolon is passed over in `print(1;)`. -/
theorem not_losesNothing_semicolon : ¬ LosesNothing (units "print(1;)") := by
  rintro ⟨hkeeps, -⟩
  have haccepts : Accepts (units "print(1;)") := accepts_of_isOk 40 (by decide +kernel)
  have htext : ((Lexer.allocateTarget (source (units "print(1;)"))).run scriptLexer 40).map
      (fun run => ((Lexer.pieces run.1).flatten, run.2)) =
        some (source (units "print(1)"), none) := by
    decide +kernel
  obtain ⟨⟨calls, e⟩, hrun, heq⟩ := Option.map_eq_some_iff.mp htext
  obtain ⟨hflat, rfl⟩ := Prod.mk.inj heq
  have hlost := (keepsInput_iff_of_run hrun).mp (hkeeps haccepts)
  exact absurd (hflat.symm.trans hlost) (by decide +kernel)

end ScriptCache

end Violet
