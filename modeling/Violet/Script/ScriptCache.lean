import Violet.Script.Lexemes
import Violet.Script.ScriptGrammar

/-!
# The compilation of a script

`ScriptCache` hands the tokens of the scanner to the parser, one after the other, and the end marker
behind them. Inserting a token runs the automaton of the parser on it.
-/

namespace Violet

open Dart Parsing

/-- What a compilation may throw: the exceptions of the compiler and of the scanner, and the errors
of Dart. -/
inductive CompileError where
  | parser (line column : ℤ)
  | parserInf
  | scanner (e : LexError)
  | dart (e : ParserError)
  deriving DecidableEq, Repr

namespace CompileError

/-- The exceptions that the source throws itself. -/
def Own : CompileError → Prop
  | parser _ _ | parserInf | scanner (.patternNotFound _ _ _) => True
  | scanner .range | dart _ => False

def text : CompileError → Units
  | parser line column =>
    units "[COMPILER] Parser error! L:" ++ (intToString line).flatMap encodeChar ++
      units ", C:" ++ (intToString column).flatMap encodeChar
  | parserInf => units "[COMPILER] Parser error! inf"
  | scanner e => e.text
  | dart .nullIndex => units "NoSuchMethodError"
  | dart .range => units "RangeError"
  | dart .cast => units "TypeError"

end CompileError

namespace ScriptCache

/-- `insertByTokenName`, and the check behind it. -/
def insertOnce (p : ShiftReduceParser) (tk : Token) : Except CompileError ShiftReduceParser :=
  match p.insertByTokenName scriptParser tk.name tk.contents with
  | .error e => .error (.dart e)
  | .ok p => if p.isError then .error (.parser tk.line tk.column) else .ok p

/-- The token is inserted again, until nothing has been reduced. -/
def insertAgain : ℕ → ShiftReduceParser → Token → Option (Except CompileError ShiftReduceParser)
  | 0, _, _ => none
  | fuel + 1, p, tk =>
    if p.reduce then
      match p.runAction scriptParser with
      | .error e => some (.error (.dart e))
      | .ok p =>
        match insertOnce p tk with
        | .error e => some (.error e)
        | .ok p => insertAgain fuel p tk
    else some (.ok p)

/-- `insert` -/
def insert (fuel : ℕ) (p : ShiftReduceParser) (tk : Token) :
    Option (Except CompileError ShiftReduceParser) :=
  match insertOnce p tk with
  | .error e => some (.error e)
  | .ok p => insertAgain fuel p tk

/-- The loop over the tokens. -/
def insertTokens : ℕ → Lexer → ShiftReduceParser → Option (Except CompileError ShiftReduceParser)
  | 0, _, _ => none
  | fuel + 1, lexer, p =>
    if lexer.valid then
      match lexer.next scriptLexer fuel with
      | none => none
      | some (.error e) => some (.error (.scanner e))
      | some (.ok r) =>
        match insert fuel p r.token with
        | none => none
        | some (.error e) => some (.error e)
        | some (.ok p) => insertTokens fuel r.lexer p
    else some (.ok p)

/-- The end marker. -/
def endMarker : Token := ⟨"$".toList, units "$", -1, -1⟩

/-- The end marker is inserted, and the tree is what the parser then holds. -/
def finish (fuel : ℕ) (p : ShiftReduceParser) : Option (Except CompileError ParseTreeNode) :=
  if p.isError then some (.error .parserInf)
  else
    match insert fuel p endMarker with
    | none => none
    | some (.error e) => some (.error e)
    | some (.ok p) =>
      match p.treenodeStack with
      | tree :: _ => some (.ok tree)
      | [] => some (.error (.dart .range))

/-- The construction of a `ScriptCache`: its tree, or what it throws. -/
def compile (fuel : ℕ) (script : Units) : Option (Except CompileError ParseTreeNode) :=
  match insertTokens fuel (Lexer.allocateTarget (source script)) .init with
  | none => none
  | some (.error e) => some (.error e)
  | some (.ok p) => finish fuel p

/-! ### More fuel -/

lemma insertAgain_le {p : ShiftReduceParser} {tk : Token} {fuel fuel' : ℕ}
    {r : Except CompileError ShiftReduceParser} (h : insertAgain fuel p tk = some r)
    (hle : fuel ≤ fuel') : insertAgain fuel' p tk = some r := by
  induction fuel generalizing p fuel' with
  | zero => cases h
  | succ fuel ih =>
    obtain ⟨n, rfl⟩ := Nat.exists_eq_add_of_le' hle
    rw [← Nat.add_assoc]
    rw [insertAgain] at h ⊢
    by_cases hp : p.reduce = true
    · simp only [hp, if_true] at h ⊢
      cases hact : p.runAction scriptParser with
      | error e => simpa only [hact] using h
      | ok p₁ =>
        simp only [hact] at h ⊢
        cases hins : insertOnce p₁ tk with
        | error e => simpa only [hins] using h
        | ok p₂ =>
          simp only [hins] at h ⊢
          exact ih h (by omega)
    · simpa only [if_neg hp] using h

lemma insert_le {p : ShiftReduceParser} {tk : Token} {fuel fuel' : ℕ}
    {r : Except CompileError ShiftReduceParser} (h : insert fuel p tk = some r)
    (hle : fuel ≤ fuel') : insert fuel' p tk = some r := by
  rw [insert] at h ⊢
  cases hins : insertOnce p tk with
  | error e => simpa only [hins] using h
  | ok p' =>
    simp only [hins] at h ⊢
    exact insertAgain_le h hle

lemma insertTokens_le {l : Lexer} {p : ShiftReduceParser} {fuel fuel' : ℕ}
    {r : Except CompileError ShiftReduceParser} (h : insertTokens fuel l p = some r)
    (hle : fuel ≤ fuel') : insertTokens fuel' l p = some r := by
  induction fuel generalizing l p fuel' with
  | zero => cases h
  | succ fuel ih =>
    obtain ⟨n, rfl⟩ := Nat.exists_eq_add_of_le' hle
    rw [← Nat.add_assoc]
    rw [insertTokens] at h ⊢
    by_cases hv : l.valid = true
    · simp only [hv, if_true] at h ⊢
      cases hnext : l.next scriptLexer fuel with
      | none => simp [hnext] at h
      | some r' =>
        rw [hnext] at h
        have hnext' : l.next scriptLexer (n + fuel) = some r' :=
          Scan.loop_le hnext (Nat.le_add_left _ _)
        rw [hnext']
        cases r' with
        | error e => exact h
        | ok r' =>
          cases hins : insert fuel p r'.token with
          | none => simp [hins] at h
          | some q =>
            simp only [hins, insert_le hins (Nat.le_add_left fuel n)] at h ⊢
            cases q with
            | error e => exact h
            | ok p' => exact ih h (Nat.le_add_left _ _)
    · simpa only [if_neg hv] using h

lemma finish_le {p : ShiftReduceParser} {fuel fuel' : ℕ} {r : Except CompileError ParseTreeNode}
    (h : finish fuel p = some r) (hle : fuel ≤ fuel') : finish fuel' p = some r := by
  rw [finish] at h ⊢
  by_cases hp : p.isError = true
  · simpa only [if_pos hp] using h
  · simp only [if_neg hp] at h ⊢
    cases hins : insert fuel p endMarker with
    | none => simp [hins] at h
    | some q =>
      rw [hins] at h
      rw [insert_le hins hle]
      exact h

lemma compile_le {script : Units} {fuel fuel' : ℕ} {r : Except CompileError ParseTreeNode}
    (h : compile fuel script = some r) (hle : fuel ≤ fuel') : compile fuel' script = some r := by
  rw [compile] at h ⊢
  cases hins : insertTokens fuel (Lexer.allocateTarget (source script)) .init with
  | none => simp [hins] at h
  | some q =>
    rw [hins] at h
    rw [insertTokens_le hins hle]
    cases q with
    | error e => exact h
    | ok p => exact finish_le h hle

/-! ### The parser holds a stack -/

/-- The parser holds the stack of the automaton. It has no state before its first token. -/
structure Holds (p : ShiftReduceParser) (st : Stack ParseTreeNode) : Prop where
  states : p.stateStack = st.map Prod.fst ++ [0] ∨ p.stateStack = [] ∧ st = []
  nodes : p.treenodeStack = st.map Prod.snd
  noError : p.latestError = false

lemma holds_init : Holds .init [] := ⟨.inr ⟨rfl, rfl⟩, rfl, rfl⟩

/-- The parser that holds a stack. -/
def holding (st : Stack ParseTreeNode) (reduced : Bool) : ShiftReduceParser :=
  ⟨st.map Prod.fst ++ [0], st.map Prod.snd, false, reduced⟩

@[simp] lemma holding_latestError (st : Stack ParseTreeNode) (reduced : Bool) :
    (holding st reduced).latestError = false := rfl

@[simp] lemma holding_latestReduce (st : Stack ParseTreeNode) (reduced : Bool) :
    (holding st reduced).latestReduce = reduced := rfl

lemma holds_holding (st : Stack ParseTreeNode) (reduced : Bool) : Holds (holding st reduced) st :=
  ⟨.inl rfl, rfl, rfl⟩

variable {p : ShiftReduceParser} {st : Stack ParseTreeNode} {Xs : List ℕ} {X a k : ℕ}
  {us : List (ℕ × ParseTreeNode)} {c : Units} {tk : Token} {fuel : ℕ}

/-- The automaton has 54 states. -/
lemma next_lt (q X : ℕ) : scriptAutomaton.next q X < 54 := by
  by_cases h : scriptAutomaton.next q X = 0
  · rw [h]
    decide
  · have hcheck : ScriptGrammar.checkEntries (fun _ _ code => ScriptGrammar.nextOf code < 54) =
        true := by
      decide +kernel
    have hcode := ScriptGrammar.code_ne_zero_of_next h
    exact of_decide_eq_true (ScriptGrammar.of_checkEntries hcheck hcode)

lemma top_lt (h : scriptAutomaton.Built scriptGrammar st Xs us a) : st.top < 54 := by
  cases h with
  | nil => decide
  | push _ _ _ => exact next_lt _ _

lemma gotoTable_eq {q : ℕ} (hq : q < 54) (hX : X < 28) :
    (scriptParser.table[q]?.bind fun row => row[X]?) = some (ScriptParser.code q X) := by
  have hrow : ScriptParser.rows[q]? = some (ScriptParser.rows.getD q []) := by
    rw [List.getD_eq_getElem _ _ hq]
    exact List.getElem?_eq_getElem hq
  simp only [scriptParser, ScriptParser.gotoTable, ScriptParser.code, List.getElem?_map, hrow,
    Option.map_some, Option.bind_some, List.getElem?_range hX]

/-- The parser reads the code at the top of the stack. -/
lemma code_eq (reduced : Bool) (hq : st.top < 54) (hX : X < 28) :
    (holding st reduced).code scriptParser X = some (ScriptParser.code st.top X) := by
  have htop : (holding st reduced).stateStack.head? = some st.top := by
    cases st <;> rfl
  rw [ShiftReduceParser.code, htop, Option.bind_some, gotoTable_eq hq hX]

/-- What the parser does with a token, by the code at the top of its stack. -/
lemma insertByIndex_eq (h : Holds p st) (hq : st.top < 54) (hX : X < 28) :
    p.insertByIndex scriptParser X c =
      let code := ScriptParser.code st.top X
      if code = 54 then .ok (holding st false)
      else if 0 < code then
        .ok (holding ((code.toNat, ScriptGrammar.leaf c) :: st) false)
      else if code < 0 then (holding st false).reduceBy scriptParser (-code).toNat
      else .ok ⟨[], [], true, false⟩ := by
  obtain ⟨states, nodes, error, reduced⟩ := p
  obtain ⟨hstates, rfl, rfl⟩ := h
  have hstart : ShiftReduceParser.insertByIndex scriptParser
      ⟨states, st.map Prod.snd, false, reduced⟩ X c =
        (holding st false).insertByIndex scriptParser X c := by
    rcases hstates with rfl | ⟨rfl, rfl⟩
    · simp [ShiftReduceParser.insertByIndex, holding]
    · rfl
  have hlen : (holding st false).stateStack.length ≠ 0 := by simp [holding]
  have hfalse : { holding st false with latestReduce := false } = holding st false := rfl
  rw [hstart, ShiftReduceParser.insertByIndex]
  simp only [if_neg hlen]
  rw [hfalse, code_eq false hq hX]
  rfl

/-! ### Inserting a token runs the automaton -/

lemma shift_code {q : ℕ} (h : scriptAutomaton.action q X = .shift) :
    0 < ScriptParser.code q X ∧ ScriptParser.code q X ≠ 54 := by
  simp only [scriptAutomaton, ScriptParser.actionOf] at h
  split_ifs at h with h0 haccept hpos
  exact ⟨hpos, haccept⟩

lemma accept_code {q : ℕ} (h : scriptAutomaton.action q X = .accept) :
    ScriptParser.code q X = 54 := by
  simp only [scriptAutomaton, ScriptParser.actionOf] at h
  split_ifs at h with h0 haccept
  exact haccept

lemma error_code {q : ℕ} (h : scriptAutomaton.action q X = .error) :
    ScriptParser.code q X = 0 := by
  simp only [scriptAutomaton, ScriptParser.actionOf] at h
  split_ifs at h with h0
  exact h0

lemma reduce_code {q : ℕ} (h : scriptAutomaton.action q X = .reduce k) :
    ScriptParser.code q X < 0 ∧ (-ScriptParser.code q X).toNat = k + 1 := by
  simp only [scriptAutomaton, ScriptParser.actionOf] at h
  split_ifs at h with h0 haccept hpos
  have hk := Action.reduce.inj h
  omega

lemma next_code {q : ℕ} (h : scriptAutomaton.next q X ≠ 0) :
    0 < ScriptParser.code q X ∧ scriptAutomaton.next q X = (ScriptParser.code q X).toNat := by
  simp only [scriptAutomaton] at h ⊢
  split_ifs at h ⊢ with hcode
  · exact ⟨hcode.1, rfl⟩
  · exact absurd rfl h

lemma insertOnce_eq (hX : scriptParser.symbolTable.lookup tk.name = some X) :
    insertOnce p tk =
      match p.insertByIndex scriptParser X tk.contents with
      | .error e => .error (.dart e)
      | .ok p => if p.isError then .error (.parser tk.line tk.column) else .ok p := by
  simp only [insertOnce, ShiftReduceParser.insertByTokenName, hX]

/-- The node of a reduction, before its action has run. -/
def reducing (k : ℕ) (childs : List ParseTreeNode) : ParseTreeNode :=
  .node (childs.flatMap ParseTreeNode.contents) none (some k) childs

lemma reduceBy_holding (hk : k < 24) (hlen : (scriptGrammar.rhs k).length ≤ st.length)
    (hq : Stack.top (st.drop (scriptGrammar.rhs k).length) < 54)
    (hnext : scriptAutomaton.next (Stack.top (st.drop (scriptGrammar.rhs k).length))
      (scriptGrammar.lhs k) ≠ 0) :
    (holding st false).reduceBy scriptParser (k + 1) =
      .ok (holding (scriptAutomaton.push (st.drop (scriptGrammar.rhs k).length)
        (scriptGrammar.lhs k)
        (reducing k ((st.take (scriptGrammar.rhs k).length).reverse.map Prod.snd))) true) := by
  have hproduction : ∀ k < 24,
      scriptParser.production[k + 1]? = some (scriptGrammar.rhs k).length := by decide +kernel
  have hgroup : ∀ k < 24, scriptParser.groupTable[k + 1]? = some (scriptGrammar.lhs k) ∧
      scriptGrammar.lhs k < 28 := by decide +kernel
  rw [ShiftReduceParser.reduceBy, hproduction k hk, (hgroup k hk).1]
  generalize (scriptGrammar.rhs k).length = n at *
  have hstates : (holding st false).stateStack.drop n = (holding (st.drop n) false).stateStack := by
    rw [holding, holding, List.drop_append_of_le_length (by simpa using hlen), List.map_drop]
  have hshort : ¬ ((holding st false).stateStack.length ≤ n ∨
      (holding st false).treenodeStack.length < n) := by
    simp only [holding, List.length_append, List.length_map, List.length_singleton]
    omega
  have hcode : ShiftReduceParser.code scriptParser
      { holding st false with stateStack := (holding (st.drop n) false).stateStack }
      (scriptGrammar.lhs k) = some (ScriptParser.code (Stack.top (st.drop n))
        (scriptGrammar.lhs k)) :=
    @code_eq (st.drop n) _ false hq (hgroup k hk).2
  simp only [if_neg hshort, hstates, hcode, Nat.add_sub_cancel]
  rw [Automaton.push, (next_code hnext).2]
  simp [holding, reducing, List.map_drop, List.map_take]

section

variable (h : Holds p st) (hq : st.top < 54) (hlt : X < 28)
  (hX : scriptParser.symbolTable.lookup tk.name = some X)

include h hq hlt hX

lemma insertOnce_shift (hact : scriptAutomaton.action st.top X = .shift) :
    insertOnce p tk =
      .ok (holding (scriptAutomaton.push st X (ScriptGrammar.leaf tk.contents)) false) := by
  obtain ⟨hpos, haccept⟩ := shift_code hact
  have hnext : scriptAutomaton.next st.top X = (ScriptParser.code st.top X).toNat :=
    if_pos ⟨hpos, haccept⟩
  rw [insertOnce_eq hX, insertByIndex_eq h hq hlt, Automaton.push, hnext]
  simp only [if_neg haccept, if_pos hpos]
  rfl

lemma insertOnce_accept (hact : scriptAutomaton.action st.top X = .accept) :
    insertOnce p tk = .ok (holding st false) := by
  rw [insertOnce_eq hX, insertByIndex_eq h hq hlt]
  simp only [if_pos (accept_code hact)]
  rfl

lemma insertOnce_error (hact : scriptAutomaton.action st.top X = .error) :
    insertOnce p tk = .error (.parser tk.line tk.column) := by
  rw [insertOnce_eq hX, insertByIndex_eq h hq hlt, error_code hact]
  rfl

/-- A production is reduced: its node stands on the stack before its action has run. -/
lemma insertOnce_reduce (hact : scriptAutomaton.action st.top X = .reduce k) :
    insertOnce p tk = match (holding st false).reduceBy scriptParser (k + 1) with
      | .error e => .error (.dart e)
      | .ok p => if p.isError then .error (.parser tk.line tk.column) else .ok p := by
  obtain ⟨hneg, hcode⟩ := reduce_code hact
  have haccept : ScriptParser.code st.top X ≠ 54 := by omega
  rw [insertOnce_eq hX, insertByIndex_eq h hq hlt]
  simp only [if_neg haccept, if_neg (not_lt.mpr hneg.le), if_pos hneg, hcode]

end

/-- The action of the last node computes its value. -/
lemma runAction_holding {q : ℕ} {childs : List ParseTreeNode} {v : ParseTreeNode}
    (hv : ScriptGrammar.semantics k childs = some v) (reduced : Bool) :
    (holding ((q, reducing k childs) :: st) reduced).runAction scriptParser =
      .ok (holding ((q, v) :: st) reduced) := by
  obtain ⟨content, hcontent, rfl⟩ := Option.map_eq_some_iff.mp hv
  obtain ⟨action, haction, hcontent⟩ := Option.bind_eq_some_iff.mp hcontent
  have hactions : scriptParser.actions[k]? = some action := haction
  simp only [ShiftReduceParser.runAction, holding, List.map_cons, reducing, hactions, hcontent]
  rfl

/-- What inserting a token ends in. -/
def outcome (tk : Token) : Fed ParseTreeNode → Except CompileError ShiftReduceParser
  | .shifted st | .accepted st => .ok (holding st false)
  | .rejected => .error (.parser tk.line tk.column)
  | .stuck => .error (.dart .cast)

/-- Inserting a token runs the automaton on it. -/
theorem insert_of_feed (hbuilt : scriptAutomaton.Built scriptGrammar st Xs us X)
    (hfits : ∀ t ∈ us, ScriptGrammar.Fits t.1 t.2) (h : Holds p st) (hlt : X < 28)
    (hX : scriptParser.symbolTable.lookup tk.name = some X) {r : Fed ParseTreeNode}
    (hfeed : scriptAutomaton.feed scriptGrammar fuel st (X, ScriptGrammar.leaf tk.contents) =
      some r) : insert fuel p tk = some (outcome tk r) := by
  induction fuel generalizing p st Xs with
  | zero => cases hfeed
  | succ fuel ih =>
    have hq := top_lt hbuilt
    rw [Automaton.feed] at hfeed
    rw [insert]
    cases hact : scriptAutomaton.action st.top X with
    | shift =>
      simp only [hact, Option.some.injEq] at hfeed
      rw [insertOnce_shift h hq hlt hX hact, ← hfeed]
      rfl
    | accept =>
      simp only [hact, Option.some.injEq] at hfeed
      rw [insertOnce_accept h hq hlt hX hact, ← hfeed]
      rfl
    | error =>
      simp only [hact, Option.some.injEq] at hfeed
      rw [insertOnce_error h hq hlt hX hact, ← hfeed]
      rfl
    | reduce k =>
      obtain ⟨st', Zs, hst, rfl, hbuilt', -⟩ :=
        hbuilt.reduce ScriptGrammar.past_sound ScriptGrammar.typed hfits hact
      simp only [hact, hst] at hfeed
      obtain ⟨v, hv, rfl⟩ := Option.map_eq_some_iff.mp hst
      have hlen : (scriptGrammar.rhs k).length ≤ st.length := by
        rw [hbuilt.length_eq, List.length_append, List.length_reverse]
        exact Nat.le_add_right _ _
      have hnext := hbuilt'.next_ne_zero
      have hq₀ : Stack.top (st.drop (scriptGrammar.rhs k).length) < 54 := by
        by_contra hq₀
        exact hnext (ScriptGrammar.next_of_code (ScriptGrammar.code_eq_zero hq₀))
      have hk : k < 24 := (ScriptGrammar.reduce_sound hact).1
      rw [insertOnce_reduce h hq hlt hX hact, reduceBy_holding hk hlen hq₀ hnext]
      have hagain := ih hbuilt' (holds_holding _ true) hfeed
      rw [insert] at hagain
      simp only [ShiftReduceParser.isError, holding_latestError, Bool.false_eq_true, if_false]
      rw [insertAgain, ShiftReduceParser.reduce, holding_latestReduce, if_pos rfl, Automaton.push,
        runAction_holding hv]
      exact hagain

end ScriptCache

end Violet
