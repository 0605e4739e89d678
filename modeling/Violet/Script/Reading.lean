import Violet.Script.Lexemes

/-!
# What the scanner reads

All calls of the scanner together read the text unit by unit: a lexeme goes on, or it is closed and
the next one begins, or the unit is passed over. White space and comments give no token. The tokens
and their places are what this one pass over the text collects.
-/

namespace Violet

open Dart

/-! ### One pass over the text -/

/-- A lexeme with the text in front of it and the counters at its first unit. -/
structure ReadLexeme where
  before : Units
  contents : Units
  line : ℤ
  column : ℤ
  deriving DecidableEq, Repr

/-- What has been read of a text: the counters, the tokens, and the lexeme that is being read. -/
structure Reading where
  text : Units := []
  line : ℤ := 0
  column : ℤ := 0
  tokens : List ReadLexeme := []
  part : Part := .start
  lexeme : ReadLexeme := ⟨[], [], 0, 0⟩
  deriving DecidableEq, Repr

/-- The lexemes that give a token. -/
def Part.isToken : Part → Bool
  | .mark | .word | .number | .stringEnd => true
  | _ => false

namespace Part

/-- The part behind a unit. A lexeme that the unit does not go on with ends in front of it, and what
fits no rule is passed over. -/
def turn (p : Part) (u : UInt16) : Part :=
  match p.step u with
  | some q => q
  | none => if p.accepts then (start.step u).getD .start else p

/-- The part behind a text. -/
def after (text : Units) : Part := text.foldl turn .start

lemma after_concat (text : Units) (u : UInt16) : after (text ++ [u]) = (after text).turn u := by
  rw [after, List.foldl_append]
  rfl

end Part

namespace Reading

/-- The lexeme ends. -/
def close (r : Reading) : Reading :=
  { r with
    column := if r.part.isToken then r.column else r.column - 1
    tokens := if r.part.isToken then r.tokens ++ [r.lexeme] else r.tokens
    part := .start }

/-- A unit goes on with the lexeme, or is passed over. -/
def advance (r : Reading) (u : UInt16) : Reading :=
  match r.part.step u with
  | none => { r with text := r.text ++ [u] }
  | some q =>
    { text := r.text ++ [u]
      line := if u = 10 then r.line + 1 else r.line
      column := if u = 10 then 1 else r.column + 1
      tokens := r.tokens
      part := q
      lexeme := if r.part = .start then ⟨r.text, [u], r.line, r.column⟩
        else { r.lexeme with contents := r.lexeme.contents ++ [u] } }

/-- The lexeme ends in front of a unit that does not go on with it. -/
def settle (r : Reading) (u : UInt16) : Reading :=
  if r.part.accepts && (r.part.step u).isNone then r.close else r

def turn (r : Reading) (u : UInt16) : Reading := (r.settle u).advance u

def reads (r : Reading) (text : Units) : Reading := text.foldl turn r

/-- The tokens at the end of the text. The last lexeme counts in any case. -/
def all (r : Reading) : List ReadLexeme :=
  if r.part.accepts then r.tokens ++ [r.lexeme] else r.tokens

end Reading

/-- The reading of a text. -/
def readingOf (text : Units) : Reading := ({} : Reading).reads text

/-! ### The names of tokens -/

/-- The node behind a text. -/
def nodeOf (contents : Units) : Option ℕ := contents.foldlM scriptLexer.next? 0

/-- The token of a lexeme. -/
def ReadLexeme.token (p : ReadLexeme) : Token where
  name := ((nodeOf p.contents).bind scriptLexer.name?).getD []
  contents := p.contents
  line := p.line + 1
  column := p.column + 1

namespace ScriptLexer

/-- The nameless lexemes are white space and comments. -/
lemma name?_isToken {node : ℕ} (hnode : node < 46) {name : Str}
    (hname : scriptLexer.name? node = some name) : (part node).isToken = !decide (name = []) := by
  have hcheck : ((List.range 46).all fun node => (scriptLexer.name? node).all fun name =>
    (part node).isToken = !decide (name = [])) = true := by decide +kernel
  have hnode' := List.all_eq_true.mp hcheck node (List.mem_range.mpr hnode)
  rw [hname, Option.all_some] at hnode'
  exact of_decide_eq_true hnode'

end ScriptLexer

/-! ### The scanner and its reading -/

namespace Reading

variable {r : Reading} {u : UInt16}

@[simp] lemma part_close (r : Reading) : r.close.part = .start := rfl

@[simp] lemma text_close (r : Reading) : r.close.text = r.text := rfl

lemma settle_of_start (h : r.part = .start) (u : UInt16) : r.settle u = r := by
  simp [settle, h, Part.accepts]

/-- A lexeme that has been closed is not closed again. -/
lemma turn_close (h : r.part.accepts = true) (hstep : r.part.step u = none) :
    r.close.turn u = r.turn u := by
  rw [turn, turn, settle_of_start (part_close r)]
  simp [settle, h, hstep]

lemma turn_advance (h : r.part.accepts = false ∨ r.part.step u ≠ none) :
    r.turn u = r.advance u := by
  rw [turn, settle, if_neg]
  rw [Bool.and_eq_true, Option.isNone_iff_eq_none]
  rintro ⟨haccepts, hnone⟩
  rcases h with h | h
  · cases h.symm.trans haccepts
  · exact h hnone

lemma turn_eq_close (h : r.part.accepts = true) (hstep : r.part.step u = none) :
    r.turn u = r.close.advance u := by
  rw [← turn_close h hstep, turn, settle_of_start (part_close r)]

lemma advance_of_some {q : Part} (h : r.part.step u = some q) : r.advance u =
    { text := r.text ++ [u]
      line := if u = 10 then r.line + 1 else r.line
      column := if u = 10 then 1 else r.column + 1
      tokens := r.tokens
      part := q
      lexeme := if r.part = .start then ⟨r.text, [u], r.line, r.column⟩
        else { r.lexeme with contents := r.lexeme.contents ++ [u] } } := by
  rw [advance, h]

lemma advance_of_none (h : r.part.step u = none) :
    r.advance u = { r with text := r.text ++ [u] } := by
  rw [advance, h]

lemma part_turn (r : Reading) (u : UInt16) : (r.turn u).part = r.part.turn u := by
  cases hstep : r.part.step u with
  | some q =>
    rw [turn_advance (.inr (by simp [hstep])), advance_of_some hstep, Part.turn, hstep]
  | none =>
    cases haccepts : r.part.accepts with
    | false =>
      rw [turn_advance (.inl haccepts), advance_of_none hstep, Part.turn, hstep]
      simp [haccepts]
    | true =>
      rw [turn_eq_close haccepts hstep, Part.turn, hstep, haccepts]
      cases hstart : Part.start.step u with
      | some q => rw [advance_of_some (q := q) hstart]; rfl
      | none => rw [advance_of_none hstart]; rfl

@[simp] lemma reads_nil (r : Reading) : r.reads [] = r := rfl

@[simp] lemma reads_cons (r : Reading) (u : UInt16) (text : Units) :
    r.reads (u :: text) = (r.turn u).reads text := rfl

lemma reads_append (r : Reading) (s t : Units) : r.reads (s ++ t) = (r.reads s).reads t :=
  List.foldl_append

lemma part_reads (r : Reading) (text : Units) :
    (r.reads text).part = text.foldl Part.turn r.part := by
  induction text generalizing r with
  | nil => rfl
  | cons u text ih => rw [reads_cons, ih, part_turn, List.foldl_cons]

lemma text_turn (r : Reading) (u : UInt16) : (r.turn u).text = r.text ++ [u] := by
  rw [turn, advance]
  have hsettle : (r.settle u).text = r.text := by
    rw [settle]
    split_ifs <;> rfl
  split <;> simp [hsettle]

end Reading

lemma part_readingOf (text : Units) : (readingOf text).part = Part.after text :=
  Reading.part_reads {} text

lemma readingOf_concat (text : Units) (u : UInt16) :
    readingOf (text ++ [u]) = (readingOf text).turn u := by
  rw [readingOf, Reading.reads_append]
  rfl

lemma text_readingOf (text : Units) : (readingOf text).text = text := by
  induction text using List.reverseRecOn with
  | nil => rfl
  | append_singleton text u ih => rw [readingOf_concat, Reading.text_turn, ih]

namespace Scan

/-- A call is where the reading is. -/
structure Mirrors (s : Scan) (r : Reading) : Prop where
  node : s.nodePos < 46
  part : ScriptLexer.part s.nodePos = r.part
  named : nodeOf s.builder = some s.nodePos
  builder : s.builder = if r.part = .start then [] else r.lexeme.contents
  line : s.lexer.currentLine = r.line
  column : s.lexer.currentColumn = r.column
  curLine : s.curLine = if r.part = .start then r.line else r.lexeme.line
  curColumn : s.curColumn = if r.part = .start then r.column else r.lexeme.column

variable {s : Scan} {r : Reading} {u : UInt16} {name : Str}

lemma mirrors_start {l : Lexer} (hpart : r.part = .start) (hline : l.currentLine = r.line)
    (hcolumn : l.currentColumn = r.column) : (start l).Mirrors r where
  node := Nat.zero_lt_succ _
  part := hpart.symm
  named := rfl
  builder := (if_pos hpart).symm
  line := hline
  column := hcolumn
  curLine := by rw [if_pos hpart]; exact hline
  curColumn := by rw [if_pos hpart]; exact hcolumn

lemma Mirrors.go (h : s.Mirrors r) (hu : u.toNat < 256) {n : ℕ}
    (hn : scriptLexer.next? s.nodePos u = some n) : (s.go u n).Mirrors (r.advance u) := by
  have hpart := ScriptLexer.map_part_next? h.node hu
  rw [hn, Option.map_some, h.part] at hpart
  have hlt : n < 46 := (ScriptLexer.complete.next?_eq_some hn).2
  have hne : ScriptLexer.part n ≠ .start := fun hstart =>
    (ScriptLexer.complete.next?_eq_some hn).1 (ScriptLexer.part_eq_start hlt hstart)
  rw [Reading.advance_of_some hpart.symm]
  refine ⟨hlt, rfl, ?_, ?_, ?_, ?_, ?_, ?_⟩
  · change (s.builder ++ [u]).foldlM scriptLexer.next? 0 = some n
    rw [List.foldlM_append]
    have hnamed : s.builder.foldlM scriptLexer.next? 0 = some s.nodePos := h.named
    simp [hnamed, hn]
  · change s.builder ++ [u] = _
    rw [if_neg hne, h.builder]
    split_ifs <;> rfl
  · simp only [Scan.go, Lexer.skip, Lexer.count, h.line]
    split_ifs <;> rfl
  · simp only [Scan.go, Lexer.skip, Lexer.count, h.column]
    split_ifs <;> rfl
  · change s.curLine = _
    rw [if_neg hne, h.curLine]
    split_ifs <;> rfl
  · change s.curColumn = _
    rw [if_neg hne, h.curColumn]
    split_ifs <;> rfl

lemma Mirrors.error (h : s.Mirrors r) (hstep : r.part.step u = none) :
    s.error.Mirrors (r.advance u) := by
  rw [Reading.advance_of_none hstep]
  exact ⟨h.node, h.part, h.named, h.builder, h.line, h.column, h.curLine, h.curColumn⟩

lemma Mirrors.ne_start (h : s.Mirrors r) (hname : scriptLexer.name? s.nodePos = some name) :
    r.part ≠ .start := by
  intro hstart
  rw [ScriptLexer.part_eq_start h.node (h.part.trans hstart),
    ScriptLexer.complete.name?_zero] at hname
  cases hname

lemma Mirrors.drop (h : s.Mirrors r) (hname : scriptLexer.name? s.nodePos = some []) :
    s.drop.Mirrors r.close := by
  have htoken : r.part.isToken = false := by
    rw [← h.part]
    exact ScriptLexer.name?_isToken h.node hname
  have hcolumn : s.lexer.currentColumn - 1 = r.close.column := by
    simp [Reading.close, htoken, h.column]
  exact ⟨Nat.zero_lt_succ _, rfl, rfl, rfl, h.line, hcolumn, h.line, hcolumn⟩

/-- What a call returns at the end of a lexeme. -/
lemma Mirrors.token_returns (h : s.Mirrors r) (hname : scriptLexer.name? s.nodePos = some name) :
    (s.returns name).token = r.lexeme.token := by
  have hstart := h.ne_start hname
  have hnamed := h.named
  rw [h.builder, if_neg hstart] at hnamed
  simp [Scan.returns, ReadLexeme.token, h.builder, h.curLine, h.curColumn, hstart, hnamed, hname]

/-- The next call begins behind a token. -/
lemma Mirrors.next (h : s.Mirrors r) (hname : scriptLexer.name? s.nodePos = some name)
    (hne : name ≠ []) : (start (s.returns name).lexer).Mirrors r.close ∧
      r.close.tokens = r.tokens ++ [r.lexeme] := by
  have htoken : r.part.isToken = true := by
    rw [← h.part, ScriptLexer.name?_isToken h.node hname, decide_eq_false hne, Bool.not_false]
  exact ⟨mirrors_start rfl h.line (by simp [Reading.close, htoken, Scan.returns, h.column]),
    by simp [Reading.close, htoken]⟩

/-- What a call ends in, by the reading of the text in front of which it began. -/
inductive Yields (r : Reading) (target : Units) : Except LexError Scanned → Prop where
  | token {x : Scanned} {r' : Reading} {p : ReadLexeme} (h : (start x.lexer).Mirrors r')
      (htokens : r'.tokens = r.tokens ++ [p]) (htoken : x.token = p.token)
      (hreads : r.reads target = r'.reads x.lexer.target) (hrest : x.lexer.target ≠ [])
      (hsuffix : x.lexer.target <:+ target) : Yields r target (.ok x)
  | last {x : Scanned} {p : ReadLexeme} (hall : (r.reads target).all = r.tokens ++ [p])
      (haccepts : (r.reads target).part.accepts = true) (htoken : x.token = p.token)
      (hrest : x.lexer.target = []) : Yields r target (.ok x)
  | error {e : LexError} (hall : (r.reads target).all = r.tokens)
      (haccepts : (r.reads target).part.accepts = false) : Yields r target (.error e)

/-- A turn that stays within the call does not change what the call ends in. -/
lemma Yields.of_turn {r' : Reading} {target target' : Units} {res : Except LexError Scanned}
    (h : Yields r' target' res) (htokens : r'.tokens = r.tokens)
    (hreads : r'.reads target' = r.reads target) (hsuffix : target' <:+ target) :
    Yields r target res := by
  cases h with
  | token h htokens' htoken hreads' hrest hsuffix' =>
    exact .token h (htokens ▸ htokens') htoken (hreads ▸ hreads') hrest (hsuffix'.trans hsuffix)
  | last hall haccepts htoken hrest =>
    exact .last (htokens ▸ hreads ▸ hall) (hreads ▸ haccepts) htoken hrest
  | error hall haccepts => exact .error (htokens ▸ hreads ▸ hall) (hreads ▸ haccepts)

/-- A call collects the next lexeme that gives a token. -/
theorem Mirrors.loop (h : s.Mirrors r) (hu : ∀ u ∈ s.lexer.target, u.toNat < 256) {fuel : ℕ}
    {res : Except LexError Scanned} (hres : s.loop scriptLexer fuel = some res) :
    Yields r s.lexer.target res := by
  have hc := ScriptLexer.complete
  induction fuel generalizing s r with
  | zero => cases hres
  | succ fuel ih =>
    cases ht : s.lexer.target with
    | nil =>
      simp only [Scan.loop, ht, Option.some.injEq, finish_eq hc h.node] at hres
      have haccepts := ScriptLexer.isSome_name? h.node
      rw [h.part] at haccepts
      cases hname : scriptLexer.name? s.nodePos with
      | none =>
        rw [hname] at hres haccepts
        subst hres
        exact .error (by simp [Reading.all, ← haccepts]) haccepts.symm
      | some name =>
        rw [hname] at hres haccepts
        subst hres
        exact .last (by simp [Reading.all, ← haccepts]) haccepts.symm (h.token_returns hname) ht
    | cons u rest =>
      have hlt : u.toNat < 256 := hu u (ht ▸ List.mem_cons_self)
      have hpart := ScriptLexer.map_part_next? h.node hlt
      have haccepts := ScriptLexer.isSome_name? h.node
      rw [h.part] at hpart haccepts
      simp only [Scan.loop, ht, turn_eq hc h.node hlt] at hres
      cases hn : scriptLexer.next? s.nodePos u with
      | some n =>
        rw [hn] at hpart hres
        have hturn : r.turn u = r.advance u := Reading.turn_advance (.inr (by simp [← hpart]))
        have htarget : (s.go u n).lexer.target = rest := by rw [target_go, ht, List.tail_cons]
        refine (ih (h.go hlt hn) (fun v hv => hu v ?_) hres).of_turn ?_ ?_ ?_
        · rw [ht]
          exact List.mem_cons_of_mem u (htarget ▸ hv)
        · rw [Reading.advance_of_some hpart.symm]
        · rw [htarget, Reading.reads_cons, hturn]
        · exact htarget ▸ List.suffix_cons u rest
      | none =>
        rw [hn] at hpart hres
        cases hname : scriptLexer.name? s.nodePos with
        | none =>
          rw [hname] at hres haccepts
          have hturn : r.turn u = r.advance u := Reading.turn_advance (.inl haccepts.symm)
          have htarget : s.error.lexer.target = rest := by rw [target_error, ht, List.tail_cons]
          refine (ih (h.error hpart.symm) (fun v hv => hu v ?_) hres).of_turn ?_ ?_ ?_
          · rw [ht]
            exact List.mem_cons_of_mem u (htarget ▸ hv)
          · rw [Reading.advance_of_none hpart.symm]
          · rw [htarget, Reading.reads_cons, hturn]
          · exact htarget ▸ List.suffix_cons u rest
        | some name =>
          rw [hname] at hres haccepts
          have hclose := Reading.turn_close haccepts.symm hpart.symm
          have hreads : r.close.reads (u :: rest) = r.reads (u :: rest) := by
            rw [Reading.reads_cons, hclose, Reading.reads_cons]
          by_cases hempty : name = []
          · subst hempty
            have htokens : r.close.tokens = r.tokens := by
              have htoken := ScriptLexer.name?_isToken h.node hname
              rw [h.part] at htoken
              simp [Reading.close, htoken]
            have hloop : s.drop.loop scriptLexer fuel = some res := by simpa using hres
            refine (ih (h.drop hname) hu hloop).of_turn htokens ?_ ?_
            · rw [target_drop, ht, hreads]
            · rw [target_drop, ht]
          · obtain rfl : .ok (s.returns name) = res := by simpa [hempty] using hres
            obtain ⟨hnext, htokens⟩ := h.next hname hempty
            have htarget : (s.returns name).lexer.target = u :: rest := ht
            exact .token hnext htokens (h.token_returns hname) (by rw [htarget, hreads])
              (htarget ▸ List.cons_ne_nil u rest) (by rw [htarget])

end Scan

/-! ### All calls -/

namespace Lexer

variable {l : Lexer} {r : Reading} {fuel : ℕ} {calls : List (Lexer × Scanned)}
  {e : Option LexError}

/-- The calls return the tokens of the reading, and there is no error exactly when a lexeme has
ended with the text. -/
lemma tokens_of_run (h : (Scan.start l).Mirrors r) (hu : ∀ u ∈ l.target, u.toNat < 256)
    (hrun : l.run scriptLexer fuel = some (calls, e)) :
    ∃ pieces, (r.reads l.target).all = r.tokens ++ pieces ∧
      calls.map (fun c => c.2.token) = pieces.map ReadLexeme.token ∧
      (e = none ↔ l.target = [] ∨ (r.reads l.target).part.accepts = true) := by
  induction fuel generalizing l r calls with
  | zero => cases hrun
  | succ fuel ih =>
    by_cases hv : l.valid = true
    · have hne : l.target ≠ [] := by simpa [valid] using hv
      simp only [run, hv, if_true] at hrun
      cases hnext : l.next scriptLexer fuel with
      | none => simp [hnext] at hrun
      | some res =>
        rw [hnext] at hrun
        have hyields : Scan.Yields r l.target res := h.loop hu hnext
        cases hyields with
        | error hall haccepts =>
          cases hrun
          exact ⟨[], by simpa using hall, rfl, by simp [hne, haccepts]⟩
        | @last x p hall haccepts htoken hrest =>
          obtain ⟨⟨calls', e'⟩, hcalls, heq⟩ := Option.map_eq_some_iff.mp hrun
          cases heq
          have hnil : (calls', e') = ([], none) := by
            cases fuel with
            | zero => cases hcalls
            | succ fuel => simpa [run, valid, hrest] using hcalls.symm
          cases hnil
          exact ⟨[p], hall, by simp [htoken], by simp [haccepts]⟩
        | @token x r' p h' htokens htoken hreads hrest hsuffix =>
          obtain ⟨⟨calls', e'⟩, hcalls, heq⟩ := Option.map_eq_some_iff.mp hrun
          cases heq
          obtain ⟨pieces, hall, htokens', he⟩ := ih h' (fun v hv => hu v (hsuffix.subset hv)) hcalls
          refine ⟨p :: pieces, ?_, by simp [htoken, htokens'], ?_⟩
          · rw [hreads, hall, htokens, List.append_assoc, List.singleton_append]
          · rw [he, hreads]
            simp [hne, hrest]
    · have hnil : l.target = [] := by simpa [valid] using hv
      simp only [run, if_neg hv, Option.some.injEq, Prod.mk.injEq] at hrun
      obtain ⟨rfl, rfl⟩ := hrun
      have hstart : r.part = .start := h.part.symm
      exact ⟨[], by simp [hnil, Reading.all, hstart, Part.accepts], rfl, by simp [hnil]⟩

/-- The calls on a text return the tokens of its reading. -/
theorem run_allocateTarget {text : Units} (hu : ∀ u ∈ text, u.toNat < 256)
    (hrun : (allocateTarget text).run scriptLexer fuel = some (calls, e)) :
    calls.map (fun c => c.2.token) = (readingOf text).all.map ReadLexeme.token ∧
      (e = none ↔ text = [] ∨ (readingOf text).part.accepts = true) := by
  obtain ⟨pieces, hall, htokens, he⟩ :=
    tokens_of_run (r := {}) (Scan.mirrors_start rfl rfl rfl) hu hrun
  have hpieces : (readingOf text).all = pieces := hall
  exact ⟨by rw [htokens, hpieces], he⟩

end Lexer

end Violet
