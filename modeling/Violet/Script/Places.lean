import Mathlib.Data.List.DropRight
import Violet.Script.Reading

/-!
# Lines and columns

A token should be reported at the line and the column of its first unit. White space and units that
are passed over are not counted, and a line that begins inside a literal is counted from one unit
too many, so most tokens that are indented or have a blank in front are reported too far to the
left.
-/

namespace Violet

open Dart

/-! ### Places in a text -/

/-- The line behind a text, counted from 1. -/
def lineAt (before : Units) : ℤ := before.count 10 + 1

/-- What stands on the last line. -/
def lastLine (before : Units) : Units := before.rtakeWhile (· ≠ 10)

/-- What stands in front of the last line. -/
def lineStart (before : Units) : Units := before.rdropWhile (· ≠ 10)

/-- The column behind a text, counted from 1. -/
def columnAt (before : Units) : ℤ := (lastLine before).length + 1

namespace Part

/-- The unit is passed over: it neither goes on with a lexeme nor begins one. -/
def passes (p : Part) (u : UInt16) : Bool :=
  (p.step u).isNone && !(p.accepts && (start.step u).isSome)

def passesNewline (p : Part) (u : UInt16) : Bool := p.passes u && u = 10

/-- The unit is white space or passed over. -/
def uncounted (p : Part) (u : UInt16) : Bool := p.turn u = .blank || p.passes u

/-- How many units of a text pass a test behind a part. -/
def tally (test : Part → UInt16 → Bool) : Part → Units → ℕ
  | _, [] => 0
  | p, u :: text => (test p u).toNat + tally test (p.turn u) text

lemma tally_append (test : Part → UInt16 → Bool) (p : Part) (s t : Units) :
    tally test p (s ++ t) = tally test p s + tally test (s.foldl turn p) t := by
  induction s generalizing p with
  | nil => simp [tally]
  | cons u s ih => rw [List.cons_append, tally, ih, tally, List.foldl_cons, Nat.add_assoc]

/-- The last unit of a text. -/
lemma tally_concat (test : Part → UInt16 → Bool) (p : Part) (text : Units) (u : UInt16) :
    tally test p (text ++ [u]) = tally test p text + (test (text.foldl turn p) u).toNat :=
  tally_append test p text [u]

end Part

/-- No line break is passed over in front of the place. On its line nothing is uncounted, or one
unit when the line begins inside a literal. -/
structure InPlace (before : Units) : Prop where
  newlines : Part.tally Part.passesNewline .start before = 0
  line : Part.tally Part.uncounted (Part.after (lineStart before)) (lastLine before) =
    if Part.after (lineStart before) = .string then 1 else 0

/-! ### One turn -/

namespace Part

variable {p : Part} {u : UInt16}

/-- White space and comments are taken from the column when they are dropped. -/
def pending (p : Part) : ℤ := if p = .blank ∨ p = .commentEnd then 1 else 0

lemma pending_start : pending .start = 0 := rfl

lemma pending_of_step {q : Part} (h : p.step u = some q) : p.pending = 0 := by
  cases p <;> first | rfl | cases h

lemma pending_of_not_accepts (h : p.accepts = false) : p.pending = 0 := by
  cases p <;> first | rfl | cases h

/-- A comment ends with a line break. -/
lemma step_ne_commentEnd (h : u ≠ 10) (p : Part) : p.step u ≠ some .commentEnd := by
  cases p <;> simp only [step, if_neg h] <;> (try split_ifs) <;> simp

/-- A line break ends white space or a comment, or is in a literal. -/
lemma turn_newline (h : p.passes 10 = false) :
    (if p.turn 10 = .string then 1 else 0) + (p.turn 10).pending = 1 := by
  revert h
  cases p <;> decide

lemma passes_of_some {q : Part} (h : p.step u = some q) : p.passes u = false := by
  simp [passes, h]

/-- Behind a lexeme that has ended, a unit is read as it is in front. -/
lemma turn_of_accepts (hstep : p.step u = none) (h : p.accepts = true) :
    p.turn u = start.turn u ∧ p.passes u = start.passes u := by
  constructor
  · rw [turn, hstep, turn]
    cases start.step u <;> simp [h]
  · simp only [passes, hstep, h]
    cases start.step u <;> rfl

lemma turn_of_not_accepts (hstep : p.step u = none) (h : p.accepts = false) :
    p.turn u = p ∧ p.passes u = true := by
  constructor
  · rw [turn, hstep]
    simp [h]
  · simp [passes, hstep, h]

/-- Nothing is pending behind a unit that is passed over. -/
lemma pending_turn_of_passes (h : p.passes u = true) : (p.turn u).pending = 0 := by
  rw [passes, Bool.and_eq_true, Option.isNone_iff_eq_none] at h
  cases haccepts : p.accepts with
  | false =>
    rw [(turn_of_not_accepts h.1 haccepts).1]
    exact pending_of_not_accepts haccepts
  | true =>
    have hstart : start.step u = none := by simpa [haccepts] using h.2
    rw [(turn_of_accepts h.1 haccepts).1, (turn_of_not_accepts hstart rfl).1]
    rfl

lemma pending_turn (h : u ≠ 10) : (p.turn u).pending = if p.turn u = .blank then 1 else 0 := by
  have hcomment : p.turn u ≠ .commentEnd := by
    rw [turn]
    cases hstep : p.step u with
    | some q => exact fun heq => step_ne_commentEnd h p (hstep.trans (congrArg some heq))
    | none =>
      cases hstart : start.step u with
      | some q =>
        cases p <;> simp [accepts]
        all_goals exact fun heq => step_ne_commentEnd h _ (hstart.trans (congrArg some heq))
      | none => cases p <;> simp [accepts]
  simp [pending, hcomment]

end Part

namespace Reading

variable {r : Reading} {u : UInt16}

/-- What a unit does to the counters. -/
structure Counts (r r' : Reading) (u : UInt16) : Prop where
  line : r'.line = r.line + if u = 10 ∧ r.part.passes u = false then 1 else 0
  column : r'.column = if r.part.passes u then r.column - r.part.pending
    else if u = 10 then 1 else r.column - r.part.pending + 1

lemma counts_advance (h : r.part.accepts = false ∨ r.part.step u ≠ none) :
    r.Counts (r.advance u) u := by
  cases hstep : r.part.step u with
  | some q =>
    rw [advance_of_some hstep]
    constructor
    · simp only [Part.passes_of_some hstep, and_true]
      split_ifs <;> simp
    · simp [Part.passes_of_some hstep, Part.pending_of_step hstep]
  | none =>
    have haccepts := h.resolve_right (not_not.mpr hstep)
    rw [advance_of_none hstep]
    constructor
    · simp [Part.turn_of_not_accepts hstep haccepts]
    · simp [Part.turn_of_not_accepts hstep haccepts, Part.pending_of_not_accepts haccepts]

/-- White space and comments are taken from the column. -/
lemma column_close (h : r.part.accepts = true) :
    r.close.column = r.column - r.part.pending := by
  cases hpart : r.part <;> simp [close, hpart, Part.isToken, Part.pending, Part.accepts] at h ⊢

lemma counts_turn (r : Reading) (u : UInt16) : r.Counts (r.turn u) u := by
  by_cases h : r.part.accepts = false ∨ r.part.step u ≠ none
  · rw [turn_advance h]
    exact counts_advance h
  · obtain ⟨haccepts, hstep⟩ := not_or.mp h
    rw [Bool.not_eq_false] at haccepts
    rw [not_not] at hstep
    rw [turn_eq_close haccepts hstep]
    have hcounts : r.close.Counts (r.close.advance u) u := counts_advance (.inl rfl)
    have hpasses := (Part.turn_of_accepts hstep haccepts).2
    have hcolumn := column_close haccepts
    constructor
    · rw [hcounts.line, hpasses]
      rfl
    · rw [hcounts.column, hpasses, part_close, Part.pending_start, Int.sub_zero, hcolumn]

end Reading

/-! ### The counters -/

lemma lineAt_concat (text : Units) (u : UInt16) :
    lineAt (text ++ [u]) = lineAt text + if u = 10 then 1 else 0 := by
  by_cases h : u = 10
  · simp [lineAt, h]
  · simp [lineAt, h]

/-- The counter of lines leaves out the line breaks that are passed over. -/
lemma line_readingOf (text : Units) :
    (readingOf text).line + Part.tally Part.passesNewline .start text + 1 = lineAt text := by
  induction text using List.reverseRecOn with
  | nil => rfl
  | append_singleton text u ih =>
    rw [readingOf_concat, lineAt_concat, ← ih, Part.tally_concat, (Reading.counts_turn _ _).line,
      part_readingOf]
    change _ + ((_ + (Part.passesNewline (Part.after text) u).toNat : ℕ) : ℤ) + 1 = _
    rw [Part.passesNewline]
    by_cases h : u = 10 <;> cases hp : (Part.after text).passes u <;> simp [h] <;> omega

lemma lastLine_concat (text : Units) (u : UInt16) :
    lastLine (text ++ [u]) = if u = 10 then [] else lastLine text ++ [u] := by
  rw [lastLine, List.rtakeWhile_concat]
  by_cases h : u = 10 <;> simp [h, lastLine]

lemma lineStart_concat (text : Units) (u : UInt16) :
    lineStart (text ++ [u]) = if u = 10 then text ++ [u] else lineStart text := by
  rw [lineStart, List.rdropWhile_concat]
  by_cases h : u = 10 <;> simp [h, lineStart]

lemma foldl_lastLine (text : Units) :
    (lastLine text).foldl Part.turn (Part.after (lineStart text)) = Part.after text := by
  rw [Part.after, ← List.foldl_append, lineStart, lastLine, List.rdropWhile_append_rtakeWhile,
    Part.after]

/-- The counter of columns leaves out white space and what is passed over, and is ahead behind a
line break in a literal and behind white space that has not been dropped. -/
lemma column_readingOf {text : Units} (h : Part.tally Part.passesNewline .start text = 0) :
    (readingOf text).column +
        Part.tally Part.uncounted (Part.after (lineStart text)) (lastLine text) =
      (lastLine text).length + (if Part.after (lineStart text) = .string then 1 else 0) +
        (Part.after text).pending := by
  induction text using List.reverseRecOn with
  | nil => rfl
  | append_singleton text u ih =>
    rw [Part.tally_concat, Nat.add_eq_zero_iff] at h
    have hih := ih h.1
    rw [readingOf_concat, (Reading.counts_turn _ _).column, part_readingOf, lastLine_concat,
      lineStart_concat, Part.after_concat]
    by_cases hu : u = 10
    · subst hu
      have hnewline : (Part.passesNewline (Part.after text) 10).toNat = 0 := h.2
      have hpasses : (Part.after text).passes 10 = false := by
        simpa [Part.passesNewline] using hnewline
      simp only [hpasses, if_true, Part.tally, Part.after_concat]
      have hturn := Part.turn_newline hpasses
      simpa [add_comm] using hturn.symm
    · simp only [if_neg hu, Part.tally_concat, foldl_lastLine, List.length_append,
        List.length_singleton, Part.uncounted]
      cases hpasses : (Part.after text).passes u with
      | true =>
        rw [Part.pending_turn_of_passes hpasses]
        simp only [if_true, Bool.or_true, Bool.toNat_true]
        omega
      | false =>
        rw [Part.pending_turn hu]
        by_cases hblank : (Part.after text).turn u = .blank <;> simp [hblank] <;> omega

/-! ### The place of a lexeme -/

namespace ReadLexeme

/-- A lexeme has the counters that there are behind the text in front of it. -/
structure Placed (p : ReadLexeme) : Prop where
  line : p.line = (readingOf p.before).line
  column : p.column = (readingOf p.before).column - (readingOf p.before).part.pending

/-- The first unit of the lexeme stands behind the text in front of it. -/
def BeginsIn (p : ReadLexeme) (text : Units) : Prop :=
  ∃ u, p.contents.head? = some u ∧ p.before ++ [u] <+: text

lemma BeginsIn.concat {p : ReadLexeme} {text : Units} (h : p.BeginsIn text) (u : UInt16) :
    p.BeginsIn (text ++ [u]) := by
  obtain ⟨v, hv, htext⟩ := h
  exact ⟨v, hv, htext.trans (List.prefix_append _ _)⟩

/-- The place of the first unit is reported exactly when the place is in order. -/
lemma Placed.place_iff {p : ReadLexeme} (h : p.Placed) :
    (p.token.line = lineAt p.before ∧ p.token.column = columnAt p.before) ↔ InPlace p.before := by
  have hline := line_readingOf p.before
  have htoken : p.token.line = (readingOf p.before).line + 1 := congrArg (· + 1) h.line
  have hcolumn : p.token.column =
      (readingOf p.before).column - (readingOf p.before).part.pending + 1 :=
    congrArg (· + 1) h.column
  rw [part_readingOf] at hcolumn
  constructor
  · rintro ⟨h1, h2⟩
    have hnewlines : Part.tally Part.passesNewline .start p.before = 0 := by omega
    have hcount := column_readingOf hnewlines
    refine ⟨hnewlines, ?_⟩
    rw [columnAt] at h2
    split_ifs at hcount ⊢ <;> omega
  · rintro ⟨hnewlines, hcount⟩
    have hcolumns := column_readingOf hnewlines
    refine ⟨by omega, ?_⟩
    rw [columnAt]
    split_ifs at hcolumns hcount <;> omega

end ReadLexeme

namespace Reading

/-- A lexeme of the text that has been read. -/
structure Has (r : Reading) (p : ReadLexeme) : Prop where
  placed : p.Placed
  begins : p.BeginsIn r.text

/-- All lexemes so far are where their text tells. -/
structure Placing (r : Reading) : Prop where
  tokens : ∀ p ∈ r.tokens, r.Has p
  lexeme : r.part ≠ .start → r.Has r.lexeme

lemma Placing.all {r : Reading} (h : r.Placing) : ∀ p ∈ r.all, r.Has p := by
  intro p hp
  rw [Reading.all] at hp
  split_ifs at hp with haccepts
  · rcases List.mem_append.mp hp with hp | hp
    · exact h.tokens p hp
    · rw [List.mem_singleton.mp hp]
      exact h.lexeme fun hstart => by simp [hstart, Part.accepts] at haccepts
  · exact h.tokens p hp

lemma Placing.close {r : Reading} (h : r.Placing) (haccepts : r.part.accepts = true) :
    r.close.Placing where
  tokens p hp := by
    have hp : p ∈ r.all := by
      rw [Reading.close] at hp
      rw [Reading.all, if_pos haccepts]
      split_ifs at hp
      · exact hp
      · exact List.mem_append_left _ hp
    exact ⟨(h.all p hp).placed, (h.all p hp).begins⟩
  lexeme hne := absurd rfl hne

/-- A unit goes on with a lexeme, or begins one behind the text. -/
lemma Placing.advance {r : Reading} {u : UInt16} (h : r.Placing)
    (hstart : r.part = .start → r.line = (readingOf r.text).line ∧
      r.column = (readingOf r.text).column - (readingOf r.text).part.pending) :
    (r.advance u).Placing := by
  cases hstep : r.part.step u with
  | none =>
    rw [advance_of_none hstep]
    exact ⟨fun p hp => ⟨(h.tokens p hp).placed, (h.tokens p hp).begins.concat u⟩,
      fun hne => ⟨(h.lexeme hne).placed, (h.lexeme hne).begins.concat u⟩⟩
  | some q =>
    rw [advance_of_some hstep]
    refine ⟨fun p hp => ⟨(h.tokens p hp).placed, (h.tokens p hp).begins.concat u⟩, fun _ => ?_⟩
    by_cases hpart : r.part = .start
    · rw [if_pos hpart]
      exact ⟨⟨(hstart hpart).1, (hstart hpart).2⟩, u, rfl, List.prefix_refl _⟩
    · rw [if_neg hpart]
      obtain ⟨hplaced, v, hv, htext⟩ := h.lexeme hpart
      refine ⟨⟨hplaced.line, hplaced.column⟩, v, ?_, htext.trans (List.prefix_append _ _)⟩
      rw [List.head?_append, hv]
      rfl

end Reading

lemma placing_readingOf (text : Units) : (readingOf text).Placing := by
  induction text using List.reverseRecOn with
  | nil => exact ⟨nofun, fun hne => absurd rfl hne⟩
  | append_singleton text u ih =>
    rw [readingOf_concat]
    have htext := text_readingOf text
    by_cases h : (readingOf text).part.accepts = false ∨ (readingOf text).part.step u ≠ none
    · rw [Reading.turn_advance h]
      refine ih.advance fun hpart => ?_
      rw [htext, hpart, Part.pending_start, Int.sub_zero]
      exact ⟨rfl, rfl⟩
    · obtain ⟨haccepts, hstep⟩ := not_or.mp h
      rw [Bool.not_eq_false] at haccepts
      rw [Reading.turn_eq_close haccepts (not_not.mp hstep)]
      refine (ih.close haccepts).advance fun _ => ?_
      rw [Reading.text_close, htext]
      exact ⟨rfl, Reading.column_close haccepts⟩

/-- The scanner reports the line and the column of the first unit of a token exactly when no line
break has been passed over in front of it, and as much is uncounted on its line as the line is
ahead. -/
theorem reportsPlace_iff {text : Units} (hu : ∀ u ∈ text, u.toNat < 256) {fuel : ℕ}
    {calls : List (Lexer × Scanned)} {e : Option LexError}
    (hrun : (Lexer.allocateTarget text).run scriptLexer fuel = some (calls, e)) {k : ℕ}
    {c : Lexer × Scanned} (hc : calls[k]? = some c) :
    ∃ p, (readingOf text).all[k]? = some p ∧ p.contents = c.2.token.contents ∧ p.BeginsIn text ∧
      ((c.2.token.line = lineAt p.before ∧ c.2.token.column = columnAt p.before) ↔
        InPlace p.before) := by
  obtain ⟨htokens, -⟩ := Lexer.run_allocateTarget hu hrun
  have htoken : ((readingOf text).all.map ReadLexeme.token)[k]? = some c.2.token := by
    rw [← htokens, List.getElem?_map, hc]
    rfl
  rw [List.getElem?_map] at htoken
  obtain ⟨p, hp, heq⟩ := Option.map_eq_some_iff.mp htoken
  have hhas := (placing_readingOf text).all p (List.mem_of_getElem? hp)
  refine ⟨p, hp, congrArg Token.contents heq, text_readingOf text ▸ hhas.begins, ?_⟩
  rw [← heq]
  exact hhas.placed.place_iff

/-- The name on the second line of a call, behind a blank and a line break. -/
theorem reportsPlace_iff_name : ∃ p, (readingOf (units "[f( \nx)]")).all[3]? = some p ∧
    p.contents = units "x" ∧ p.BeginsIn (units "[f( \nx)]") ∧ InPlace p.before := by
  have hrun : ((Lexer.allocateTarget (units "[f( \nx)]")).run scriptLexer 20).map
      (fun run => run.1[3]?.map fun c => c.2.token) =
        some (some ⟨"name".toList, units "x", 2, 1⟩) := by decide +kernel
  have hpiece : (readingOf (units "[f( \nx)]")).all[3]? =
      some ⟨units "[f( \n", units "x", 1, 0⟩ := by decide +kernel
  obtain ⟨⟨calls, e⟩, hcalls, hfourth⟩ := Option.map_eq_some_iff.mp hrun
  obtain ⟨c, hc, htoken⟩ := Option.map_eq_some_iff.mp hfourth
  obtain ⟨p, hp, hcontents, hbegins, hiff⟩ :=
    reportsPlace_iff (forall_mem_of_all (by decide)) hcalls hc
  rw [htoken] at hcontents hiff
  obtain rfl := Option.some.inj (hpiece.symm.trans hp)
  exact ⟨_, hp, hcontents, hbegins, hiff.mp (by decide)⟩

/-- In `f( x)` the name `x` is reported one column too far to the left. -/
theorem not_reportsPlace_blank :
    ¬ ∀ script : Units, (∀ u ∈ script, u.toNat < 256) → ∀ fuel calls e,
      (Lexer.allocateTarget (ScriptCache.source script)).run scriptLexer fuel = some (calls, e) →
        ∀ (k : ℕ) (c : Lexer × Scanned) (p : ReadLexeme), calls[k]? = some c →
          (readingOf (ScriptCache.source script)).all[k]? = some p →
            c.2.token.line = lineAt p.before ∧ c.2.token.column = columnAt p.before := by
  intro h
  have hrun : ((Lexer.allocateTarget (ScriptCache.source (units "f( x)"))).run scriptLexer 20).map
      (fun run => run.1[3]?.map fun c => c.2.token) =
        some (some ⟨"name".toList, units "x", 1, 4⟩) := by decide +kernel
  obtain ⟨⟨calls, e⟩, hcalls, hfourth⟩ := Option.map_eq_some_iff.mp hrun
  obtain ⟨c, hc, htoken⟩ := Option.map_eq_some_iff.mp hfourth
  have hpiece : (readingOf (ScriptCache.source (units "f( x)"))).all[3]? =
      some ⟨units "[f( ", units "x", 0, 3⟩ := by decide +kernel
  have hplace := (h (units "f( x)") (forall_mem_of_all (by decide)) _ _ _ hcalls 3 c _ hc hpiece).2
  rw [htoken] at hplace
  revert hplace
  decide

end Violet
