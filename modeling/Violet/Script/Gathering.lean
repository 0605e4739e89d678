import Violet.Script.Names

/-!
# Tokens without places

What is built of a text depends on the texts of its tokens only. They can be gathered in one pass
that forgets the places, and that white space and comments leave as it is.
-/

namespace Violet

open Dart Parsing

/-- White space and comments that have ended count as nothing. -/
def Part.isIdle : Part → Bool
  | .start | .blank | .commentEnd => true
  | _ => false

/-- What has been read of a text: the texts of the tokens, and the lexeme that is being read. -/
structure Gathered where
  part : Part := .start
  tokens : List Units := []
  lexeme : Units := []
  deriving DecidableEq, Repr

namespace Gathered

/-- The tokens at the end of the text. -/
def all (g : Gathered) : List Units := if g.part.isToken then g.tokens ++ [g.lexeme] else g.tokens

/-- Nothing is being read. -/
def rest (g : Gathered) : Gathered := ⟨.start, g.all, []⟩

/-- A unit goes on with the lexeme, or is passed over. -/
def advance (g : Gathered) (u : UInt16) : Gathered :=
  match g.part.step u with
  | none => g
  | some q => if q.isIdle then ⟨.start, g.tokens, []⟩ else ⟨q, g.tokens, g.lexeme ++ [u]⟩

def turn (g : Gathered) (u : UInt16) : Gathered :=
  if g.part.isToken && (g.part.step u).isNone then g.rest.advance u else g.advance u

def reads (g : Gathered) (text : Units) : Gathered := text.foldl turn g

end Gathered

/-- What is gathered of a text. -/
def gather (text : Units) : Gathered := ({} : Gathered).reads text

/-- What a reading has gathered. -/
def Reading.gathered (r : Reading) : Gathered :=
  if r.part.isIdle then ⟨.start, r.tokens.map ReadLexeme.contents, []⟩
  else ⟨r.part, r.tokens.map ReadLexeme.contents, r.lexeme.contents⟩

namespace Reading

variable {r : Reading} {u : UInt16}

lemma gathered_of_idle (h : r.part.isIdle = true) :
    r.gathered = ⟨.start, r.tokens.map ReadLexeme.contents, []⟩ := if_pos h

lemma gathered_of_not_idle (h : r.part.isIdle = false) :
    r.gathered = ⟨r.part, r.tokens.map ReadLexeme.contents, r.lexeme.contents⟩ := by
  rw [gathered, h]
  rfl

/-- Only white space and comments end without a token. -/
lemma gathered_close (h : r.part.accepts = true) : r.close.gathered = r.gathered.rest := by
  have hidle : r.close.part.isIdle = true := rfl
  rw [gathered_of_idle hidle]
  cases hpart : r.part <;>
    simp [gathered, hpart, close, Part.isIdle, Part.isToken, Gathered.rest, Gathered.all,
      Part.accepts] at h ⊢

lemma gathered_advance (h : r.part.isIdle = true → r.part = .start) :
    (r.advance u).gathered = r.gathered.advance u := by
  have hpart : r.gathered.part = r.part := by
    by_cases hidle : r.part.isIdle = true
    · rw [gathered_of_idle hidle, h hidle]
    · rw [gathered_of_not_idle (by simpa using hidle)]
  have htokens : r.gathered.tokens = r.tokens.map ReadLexeme.contents := by
    rw [gathered]
    split_ifs <;> rfl
  rw [Gathered.advance, hpart]
  cases hstep : r.part.step u with
  | none =>
    rw [advance_of_none hstep]
    rfl
  | some q =>
    rw [advance_of_some hstep, htokens]
    by_cases hq : q.isIdle = true
    · rw [gathered_of_idle hq]
      simp [hq]
    · rw [gathered_of_not_idle (by simpa using hq)]
      simp only [if_neg hq, Gathered.mk.injEq, true_and]
      by_cases hstart : r.part = .start
      · rw [if_pos hstart, gathered_of_idle (by rw [hstart]; rfl)]
        rfl
      · rw [if_neg hstart, gathered_of_not_idle]
        exact Bool.eq_false_iff.mpr fun hidle => hstart (h hidle)

theorem gathered_turn (r : Reading) (u : UInt16) : (r.turn u).gathered = r.gathered.turn u := by
  by_cases h : r.part.accepts = false ∨ r.part.step u ≠ none
  · have hstart (hidle : r.part.isIdle = true) : r.part = .start := by
      cases hpart : r.part <;> simp [hpart, Part.isIdle, Part.accepts, Part.step] at hidle h ⊢
    rw [turn_advance h, gathered_advance hstart, Gathered.turn, if_neg]
    by_cases hidle : r.part.isIdle = true
    · rw [gathered_of_idle hidle]
      simp [Part.isToken]
    · rw [gathered_of_not_idle (by simpa using hidle)]
      rcases h with h | h
      · cases hpart : r.part <;> simp [hpart, Part.isToken, Part.accepts] at h ⊢
      · simp [h]
  · obtain ⟨haccepts, hstep⟩ := not_or.mp h
    rw [Bool.not_eq_false] at haccepts
    rw [not_not] at hstep
    rw [turn_eq_close haccepts hstep, gathered_advance fun _ => rfl, gathered_close haccepts,
      Gathered.turn]
    by_cases hidle : r.part.isIdle = true
    · rw [gathered_of_idle hidle]
      simp [Part.isToken, Gathered.rest, Gathered.all]
    · rw [gathered_of_not_idle (by simpa using hidle), if_pos]
      cases hpart : r.part <;>
        simp [hpart, Part.isToken, Part.accepts, Part.isIdle] at hidle haccepts hstep ⊢
      all_goals exact hpart ▸ hstep

lemma gathered_reads (r : Reading) (text : Units) :
    (r.reads text).gathered = r.gathered.reads text := by
  induction text generalizing r with
  | nil => rfl
  | cons u text ih => rw [reads_cons, ih, gathered_turn]; rfl

end Reading

lemma gathered_readingOf (text : Units) : (readingOf text).gathered = gather text :=
  Reading.gathered_reads {} text

/-! ### A lexeme at a time -/

/-- White space and comments end at once. -/
lemma Part.step_of_isIdle {p q : Part} {u : UInt16} (h : p.step u = some q)
    (hq : q.isIdle = true) (v : UInt16) : q.step v = none := by
  cases q <;> simp [Part.isIdle] at hq
  case start => cases p <;> simp only [Part.step] at h <;> (try split_ifs at h) <;> cases h
  all_goals rfl

namespace Gathered

variable {g : Gathered} {u : UInt16} {s t : Units} {p q : Part}

@[simp] lemma all_rest (g : Gathered) : g.rest.all = g.all := rfl

@[simp] lemma reads_nil (g : Gathered) : g.reads [] = g := rfl

@[simp] lemma reads_cons (g : Gathered) (u : UInt16) (text : Units) :
    g.reads (u :: text) = (g.turn u).reads text := rfl

lemma reads_append (g : Gathered) (s t : Units) : g.reads (s ++ t) = (g.reads s).reads t :=
  List.foldl_append

end Gathered

lemma gather_append (s t : Units) : gather (s ++ t) = (gather s).reads t :=
  Gathered.reads_append {} s t

namespace Gathered

variable {g : Gathered} {u : UInt16} {s t : Units} {p q : Part}

/-- The unit begins another lexeme, or is passed over. -/
def Free (g : Gathered) (u : UInt16) : Prop :=
  g.part = .start ∧ g.lexeme = [] ∨ g.part.isToken = true ∧ g.part.step u = none

lemma free_rest (g : Gathered) (u : UInt16) : g.rest.Free u := .inl ⟨rfl, rfl⟩

lemma turn_of_free (h : g.Free u) : g.turn u = g.rest.turn u := by
  obtain ⟨part, tokens, lexeme⟩ := g
  rcases h with ⟨hpart, hlexeme⟩ | ⟨htoken, hstep⟩
  · obtain rfl : part = .start := hpart
    obtain rfl : lexeme = [] := hlexeme
    rfl
  · exact if_pos (by simp [htoken, hstep])

/-- A unit that is passed over, or white space. -/
lemma turn_of_blank (h : g.Free u) (hu : Part.start.step u = none ∨ isSpace u = true) :
    g.turn u = g.rest := by
  have hadvance : g.rest.turn u = match Part.start.step u with
      | none => g.rest
      | some q => if q.isIdle then g.rest else ⟨q, g.all, [u]⟩ := rfl
  rw [turn_of_free h, hadvance]
  rcases hu with hu | hu
  · rw [hu]
  · rw [Part.step_start_blank hu]
    rfl

lemma turn_of_step (h : g.part.step u = some q) (hq : q.isIdle = false) :
    g.turn u = ⟨q, g.tokens, g.lexeme ++ [u]⟩ := by
  rw [turn, if_neg (by simp [h]), advance, h]
  simp [hq]

lemma turn_of_end (h : g.part.step u = some q) (hq : q.isIdle = true) :
    g.turn u = ⟨.start, g.tokens, []⟩ := by
  rw [turn, if_neg (by simp [h]), advance, h]
  simp [hq]

/-- A lexeme goes on. -/
lemma reads_of_run (hs : s ≠ []) (hrun : g.part.run s = some q) :
    g.reads s = if q.isIdle then ⟨.start, g.tokens, []⟩ else ⟨q, g.tokens, g.lexeme ++ s⟩ := by
  induction s generalizing g with
  | nil => exact absurd rfl hs
  | cons u s ih =>
    obtain ⟨p, hp, hrest⟩ := Option.bind_eq_some_iff.mp hrun
    rw [reads_cons]
    cases hidle : p.isIdle with
    | true =>
      obtain ⟨rfl, rfl⟩ := Part.nil_of_run (Part.step_of_isIdle hp hidle) hrest
      rw [turn_of_end hp hidle, hidle]
      rfl
    | false =>
      rw [turn_of_step hp hidle]
      by_cases hnil : s = []
      · subst hnil
        obtain rfl := Option.some.inj hrest
        rw [hidle]
        rfl
      · rw [ih (g := ⟨p, g.tokens, g.lexeme ++ [u]⟩) hnil hrest, List.append_assoc]
        rfl

/-- A lexeme is read from its first unit on. -/
theorem reads_lexeme (hrun : Part.start.run (u :: s) = some q) (h : g.Free u) :
    g.reads (u :: s) = if q.isIdle then g.rest else ⟨q, g.all, u :: s⟩ := by
  rw [reads_cons, turn_of_free h, ← reads_cons]
  exact reads_of_run (g := g.rest) (List.cons_ne_nil u s) hrun

/-- What is idle has no lexeme, and a single slash is one. -/
structure Sound (g : Gathered) : Prop where
  idle : g.part.isIdle = true → g.part = .start ∧ g.lexeme = []
  slash : g.part = .slash → g.lexeme = [47]

lemma sound_rest (g : Gathered) : g.rest.Sound := ⟨fun _ => ⟨rfl, rfl⟩, nofun⟩

lemma Sound.advance (h : g.Sound) (u : UInt16) : (g.advance u).Sound := by
  rw [Gathered.advance]
  cases hstep : g.part.step u with
  | none => exact h
  | some q =>
    dsimp only
    split_ifs with hq
    · exact ⟨fun _ => ⟨rfl, rfl⟩, nofun⟩
    · refine ⟨fun hidle => absurd hidle hq, fun hslash => ?_⟩
      obtain rfl : q = .slash := hslash
      have hstart : g.part = .start ∧ u = 47 := by
        cases hpart : g.part <;> simp only [hpart, Part.step] at hstep <;>
          (try split_ifs at hstep) <;> simp_all
      have hlexeme := (h.idle (by rw [hstart.1]; rfl)).2
      change g.lexeme ++ [u] = _
      rw [hlexeme, hstart.2]
      rfl

lemma Sound.turn (h : g.Sound) (u : UInt16) : (g.turn u).Sound := by
  rw [Gathered.turn]
  split_ifs
  · exact (sound_rest g).advance u
  · exact h.advance u

lemma Sound.reads (h : g.Sound) (s : Units) : (g.reads s).Sound := by
  induction s generalizing g with
  | nil => exact h
  | cons u s ih => exact ih (h.turn u)

/-- The tokens in front do not matter. -/
def after (tokens : List Units) (g : Gathered) : Gathered := { g with tokens := tokens ++ g.tokens }

lemma after_injective (tokens : List Units) : Function.Injective (after tokens) := by
  rintro ⟨p, ts, l⟩ ⟨p', ts', l'⟩ h
  simpa [after] using h

lemma after_rest (tokens : List Units) (g : Gathered) :
    (g.after tokens).rest = g.rest.after tokens := by
  simp only [rest, all, after]
  split_ifs with h <;> simp [h]

lemma after_advance (tokens : List Units) (g : Gathered) (u : UInt16) :
    (g.after tokens).advance u = (g.advance u).after tokens := by
  rw [advance, advance, show (g.after tokens).part = g.part from rfl]
  cases g.part.step u with
  | none => rfl
  | some q =>
    dsimp only
    split_ifs <;> rfl

lemma after_turn (tokens : List Units) (g : Gathered) (u : UInt16) :
    (g.after tokens).turn u = (g.turn u).after tokens := by
  rw [turn, turn, after_rest, after_advance, after_advance,
    show (g.after tokens).part = g.part from rfl]
  split_ifs <;> rfl

lemma after_reads (tokens : List Units) (g : Gathered) (s : Units) :
    (g.after tokens).reads s = (g.reads s).after tokens := by
  induction s generalizing g with
  | nil => rfl
  | cons u s ih => rw [reads_cons, after_turn, ih, reads_cons]

lemma part_gather (text : Units) :
    (gather text).part = if (Part.after text).isIdle then .start else Part.after text := by
  rw [← gathered_readingOf, ← part_readingOf, Reading.gathered]
  split_ifs <;> rfl

lemma sound_gather (text : Units) : (gather text).Sound :=
  Sound.reads (g := {}) ⟨fun _ => ⟨rfl, rfl⟩, nofun⟩ text

lemma step_of_isBlank (hu : Units.isBlank u = true) (hlt : u.toNat < 256) :
    Part.start.step u = none ∨ isSpace u = true := by
  have hcheck : ((List.range 256).all fun n => !Units.isBlank (.ofNat n) ||
      (Part.start.step (.ofNat n)).isNone || isSpace (.ofNat n)) = true := by decide +kernel
  have hunit := List.all_eq_true.mp hcheck u.toNat (List.mem_range.mpr hlt)
  rw [UInt16.ofNat_toNat, hu] at hunit
  simpa using hunit

/-- White space in front of the next lexeme. -/
lemma reads_blank {w : Units} (hw : ∀ u ∈ w, Units.isBlank u = true ∧ u.toNat < 256)
    (g : Gathered) : g.rest.reads w = g.rest := by
  induction w with
  | nil => rfl
  | cons u w ih =>
    obtain ⟨⟨hu, hlt⟩, hw⟩ := List.forall_mem_cons.mp hw
    rw [reads_cons, turn_of_blank (free_rest g u) (step_of_isBlank hu hlt)]
    exact ih hw

end Gathered

/-! ### What is built of a text -/

namespace ScriptCache

variable {script script' : Units} {tree tree' : ParseTreeNode}
  {ts : List (ℕ × ParseTreeNode)} {texts : List Units}

lemma turn_bracket (p : Part) :
    (p.turn 93).isIdle = false ∧ ((p.turn 93).accepts = true ↔ p.turn 93 = .mark) := by
  cases p <;> decide

/-- The reading of a script ends in its last bracket, or in a lexeme that does not end. -/
lemma part_source (script : Units) :
    (gather (source script)).part = (readingOf (source script)).part ∧
      ((readingOf (source script)).part.accepts = true ↔
        (readingOf (source script)).part = .mark) := by
  have hturn : (readingOf (source script)).part =
      (Part.after (units "[" ++ preprocess script.trim)).turn 93 := by
    rw [part_readingOf]
    exact Part.after_concat _ _
  obtain ⟨hidle, haccepts⟩ := turn_bracket (Part.after (units "[" ++ preprocess script.trim))
  rw [← hturn] at hidle haccepts
  refine ⟨?_, haccepts⟩
  rw [← gathered_readingOf, Reading.gathered_of_not_idle hidle]

lemma all_source (h : (gather (source script)).part = .mark) :
    (readingOf (source script)).all.map ReadLexeme.contents = (gather (source script)).all := by
  rw [(part_source script).1] at h
  rw [← gathered_readingOf, Reading.gathered_of_not_idle (by rw [h]; rfl), Reading.all,
    Gathered.all, h]
  simp [Part.accepts, Part.isToken]

/-- Where a token stands does not matter for the word. -/
lemma wordOf_tokens (ps : List ReadLexeme) :
    wordOf (ps.map ReadLexeme.token) = spell (ps.map ReadLexeme.contents) := by
  induction ps with
  | nil => rfl
  | cons p ps ih =>
    rw [spell, List.map_cons, List.map_cons, List.map_cons, wordOf, wordOf, ih]
    rfl

/-- The nodes of a word are leaves with the texts. -/
lemma leaves_of_spell (hts : spell texts = some ts) :
    ts.map Prod.snd = texts.map ScriptGrammar.leaf := by
  induction texts generalizing ts with
  | nil =>
    obtain rfl := Option.some.inj hts
    rfl
  | cons contents texts ih =>
    rw [spell, List.map_cons] at hts
    cases hX : symbol? (tokenOf contents) with
    | none => simp [wordOf, hX] at hts
    | some X =>
      rw [wordOf_cons hX] at hts
      obtain ⟨us, hus, rfl⟩ := Option.map_eq_some_iff.mp hts
      rw [List.map_cons, ih hus]
      rfl

lemma fits_of_spell (hts : spell texts = some ts) (h : IsScript ts tree) :
    ∀ t ∈ ts, ScriptGrammar.Fits t.1 t.2 := by
  refine ScriptGrammar.fits_of_reads h fun t ht => ?_
  have hleaf := List.mem_map_of_mem (f := Prod.snd) ht
  rw [leaves_of_spell hts] at hleaf
  obtain ⟨contents, -, hcontents⟩ := List.mem_map.mp hleaf
  exact ⟨contents, hcontents.symm⟩

/-- A word is read in one way. -/
lemma eq_of_isScript (hts : spell texts = some ts) (h : IsScript ts tree)
    (h' : IsScript ts tree') : tree = tree' := by
  obtain ⟨fuel, hparse⟩ := exists_parse h hts (fits_of_spell hts h)
  obtain ⟨fuel', hparse'⟩ := exists_parse h' hts (fits_of_spell hts h')
  have hle := parse_le hparse (Nat.le_max_left fuel fuel')
  rw [parse_le hparse' (Nat.le_max_right fuel fuel')] at hle
  exact (Except.ok.inj (Option.some.inj hle)).symm

/-- The tree of a script is the one of the texts of its tokens. -/
theorem compiles_iff : Compiles script (.ok tree) ↔ (∀ u ∈ source script, u.toNat < 256) ∧
    (gather (source script)).part = .mark ∧
      ∃ ts, spell (gather (source script)).all = some ts ∧ IsScript ts tree := by
  obtain ⟨tks, e, r, ⟨fuel, calls, hrun, rfl⟩, hcompiles, hresult⟩ := exists_result script
  obtain ⟨hpart, haccepts⟩ := part_source script
  have hne : source script ≠ [] := List.cons_ne_nil _ _
  constructor
  · intro h
    obtain rfl := hcompiles.unique h
    cases hresult with
    | @accepted ts _ hword hts =>
      have hu : ∀ u ∈ source script, u.toNat < 256 := by
        intro u hu
        by_contra hge
        cases Lexer.run_range ScriptLexer.complete ⟨u, hu, not_lt.mp hge⟩ hrun
      obtain ⟨htokens, he⟩ := Lexer.run_allocateTarget hu hrun
      have hmark : (gather (source script)).part = .mark :=
        hpart.trans (haccepts.mp ((he.mp rfl).resolve_left hne))
      refine ⟨hu, hmark, ts, ?_, hts⟩
      rw [← all_source hmark, ← wordOf_tokens, ← htokens]
      exact hword
  · rintro ⟨hu, hmark, ts, hspell, hts⟩
    obtain ⟨htokens, he⟩ := Lexer.run_allocateTarget hu hrun
    have hword : wordOf (calls.map fun c => c.2.token) = some ts := by
      rw [htokens, wordOf_tokens, all_source hmark, hspell]
    obtain rfl := he.mpr (.inr (haccepts.mpr (hpart.symm.trans hmark)))
    cases hresult with
    | accepted hword' hts' =>
      obtain rfl := Option.some.inj (hword.symm.trans hword')
      rwa [eq_of_isScript hspell hts hts']
    | refused hrefused => exact absurd hts (hrefused.script rfl _ _ hword)
    | unknown hunknown =>
      obtain ⟨pre, tk, post, us, heq, hX, -⟩ := hunknown
      rw [heq, wordOf_append, wordOf, hX] at hword
      cases hpre : wordOf pre <;> simp [hpre] at hword

/-- The same texts have the same tree. -/
theorem compiles_of_all (h : Compiles script (.ok tree))
    (hu : ∀ u ∈ source script', u.toNat < 256) (hpart : (gather (source script')).part = .mark)
    (hall : (gather (source script')).all = (gather (source script)).all) :
    Compiles script' (.ok tree) := by
  obtain ⟨-, -, ts, hspell, hts⟩ := compiles_iff.mp h
  exact compiles_iff.mpr ⟨hu, hpart, ts, hall ▸ hspell, hts⟩

/-- The same syntax tree has the same texts. -/
theorem all_of_compiles (h : Compiles script (.ok tree)) (h' : Compiles script' (.ok tree'))
    (heq : tree'.userContents = tree.userContents) :
    (gather (source script')).all = (gather (source script)).all := by
  obtain ⟨-, -, ts, hspell, hts⟩ := compiles_iff.mp h
  obtain ⟨-, -, ts', hspell', hts'⟩ := compiles_iff.mp h'
  obtain ⟨b, hb, rfl⟩ := ScriptGrammar.word_of_isScript hspell hts
  obtain ⟨b', hb', rfl⟩ := ScriptGrammar.word_of_isScript hspell' hts'
  rw [hb, hb'] at heq
  cases heq
  have hleaves := (leaves_of_spell hspell').symm.trans (leaves_of_spell hspell)
  exact List.map_injective_iff.mpr (fun c d => congrArg ParseTreeNode.contents) hleaves

end ScriptCache

end Violet
