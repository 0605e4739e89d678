import Violet.Script.FromJson
import Violet.Script.Lines
import Violet.Script.TokenLayout

/-!
# String literals

A string literal of a script should evaluate to its text. The lines that begin with `#` are left out
before the scanner sees that they are lines of a literal, so a text with such a line does not come
back. All other texts do.
-/

namespace Violet

open Dart Parsing Lexed

/-! ### Directives in a text -/

namespace ScriptCache

variable {lead : Bool} {u : UInt16} {s t w text : Units}

/-- Only white space stands on the line behind the unit. -/
def leadsOn (lead : Bool) (u : UInt16) : Bool := u = 10 || (lead && Units.isBlank u)

/-- Only white space stands on the last line of the text. -/
def leads (lead : Bool) (text : Units) : Bool := text.foldl leadsOn lead

/-- A line begins with `#` in the text. The first line counts when only white space stands in front
of the text. -/
def directs : Bool → Units → Bool
  | _, [] => false
  | lead, u :: s => (lead && u = 35) || directs (leadsOn lead u) s

lemma leads_append (lead : Bool) (s t : Units) : leads lead (s ++ t) = leads (leads lead s) t :=
  List.foldl_append

lemma directs_append (lead : Bool) (s t : Units) :
    directs lead (s ++ t) = (directs lead s || directs (leads lead s) t) := by
  induction s generalizing lead with
  | nil => rfl
  | cons u s ih =>
    rw [List.cons_append, directs, ih, directs, Bool.or_assoc]
    rfl

lemma directs_concat (lead : Bool) (s : Units) (u : UInt16) :
    directs lead (s ++ [u]) = (directs lead s || (leads lead s && u = 35)) := by
  rw [directs_append, directs, directs, Bool.or_false]

lemma leads_concat (lead : Bool) (s : Units) (u : UInt16) :
    leads lead (s ++ [u]) = leadsOn (leads lead s) u := leads_append lead s [u]

/-- Behind other units than white space nothing begins a line but a line break. -/
lemma directs_of_notMem (h : 10 ∉ s) : directs false s = false ∧ leads false s = false := by
  induction s with
  | nil => exact ⟨rfl, rfl⟩
  | cons u s ih =>
    obtain ⟨hu, hs⟩ := List.ne_and_not_mem_of_not_mem_cons h
    have hleads : leadsOn false u = false := by simpa [leadsOn] using hu.symm
    rw [directs, leads, List.foldl_cons, hleads]
    exact ih hs

/-- The lines of the text tell whether one begins with `#`. -/
lemma directs_of_splitOn {first : Units} {rest : List Units} (h : s.splitOn 10 = first :: rest)
    (lead : Bool) : directs lead s = ((lead && isDirective first) || rest.any isDirective) := by
  induction s generalizing lead first rest with
  | nil =>
    obtain ⟨rfl, rfl⟩ := List.cons.inj h
    simp [directs, show isDirective [] = false by decide]
  | cons u s ih =>
    obtain ⟨first', rest', hs⟩ := List.exists_cons_of_ne_nil (List.splitOn_ne_nil 10 s)
    by_cases hu : u = 10
    · subst hu
      rw [splitOn_cons_self, hs] at h
      obtain ⟨rfl, rfl⟩ := List.cons.inj h
      rw [directs, ih hs]
      simp [leadsOn, show isDirective [] = false by decide]
    · obtain ⟨part, parts, hparts, hcons⟩ := exists_splitOn_cons hu s
      rw [hs] at hparts
      obtain ⟨rfl, rfl⟩ := List.cons.inj hparts
      rw [hcons] at h
      obtain ⟨rfl, rfl⟩ := List.cons.inj h
      rw [directs, ih hs, isDirective_cons, leadsOn, decide_eq_false hu]
      cases lead <;> simp [Bool.or_assoc]

/-- No line of the text but the first one is a directive. -/
def KeepsLines (text : Units) : Prop :=
  ∀ line ∈ (text.split (units "\n")).tail, isDirective line = false

lemma keepsLines_iff : KeepsLines text ↔ directs false text = false := by
  obtain ⟨first, rest, hs⟩ := List.exists_cons_of_ne_nil (List.splitOn_ne_nil 10 text)
  rw [KeepsLines, units_newline, Units.split_singleton, directs_of_splitOn hs, hs]
  simp

/-- A text without directives is kept. -/
lemma preprocess_of_directs (h : directs true text = false) : preprocess text = text := by
  obtain ⟨first, rest, hs⟩ := List.exists_cons_of_ne_nil (List.splitOn_ne_nil 10 text)
  rw [directs_of_splitOn hs, Bool.true_and, ← List.any_cons, ← hs] at h
  have hall : ∀ line ∈ text.splitOn 10, (!isDirective line) = true := by simpa using h
  rw [preprocess_eq, keptLines, units_newline, Units.split_singleton, List.filter_eq_self.mpr hall]
  exact List.intercalate_splitOn 10

/-- What is kept has no directives. -/
lemma directs_source (script : Units) : directs true (source script) = false := by
  have hkept : directs false (preprocess script.trim) = false := by
    have hlines : ∀ line ∈ keptLines script.trim, 10 ∉ line ∧ isDirective line = false := by
      intro line hline
      obtain ⟨hmem, hkeeps⟩ := List.mem_filter.mp hline
      rw [units_newline, Units.split_singleton] at hmem
      exact ⟨notMem_of_mem_splitOn hmem, by simpa using hkeeps⟩
    rw [preprocess_eq]
    by_cases hnil : keptLines script.trim = []
    · rw [hnil]
      rfl
    · obtain ⟨first, rest, hcons⟩ := List.exists_cons_of_ne_nil hnil
      have hsplit : (Units.join [10] (keptLines script.trim)).splitOn 10 = keptLines script.trim :=
        List.splitOn_intercalate 10 (fun line hline => (hlines line hline).1) hnil
      rw [directs_of_splitOn (hsplit.trans hcons), Bool.false_and, Bool.false_or, List.any_eq_false]
      intro line hline
      simpa using (hlines line (hcons ▸ List.mem_cons_of_mem first hline)).2
  have hbracket : directs (leads false (preprocess script.trim)) [93] = false := by
    cases leads false (preprocess script.trim) <;> decide
  calc directs true (source script)
      = directs false (preprocess script.trim ++ [93]) := rfl
    _ = false := by rw [directs_append, hkept, hbracket, Bool.or_false]

end ScriptCache

/-! ### The tokens of a script -/

namespace Gathered

open ScriptCache

variable {g : Gathered} {u : UInt16} {text : Units}

/-- No token has a line behind its first one that begins with `#`. Where only white space stands on
the last line of the lexeme, nothing else stands on the last line of the text. -/
structure Plain (g : Gathered) (text : Units) : Prop where
  tokens : ∀ c ∈ g.tokens, directs false c = false
  lexeme : directs false g.lexeme = false
  leads : ScriptCache.leads false g.lexeme = true → ScriptCache.leads true text = true
  escape : g.part = .escape → ScriptCache.leads false g.lexeme = false

lemma Plain.all (h : g.Plain text) : ∀ c ∈ g.all, directs false c = false := by
  rw [Gathered.all]
  split_ifs
  · exact List.forall_mem_append.mpr ⟨h.tokens, List.forall_mem_singleton.mpr h.lexeme⟩
  · exact h.tokens

/-- Where no lexeme has begun, only the tokens matter. -/
lemma plain_start {tokens : List Units} (h : ∀ c ∈ tokens, directs false c = false)
    (text : Units) : Plain ⟨.start, tokens, []⟩ text where
  tokens := h
  lexeme := rfl
  leads hlead := absurd hlead Bool.false_ne_true
  escape hescape := by cases hescape

lemma Plain.rest (h : g.Plain text) : g.rest.Plain text := plain_start h.all text

/-- A unit goes on with the lexeme as it goes on with the text. -/
lemma Plain.advance (h : g.Plain text) (hg : g.Sound)
    (htoken : g.part.isToken = true → g.part.step u ≠ none)
    (hu : directs true (text ++ [u]) = false) : (g.advance u).Plain (text ++ [u]) := by
  rw [directs_concat, Bool.or_eq_false_iff] at hu
  rw [Gathered.advance]
  cases hstep : g.part.step u with
  | none =>
    have hleads : ScriptCache.leads false g.lexeme = false := by
      cases hpart : g.part with
      | start | blank | commentEnd =>
        rw [(hg.idle (by rw [hpart]; rfl)).2]
        rfl
      | slash =>
        rw [hg.slash hpart]
        rfl
      | escape => exact h.escape hpart
      | mark | word | number | stringEnd =>
        exact absurd hstep (htoken (by rw [hpart]; rfl))
      | comment | string =>
        rw [hpart, Part.step] at hstep
        split_ifs at hstep
    exact ⟨h.tokens, h.lexeme, fun hlead => by simp [hleads] at hlead, h.escape⟩
  | some q =>
    dsimp only
    split_ifs with hq
    · exact plain_start h.tokens _
    · refine ⟨h.tokens, ?_, fun hlead => ?_, fun hescape => ?_⟩
      · rw [directs_concat, h.lexeme, Bool.false_or]
        cases hlead : ScriptCache.leads false g.lexeme with
        | false => rfl
        | true => simpa [h.leads hlead] using hu.2
      · rw [leads_concat] at hlead ⊢
        cases hlexeme : ScriptCache.leads false g.lexeme with
        | false => simp_all [leadsOn]
        | true =>
          rw [hlexeme] at hlead
          rwa [h.leads hlexeme]
      · have h92 : u = 92 := by
          obtain rfl : q = .escape := hescape
          cases hpart : g.part <;> rw [hpart] at hstep <;> simp only [Part.step] at hstep <;>
            (try split_ifs at hstep) <;> simp_all
        rw [leads_concat, h92]
        cases ScriptCache.leads false g.lexeme <;> rfl

lemma Plain.turn (h : g.Plain text) (hg : g.Sound) (hu : directs true (text ++ [u]) = false) :
    (g.turn u).Plain (text ++ [u]) := by
  rw [Gathered.turn]
  split_ifs with hends
  · exact h.rest.advance (sound_rest g) (fun htoken => absurd htoken Bool.false_ne_true) hu
  · exact h.advance hg (fun htoken hstep => hends (by simp [htoken, hstep])) hu

lemma plain_gather (h : directs true text = false) : (gather text).Plain text := by
  induction text using List.reverseRecOn with
  | nil => exact plain_start (List.forall_mem_nil _) []
  | append_singleton text u ih =>
    rw [gather_append]
    refine (ih ?_).turn (sound_gather text) h
    rw [directs_concat, Bool.or_eq_false_iff] at h
    exact h.1

end Gathered

/-! ### The tokens of a layout -/

namespace ScriptCache

variable {lead : Bool} {u : UInt16} {s w text : Units} {t : Lexed} {ts : List Lexed}

/-- An escaped text has the lines of the text. -/
lemma directs_escape (lead : Bool) (w : Units) :
    directs lead (w.replaceAll [34] [92, 34]) = directs lead w := by
  change directs lead (Units.replaceAll.go [34] [92, 34] 0 w) = _
  induction w generalizing lead with
  | nil => rfl
  | cons u w ih =>
    rw [escape_cons, directs]
    split_ifs with hquote
    · subst hquote
      have hlead : leadsOn lead 34 = false := by cases lead <;> decide
      have hescape : directs lead ([92, 34] ++ Units.replaceAll.go [34] [92, 34] 0 w) =
          directs false (Units.replaceAll.go [34] [92, 34] 0 w) := by
        cases lead <;> rfl
      rw [hescape, ih, hlead]
      simp
    · rw [List.singleton_append, directs, ih]

lemma directs_literal (w : Units) : directs false (literal w).2 = directs false w := by
  have hquote : directs (leads false (w.replaceAll [34] [92, 34])) [34] = false := by
    cases leads false (w.replaceAll [34] [92, 34]) <;> decide
  change directs false (w.replaceAll [34] [92, 34] ++ [34]) = _
  rw [directs_append, directs_escape, hquote, Bool.or_false]

lemma directs_of_notMem_hash (h : 35 ∉ s) (lead : Bool) : directs lead s = false := by
  induction s generalizing lead with
  | nil => rfl
  | cons u s ih =>
    obtain ⟨hu, hs⟩ := List.ne_and_not_mem_of_not_mem_cons h
    rw [directs, ih hs, decide_eq_false hu.symm, Bool.and_false, Bool.or_false]

lemma notMem_of_blank (h : ∀ u ∈ s, Units.isBlank u = true) : 35 ∉ s := fun hmem =>
  absurd (h 35 hmem) (by decide)

lemma directs_gap (h : Gap s) (lead : Bool) : directs lead s = false := by
  induction h generalizing lead with
  | nil => rfl
  | @blank u s hu _ _ ih =>
    have h35 : u ≠ 35 := by
      rintro rfl
      exact absurd hu (by decide)
    rw [directs, ih, decide_eq_false h35, Bool.and_false, Bool.or_false]
  | @comment body s hbody _ ih =>
    have h10 : 10 ∉ 47 :: body := by simpa using fun h => (hbody 10 h).1 rfl
    have hcomment : directs lead (47 :: 47 :: body) = directs false (47 :: body) := by
      cases lead <;> rfl
    rw [directs_append, hcomment, (directs_of_notMem h10).1, directs, ih]
    simp

/-- Only literals have lines. -/
lemma directs_written (h : Written t) (hliteral : ∀ w, t = literal w → directs false w = false)
    (lead : Bool) : directs lead t.2 = false := by
  cases h with
  | mark h =>
    have hcheck : ∀ s ∈ marks, 35 ∉ units s := by decide
    exact directs_of_notMem_hash (hcheck _ h) lead
  | name hu hs _ =>
    refine directs_of_notMem_hash (fun hmem => ?_) lead
    rcases List.mem_cons.mp hmem with rfl | hmem
    · cases hu
    · exact absurd (hs 35 hmem) (by decide)
  | number hu hs =>
    refine directs_of_notMem_hash (fun hmem => ?_) lead
    rcases List.mem_cons.mp hmem with rfl | hmem
    · cases hu
    · exact absurd (hs 35 hmem) (by decide)
  | @literal w _ =>
    have hlead : directs lead (literal w).2 = directs false (literal w).2 := by cases lead <;> rfl
    rw [hlead, directs_literal, hliteral w rfl]

/-- A layout has no directives when its literals have none. -/
lemma directs_layout (h : Layout ts text) (hts : ∀ t ∈ ts, Written t)
    (hliterals : ∀ w, literal w ∈ ts → directs false w = false) (lead : Bool) :
    directs lead text = false := by
  induction h generalizing lead with
  | nil hgap => exact directs_of_notMem_hash (notMem_of_blank fun u hu => (hgap u hu).1) lead
  | cons hgap _ _ ih =>
    obtain ⟨ht, hts⟩ := List.forall_mem_cons.mp hts
    have hfirst := directs_written ht fun w hw => hliterals w (hw ▸ List.mem_cons_self)
    have hrest := ih hts fun w hw => hliterals w (List.mem_cons_of_mem _ hw)
    rw [directs_append, directs_gap hgap, directs_append, hfirst, hrest]
    rfl

/-! ### The round trip -/

/-- The script is accepted with the syntax tree, and all string literals in it evaluate to their
texts. -/
def ReadsBack (P : ScriptPlatform) (script : Units) (block : PBlock) : Prop :=
  ∃ tree, Compiles script (.ok tree) ∧
    tree.userContents = some (.blockEntryNode (.innerBlock block)) ∧
      ∀ w, literal w ∈ block.tokens → ∀ s, ∃ r s',
        (ScriptIsolate.runIndex P (.ofVariable (.consts (.string w))) false).Completes s r s' ∧
          s'.memory.HasText r w

open ScriptGrammar ScriptIsolate

variable {P : ScriptPlatform} {script : Units} {block : PBlock} {tree : ParseTreeNode}

/-- The runner makes a new variable with the text. -/
lemma completes_string (P : ScriptPlatform) (w : Units) (s : ScriptIsolate) :
    ∃ r s', (runIndex P (.ofVariable (.consts (.string w))) false).Completes s r s' ∧
      s'.memory.HasText r w := by
  refine ⟨some s.memory.cells.length,
    { s with memory := { s.memory with cells := s.memory.cells ++ [.fromString (some w)] } }, ?_,
    .fromString (some w), ?_, rfl, rfl⟩
  · rw [runIndex, runVariable, Program.Prog.completes_perform]
    rfl
  · simp [Memory.deref, Memory.cell]

/-- The texts of the tokens of an accepted script. -/
lemma texts_of_compiles {b : PBlockEntry} (h : Compiles script (.ok tree))
    (htree : tree.userContents = some (.blockEntryNode b)) :
    (gather (source script)).all = b.tokens.map Prod.snd := by
  obtain ⟨-, -, ts, hspell, hts⟩ := compiles_iff.mp h
  obtain ⟨b', hb', rfl⟩ := word_of_isScript hspell hts
  rw [htree] at hb'
  cases hb'
  have hleaves := leaves_of_spell hspell
  rw [word, List.map_map] at hleaves
  have hinjective : Function.Injective leaf := fun c d => congrArg ParseTreeNode.contents
  refine List.map_injective_iff.mpr hinjective ?_
  rw [← hleaves, List.map_map]
  rfl

/-- The scanner gives written tokens their symbols. -/
lemma spell_of_written (hts : ∀ t ∈ ts, Written t) (htoken : ∀ t ∈ word ts, isToken t.1 = true) :
    spell (ts.map Prod.snd) = some (word ts) := by
  have hlexed : lexed ((ts.map Prod.snd).map tokenOf) = ts := by
    rw [lexed, List.map_map, List.map_map]
    conv_rhs => rw [← List.map_id ts]
    refine List.map_congr_left fun t ht => ?_
    exact Prod.ext (hts t ht).name_tokenOf rfl
  have hword : wordOf ((ts.map Prod.snd).map tokenOf) =
      some (word (lexed ((ts.map Prod.snd).map tokenOf))) := wordOf_eq_word (by rwa [hlexed])
  rwa [hlexed] at hword

/-- A written script has its syntax tree, and its literals evaluate to their texts, exactly when no
line of a literal but the first one begins with `#`. -/
theorem readsBack_iff (hproper : block.proper PBlockEntry.endsOpen = true)
    (hwritten : ∀ t ∈ block.tokens, Written t) (hlayout : Layout block.tokens script) :
    ReadsBack P script block ↔ ∀ w, literal w ∈ block.tokens → KeepsLines w := by
  constructor
  · rintro ⟨tree, hcompiles, htree, -⟩ w hw
    have hplain := (Gathered.plain_gather (directs_source script)).all
    rw [texts_of_compiles hcompiles htree] at hplain
    rw [keepsLines_iff, ← directs_literal]
    refine hplain _ (List.mem_map_of_mem ?_)
    rw [PBlockEntry.tokens]
    exact List.mem_cons_of_mem _ (List.mem_append_left _ hw)
  · intro hliterals
    have htrim := hlayout.trim hwritten
    have hsource : source script = units "[" ++ (script.trim ++ [93]) := by
      have hdirects := directs_layout htrim hwritten
        (fun w hw => keepsLines_iff.mp (hliterals w hw)) true
      rw [source, preprocess_of_directs hdirects, List.append_assoc]
      rfl
    have htokens : (PBlockEntry.innerBlock block).tokens =
        mark "[" :: (block.tokens ++ [mark "]"]) := by rw [PBlockEntry.tokens]
    have hall : ∀ t ∈ (PBlockEntry.innerBlock block).tokens, Written t := by
      rw [htokens]
      exact List.forall_mem_cons.mpr ⟨.mark (by decide), List.forall_mem_append.mpr
        ⟨hwritten, List.forall_mem_singleton.mpr (.mark (by decide))⟩⟩
    obtain ⟨tree, hreads, htree⟩ := exists_isScript (.innerBlock block)
      (by rw [PBlockEntry.proper]; exact hproper)
    have hgather : gather (source script) =
        ⟨.mark, units "[" :: block.tokens.map Prod.snd, [93]⟩ := by
      rw [hsource, gather_append, Gathered.reads_layout htrim hwritten]
      · rfl
      · exact fun u _ => .inr ⟨rfl, rfl⟩
    refine ⟨tree, compiles_iff.mpr ⟨?_, ?_, _, ?_, hreads⟩, htree, fun w _ => completes_string P w⟩
    · rw [hsource]
      exact List.forall_mem_append.mpr ⟨forall_mem_of_all (by decide),
        List.forall_mem_append.mpr ⟨htrim.lt hwritten, forall_mem_of_all (by decide)⟩⟩
    · rw [hgather]
    · have htexts : (gather (source script)).all =
          (PBlockEntry.innerBlock block).tokens.map Prod.snd := by
        rw [hgather, htokens]
        simp [Gathered.all, Part.isToken, mark, units, encodeChar]
      rw [htexts]
      exact spell_of_written hall fun t ht => hreads.token_of_mem t ht

/-- The call of `f` with the literal as its argument. -/
def callOfLiteral (w : Units) : PBlock :=
  .cons (.mk (.sfunction (some (.callWith (units "f")
    (.last (.ofVariable (.consts (.string w)))))))) .empty

lemma tokens_callOfLiteral (w : Units) :
    (callOfLiteral w).tokens = [Lexed.name (units "f"), mark "(", literal w, mark ")"] := rfl

lemma written_callOfLiteral (hw : ∀ u ∈ w, u.toNat < 256 ∧ u ≠ 92) :
    ∀ t ∈ (callOfLiteral w).tokens, Written t := by
  rw [tokens_callOfLiteral]
  simp only [List.forall_mem_cons]
  exact ⟨.name (by decide) nofun (by decide), .mark (by decide), .literal hw, .mark (by decide),
    nofun⟩

lemma layout_callOfLiteral (hw : ∀ u ∈ w, u.toNat < 256 ∧ u ≠ 92) :
    Layout (callOfLiteral w).tokens (units "f(" ++ ((literal w).2 ++ units ")")) := by
  have hliteral : Part.start.run ((literal w).2 ++ [41]) = none := by
    rw [Part.run_append, run_literal fun u hu => (hw u hu).2]
    rfl
  rw [tokens_callOfLiteral]
  refine .tight (fun u hu => ?_) (.tight (fun u hu => ?_) (.tight (fun u hu => ?_)
    (.tight (fun u hu => ?_) (.nil nofun))))
  · obtain rfl := Option.some.inj hu
    rfl
  · obtain rfl := Option.some.inj hu
    rfl
  · obtain rfl := Option.some.inj hu
    exact hliteral
  · cases hu

/-- A literal with a quote and a line break: `f("a\"b` and `c")` on the next line. -/
theorem readsBack_iff_call : ReadsBack decodesOne (units "f(\"a\\\"b\nc\")")
    (callOfLiteral (units "a\"b\nc")) := by
  have hplain : ∀ u ∈ units "a\"b\nc", u.toNat < 256 ∧ u ≠ 92 := forall_mem_of_all (by decide)
  refine (readsBack_iff (by decide) (written_callOfLiteral hplain)
    (layout_callOfLiteral hplain)).mpr fun w hw => ?_
  rw [tokens_callOfLiteral] at hw
  simp only [List.mem_cons, List.not_mem_nil, or_false] at hw
  rcases hw with hw | hw | hw | hw
  · cases congrArg Prod.fst hw
  · cases congrArg Prod.fst hw
  · rw [keepsLines_iff, ← directs_literal, hw]
    decide +kernel
  · cases congrArg Prod.fst hw

/-- In `f("a\n#b")` the end of the literal and of the call is left out. -/
theorem not_readsBack_hash : ¬ ∀ (P : ScriptPlatform) (script : Units) (block : PBlock),
    block.proper PBlockEntry.endsOpen = true → (∀ t ∈ block.tokens, Written t) →
      Layout block.tokens script → ReadsBack P script block := by
  intro h
  obtain ⟨tree, hcompiles, -⟩ :=
    h decodesOne (units "f(\"a\n#b\")") (callOfLiteral (units "a\n#b")) (by decide)
      (written_callOfLiteral (forall_mem_of_all (by decide)))
      (layout_callOfLiteral (forall_mem_of_all (by decide)))
  exact absurd (compiles_iff.mp hcompiles).2.1 (by decide +kernel)

end ScriptCache

end Violet
