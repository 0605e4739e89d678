import Violet.Script.Gathering
import Violet.Script.Lines

/-!
# Comments

A comment at the end of a line should change nothing. It ends with the line, but the closing
bracket stands on the last line of what the scanner is given, so a comment there takes the bracket
as its text.
-/

namespace Violet

open Dart Parsing

namespace ScriptCache

/-! ### The end of a line -/

/-- A line break follows, or the script ends. -/
def EndsLine (rest : Units) : Prop := rest = [] ∨ rest.head? = some 10

/-- What the scanner is given of a script up to the end of a line. -/
def front (before : Units) : Units := units "[" ++ preprocess before.trimLeft

/-- The end of the line is inside a string literal. -/
def InString (before : Units) : Prop :=
  Part.after (front before) = .string ∨ Part.after (front before) = .escape

/-- The lines behind a line that the scanner is given. -/
def keptBehind (rest : Units) : List Units :=
  if rest.trimRight = [] then [] else keptLines rest.trimRight.tail

/-- What the scanner is given behind a line. -/
def textBehind (rest : Units) : Units := Units.join [10] (keptBehind rest) ++ units "]"

/-- The line is a directive. Or another line is kept behind it; where nothing stands in front of a
comment, what follows is not trimmed any more and has a place in the tables; and where the line ends
behind a single slash, which holds up to the next one, what follows is the same with and without. -/
def MayComment (before rest : Units) : Prop :=
  isDirective (lastLine before) = true ∨
    (keptBehind rest ≠ [] ∧ (before.trimLeft = [] → ∀ u ∈ textBehind rest, u.toNat < 256) ∧
      (Part.after (front before) = .slash →
        (⟨.slash, [], units "/"⟩ : Gathered).reads (textBehind rest) =
          ({} : Gathered).reads (textBehind rest)))

/-- The script is accepted, and its syntax tree is the one of the tree. -/
def KeepsTree (script : Units) (tree : ParseTreeNode) : Prop :=
  ∃ tree', Compiles script (.ok tree') ∧ tree'.userContents = tree.userContents

/-! ### The text that the scanner is given -/

variable {before rest text s t : Units} {u : UInt16} {tree : ParseTreeNode}

lemma compiles_of_source {script script' : Units} {r : Except CompileError ParseTreeNode}
    (h : source script' = source script) (hr : Compiles script r) : Compiles script' r := by
  obtain ⟨fuel, hr⟩ := hr
  exact ⟨fuel, by rw [compile, h]; exact hr⟩

lemma join_concat (lines : List Units) (line : Units) (s : Units) :
    Units.join [10] (lines ++ [line ++ s]) = Units.join [10] (lines ++ [line]) ++ s := by
  by_cases h : lines = []
  · subst h
    simp [Units.join]
  · rw [Units.join, Units.join, intercalate_append _ h (by simp), intercalate_append _ h (by simp)]
    simp

lemma join_append {lines lines' : List Units} (h : lines ≠ []) (h' : lines' ≠ []) :
    Units.join [10] (lines ++ lines') =
      Units.join [10] lines ++ 10 :: Units.join [10] lines' := by
  rw [Units.join, intercalate_append _ h h', List.append_assoc]
  rfl

/-- More on a line that is a directive. -/
lemma keptLines_of_directive (h : isDirective (lastLine s) = true)
    (hu : Units.isBlank u = false) (h35 : u ≠ 35) (ht : 10 ∉ u :: t) :
    keptLines (s ++ u :: t) = keptLines s := by
  obtain ⟨lines, hlines⟩ := exists_keptLines s
  have hlast := notMem_lastLine s
  have hs := hlines _ hlast
  have hst := hlines (lastLine s ++ u :: t) (by simpa [hlast] using ht)
  rw [isDirective_append_cons hu h35, ← List.append_assoc, lineStart_append_lastLine] at hst
  rw [lineStart_append_lastLine] at hs
  rw [hst, hs, if_pos h, if_pos h]

/-- More on a line that is none. -/
lemma keptLines_of_not_directive (h : isDirective (lastLine s) = false)
    (hu : Units.isBlank u = false) (h35 : u ≠ 35) (ht : 10 ∉ u :: t) :
    keptLines (s ++ u :: t) ≠ [] ∧ preprocess (s ++ u :: t) = preprocess s ++ u :: t := by
  obtain ⟨lines, hlines⟩ := exists_keptLines s
  have hlast := notMem_lastLine s
  have hs := hlines _ hlast
  have hst := hlines (lastLine s ++ u :: t) (by simpa [hlast] using ht)
  rw [isDirective_append_cons hu h35, h, ← List.append_assoc, lineStart_append_lastLine] at hst
  rw [lineStart_append_lastLine, h] at hs
  refine ⟨by rw [hst]; simp, ?_⟩
  rw [preprocess_eq, preprocess_eq, hst, hs]
  exact join_concat lines _ _

lemma eq_cons_of_endsLine (h : EndsLine rest) (hrest : rest.trimRight ≠ []) :
    ∃ behind : Units, rest = 10 :: behind ∧ rest.trimRight = 10 :: behind.trimRight := by
  rcases h with rfl | h
  · exact absurd rfl hrest
  · cases rest with
    | nil => cases h
    | cons u behind =>
      obtain rfl : u = 10 := Option.some.inj h
      refine ⟨behind, rfl, ?_⟩
      have hsplit := Units.trimRight_append [10] behind
      have hten : Units.trimRight [10] = [] := by decide
      rw [List.singleton_append, hten] at hsplit
      rw [hsplit] at hrest ⊢
      split_ifs at hrest ⊢ with hbehind
      · exact absurd rfl hrest
      · rfl

/-- Behind what is kept of a line stand the lines behind it. -/
lemma keptLines_append_rest (hline : EndsLine rest) (s : Units) :
    keptLines (s ++ rest).trimRight = keptLines (if rest.trimRight = [] then s.trimRight else s) ++
      keptBehind rest := by
  rw [Units.trimRight_append, keptBehind]
  split_ifs with hrest
  · rw [List.append_nil]
  · obtain ⟨behind, -, htrim⟩ := eq_cons_of_endsLine hline hrest
    rw [htrim, keptLines_newline]
    rfl

/-- The script with the comment. -/
lemma exists_keptLines_commented (hline : EndsLine rest) (before text : Units) :
    ∃ text' : Units, text' ⊆ text ∧ keptLines (before ++ 47 :: 47 :: text ++ rest).trim =
      keptLines (before.trimLeft ++ 47 :: 47 :: text') ++ keptBehind rest := by
  have hslash : Units.isBlank 47 = false := by decide
  have htrim : (before ++ 47 :: 47 :: text ++ rest).trim =
      (before.trimLeft ++ 47 :: 47 :: text ++ rest).trimRight := by
    rw [Units.trim, List.append_assoc, List.cons_append, Units.trimLeft_append_cons hslash,
      List.append_assoc]
    rfl
  rw [htrim, keptLines_append_rest hline]
  split_ifs with hrest
  · refine ⟨text.trimRight, (List.rdropWhile_prefix _ _).subset, ?_⟩
    rw [Units.trimRight_append_cons hslash, ← List.nil_append (47 :: text),
      Units.trimRight_append_cons hslash, List.nil_append]
  · exact ⟨text, List.Subset.refl _, rfl⟩

/-- The script without the comment, when a line is kept behind it or the line is none of it. -/
lemma keptLines_uncommented (hline : EndsLine rest) (hbefore : before.trimLeft ≠ [])
    (h : keptBehind rest ≠ [] ∨ isDirective (lastLine before) = true) :
    keptLines (before ++ rest).trim = keptLines before.trimLeft ++ keptBehind rest := by
  have htrim : (before ++ rest).trim = (before.trimLeft ++ rest).trimRight := by
    rw [Units.trim, Units.trimLeft_append, if_neg hbefore]
  rw [htrim, keptLines_append_rest hline]
  congr 1
  split_ifs with hrest
  · have hdirective : isDirective (lastLine before.trimLeft) = true := by
      rw [isDirective_lastLine_trimLeft]
      refine h.resolve_left fun hne => hne ?_
      rw [keptBehind, if_pos hrest]
    have hlast : (lastLine before.trimLeft).trimRight ≠ [] := by
      intro hnil
      rw [← isDirective_trimRight, hnil] at hdirective
      exact absurd hdirective (by decide)
    obtain ⟨lines, hlines⟩ := exists_keptLines before.trimLeft
    have htrimmed : before.trimLeft.trimRight =
        lineStart before.trimLeft ++ (lastLine before.trimLeft).trimRight := by
      conv_lhs => rw [← lineStart_append_lastLine before.trimLeft]
      rw [Units.trimRight_append, if_neg hlast]
    have hkept := hlines _ (notMem_lastLine before.trimLeft)
    rw [lineStart_append_lastLine] at hkept
    rw [htrimmed, hkept, hlines, isDirective_trimRight, if_pos hdirective, if_pos hdirective]
    exact fun hmem => notMem_lastLine _ ((List.rdropWhile_prefix _ _).subset hmem)
  · rfl

/-- A directive stays one with more on its line. -/
lemma source_of_directive (hline : EndsLine rest) (htext : 10 ∉ text)
    (h : isDirective (lastLine before) = true) :
    source (before ++ 47 :: 47 :: text ++ rest) = source (before ++ rest) := by
  have hdirective := isDirective_lastLine_trimLeft before
  rw [h] at hdirective
  have hbefore : before.trimLeft ≠ [] := by
    intro hnil
    rw [hnil] at hdirective
    exact absurd hdirective (by decide)
  obtain ⟨text', hsub, hlines⟩ := exists_keptLines_commented hline before text
  have hten : 10 ∉ 47 :: 47 :: text' := by simpa using fun hmem => htext (hsub hmem)
  rw [source, source, preprocess_eq, preprocess_eq, hlines,
    keptLines_uncommented hline hbefore (.inr h),
    keptLines_of_directive hdirective (by decide) (by decide) hten]

/-- The comment of another line stands behind its front. -/
lemma exists_source_commented (hline : EndsLine rest) (htext : 10 ∉ text)
    (h : isDirective (lastLine before) = false) :
    ∃ text' : Units, text' ⊆ text ∧ source (before ++ 47 :: 47 :: text ++ rest) =
      front before ++ 47 :: 47 :: text' ++
        if keptBehind rest = [] then units "]" else 10 :: textBehind rest := by
  have hdirective := isDirective_lastLine_trimLeft before
  rw [h] at hdirective
  obtain ⟨text', hsub, hlines⟩ := exists_keptLines_commented hline before text
  have hten : 10 ∉ 47 :: 47 :: text' := by simpa using fun hmem => htext (hsub hmem)
  obtain ⟨hne, hjoin⟩ :=
    keptLines_of_not_directive hdirective (u := 47) (by decide) (by decide) hten
  refine ⟨text', hsub, ?_⟩
  rw [source, preprocess_eq, hlines, front]
  split_ifs with hbehind
  · rw [hbehind, List.append_nil, ← preprocess_eq, hjoin]
    simp
  · rw [join_append hne hbehind, ← preprocess_eq, hjoin, textBehind]
    simp

/-- The text behind the line without a comment. -/
lemma source_uncommented (hline : EndsLine rest) (hbefore : before.trimLeft ≠ [])
    (hbehind : keptBehind rest ≠ []) (h : isDirective (lastLine before) = false) :
    source (before ++ rest) = front before ++ 10 :: textBehind rest := by
  have hdirective := isDirective_lastLine_trimLeft before
  rw [h] at hdirective
  have hne : keptLines before.trimLeft ≠ [] := by
    obtain ⟨lines, hlines⟩ := exists_keptLines before.trimLeft
    have hkept := hlines _ (notMem_lastLine before.trimLeft)
    rw [lineStart_append_lastLine, hdirective] at hkept
    rw [hkept]
    simp
  rw [source, preprocess_eq, keptLines_uncommented hline hbefore (.inl hbehind),
    join_append hne hbehind, ← preprocess_eq, front, textBehind]
  simp

/-- Where nothing stands in front of the comment, what follows was trimmed without it. -/
lemma exists_source_blank (hline : EndsLine rest) (hbefore : before.trimLeft = [])
    (hbehind : keptBehind rest ≠ []) : ∃ w t : Units, (∀ u ∈ w, Units.isBlank u = true) ∧
      textBehind rest = w ++ (t ++ units "]") ∧
        source (before ++ rest) = units "[" ++ t ++ units "]" := by
  have hrest : rest.trimRight ≠ [] := fun hnil => hbehind (by rw [keptBehind, if_pos hnil])
  obtain ⟨behind, rfl, htrim⟩ := eq_cons_of_endsLine hline hrest
  have hkept : keptBehind (10 :: behind) = keptLines behind.trimRight := by
    rw [keptBehind, if_neg hrest, htrim]
    rfl
  have hblank : ∀ u ∈ behind.trimRight.takeWhile Units.isBlank, Units.isBlank u = true :=
    fun _ => List.mem_takeWhile_imp
  obtain ⟨w, hw, hjoin⟩ := exists_join_keptLines hblank behind.trimRight.trimLeft
  rw [Units.takeWhile_append_trimLeft] at hjoin
  refine ⟨w, preprocess behind.trimRight.trimLeft, hw, ?_, ?_⟩
  · rw [textBehind, hkept, hjoin, preprocess_eq, List.append_assoc]
  · have htrimmed : (before ++ 10 :: behind).trim = behind.trimRight.trimLeft := by
      have hten : Units.trimLeft (10 :: behind.trimRight) = behind.trimRight.trimLeft :=
        Units.trimLeft_of_blank (w := [10]) (forall_mem_of_all (by decide)) behind.trimRight
      have hleft : (before ++ 10 :: behind).trim = Units.trim (10 :: behind) := by
        rw [Units.trim, Units.trimLeft_append, if_pos hbefore, Units.trim]
      rw [hleft, Units.trim_eq, htrim, hten]
    rw [source, htrimmed]

end ScriptCache

/-! ### What is gathered of a comment -/

namespace Gathered

variable {g : Gathered} {u : UInt16} {text t : Units}

/-- Outside of literals, a unit that no word goes on with begins another lexeme, but behind a single
slash and in a comment. -/
lemma Sound.free_or (hg : g.Sound) (hstring : g.part ≠ .string) (hescape : g.part ≠ .escape) :
    (∀ u, isWordPart u = false → g.Free u) ∨ g.part = .slash ∨ g.part = .comment := by
  by_cases hidle : g.part.isIdle = true
  · exact .inl fun _ _ => .inl (hg.idle hidle)
  · cases hpart : g.part with
    | start | blank | commentEnd => exact absurd (by rw [hpart]; rfl) hidle
    | slash => exact .inr (.inl rfl)
    | comment => exact .inr (.inr rfl)
    | string => exact absurd hpart hstring
    | escape => exact absurd hpart hescape
    | mark | stringEnd => exact .inl fun u _ => .inr (by rw [hpart]; exact ⟨rfl, rfl⟩)
    | word => exact .inl fun u hu => .inr (by simp [hpart, Part.isToken, Part.step, hu])
    | number =>
      refine .inl fun u hu => .inr ?_
      have hdigit : isDigit u = false := by simp_all [isWordPart]
      simp [hpart, Part.isToken, Part.step, hdigit]

/-- Outside of literals a comment is read to its end. -/
lemma reads_comment (hg : g.Sound) (hstring : g.part ≠ .string) (hescape : g.part ≠ .escape)
    (htext : 10 ∉ text) : ∃ lexeme, g.reads (47 :: 47 :: text) = ⟨.comment, g.all, lexeme⟩ := by
  have hcomment : ∀ s : Units, 10 ∉ s → Part.comment.run s = some .comment :=
    fun s hs => Part.run_comment fun v hv h10 => hs (h10 ▸ hv)
  have hgoes (hpart : g.part.run (47 :: 47 :: text) = some .comment)
      (htoken : g.part.isToken = false) :
      g.reads (47 :: 47 :: text) = ⟨.comment, g.all, g.lexeme ++ 47 :: 47 :: text⟩ := by
    rw [reads_of_run (List.cons_ne_nil _ _) hpart, all, htoken]
    rfl
  obtain hfree | hpart | hpart := hg.free_or hstring hescape
  · exact ⟨_, reads_lexeme (q := .comment) (hcomment text htext) (hfree 47 (by decide))⟩
  · exact ⟨_, hgoes (hpart ▸ hcomment (47 :: text) (by simpa using htext)) (by rw [hpart]; rfl)⟩
  · exact ⟨_, hgoes (hpart ▸ hcomment (47 :: 47 :: text) (by simpa using htext))
      (by rw [hpart]; rfl)⟩

/-- The line break behind a comment. -/
lemma reads_comment_newline (hg : g.Sound) (hstring : g.part ≠ .string)
    (hescape : g.part ≠ .escape) (htext : 10 ∉ text) (t : Units) :
    g.reads (47 :: 47 :: text ++ 10 :: t) = g.rest.reads t := by
  obtain ⟨lexeme, hcomment⟩ := reads_comment hg hstring hescape htext
  have hturn : (⟨.comment, g.all, lexeme⟩ : Gathered).turn 10 = g.rest := turn_of_end rfl rfl
  rw [reads_append, hcomment, reads_cons, hturn]

/-- The line break without the comment. -/
lemma reads_newline (hg : g.Sound) (hstring : g.part ≠ .string) (hescape : g.part ≠ .escape)
    (hslash : g.part ≠ .slash) (t : Units) : g.reads (10 :: t) = g.rest.reads t := by
  rw [reads_cons]
  obtain hfree | hpart | hpart := hg.free_or hstring hescape
  · rw [turn_of_blank (hfree 10 (by decide)) (.inr (by decide))]
  · exact absurd hpart hslash
  · rw [turn_of_end (q := .commentEnd) (by rw [hpart]; rfl) rfl, rest, all, hpart]
    rfl

/-- A comment that the text ends with takes the closing bracket. -/
lemma part_comment (hg : g.Sound) (hstring : g.part ≠ .string) (hescape : g.part ≠ .escape)
    (htext : 10 ∉ text) : (g.reads (47 :: 47 :: text ++ units "]")).part = .comment := by
  have hbracket : 10 ∉ text ++ units "]" := by simpa [units] using ⟨htext, by decide⟩
  obtain ⟨lexeme, hcomment⟩ := reads_comment hg hstring hescape hbracket
  exact congrArg part hcomment

/-- A bracket ends in front of any unit. -/
lemma reads_of_mark (hpart : g.part = .mark) (ht : t ≠ []) : g.reads t = g.rest.reads t := by
  obtain ⟨u, t, rfl⟩ := List.exists_cons_of_ne_nil ht
  have hfree : g.Free u := .inr (by rw [hpart]; exact ⟨rfl, rfl⟩)
  rw [reads_cons, turn_of_free hfree, reads_cons]

/-- Two texts that end in a bracket have the same tokens only when they are read alike. -/
lemma eq_of_all {g' : Gathered} (hpart : g.part = .mark) (hpart' : g'.part = .mark)
    (h : g.all = g'.all) : g = g' := by
  obtain ⟨part, tokens, lexeme⟩ := g
  obtain ⟨part', tokens', lexeme'⟩ := g'
  obtain rfl : part = .mark := hpart
  obtain rfl : part' = .mark := hpart'
  have h : tokens ++ [lexeme] = tokens' ++ [lexeme'] := h
  obtain ⟨rfl, hlast⟩ := List.append_inj' h rfl
  rw [List.cons.inj hlast |>.1]

end Gathered

namespace ScriptCache

variable {before rest text : Units} {tree : ParseTreeNode} {g : Gathered}

/-! ### Accepted scripts -/

/-- A script that is read as an accepted one keeps its tree. -/
lemma keepsTree_iff_gather {script script' : Units} (h : Compiles script (.ok tree)) :
    KeepsTree script' tree ↔ (∀ u ∈ source script', u.toNat < 256) ∧
      gather (source script') = gather (source script) := by
  obtain ⟨-, hpart, -⟩ := compiles_iff.mp h
  constructor
  · rintro ⟨tree', hcompiles, htree⟩
    obtain ⟨hu, hpart', -⟩ := compiles_iff.mp hcompiles
    exact ⟨hu, Gathered.eq_of_all hpart' hpart (all_of_compiles h hcompiles htree)⟩
  · rintro ⟨hu, hgather⟩
    exact ⟨tree, compiles_of_all h hu (hgather ▸ hpart) (by rw [hgather]), rfl⟩

/-- Behind a line that something stands in front of. -/
lemma gather_uncommented_iff (hsound : g.Sound) (hstring : g.part ≠ .string)
    (hescape : g.part ≠ .escape) (t : Units) :
    g.rest.reads t = g.reads (10 :: t) ↔ (g.part = .slash →
      (⟨.slash, [], units "/"⟩ : Gathered).reads t = ({} : Gathered).reads t) := by
  by_cases hslash : g.part = .slash
  · have hg : g = (⟨.slash, [], units "/"⟩ : Gathered).after g.tokens := by
      have hlexeme := hsound.slash hslash
      obtain ⟨part, tokens, lexeme⟩ := g
      obtain rfl : part = .slash := hslash
      obtain rfl : lexeme = [47] := hlexeme
      simp [Gathered.after, units, encodeChar]
    have hrest : g.rest = ({} : Gathered).after g.tokens := by
      rw [Gathered.rest, Gathered.all, hslash]
      simp [Gathered.after, Part.isToken]
    have hturn : g.turn 10 = g := by
      rw [hg]
      rfl
    rw [Gathered.reads_cons, hturn, hrest]
    conv_lhs => rhs; rw [hg]
    rw [Gathered.after_reads, Gathered.after_reads, (Gathered.after_injective g.tokens).eq_iff]
    exact ⟨fun h _ => h.symm, fun h => (h hslash).symm⟩
  · exact iff_of_true (Gathered.reads_newline hsound hstring hescape hslash t).symm
      fun h => absurd h hslash

lemma after_eq_slash_iff (text : Units) :
    Part.after text = .slash ↔ (gather text).part = .slash := by
  rw [Gathered.part_gather]
  cases Part.after text <;> decide

/-- A comment at the end of a line keeps the syntax tree exactly when the line is a directive, or
another line is kept behind it, with two conditions where it is the first line or ends behind a
single slash. -/
theorem keepsTree_iff (haccepts : Compiles (before ++ rest) (.ok tree)) (hline : EndsLine rest)
    (hstring : ¬ InString before) (htext : ∀ u ∈ text, u ≠ 10 ∧ u.toNat < 256) :
    KeepsTree (before ++ (units "//" ++ text) ++ rest) tree ↔ MayComment before rest := by
  have hslashes : units "//" ++ text = 47 :: 47 :: text := rfl
  have hten : 10 ∉ text := fun hmem => (htext 10 hmem).1 rfl
  rw [hslashes, MayComment]
  cases hdirective : isDirective (lastLine before) with
  | true =>
    refine iff_of_true ?_ (.inl rfl)
    exact ⟨tree, compiles_of_source (source_of_directive hline hten hdirective) haccepts, rfl⟩
  | false =>
    obtain ⟨text', hsub, hsource⟩ := exists_source_commented hline hten hdirective
    have hten' : 10 ∉ text' := fun hmem => hten (hsub hmem)
    have hlt' : ∀ u ∈ text', u.toNat < 256 := fun u hu => (htext u (hsub hu)).2
    have hsound := Gathered.sound_gather (front before)
    obtain ⟨hstr, hesc⟩ : (gather (front before)).part ≠ .string ∧
        (gather (front before)).part ≠ .escape := by
      rw [Gathered.part_gather]
      split_ifs
      · exact ⟨nofun, nofun⟩
      · exact not_or.mp hstring
    rw [keepsTree_iff_gather haccepts, hsource]
    simp only [Bool.false_eq_true, false_or]
    by_cases hbehind : keptBehind rest = []
    · -- the comment goes on to the end of the text
      rw [if_pos hbehind]
      refine iff_of_false ?_ fun h => h.1 hbehind
      rintro ⟨-, hgather⟩
      have hmark := (compiles_iff.mp haccepts).2.1
      rw [← hgather, List.append_assoc, gather_append,
        Gathered.part_comment hsound hstr hesc hten'] at hmark
      cases hmark
    · have hgather : gather (front before ++ 47 :: 47 :: text' ++ 10 :: textBehind rest) =
          (gather (front before)).rest.reads (textBehind rest) := by
        rw [List.append_assoc, gather_append,
          Gathered.reads_comment_newline hsound hstr hesc hten']
      have hunits (hfront : ∀ u ∈ front before, u.toNat < 256)
          (htext : ∀ u ∈ textBehind rest, u.toNat < 256) :
          ∀ u ∈ front before ++ 47 :: 47 :: text' ++ 10 :: textBehind rest, u.toNat < 256 := by
        simp only [List.forall_mem_append, List.forall_mem_cons]
        exact ⟨⟨hfront, by decide, by decide, hlt'⟩, by decide, htext⟩
      rw [if_neg hbehind, hgather]
      by_cases hbefore : before.trimLeft = []
      · have hfront : front before = units "[" := by
          rw [front, hbefore]
          decide
        obtain ⟨w, t, hw, hbehind', hold⟩ := exists_source_blank hline hbefore hbehind
        have hgold : gather (source (before ++ rest)) =
            (gather (units "[")).rest.reads (t ++ units "]") := by
          rw [hold, List.append_assoc, gather_append]
          exact Gathered.reads_of_mark (by decide)
            (List.append_ne_nil_of_right_ne_nil t (by decide))
        rw [hgold, hfront]
        constructor
        · rintro ⟨hlt, -⟩
          refine ⟨hbehind, fun _ u hu => hlt u ?_, fun hslash => by cases hslash⟩
          exact List.mem_append_right _ (List.mem_cons_of_mem _ hu)
        · rintro ⟨-, hlt, -⟩
          have hlt := hlt hbefore
          have hbracket : ∀ u ∈ units "[", u.toNat < 256 := forall_mem_of_all (by decide)
          refine ⟨hfront ▸ hunits (hfront ▸ hbracket) hlt, ?_⟩
          rw [hbehind'] at hlt ⊢
          rw [Gathered.reads_append, Gathered.reads_blank]
          exact fun u hu => ⟨hw u hu, hlt u (List.mem_append_left _ hu)⟩
      · have hold := source_uncommented hline hbefore hbehind hdirective
        have hlt := (compiles_iff.mp haccepts).1
        rw [hold, List.forall_mem_append, List.forall_mem_cons] at hlt
        rw [hold, gather_append, gather_uncommented_iff hsound hstr hesc, after_eq_slash_iff]
        exact ⟨fun h => ⟨hbehind, fun h' => absurd h' hbefore, h.2⟩,
          fun h => ⟨hunits hlt.1 hlt.2.2, h.2.2⟩⟩

/-- A comment behind the first of two lines. -/
theorem keepsTree_iff_first : ∃ tree, Compiles (units "f()\ng()") (.ok tree) ∧
    (KeepsTree (units "f()" ++ (units "//" ++ units "x") ++ units "\ng()") tree ↔
      MayComment (units "f()") (units "\ng()")) := by
  obtain ⟨tree, hcompiles⟩ : Accepts (units "f()\ng()") := accepts_of_isOk 60 (by decide +kernel)
  have hstring : ¬ InString (units "f()") := by
    rintro (h | h) <;> exact absurd h (by decide +kernel)
  exact ⟨tree, hcompiles,
    keepsTree_iff hcompiles (.inr (by decide)) hstring (forall_mem_of_all (by decide))⟩

/-- `f()` is accepted, and `f()//x` is not. -/
theorem not_keepsTree_last : ¬ ∀ (before rest text : Units) (tree : ParseTreeNode),
    Compiles (before ++ rest) (.ok tree) → EndsLine rest → ¬ InString before →
      (∀ u ∈ text, u ≠ 10 ∧ u.toNat < 256) →
        KeepsTree (before ++ (units "//" ++ text) ++ rest) tree := by
  intro h
  obtain ⟨tree, hcompiles⟩ : Accepts (units "f()") := accepts_of_isOk 60 (by decide +kernel)
  have hstring : ¬ InString (units "f()") := by
    rintro (h | h) <;> exact absurd h (by decide +kernel)
  obtain ⟨tree', hcomment, -⟩ :=
    h (units "f()") [] (units "x") tree hcompiles (.inl rfl) hstring
      (forall_mem_of_all (by decide))
  have herror : ((compile 60 (units "f()//x")).map Except.isOk) = some false := by decide +kernel
  obtain ⟨r, hr, hok⟩ := Option.map_eq_some_iff.mp herror
  obtain rfl := hcomment.unique ⟨60, hr⟩
  cases hok

end ScriptCache

end Violet
