import Violet.Dart.Lines
import Violet.Script.Gathering

/-!
# Written scripts

The tokens of a script may be written with any white space and any comments between them, as long
as no token goes on with what stands behind it. The scanner reads them back.
-/

namespace Violet

open Dart Parsing Lexed

/-! ### What can be written -/

def keywords : List String := ["if", "to", "var", "loop", "else", "foreach", "function"]

def marks : List String :=
  ["=", "[", "]", ":", ",", "(", ")", "loop", "to", "foreach", "if", "else"]

/-- A token that the scanner reads as what it is. -/
inductive Written : Lexed → Prop where
  | mark {s : String} (h : s ∈ marks) : Written (mark s)
  | name {u : UInt16} {s : Units} (hu : isWordStart u = true) (hs : ∀ v ∈ s, isWordPart v = true)
      (hkeyword : u :: s ∉ keywords.map units) : Written (Lexed.name (u :: s))
  | number {u : UInt16} {s : Units} (hu : isDigit u = true) (hs : ∀ v ∈ s, isDigit v = true) :
      Written ("number".toList, u :: s)
  | literal {w : Units} (hw : ∀ u ∈ w, u.toNat < 256 ∧ u ≠ 92) : Written (literal w)

/-- White space and comments. -/
inductive Gap : Units → Prop where
  | nil : Gap []
  | blank {u : UInt16} {s : Units} (hu : Units.isBlank u = true) (hlt : u.toNat < 256)
      (hs : Gap s) : Gap (u :: s)
  | comment {body s : Units} (hbody : ∀ u ∈ body, u ≠ 10 ∧ u.toNat < 256) (hs : Gap s) :
      Gap (47 :: 47 :: body ++ 10 :: s)

/-- The text has the tokens, with gaps in front of them and white space at the end. No token goes on
with the unit behind it. -/
inductive Layout : List Lexed → Units → Prop where
  | nil {gap : Units} (hgap : ∀ u ∈ gap, Units.isBlank u = true ∧ u.toNat < 256) : Layout [] gap
  | cons {t : Lexed} {ts : List Lexed} {gap rest : Units} (hgap : Gap gap)
      (hends : ∀ u, rest.head? = some u → Part.start.run (t.2 ++ [u]) = none)
      (h : Layout ts rest) : Layout (t :: ts) (gap ++ (t.2 ++ rest))

/-- A token without a gap in front of it. -/
lemma Layout.tight {t : Lexed} {ts : List Lexed} {rest : Units}
    (hends : ∀ u, rest.head? = some u → Part.start.run (t.2 ++ [u]) = none) (h : Layout ts rest) :
    Layout (t :: ts) (t.2 ++ rest) := .cons .nil hends h

/-! ### One token -/

variable {g : Gathered} {t : Lexed} {ts : List Lexed} {text s w : Units} {u : UInt16}

lemma escaped_escape (hw : ∀ u ∈ w, u ≠ 92) : Escaped (w.replaceAll [34] [92, 34]) := by
  change Escaped (Units.replaceAll.go [34] [92, 34] 0 w)
  induction w with
  | nil => exact .nil
  | cons u w ih =>
    obtain ⟨hu, hw⟩ := List.forall_mem_cons.mp hw
    rw [escape_cons]
    split_ifs with hquote
    · exact .quote (ih hw)
    · exact .plain hquote hu (ih hw)

lemma mem_escape (hu : u ∈ w.replaceAll [34] [92, 34]) : u = 92 ∨ u ∈ w := by
  change u ∈ Units.replaceAll.go [34] [92, 34] 0 w at hu
  induction w with
  | nil => cases hu
  | cons v w ih =>
    rw [escape_cons, List.mem_append] at hu
    rcases hu with hu | hu
    · split_ifs at hu with hv
      · rw [hv]
        simp at hu ⊢
        tauto
      · exact .inr (List.mem_cons.mpr (.inl (List.mem_singleton.mp hu)))
    · exact (ih hu).imp_right (List.mem_cons_of_mem v)

lemma lt_of_isWordPart (h : isWordPart u = true) : u.toNat < 256 := by
  simp [isWordPart, isDigit, ← UInt16.toNat_inj, UInt16.le_iff_toNat_le] at h
  omega

lemma lt_of_isWordStart (h : isWordStart u = true) : u.toNat < 256 := by
  simp [isWordStart, ← UInt16.toNat_inj, UInt16.le_iff_toNat_le] at h
  omega

lemma lt_of_isDigit (h : isDigit u = true) : u.toNat < 256 := by
  simp [isDigit, UInt16.le_iff_toNat_le] at h
  omega

lemma run_name (hu : isWordStart u = true) (hs : ∀ v ∈ s, isWordPart v = true) :
    Part.start.run (u :: s) = some .word := by
  rw [Part.run_cons, Part.step_start_word hu]
  exact Part.run_word hs

lemma run_digits (hu : isDigit u = true) (hs : ∀ v ∈ s, isDigit v = true) :
    Part.start.run (u :: s) = some .number := by
  rw [Part.run_cons, Part.step_start_number hu]
  exact Part.run_number hs

lemma run_literal (hw : ∀ u ∈ w, u ≠ 92) : Part.start.run (literal w).2 = some .stringEnd := by
  change Part.string.run (_ ++ [34]) = _
  rw [Part.run_append, Part.run_string (escaped_escape hw)]
  rfl

namespace Written

lemma lt (h : Written t) : ∀ u ∈ t.2, u.toNat < 256 := by
  cases h with
  | mark h =>
    have hcheck : ∀ s ∈ marks, ((units s).all fun u => decide (u.toNat < 256)) = true := by decide
    exact forall_mem_of_all (hcheck _ h)
  | name hu hs _ =>
    exact List.forall_mem_cons.mpr ⟨lt_of_isWordStart hu, fun v hv => lt_of_isWordPart (hs v hv)⟩
  | number hu hs =>
    exact List.forall_mem_cons.mpr ⟨lt_of_isDigit hu, fun v hv => lt_of_isDigit (hs v hv)⟩
  | @literal w hw =>
    refine List.forall_mem_cons.mpr ⟨by decide, List.forall_mem_append.mpr ⟨fun u hu => ?_, ?_⟩⟩
    · rcases mem_escape hu with rfl | hu
      · decide
      · exact (hw u hu).1
    · exact List.forall_mem_singleton.mpr (by decide)

/-- The part behind the token. -/
lemma exists_run (h : Written t) : ∃ q, Part.start.run t.2 = some q ∧ q.isToken = true := by
  cases h with
  | mark h =>
    have hcheck : ∀ s ∈ marks, Part.start.run (units s) = some .mark ∨
        Part.start.run (units s) = some .word := by decide
    rcases hcheck _ h with hq | hq
    · exact ⟨.mark, hq, rfl⟩
    · exact ⟨.word, hq, rfl⟩
  | name hu hs _ => exact ⟨.word, run_name hu hs, rfl⟩
  | number hu hs => exact ⟨.number, run_digits hu hs, rfl⟩
  | literal hw => exact ⟨.stringEnd, run_literal fun u hu => (hw u hu).2, rfl⟩

/-- No text but the keywords leads to a word that is none. -/
lemma nodes_named : ((List.range 46).all fun node =>
    match ScriptLexer.part node with
    | .word => scriptLexer.name? node = some "name".toList ||
        keywords.any fun k => ScriptLexer.path node = some (units k)
    | .number => scriptLexer.name? node = some "number".toList
    | .stringEnd => scriptLexer.name? node = some "string".toList
    | _ => true) = true := by
  decide +kernel

/-- The scanner reads the token under its name. -/
lemma name_tokenOf (h : Written t) : (tokenOf t.2).name = t.1 := by
  have hnode {q : Part} (hrun : Part.start.run t.2 = some q) :
      ∃ node < 46, nodeOf t.2 = some node ∧ ScriptLexer.part node = q := by
    have hpart := map_part_nodeOf h.lt
    rw [hrun] at hpart
    obtain ⟨node, hn, hq⟩ := Option.map_eq_some_iff.mp hpart
    exact ⟨node, (lt_of_nodeOf hn).1, hn, hq⟩
  have hnamed {node : ℕ} {name : Str} (hn : nodeOf t.2 = some node)
      (hname : scriptLexer.name? node = some name) : (tokenOf t.2).name = name := by
    rw [tokenOf, hn, Option.bind_some, hname]
    rfl
  have hcheck {node : ℕ} (hlt : node < 46) :=
    List.all_eq_true.mp nodes_named node (List.mem_range.mpr hlt)
  cases h with
  | mark h =>
    have hmarks : ∀ s ∈ marks, (tokenOf (units s)).name = s.toList := by decide +kernel
    exact hmarks _ h
  | name hu hs hkeyword =>
    obtain ⟨node, hlt, hn, hpart⟩ := hnode (run_name hu hs)
    have hword := hcheck hlt
    rw [hpart] at hword
    simp only [Bool.or_eq_true, decide_eq_true_eq, List.any_eq_true] at hword
    rcases hword with hname | ⟨k, hk, hpath⟩
    · exact hnamed hn hname
    · exact absurd (List.mem_map.mpr ⟨k, hk, (eq_of_path hn hpath).symm⟩) hkeyword
  | number hu hs =>
    obtain ⟨node, hlt, hn, hpart⟩ := hnode (run_digits hu hs)
    have hnumber := hcheck hlt
    rw [hpart] at hnumber
    exact hnamed hn (of_decide_eq_true hnumber)
  | literal hw =>
    obtain ⟨node, hlt, hn, hpart⟩ := hnode (run_literal fun u hu => (hw u hu).2)
    have hstring := hcheck hlt
    rw [hpart] at hstring
    exact hnamed hn (of_decide_eq_true hstring)

end Written

/-! ### The scanner on a layout -/

namespace Gathered

variable {v : UInt16}

lemma reads_gap_of_ne_nil (h : Gap s) (hs : s ≠ [])
    (hfree : ∀ u, s.head? = some u → g.Free u) : g.reads s = g.rest := by
  induction h generalizing g with
  | nil => exact absurd rfl hs
  | @blank u s hu hlt _ ih =>
    rw [reads_cons, turn_of_blank (hfree u rfl) (step_of_isBlank hu hlt)]
    by_cases hnil : s = []
    · rw [hnil, reads_nil]
    · exact ih hnil fun u _ => free_rest g u
  | @comment body s hbody _ ih =>
    have hcomment : g.reads (47 :: 47 :: body ++ [10]) = g.rest := by
      have hrun : Part.start.run (47 :: 47 :: body ++ [10]) = some .commentEnd := by
        change Part.comment.run (body ++ [10]) = _
        rw [Part.run_append, Part.run_comment fun u hu => (hbody u hu).1]
        rfl
      exact reads_lexeme hrun (hfree 47 rfl)
    rw [List.append_cons, reads_append, hcomment]
    by_cases hnil : s = []
    · rw [hnil, reads_nil]
    · exact ih hnil fun u _ => free_rest g u

/-- Nothing is gathered of a gap. -/
lemma reads_gap (h : Gap s) (hfree : ∀ u, (s ++ [v]).head? = some u → g.Free u) :
    (g.reads s).Free v ∧ (g.reads s).all = g.all := by
  by_cases hs : s = []
  · subst hs
    exact ⟨hfree v rfl, rfl⟩
  · rw [reads_gap_of_ne_nil h hs fun u hu => hfree u ?_]
    · exact ⟨free_rest g v, rfl⟩
    · rw [List.head?_append, hu]
      rfl

/-- A layout is read token by token. -/
theorem reads_layout (h : Layout ts text) (hts : ∀ t ∈ ts, Written t)
    (hfree : ∀ u, (text ++ [93]).head? = some u → g.Free u) :
    g.reads (text ++ [93]) = ⟨.mark, g.all ++ ts.map Prod.snd, [93]⟩ := by
  induction h generalizing g with
  | @nil gap hgap =>
    have hgap : Gap gap := by
      clear hfree hts
      induction gap with
      | nil => exact .nil
      | cons u gap ih =>
        obtain ⟨hu, hgap⟩ := List.forall_mem_cons.mp hgap
        exact .blank hu.1 hu.2 (ih hgap)
    obtain ⟨hv, hall⟩ := reads_gap hgap hfree
    rw [reads_append, reads_lexeme (q := .mark) rfl hv, hall]
    simp [Part.isIdle]
  | @cons t ts gap rest hgap hends _ ih =>
    obtain ⟨ht, hts⟩ := List.forall_mem_cons.mp hts
    obtain ⟨q, hrun, hq⟩ := ht.exists_run
    obtain ⟨v, s, htext⟩ : ∃ v s, t.2 = v :: s := by
      cases h : t.2 with
      | nil =>
        rw [h] at hrun
        obtain rfl := Option.some.inj hrun
        cases hq
      | cons v s => exact ⟨v, s, rfl⟩
    obtain ⟨hv, hall⟩ := reads_gap (v := v) hgap fun u hu => hfree u (by
      rw [← hu, htext]
      cases gap <;> rfl)
    have hidle : q.isIdle = false := by cases q <;> first | rfl | cases hq
    have htoken : (g.reads gap).reads t.2 = ⟨q, g.all, t.2⟩ := by
      rw [htext] at hrun ⊢
      rw [reads_lexeme hrun hv, hidle, hall]
      rfl
    rw [List.append_assoc, List.append_assoc, reads_append, reads_append, htoken, ih hts]
    · simp [all, hq]
    · intro u hu
      refine .inr ⟨hq, ?_⟩
      cases rest with
      | nil =>
        obtain rfl := Option.some.inj hu
        cases q <;> first | rfl | cases hq
      | cons w rest =>
        have hnone := hends u hu
        rw [Part.run_append, hrun] at hnone
        simpa using hnone

end Gathered

/-! ### Trimmed layouts -/

namespace Written

lemma isBlank_of_isWordPart (h : isWordPart u = true) : Units.isBlank u = false := by
  simp [isWordPart, isDigit, Units.isBlank, ← UInt16.toNat_inj, UInt16.le_iff_toNat_le] at h ⊢
  omega

lemma isBlank_of_isWordStart (h : isWordStart u = true) : Units.isBlank u = false := by
  simp [isWordStart, Units.isBlank, ← UInt16.toNat_inj, UInt16.le_iff_toNat_le] at h ⊢
  omega

lemma exists_ends_of_forall (hne : s ≠ []) (h : ∀ u ∈ s, Units.isBlank u = false) :
    (∃ u t, s = u :: t ∧ Units.isBlank u = false) ∧
      ∃ t u, s = t ++ [u] ∧ Units.isBlank u = false := by
  constructor
  · obtain ⟨u, t, rfl⟩ := List.exists_cons_of_ne_nil hne
    exact ⟨u, t, rfl, h u List.mem_cons_self⟩
  · refine ⟨s.dropLast, s.getLast hne, (List.dropLast_append_getLast hne).symm, ?_⟩
    exact h _ (List.getLast_mem hne)

/-- A token begins and ends with other units than white space. -/
lemma exists_ends (h : Written t) : (∃ u s, t.2 = u :: s ∧ Units.isBlank u = false) ∧
    ∃ s u, t.2 = s ++ [u] ∧ Units.isBlank u = false := by
  cases h with
  | mark h =>
    have hcheck : ∀ s ∈ marks, units s ≠ [] ∧
        ((units s).all fun u => decide (Units.isBlank u = false)) = true := by decide
    exact exists_ends_of_forall (hcheck _ h).1 (forall_mem_of_all (hcheck _ h).2)
  | name hu hs _ =>
    refine exists_ends_of_forall (List.cons_ne_nil _ _) (List.forall_mem_cons.mpr ?_)
    exact ⟨isBlank_of_isWordStart hu, fun v hv => isBlank_of_isWordPart (hs v hv)⟩
  | number hu hs =>
    have hdigit : ∀ v, isDigit v = true → Units.isBlank v = false := fun v hv =>
      isBlank_of_isWordPart (by rw [isWordPart, hv]; rfl)
    refine exists_ends_of_forall (List.cons_ne_nil _ _) (List.forall_mem_cons.mpr ?_)
    exact ⟨hdigit _ hu, fun v hv => hdigit v (hs v hv)⟩
  | @literal w _ =>
    exact ⟨⟨34, _, rfl, by decide⟩, 34 :: w.replaceAll [34] [92, 34], 34, rfl, by decide⟩

end Written

lemma Gap.trimLeft (h : Gap s) : Gap s.trimLeft := by
  induction h with
  | nil => exact .nil
  | blank hu _ _ ih =>
    rw [Units.trimLeft, List.dropWhile_cons_of_pos hu]
    exact ih
  | comment hbody hs _ =>
    rw [List.cons_append, Units.trimLeft_cons (by decide)]
    exact .comment hbody hs

namespace Layout

lemma trimLeft (h : Layout ts text) (hts : ∀ t ∈ ts, Written t) :
    Layout ts (Units.trimLeft text) := by
  cases h with
  | nil hgap => exact .nil fun u hu => hgap u ((List.dropWhile_suffix _).subset hu)
  | @cons t ts gap rest hgap hends h =>
    obtain ⟨⟨u, s, ht, hu⟩, -⟩ := (hts t List.mem_cons_self).exists_ends
    have htrim : Units.trimLeft (gap ++ (t.2 ++ rest)) = Units.trimLeft gap ++ (t.2 ++ rest) := by
      rw [ht, List.cons_append, Units.trimLeft_append_cons hu]
    rw [htrim]
    exact .cons hgap.trimLeft hends h

lemma trimRight (h : Layout ts text) (hts : ∀ t ∈ ts, Written t) :
    Layout ts (Units.trimRight text) := by
  induction h with
  | nil hgap => exact .nil fun u hu => hgap u ((List.rdropWhile_prefix _ _).subset hu)
  | @cons t ts gap rest hgap hends h ih =>
    obtain ⟨ht, hts⟩ := List.forall_mem_cons.mp hts
    obtain ⟨-, s, u, ht, hu⟩ := ht.exists_ends
    have htrim : Units.trimRight (gap ++ (t.2 ++ rest)) = gap ++ (t.2 ++ Units.trimRight rest) := by
      have hassoc : gap ++ (s ++ [u] ++ rest) = gap ++ s ++ u :: rest := by simp
      rw [ht, hassoc, Units.trimRight_append_cons hu]
      simp
    rw [htrim]
    refine .cons hgap (fun v hv => hends v ?_) (ih hts)
    obtain ⟨s', hs'⟩ := List.rdropWhile_prefix Units.isBlank rest
    have hrest : rest = Units.trimRight rest ++ s' := hs'.symm
    rw [hrest, List.head?_append, hv]
    rfl

/-- A layout that is trimmed is one of the same tokens. -/
theorem trim (h : Layout ts text) (hts : ∀ t ∈ ts, Written t) : Layout ts (Units.trim text) :=
  (h.trimLeft hts).trimRight hts

lemma lt (h : Layout ts text) (hts : ∀ t ∈ ts, Written t) : ∀ u ∈ text, u.toNat < 256 := by
  have hgap {gap : Units} (hgap : Gap gap) : ∀ u ∈ gap, u.toNat < 256 := by
    induction hgap with
    | nil => simp
    | blank _ hlt _ ih => exact List.forall_mem_cons.mpr ⟨hlt, ih⟩
    | comment hbody _ ih =>
      refine List.forall_mem_append.mpr ⟨?_, List.forall_mem_cons.mpr ⟨by decide, ih⟩⟩
      exact List.forall_mem_cons.mpr ⟨by decide, List.forall_mem_cons.mpr
        ⟨by decide, fun u hu => (hbody u hu).2⟩⟩
  induction h with
  | nil hgap => exact fun u hu => (hgap u hu).2
  | cons hg _ _ ih =>
    obtain ⟨ht, hts⟩ := List.forall_mem_cons.mp hts
    exact List.forall_mem_append.mpr ⟨hgap hg, List.forall_mem_append.mpr ⟨ht.lt, ih hts⟩⟩

end Layout

end Violet
