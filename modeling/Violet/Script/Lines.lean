import Violet.Dart.Lines
import Violet.Script.Places

/-!
# The lines of a script

A line that begins with `#`, after white space, is a directive: it is left out before the scanner
reads the script.
-/

namespace Violet

open Dart

namespace ScriptCache

variable {u : UInt16} {s t w line : Units}

def isDirective (line : Units) : Bool := line.trim.startsWith (units "#")

/-- The lines that the scanner is given. -/
def keptLines (text : Units) : List Units :=
  (text.split (units "\n")).filter fun line => !isDirective line

lemma units_newline : units "\n" = [10] := by decide

lemma preprocess_eq (script : Units) : preprocess script = Units.join [10] (keptLines script) := by
  rw [preprocess, units_newline]
  rfl

/-! ### Directives -/

lemma isDirective_iff : isDirective line = true ↔ line.trimLeft.head? = some 35 := by
  rw [isDirective, Units.trim, Units.startsWith, List.isPrefixOf_iff_prefix,
    show units "#" = [35] by decide]
  cases hs : line.trimLeft with
  | nil => simp [Units.trimRight]
  | cons u t =>
    rw [← List.nil_append (u :: t), Units.trimRight_append_cons (Units.isBlank_of_trimLeft hs)]
    simp [eq_comm]

/-- Behind a unit that is no white space the line is what it is. -/
lemma isDirective_append_cons (hu : Units.isBlank u = false) (h35 : u ≠ 35) (s t : Units) :
    isDirective (s ++ u :: t) = isDirective s := by
  rw [Bool.eq_iff_iff, isDirective_iff, isDirective_iff, Units.trimLeft_append_cons hu]
  cases s.trimLeft <;> simp [h35]

lemma isDirective_of_blank (hw : ∀ u ∈ w, Units.isBlank u = true) (s : Units) :
    isDirective (w ++ s) = isDirective s := by
  rw [Bool.eq_iff_iff, isDirective_iff, isDirective_iff, Units.trimLeft_of_blank hw]

lemma isDirective_cons_of_blank (hu : Units.isBlank u = true) (s : Units) :
    isDirective (u :: s) = isDirective s :=
  isDirective_of_blank (w := [u]) (by simpa using hu) s

lemma isDirective_cons (u : UInt16) (s : Units) :
    isDirective (u :: s) = (u = 35 || (Units.isBlank u && isDirective s)) := by
  by_cases hu : Units.isBlank u = true
  · have h35 : u ≠ 35 := by
      rintro rfl
      exact absurd hu (by decide)
    simp [hu, h35, isDirective_cons_of_blank hu]
  · have hblank : Units.isBlank u = false := by simpa using hu
    rw [Bool.eq_iff_iff, isDirective_iff, Units.trimLeft_cons hblank]
    simp [hblank]

lemma isDirective_trimRight (s : Units) : isDirective s.trimRight = isDirective s := by
  rw [isDirective, isDirective, Units.trim_eq, Units.trim_eq, Units.trimRight, Units.trimRight,
    List.rdropWhile_idempotent]

/-! ### The lines that are kept -/

lemma keptLines_of_line (h : 10 ∉ line) :
    keptLines line = if isDirective line then [] else [line] := by
  rw [keptLines, units_newline, Units.split_singleton, List.splitOn_eq_singleton h]
  cases hline : isDirective line <;> simp [hline]

lemma keptLines_newline (s t : Units) : keptLines (s ++ 10 :: t) = keptLines s ++ keptLines t := by
  simp only [keptLines, units_newline, Units.split_singleton, List.splitOn_append_cons_self,
    List.filter_append]

/-- The lines in front of the last one. -/
lemma exists_keptLines (s : Units) :
    ∃ lines, ∀ line : Units, 10 ∉ line → keptLines (lineStart s ++ line) =
      lines ++ if isDirective line then [] else [line] := by
  by_cases hs : lineStart s = []
  · exact ⟨[], fun line hline => by rw [hs, List.nil_append, List.nil_append,
      keptLines_of_line hline]⟩
  · have hlast : (lineStart s).getLast hs = 10 := by
      by_contra hne
      exact List.rdropWhile_last_not (fun u => decide (u ≠ 10)) s hs (decide_eq_true hne)
    refine ⟨keptLines (lineStart s).dropLast, fun line hline => ?_⟩
    calc keptLines (lineStart s ++ line)
        = keptLines ((lineStart s).dropLast ++ 10 :: line) := by
          conv_lhs => rw [← List.dropLast_append_getLast hs, hlast, List.append_assoc]
          rfl
      _ = _ := by rw [keptLines_newline, keptLines_of_line hline]

lemma notMem_lastLine (s : Units) : 10 ∉ lastLine s := by
  intro h
  simpa using List.mem_rtakeWhile_imp h

lemma lineStart_append_lastLine (s : Units) : lineStart s ++ lastLine s = s :=
  List.rdropWhile_append_rtakeWhile

/-- White space in front of a text belongs to its first line. -/
lemma exists_lastLine_append (hw : ∀ u ∈ w, Units.isBlank u = true) (s : Units) :
    ∃ w', (∀ u ∈ w', Units.isBlank u = true) ∧ lastLine (w ++ s) = w' ++ lastLine s := by
  induction s using List.reverseRecOn with
  | nil =>
    refine ⟨lastLine w, fun u hu => hw u ?_, by simp [lastLine, List.rtakeWhile]⟩
    exact (List.rtakeWhile_suffix _ _).subset hu
  | append_singleton s u ih =>
    obtain ⟨w', hw', ih⟩ := ih
    rw [← List.append_assoc, lastLine_concat, lastLine_concat]
    split_ifs
    · exact ⟨[], by simp, rfl⟩
    · exact ⟨w', hw', by rw [ih, List.append_assoc]⟩

/-- The last line of a script that has been trimmed on the left. -/
lemma isDirective_lastLine_trimLeft (s : Units) :
    isDirective (lastLine s.trimLeft) = isDirective (lastLine s) := by
  have hblank : ∀ u ∈ s.takeWhile Units.isBlank, Units.isBlank u = true :=
    fun _ => List.mem_takeWhile_imp
  obtain ⟨w, hw, hline⟩ := exists_lastLine_append hblank s.trimLeft
  rw [Units.takeWhile_append_trimLeft] at hline
  rw [hline, isDirective_of_blank hw]

lemma join_cons (line : Units) {lines : List Units} (h : lines ≠ []) :
    Units.join [10] (line :: lines) = line ++ 10 :: Units.join [10] lines := by
  rw [Units.join, List.intercalate_cons_of_ne_nil h, List.append_assoc]
  rfl

/-- White space in front of a text is kept. -/
lemma exists_join_keptLines (hw : ∀ u ∈ w, Units.isBlank u = true) (s : Units) :
    ∃ w', (∀ u ∈ w', Units.isBlank u = true) ∧ Units.join [10] (keptLines (w ++ s)) =
      w' ++ Units.join [10] (keptLines s) := by
  induction w with
  | nil => exact ⟨[], by simp, rfl⟩
  | cons u w ih =>
    obtain ⟨hu, hw⟩ := List.forall_mem_cons.mp hw
    obtain ⟨w', hw', hjoin⟩ := ih hw
    rw [List.cons_append]
    by_cases h10 : u = 10
    · subst h10
      have hlines : keptLines (10 :: (w ++ s)) = [] :: keptLines (w ++ s) :=
        keptLines_newline [] (w ++ s)
      rw [hlines]
      by_cases hnil : keptLines (w ++ s) = []
      · rw [hnil] at hjoin ⊢
        exact ⟨w', hw', hjoin⟩
      · refine ⟨10 :: w', List.forall_mem_cons.mpr ⟨by decide, hw'⟩, ?_⟩
        rw [join_cons _ hnil, hjoin]
        rfl
    · obtain ⟨first, rest, hs, hcons⟩ := exists_splitOn_cons h10 (w ++ s)
      have hdirective := isDirective_cons_of_blank hu first
      rw [keptLines, units_newline, Units.split_singleton] at hjoin ⊢
      rw [hs] at hjoin
      rw [hcons]
      cases hfirst : isDirective first with
      | true =>
        refine ⟨w', hw', ?_⟩
        rw [← hjoin]
        simp [hdirective, hfirst]
      | false =>
        refine ⟨u :: w', List.forall_mem_cons.mpr ⟨hu, hw'⟩, ?_⟩
        rw [List.cons_append, ← hjoin]
        simp only [List.filter_cons, hdirective, hfirst, Bool.not_false, if_true]
        cases rest.filter fun line => !isDirective line with
        | nil => rfl
        | cons l ls =>
          rw [join_cons _ (List.cons_ne_nil l ls), join_cons _ (List.cons_ne_nil l ls)]
          rfl

end ScriptCache

end Violet
