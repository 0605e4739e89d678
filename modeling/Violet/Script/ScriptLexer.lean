import Violet.Script.Lexer

/-!
# The scanner of scripts

The tables of `ScriptLexer`. A row is given by its ranges: the first range that a unit lies in names
the next node, and a unit in none of them has no next node.
-/

namespace Violet

open Dart

structure TransitionRange where
  first : Char
  last : Char
  node : ℕ
  deriving DecidableEq, Repr

namespace ScriptLexer

/-- The entry of a row at a unit. -/
def entry (row : List TransitionRange) (u : ℕ) : Option ℕ :=
  (row.find? fun r => r.first.toNat ≤ u && u ≤ r.last.toNat).map TransitionRange.node

/-- The row of a name: letters, digits and `_` make it longer, and the given letters may lead to a
keyword. -/
def wordRow (keyword : List TransitionRange) : List TransitionRange :=
  keyword ++ [⟨'0', '9', 16⟩, ⟨'A', 'Z', 16⟩, ⟨'_', '_', 16⟩, ⟨'a', 'z', 16⟩]

def rows : List (List TransitionRange) :=
  [[⟨'\n', '\n', 1⟩, ⟨'\r', '\r', 1⟩, ⟨' ', ' ', 1⟩, ⟨'"', '"', 18⟩, ⟨'$', '$', 16⟩,
   ⟨'(', '(', 9⟩, ⟨')', ')', 10⟩, ⟨',', ',', 8⟩, ⟨'/', '/', 2⟩, ⟨'0', '9', 17⟩, ⟨':', ':', 7⟩,
   ⟨'=', '=', 3⟩, ⟨'A', 'Z', 16⟩, ⟨'[', '[', 4⟩, ⟨']', ']', 5⟩, ⟨'_', '_', 16⟩, ⟨'e', 'e', 15⟩,
   ⟨'f', 'f', 12⟩, ⟨'i', 'i', 13⟩, ⟨'l', 'l', 11⟩, ⟨'t', 't', 14⟩, ⟨'v', 'v', 6⟩, ⟨'a', 'z', 16⟩],
   [], [⟨'/', '/', 19⟩], [], [], [], wordRow [⟨'a', 'a', 20⟩], [], [], [], [],
   wordRow [⟨'o', 'o', 21⟩], wordRow [⟨'o', 'o', 22⟩, ⟨'u', 'u', 23⟩], wordRow [⟨'f', 'f', 24⟩],
   wordRow [⟨'o', 'o', 25⟩], wordRow [⟨'l', 'l', 26⟩], wordRow [], [⟨'0', '9', 17⟩],
   [⟨'\x00', '!', 18⟩, ⟨'"', '"', 28⟩, ⟨'#', '[', 18⟩, ⟨'\\', '\\', 27⟩, ⟨']', '\xff', 18⟩],
   [⟨'\x00', '\x09', 19⟩, ⟨'\n', '\n', 29⟩, ⟨'\x0b', '\xff', 19⟩], wordRow [⟨'r', 'r', 30⟩],
   wordRow [⟨'o', 'o', 31⟩], wordRow [⟨'r', 'r', 32⟩], wordRow [⟨'n', 'n', 33⟩], wordRow [],
   wordRow [], wordRow [⟨'s', 's', 34⟩], [⟨'"', '"', 18⟩], [], [], wordRow [],
   wordRow [⟨'p', 'p', 35⟩], wordRow [⟨'e', 'e', 36⟩], wordRow [⟨'c', 'c', 37⟩],
   wordRow [⟨'e', 'e', 38⟩], wordRow [], wordRow [⟨'a', 'a', 39⟩], wordRow [⟨'t', 't', 40⟩],
   wordRow [], wordRow [⟨'c', 'c', 41⟩], wordRow [⟨'i', 'i', 42⟩], wordRow [⟨'h', 'h', 43⟩],
   wordRow [⟨'o', 'o', 44⟩], wordRow [], wordRow [⟨'n', 'n', 45⟩], wordRow []]

def transitionTable : List (List (Option ℕ)) := rows.map fun row => (List.range 256).map (entry row)

def acceptTable : List (Option Str) :=
  [none, some [], none, some "=".toList, some "[".toList, some "]".toList, some "name".toList,
   some ":".toList, some ",".toList, some "(".toList, some ")".toList, some "name".toList,
   some "name".toList, some "name".toList, some "name".toList, some "name".toList,
   some "name".toList, some "number".toList, none, none, some "name".toList, some "name".toList,
   some "name".toList, some "name".toList, some "if".toList, some "to".toList,
   some "name".toList, none, some "string".toList, some [], some "var".toList,
   some "name".toList, some "name".toList, some "name".toList, some "name".toList,
   some "loop".toList, some "name".toList, some "name".toList, some "else".toList,
   some "name".toList, some "name".toList, some "name".toList, some "name".toList,
   some "foreach".toList, some "name".toList, some "function".toList]

end ScriptLexer

/-- The tables of the scanner of scripts. -/
def scriptLexer : LexerTables := ⟨ScriptLexer.transitionTable, ScriptLexer.acceptTable⟩

namespace ScriptLexer

lemma mem_row_iff {row : List TransitionRange} {o : Option ℕ} :
    o ∈ (List.range 256).map (entry row) ↔ ∃ u < 256, entry row u = o := by
  simp only [List.mem_map, List.mem_range]

lemma exists_range_of_entry {row : List TransitionRange} {u n : ℕ} (h : entry row u = some n) :
    ∃ r ∈ row, r.node = n := by
  obtain ⟨r, hr, hn⟩ := Option.map_eq_some_iff.mp h
  exact ⟨r, List.mem_of_find?_eq_some hr, hn⟩

theorem complete : scriptLexer.Complete where
  start := rfl
  accept_length := rfl
  row_length row hrow := by
    obtain ⟨ranges, -, rfl⟩ := List.mem_map.mp hrow
    simp
  next row hrow n hn := by
    have hnodes : ∀ ranges ∈ rows, ∀ r ∈ ranges, r.node ≠ 0 ∧ r.node < rows.length := by
      decide +kernel
    obtain ⟨ranges, hranges, rfl⟩ := List.mem_map.mp hrow
    obtain ⟨u, -, hu⟩ := mem_row_iff.mp hn
    obtain ⟨r, hr, rfl⟩ := exists_range_of_entry hu
    simpa [scriptLexer, transitionTable] using hnodes ranges hranges r hr

end ScriptLexer

/-! ### The text of a script -/

namespace ScriptCache

/-- The lines that begin with `#` are left out. -/
def preprocess (script : Units) : Units :=
  Units.join (units "\n") ((script.split (units "\n")).filter fun line =>
    !(line.trim.startsWith (units "#")))

/-- The text that the scanner is given. -/
def source (script : Units) : Units := units "[" ++ preprocess script.trim ++ units "]"

/-- The scanner is safe on a script exactly when the columns of its table have a place for every
unit of the text. -/
theorem safe_iff_columns (script : Units) :
    (Lexer.allocateTarget (source script)).Safe scriptLexer ↔
      ∀ u ∈ source script, u.toNat < 256 :=
  Lexer.safe_iff ScriptLexer.complete

/-- A string literal with a Hangul syllable. -/
theorem not_safe_of_hangul :
    ¬ (Lexer.allocateTarget (source (units "print(\"가\")"))).Safe scriptLexer := by
  intro h
  have hmem : (0xAC00 : UInt16) ∈ source (units "print(\"가\")") := by decide +kernel
  exact absurd (Lexer.safe_iff ScriptLexer.complete |>.mp h _ hmem) (by decide)

end ScriptCache

end Violet
