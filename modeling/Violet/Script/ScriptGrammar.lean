import Mathlib.Data.List.GetD
import Mathlib.Tactic.IntervalCases
import Violet.Grammar.Viable
import Violet.Script.ScriptParser

/-!
# The grammar of scripts

The productions that the actions of the parser name, and the tables that certify what the automaton
of `ScriptParser` does with them. The word `function` is the name of a nonterminal symbol; the
parser shifts it like a token, so the grammar admits it as one. A production is never complete in
front of this word, and an `if` without an `else` is not complete in front of `else`.
-/

namespace Violet

open Dart Parsing

namespace ScriptGrammar

/-- The productions, in the order of their actions. -/
def productions : List (ℕ × List ℕ) :=
  [(1, [4]), (2, [3]), (3, [10]), (3, [7, 12, 7]), (3, [11]), (4, [13, 5, 14]), (4, [2]),
   (5, [2, 5]), (5, []), (6, [15]), (6, [16]), (7, [8]), (7, [7, 13, 8, 14]), (8, [17]),
   (8, [10]), (8, [6]), (9, [7]), (9, [7, 18, 9]), (10, [17, 19, 20]), (10, [17, 19, 9, 20]),
   (11, [21, 19, 17, 12, 7, 22, 7, 20, 4]), (11, [23, 19, 17, 24, 7, 20, 4]),
   (11, [25, 19, 7, 20, 4]), (11, [25, 19, 7, 20, 4, 26, 4])]

/-- The symbols of the grammar that no production rewrites. -/
def isTerminal (X : ℕ) : Bool := 12 ≤ X && X ≤ 26

/-- The symbols of the lexemes that the parser shifts. -/
def isToken (X : ℕ) : Bool := isTerminal X || X = 10

/-- The end of an `if` without an `else`, and its production. -/
def allowed (k a : ℕ) : Bool := a ≠ 10 && !(k = 22 && a = 26)

/-- The node of a token. -/
def leaf (contents : Units) : ParseTreeNode := .node contents none none []

/-- The node of a production. -/
def reduced (k : ℕ) (childs : List ParseTreeNode) (content : INode) : ParseTreeNode :=
  .node (childs.flatMap ParseTreeNode.contents) (some content) (some k) childs

def semantics (k : ℕ) (childs : List ParseTreeNode) : Option ParseTreeNode :=
  (PActionDescription.actions[k]?.bind fun action => action childs).map (reduced k childs)

end ScriptGrammar

def scriptGrammar : Grammar ParseTreeNode where
  lhs k := (ScriptGrammar.productions.getD k (0, [])).1
  rhs k := (ScriptGrammar.productions.getD k (0, [])).2
  size := 24
  token := ScriptGrammar.isToken
  allowed := ScriptGrammar.allowed
  semantics := ScriptGrammar.semantics

namespace ScriptParser

/-- What a code of the table stands for. -/
def actionOf (code : ℤ) : Action :=
  if code = 0 then .error
  else if code = 54 then .accept
  else if 0 < code then .shift
  else .reduce ((-code).toNat - 1)

def code (q X : ℕ) : ℤ := entry (rows.getD q []) X

end ScriptParser

/-- The automaton of the parser's table. -/
def scriptAutomaton : Automaton where
  action q X := ScriptParser.actionOf (ScriptParser.code q X)
  next q X :=
    let code := ScriptParser.code q X
    if 0 < code ∧ code ≠ 54 then code.toNat else 0

namespace ScriptGrammar

/-! ### The certificates -/

def pastTable : List (List ℕ) :=
  [[], [1], [4], [13], [2], [3], [10], [7], [11], [17], [8], [21], [23], [25], [6], [15], [16],
   [5, 13], [2], [12, 7], [13, 7], [19, 17], [19, 21], [19, 23], [19, 25], [14, 5, 13], [5, 2],
   [7, 12, 7], [10], [8, 13, 7], [20, 19, 17], [9, 19, 17], [7], [17, 19, 21], [17, 19, 23],
   [7, 19, 25], [14, 8, 13, 7], [20, 9, 19, 17], [18, 7], [12, 17, 19, 21], [24, 17, 19, 23],
   [20, 7, 19, 25], [9, 18, 7], [7, 12, 17, 19, 21], [7, 24, 17, 19, 23], [4, 20, 7, 19, 25],
   [22, 7, 12, 17, 19, 21], [20, 7, 24, 17, 19, 23], [26, 4, 20, 7, 19, 25],
   [7, 22, 7, 12, 17, 19, 21], [4, 20, 7, 24, 17, 19, 23], [4, 26, 4, 20, 7, 19, 25],
   [20, 7, 22, 7, 12, 17, 19, 21], [4, 20, 7, 22, 7, 12, 17, 19, 21]]

def firstTable : List (List ℕ) :=
  [[10, 13, 15, 16, 17, 21, 23, 25], [10, 13, 15, 16, 17, 21, 23, 25],
   [10, 15, 16, 17, 21, 23, 25], [10, 15, 16, 17, 21, 23, 25], [10, 13, 15, 16, 17, 21, 23, 25],
   [10, 15, 16, 17, 21, 23, 25], [15, 16], [10, 15, 16, 17], [10, 15, 16, 17], [10, 15, 16, 17],
   [10, 17], [21, 23, 25], [12], [13], [14], [15], [16], [17], [18], [19], [20], [21], [22], [23],
   [24], [25], [26], [27]]

/-- Sets of symbols that may follow a symbol. -/
def followSets : List (List ℕ) :=
  [[27], [12, 13], [12, 13, 27], [10, 14, 15, 16, 17, 21, 23, 25], [12, 13, 19], [19],
   [14, 15, 16, 17, 21, 23, 25], [14], [12, 13, 14, 15, 16, 17, 21, 23, 25], [10, 15, 16, 17],
   [10, 15, 16, 17, 20], [17], [14, 15, 16, 17, 21, 23, 25, 26, 27],
   [13, 14, 15, 16, 17, 21, 23, 25, 26, 27], [13, 14, 15, 16, 17, 19, 21, 23, 25, 26, 27],
   [14, 19], [13, 18, 20], [20], [13, 18, 19, 20],
   [12, 13, 14, 15, 16, 17, 18, 20, 21, 22, 23, 25, 26, 27], [12], [24], [13, 20], [13, 19, 20],
   [10, 13, 15, 16, 17, 21, 23, 25], [13, 22], [13, 19, 22],
   [12, 13, 14, 15, 16, 17, 21, 23, 25, 26, 27]]

/-- The symbols that may be read at each state, with the number of the set of what may follow. -/
def followTable : List (List (ℕ × ℕ)) :=
  [
   [(1, 0), (2, 0), (3, 0), (4, 0), (6, 1), (7, 1), (8, 1), (10, 2), (11, 0), (13, 3), (15, 1),
    (16, 1), (17, 4), (21, 5), (23, 5), (25, 5)],
   [], [],
   [(2, 3), (3, 6), (5, 7), (6, 1), (7, 1), (8, 1), (10, 8), (11, 6), (15, 1), (16, 1),
    (17, 4), (21, 5), (23, 5), (25, 5)],
   [], [], [], [(12, 9), (13, 9)], [], [(19, 10)], [], [(19, 11)], [(19, 11)], [(19, 9)], [], [],
   [], [(14, 12)],
   [(2, 3), (3, 6), (5, 7), (6, 1), (7, 1), (8, 1), (10, 8), (11, 6), (15, 1), (16, 1),
    (17, 4), (21, 5), (23, 5), (25, 5)],
   [(6, 13), (7, 13), (8, 13), (10, 13), (15, 13), (16, 13), (17, 14)],
   [(6, 7), (8, 7), (10, 7), (15, 7), (16, 7), (17, 15)],
   [(6, 16), (7, 16), (8, 16), (9, 17), (10, 16), (15, 16), (16, 16), (17, 18), (20, 19)],
   [(17, 20)], [(17, 21)], [(6, 22), (7, 22), (8, 22), (10, 22), (15, 22), (16, 22), (17, 23)],
   [], [], [(13, 9)], [], [(14, 19)], [], [(20, 19)], [(13, 9), (18, 9)], [(12, 9)], [(24, 9)],
   [(13, 9), (20, 24)], [], [],
   [(6, 16), (7, 16), (8, 16), (9, 17), (10, 16), (15, 16), (16, 16), (17, 18)],
   [(6, 25), (7, 25), (8, 25), (10, 25), (15, 25), (16, 25), (17, 26)],
   [(6, 22), (7, 22), (8, 22), (10, 22), (15, 22), (16, 22), (17, 23)],
   [(2, 12), (3, 12), (4, 12), (6, 1), (7, 1), (8, 1), (10, 27), (11, 12), (13, 3), (15, 1),
    (16, 1), (17, 4), (21, 5), (23, 5), (25, 5)],
   [], [(13, 9), (22, 9)], [(13, 9), (20, 24)], [(26, 24)],
   [(6, 22), (7, 22), (8, 22), (10, 22), (15, 22), (16, 22), (17, 23)],
   [(2, 12), (3, 12), (4, 12), (6, 1), (7, 1), (8, 1), (10, 27), (11, 12), (13, 3), (15, 1),
    (16, 1), (17, 4), (21, 5), (23, 5), (25, 5)],
   [(2, 12), (3, 12), (4, 12), (6, 1), (7, 1), (8, 1), (10, 27), (11, 12), (13, 3), (15, 1),
    (16, 1), (17, 4), (21, 5), (23, 5), (25, 5)],
   [(13, 9), (20, 24)], [], [],
   [(2, 12), (3, 12), (4, 12), (6, 1), (7, 1), (8, 1), (10, 27), (11, 12), (13, 3), (15, 1),
    (16, 1), (17, 4), (21, 5), (23, 5), (25, 5)],
   []]

def weights : List ℕ :=
  [0, 3, 9, 12, 6, 1, 27, 21, 24, 18, 30, 15, 1, 9, 1, 36, 33, 39, 1, 1, 1, 1, 1, 1, 1, 1, 1, 1]

/-- The symbols that have a next state at each state, with the production that needs the symbol
there, its place, and its order. -/
def needTable : List (List (ℕ × Option (ℕ × ℕ) × ℕ)) :=
  [
   [(1, none, 0), (2, some (6, 0), 2), (3, some (1, 0), 3), (4, some (0, 0), 1),
    (6, some (15, 0), 6), (7, some (3, 0), 4), (8, some (11, 0), 5), (10, some (2, 0), 4),
    (11, some (4, 0), 4), (13, some (5, 0), 2), (15, some (9, 0), 7), (16, some (10, 0), 7),
    (17, some (18, 0), 5), (21, some (20, 0), 5), (23, some (21, 0), 5), (25, some (22, 0), 5)],
   [], [],
   [(2, some (7, 0), 1), (3, some (1, 0), 2), (5, some (5, 1), 0), (6, some (15, 0), 5),
    (7, some (3, 0), 3), (8, some (11, 0), 4), (10, some (2, 0), 3), (11, some (4, 0), 3),
    (15, some (9, 0), 6), (16, some (10, 0), 6), (17, some (18, 0), 4), (21, some (20, 0), 4),
    (23, some (21, 0), 4), (25, some (22, 0), 4)],
   [], [], [], [(12, some (3, 1), 0), (13, some (12, 1), 0)], [], [(19, some (18, 1), 0)], [],
   [(19, some (20, 1), 0)], [(19, some (21, 1), 0)], [(19, some (22, 1), 0)], [], [], [],
   [(14, some (5, 2), 0)],
   [(2, some (7, 0), 1), (3, some (1, 0), 2), (5, some (7, 1), 0), (6, some (15, 0), 5),
    (7, some (3, 0), 3), (8, some (11, 0), 4), (10, some (2, 0), 3), (11, some (4, 0), 3),
    (15, some (9, 0), 6), (16, some (10, 0), 6), (17, some (18, 0), 4), (21, some (20, 0), 4),
    (23, some (21, 0), 4), (25, some (22, 0), 4)],
   [(6, some (15, 0), 2), (7, some (3, 2), 0), (8, some (11, 0), 1), (10, some (14, 0), 2),
    (15, some (9, 0), 3), (16, some (10, 0), 3), (17, some (13, 0), 2)],
   [(6, some (15, 0), 1), (8, some (12, 2), 0), (10, some (14, 0), 1), (15, some (9, 0), 2),
    (16, some (10, 0), 2), (17, some (13, 0), 1)],
   [(6, some (15, 0), 3), (7, some (16, 0), 1), (8, some (11, 0), 2), (9, some (19, 2), 0),
    (10, some (14, 0), 3), (15, some (9, 0), 4), (16, some (10, 0), 4), (17, some (13, 0), 3),
    (20, some (18, 2), 0)],
   [(17, some (20, 2), 0)], [(17, some (21, 2), 0)],
   [(6, some (15, 0), 2), (7, some (22, 2), 0), (8, some (11, 0), 1), (10, some (14, 0), 2),
    (15, some (9, 0), 3), (16, some (10, 0), 3), (17, some (13, 0), 2)],
   [], [], [(13, some (12, 1), 0)], [], [(14, some (12, 3), 0)], [], [(20, some (19, 3), 0)],
   [(13, some (12, 1), 0), (18, some (17, 1), 0)], [(12, some (20, 3), 0)],
   [(24, some (21, 3), 0)], [(13, some (12, 1), 0), (20, some (22, 3), 0)], [], [],
   [(6, some (15, 0), 3), (7, some (16, 0), 1), (8, some (11, 0), 2), (9, some (17, 2), 0),
    (10, some (14, 0), 3), (15, some (9, 0), 4), (16, some (10, 0), 4), (17, some (13, 0), 3)],
   [(6, some (15, 0), 2), (7, some (20, 4), 0), (8, some (11, 0), 1), (10, some (14, 0), 2),
    (15, some (9, 0), 3), (16, some (10, 0), 3), (17, some (13, 0), 2)],
   [(6, some (15, 0), 2), (7, some (21, 4), 0), (8, some (11, 0), 1), (10, some (14, 0), 2),
    (15, some (9, 0), 3), (16, some (10, 0), 3), (17, some (13, 0), 2)],
   [(2, some (6, 0), 1), (3, some (1, 0), 2), (4, some (22, 4), 0), (6, some (15, 0), 5),
    (7, some (3, 0), 3), (8, some (11, 0), 4), (10, some (2, 0), 3), (11, some (4, 0), 3),
    (13, some (5, 0), 1), (15, some (9, 0), 6), (16, some (10, 0), 6), (17, some (18, 0), 4),
    (21, some (20, 0), 4), (23, some (21, 0), 4), (25, some (22, 0), 4)],
   [], [(13, some (12, 1), 0), (22, some (20, 5), 0)],
   [(13, some (12, 1), 0), (20, some (21, 5), 0)], [(26, some (23, 5), 0)],
   [(6, some (15, 0), 2), (7, some (20, 6), 0), (8, some (11, 0), 1), (10, some (14, 0), 2),
    (15, some (9, 0), 3), (16, some (10, 0), 3), (17, some (13, 0), 2)],
   [(2, some (6, 0), 1), (3, some (1, 0), 2), (4, some (21, 6), 0), (6, some (15, 0), 5),
    (7, some (3, 0), 3), (8, some (11, 0), 4), (10, some (2, 0), 3), (11, some (4, 0), 3),
    (13, some (5, 0), 1), (15, some (9, 0), 6), (16, some (10, 0), 6), (17, some (18, 0), 4),
    (21, some (20, 0), 4), (23, some (21, 0), 4), (25, some (22, 0), 4)],
   [(2, some (6, 0), 1), (3, some (1, 0), 2), (4, some (23, 6), 0), (6, some (15, 0), 5),
    (7, some (3, 0), 3), (8, some (11, 0), 4), (10, some (2, 0), 3), (11, some (4, 0), 3),
    (13, some (5, 0), 1), (15, some (9, 0), 6), (16, some (10, 0), 6), (17, some (18, 0), 4),
    (21, some (20, 0), 4), (23, some (21, 0), 4), (25, some (22, 0), 4)],
   [(13, some (12, 1), 0), (20, some (20, 7), 0)], [], [],
   [(2, some (6, 0), 1), (3, some (1, 0), 2), (4, some (20, 8), 0), (6, some (15, 0), 5),
    (7, some (3, 0), 3), (8, some (11, 0), 4), (10, some (2, 0), 3), (11, some (4, 0), 3),
    (13, some (5, 0), 1), (15, some (9, 0), 6), (16, some (10, 0), 6), (17, some (18, 0), 4),
    (21, some (20, 0), 4), (23, some (21, 0), 4), (25, some (22, 0), 4)],
   []]

/-! ### The table is finite -/

/-- A property of every entry of the table. -/
def checkEntries (p : ℕ → ℕ → ℤ → Bool) : Bool :=
  (List.range 54).all fun q => (ScriptParser.rows.getD q []).all fun e => e.2.all fun X => p q X e.1

lemma code_eq_zero {q X : ℕ} (hq : ¬ q < 54) : ScriptParser.code q X = 0 := by
  have hrow : ScriptParser.rows.getD q [] = [] := List.getD_eq_default _ _ (not_lt.mp hq)
  simp only [ScriptParser.code, hrow]
  rfl

/-- A property of the entries of the table is checked on the table. -/
lemma of_checkEntries {p : ℕ → ℕ → ℤ → Bool} (hcheck : checkEntries p = true) {q X : ℕ}
    (h : ScriptParser.code q X ≠ 0) : p q X (ScriptParser.code q X) = true := by
  have hq : q < 54 := by
    by_contra hq
    exact h (code_eq_zero hq)
  have hrow := List.all_eq_true.mp hcheck q (List.mem_range.mpr hq)
  cases hfind : (ScriptParser.rows.getD q []).find? (fun e => decide (X ∈ e.2)) with
  | none =>
    refine absurd ?_ h
    rw [ScriptParser.code, ScriptParser.entry, hfind]
    rfl
  | some e =>
    have hcode : ScriptParser.code q X = e.1 := by
      rw [ScriptParser.code, ScriptParser.entry, hfind]
      rfl
    have hX : X ∈ e.2 :=
      of_decide_eq_true (List.find?_some (p := fun e : ℤ × List ℕ => decide (X ∈ e.2)) hfind)
    rw [hcode]
    exact List.all_eq_true.mp (List.all_eq_true.mp hrow e (List.mem_of_find?_eq_some hfind)) X hX

/-- The next state that a code stands for. -/
def nextOf (code : ℤ) : ℕ := if 0 < code ∧ code ≠ 54 then code.toNat else 0

lemma nextOf_code (q X : ℕ) : nextOf (ScriptParser.code q X) = scriptAutomaton.next q X := rfl

lemma actionOf_code (q X : ℕ) :
    ScriptParser.actionOf (ScriptParser.code q X) = scriptAutomaton.action q X := rfl

lemma action_of_code {q X : ℕ} (h : ScriptParser.code q X = 0) :
    scriptAutomaton.action q X = .error := by
  simp [scriptAutomaton, ScriptParser.actionOf, h]

lemma next_of_code {q X : ℕ} (h : ScriptParser.code q X = 0) : scriptAutomaton.next q X = 0 := by
  simp [scriptAutomaton, h]

lemma code_ne_zero_of_next {q X : ℕ} (h : scriptAutomaton.next q X ≠ 0) :
    ScriptParser.code q X ≠ 0 :=
  fun hcode => h (next_of_code hcode)

lemma code_ne_zero_of_action {q X : ℕ} (h : scriptAutomaton.action q X ≠ .error) :
    ScriptParser.code q X ≠ 0 :=
  fun hcode => h (action_of_code hcode)

/-- A property of every state and production. -/
def checkRules (p : ℕ → ℕ → Bool) : Bool :=
  (List.range 54).all fun q => (List.range 24).all fun k => p q k

lemma of_checkRules {p : ℕ → ℕ → Bool} (hcheck : checkRules p = true) {q k : ℕ} (hq : q < 54)
    (hk : k < 24) : p q k = true :=
  List.all_eq_true.mp (List.all_eq_true.mp hcheck q (List.mem_range.mpr hq)) k
    (List.mem_range.mpr hk)

lemma lt_of_walk? {q₀ q : ℕ} {Xs : List ℕ} (hq : q < 54)
    (h : scriptAutomaton.walk? q₀ Xs = some q) : q₀ < 54 := by
  cases Xs with
  | nil => exact (Option.some.inj h).symm ▸ hq
  | cons X Xs =>
    by_contra hq₀
    rw [Automaton.walk?, next_of_code (code_eq_zero hq₀)] at h
    cases h

/-- A property of the states behind the first symbols of a word. -/
def checkWalk (p : ℕ → ℕ → Bool) (d q : ℕ) : List ℕ → Bool
  | [] => p d q
  | X :: Xs => p d q &&
    (scriptAutomaton.next q X = 0 || checkWalk p (d + 1) (scriptAutomaton.next q X) Xs)

lemma of_checkWalk {p : ℕ → ℕ → Bool} {d q q' i : ℕ} {Xs : List ℕ}
    (hcheck : checkWalk p d q Xs = true) (hi : i ≤ Xs.length)
    (hwalk : scriptAutomaton.walk? q (Xs.take i) = some q') : p (d + i) q' = true := by
  induction Xs generalizing d q i with
  | nil =>
    obtain rfl : i = 0 := Nat.le_zero.mp hi
    obtain rfl := Option.some.inj hwalk
    exact hcheck
  | cons X Xs ih =>
    rw [checkWalk, Bool.and_eq_true] at hcheck
    cases i with
    | zero =>
      obtain rfl := Option.some.inj hwalk
      exact hcheck.1
    | succ i =>
      rw [List.take_succ_cons, Automaton.walk?] at hwalk
      split_ifs at hwalk with hnext
      have hrest : checkWalk p (d + 1) (scriptAutomaton.next q X) Xs = true := by
        simpa [hnext] using hcheck.2
      rw [← Nat.add_assoc, Nat.add_right_comm]
      exact ih hrest (Nat.le_of_succ_le_succ hi) hwalk

/-- A property of the states behind the first symbols of every production. -/
def checkWalks (p : ℕ → ℕ → ℕ → ℕ → Bool) : Bool :=
  checkRules fun q₀ k => checkWalk (p q₀ k) 0 q₀ (scriptGrammar.rhs k)

lemma of_checkWalks {p : ℕ → ℕ → ℕ → ℕ → Bool} (hcheck : checkWalks p = true) {q₀ k d q : ℕ}
    (hk : k < 24) (hq : q < 54) (hd : d ≤ (scriptGrammar.rhs k).length)
    (hwalk : scriptAutomaton.walk? q₀ ((scriptGrammar.rhs k).take d) = some q) :
    p q₀ k d q = true := by
  have hrule := of_checkRules hcheck (lt_of_walk? hq hwalk) hk
  simpa using of_checkWalk hrule hd hwalk

/-- The state reduces the production in front of some symbol. -/
def reducesIn (q k : ℕ) : Bool :=
  (ScriptParser.rows.getD q []).any fun e => ScriptParser.actionOf e.1 = .reduce k

lemma reducesIn_of_action {q a k : ℕ} (h : scriptAutomaton.action q a = .reduce k) :
    q < 54 ∧ reducesIn q k = true := by
  have hcode : ScriptParser.code q a ≠ 0 := code_ne_zero_of_action (by simp [h])
  refine ⟨Decidable.byContradiction fun hq => hcode (code_eq_zero hq), ?_⟩
  cases hfind : (ScriptParser.rows.getD q []).find? (fun e => decide (a ∈ e.2)) with
  | none =>
    refine absurd ?_ hcode
    rw [ScriptParser.code, ScriptParser.entry, hfind]
    rfl
  | some e =>
    have haction : ScriptParser.actionOf e.1 = .reduce k := by
      rw [← h, ← actionOf_code, ScriptParser.code, ScriptParser.entry, hfind]
      rfl
    exact List.any_eq_true.mpr ⟨e, List.mem_of_find?_eq_some hfind, decide_eq_true haction⟩

/-! ### The checks -/

def past : Automaton.PastTable := ⟨fun q => pastTable.getD q [], 1, 27⟩

/-- Two states may reduce the empty block. -/
def weightTable : Automaton.WeightTable where
  weight X := weights.getD X 0
  pot q := if q = 3 ∨ q = 18 then 2 else 0

def firsts : FirstTable := ⟨fun X => firstTable.getD X [], fun X => X = 5⟩

def follow : Automaton.FollowTable where
  toFirstTable := firsts
  follow q X := (((followTable.getD q []).lookup X).map fun i => followSets.getD i []).getD []

def need : NeedTable where
  symbols := [4, 5, 7, 8, 9, 12, 13, 14, 17, 19, 20, 22, 24]
  rank X := match X with
    | 4 => 2
    | 5 => 1
    | 7 => 2
    | 8 => 1
    | 9 => 3
    | _ => 0
  rule X := match X with
    | 4 => some 5
    | 5 => some 8
    | 7 => some 11
    | 8 => some 13
    | 9 => some 16
    | _ => none
  need q X := (((needTable.getD q []).lookup X).map Prod.fst).getD none
  order q X := (((needTable.getD q []).lookup X).map Prod.snd).getD 0

def pastNext : Bool :=
  checkEntries (fun q X code => nextOf code = 0 ||
    (past.past (nextOf code)).isPrefixOf (X :: past.past q))

def pastReduce : Bool :=
  checkEntries (fun q a code =>
    match ScriptParser.actionOf code with
    | .reduce k => k < 24 && allowed k a && (scriptGrammar.rhs k).reverse.isPrefixOf (past.past q)
    | .accept => a = 27 && past.past q = [1] && q = 1
    | .shift => a ≠ 27
    | .error => true)

def pastAccept : Bool :=
  checkEntries (fun q _ code => nextOf code ≠ 1 || q = 0)

/-- Behind a reduction there is a next state, and the stack has become lighter. There is also a next
state where a production is needed. -/
def walksDefined : Bool :=
  checkWalks fun q₀ k d q =>
    match (scriptGrammar.rhs k)[d]? with
    | none => !reducesIn q k || (scriptAutomaton.next q₀ (scriptGrammar.lhs k) ≠ 0 &&
        weightTable.weight (scriptGrammar.lhs k) +
          weightTable.pot (scriptAutomaton.next q₀ (scriptGrammar.lhs k)) <
            ((scriptGrammar.rhs k).map weightTable.weight).sum + weightTable.pot q)
    | some X => need.need q X ≠ some (k, d) || scriptAutomaton.next q₀ (scriptGrammar.lhs k) ≠ 0

def firstToken : Bool :=
  (List.range 27).all fun X => !isToken X || X ∈ firsts.first X

def firstInner : Bool :=
  (List.range 24).all fun k => (firsts.inner (scriptGrammar.rhs k)).all fun b =>
    b ∈ firsts.first (scriptGrammar.lhs k)

def firstNullable : Bool :=
  (List.range 24).all fun k =>
    !(scriptGrammar.rhs k).all firsts.nullable || firsts.nullable (scriptGrammar.lhs k)

def followShift : Bool :=
  (List.range 54).all fun q => (List.range 27).all fun X =>
    !isToken X || (follow.follow q X).isEmpty || scriptAutomaton.action q X = .shift

/-- The symbols may be read at the state, in front of each of `as`. -/
def chains (q : ℕ) : List ℕ → List ℕ → Bool
  | [], _ => true
  | X :: Xs, as =>
    (firsts.inner Xs).all (fun b => b ∈ follow.follow q X) &&
      (!Xs.all firsts.nullable || as.all fun a => a ∈ follow.follow q X) &&
      chains (scriptAutomaton.next q X) Xs as

lemma chain_of_chains {q a : ℕ} {Xs as : List ℕ} (h : chains q Xs as = true) (ha : a ∈ as) :
    follow.chain scriptAutomaton q Xs a = true := by
  induction Xs generalizing q with
  | nil => rfl
  | cons X Xs ih =>
    rw [chains, Bool.and_eq_true, Bool.and_eq_true] at h
    obtain ⟨⟨hinner, hlast⟩, hrest⟩ := h
    rw [Automaton.FollowTable.chain, Bool.and_eq_true]
    refine ⟨List.all_eq_true.mpr fun b hb => ?_, ih hrest⟩
    rcases firsts.mem_inner_or hb with hmem | ⟨rfl, hnull⟩
    · exact List.all_eq_true.mp hinner b hmem
    · rw [hnull] at hlast
      exact List.all_eq_true.mp hlast b ha

def followReduce : Bool :=
  checkRules fun q k =>
    let as := (follow.follow q (scriptGrammar.lhs k)).filter (allowed k)
    as.isEmpty || (chains q (scriptGrammar.rhs k) as && as.all fun a =>
      scriptAutomaton.action (scriptAutomaton.walk q (scriptGrammar.rhs k)) a = .reduce k)

def needShort : Bool :=
  need.symbols.all (fun X =>
    match need.rule X with
    | none => isToken X && X ≠ 10 && X ≠ 26
    | some k => k < 24 && scriptGrammar.lhs k = X && (scriptGrammar.rhs k).all fun Y =>
        Y ∈ need.symbols && need.rank Y < need.rank X)

def needNext : Bool :=
  checkEntries (fun q X code => nextOf code = 0 ||
    match need.need q X with
    | none => q = 0 && X = 1
    | some (k, d) =>
      k < 24 && (scriptGrammar.rhs k)[d]? = some X &&
        ((scriptGrammar.rhs k).take d).reverse.isPrefixOf (past.past q) &&
        ((scriptGrammar.rhs k).drop (d + 1)).all (fun Y => Y ∈ need.symbols) &&
        (d ≠ 0 || need.order q (scriptGrammar.lhs k) < need.order q X))

structure Checked : Prop where
  past_next : pastNext = true
  past_reduce : pastReduce = true
  past_accept : pastAccept = true
  walks_defined : walksDefined = true
  first_token : firstToken = true
  first_inner : firstInner = true
  first_nullable : firstNullable = true
  follow_shift : followShift = true
  follow_reduce : followReduce = true
  need_short : needShort = true
  need_next : needNext = true

lemma checked : Checked := by
  have hall : (pastNext && pastReduce && pastAccept && walksDefined && firstToken && firstInner &&
      firstNullable && followShift && followReduce && needShort && needNext) = true := by
    decide +kernel
  simp only [Bool.and_eq_true, and_assoc] at hall
  obtain ⟨h₁, h₂, h₃, h₄, h₅, h₆, h₇, h₈, h₉, h₁₀, h₁₁⟩ := hall
  exact ⟨h₁, h₂, h₃, h₄, h₅, h₆, h₇, h₈, h₉, h₁₀, h₁₁⟩

/-! ### Only scripts are read -/

lemma next_ne_zero_of_shift {q a : ℕ} (h : scriptAutomaton.action q a = .shift) :
    scriptAutomaton.next q a ≠ 0 := by
  simp only [scriptAutomaton, ScriptParser.actionOf] at h ⊢
  split_ifs at h with h0 haccept hpos
  rw [if_pos ⟨hpos, haccept⟩]
  omega

lemma reduce_sound {q a k : ℕ} (h : scriptAutomaton.action q a = .reduce k) :
    k < 24 ∧ allowed k a = true ∧ (scriptGrammar.rhs k).reverse <+: past.past q := by
  have hcheck := of_checkEntries (Checked.past_reduce checked)
    (code_ne_zero_of_action (q := q) (X := a) (by simp [h]))
  simpa [actionOf_code, h, and_assoc] using hcheck

lemma accept_sound {q a : ℕ} (h : scriptAutomaton.action q a = .accept) :
    a = 27 ∧ past.past q = [1] ∧ q = 1 := by
  have hcheck := of_checkEntries (Checked.past_reduce checked)
    (code_ne_zero_of_action (q := q) (X := a) (by simp [h]))
  simpa [actionOf_code, h, and_assoc] using hcheck

lemma shift_sound {q a : ℕ} (h : scriptAutomaton.action q a = .shift) : a ≠ 27 := by
  have hcheck := of_checkEntries (Checked.past_reduce checked)
    (code_ne_zero_of_action (q := q) (X := a) (by simp [h]))
  simpa only [actionOf_code, h, decide_eq_true_eq] using hcheck

/-! ### Reductions come to an end -/

lemma reduction_defined {q a k q₀ : ℕ} (h : scriptAutomaton.action q a = .reduce k)
    (hwalk : scriptAutomaton.walk? q₀ (scriptGrammar.rhs k) = some q) :
    scriptAutomaton.next q₀ (scriptGrammar.lhs k) ≠ 0 ∧
      weightTable.weight (scriptGrammar.lhs k) +
        weightTable.pot (scriptAutomaton.next q₀ (scriptGrammar.lhs k)) <
          ((scriptGrammar.rhs k).map weightTable.weight).sum + weightTable.pot q := by
  obtain ⟨hq, hreduces⟩ := reducesIn_of_action h
  have hcheck := of_checkWalks (Checked.walks_defined checked) (reduce_sound h).1 hq le_rfl
    ((congrArg _ (List.take_length)).trans hwalk)
  simpa [hreduces] using hcheck

theorem weightTable_falls : weightTable.Falls scriptAutomaton scriptGrammar :=
  fun _ _ _ h _ hwalk => (reduction_defined h hwalk).2

theorem past_sound : past.Sound scriptAutomaton scriptGrammar where
  zero := rfl
  next q X hnext := by
    have hcheck := of_checkEntries (Checked.past_next checked) (code_ne_zero_of_next hnext)
    simpa [nextOf_code, hnext] using hcheck
  shift q a h := next_ne_zero_of_shift h
  reduce q a k h := reduce_sound h
  goto q a k h q₀ hwalk := (reduction_defined h hwalk).1
  accept q a h := by
    obtain ⟨ha, hpast, rfl⟩ := accept_sound h
    refine ⟨ha, hpast, fun q₀ X hnext => ?_⟩
    have hne : scriptAutomaton.next q₀ X ≠ 0 := by simp [hnext]
    have hcheck := of_checkEntries (Checked.past_accept checked) (code_ne_zero_of_next hne)
    simpa [nextOf_code, hnext] using hcheck
  eof q h := shift_sound h rfl

/-! ### Every script is read -/

lemma lt_of_token {X : ℕ} (h : isToken X = true) : X < 27 := by
  simp only [isToken, isTerminal, Bool.or_eq_true, Bool.and_eq_true, decide_eq_true_eq] at h
  omega

theorem firsts_closed : firsts.Closed scriptGrammar where
  token X hX := by
    have hcheck := List.all_eq_true.mp (Checked.first_token checked) X
      (List.mem_range.mpr (lt_of_token hX))
    have htoken : isToken X = true := hX
    simpa [htoken] using hcheck
  produce k hk a b hb := by
    rcases firsts.mem_inner_or hb with hmem | ⟨rfl, hall⟩
    · have hcheck := List.all_eq_true.mp (Checked.first_inner checked) k (List.mem_range.mpr hk)
      exact .inl (of_decide_eq_true (List.all_eq_true.mp hcheck b hmem))
    · have hcheck := List.all_eq_true.mp (Checked.first_nullable checked) k (List.mem_range.mpr hk)
      rw [hall] at hcheck
      exact .inr ⟨rfl, hcheck⟩

lemma lt_of_mem_follow {q X a : ℕ} (h : a ∈ follow.follow q X) : q < 54 := by
  by_contra hq
  have hrow : followTable.getD q [] = [] := List.getD_eq_default _ _ (not_lt.mp hq)
  simp only [follow, hrow] at h
  cases h

theorem follow_closed : follow.Closed scriptAutomaton scriptGrammar where
  first := firsts_closed
  shift q X a ha hX := by
    have hrow := List.all_eq_true.mp (Checked.follow_shift checked) q
      (List.mem_range.mpr (lt_of_mem_follow ha))
    have hcheck := List.all_eq_true.mp hrow X (List.mem_range.mpr (lt_of_token hX))
    have hne : (follow.follow q X).isEmpty = false := by
      rw [List.isEmpty_eq_false_iff]
      exact List.ne_nil_of_mem ha
    have htoken : isToken X = true := hX
    simpa [htoken, hne] using hcheck
  reduce q k a hk ha hallowed := by
    have hmem : a ∈ (follow.follow q (scriptGrammar.lhs k)).filter (allowed k) :=
      List.mem_filter.mpr ⟨ha, hallowed⟩
    have hrule := of_checkRules (Checked.follow_reduce checked) (lt_of_mem_follow ha) hk
    rw [Bool.or_eq_true, List.isEmpty_iff, Bool.and_eq_true] at hrule
    replace hrule := hrule.resolve_left (List.ne_nil_of_mem hmem)
    exact ⟨chain_of_chains hrule.1 hmem,
      of_decide_eq_true (List.all_eq_true.mp hrule.2 a hmem)⟩

/-! ### Viable prefixes -/

lemma free_of_ne {a : ℕ} (h10 : a ≠ 10) (h26 : a ≠ 26) : scriptGrammar.Free a := by
  intro k _
  simp [scriptGrammar, allowed, h10, h26]

lemma short_closed : need.toShortTable.Closed scriptGrammar := by
  intro X hX
  have hcheck := List.all_eq_true.mp (Checked.need_short checked) X hX
  cases hrule : need.rule X with
  | none =>
    simp only [hrule, Bool.and_eq_true, decide_eq_true_eq] at hcheck
    exact ⟨hcheck.1.1, free_of_ne hcheck.1.2 hcheck.2⟩
  | some k =>
    simp only [hrule, Bool.and_eq_true, decide_eq_true_eq, List.all_eq_true] at hcheck
    exact ⟨hcheck.1.1, hcheck.1.2, hcheck.2⟩

theorem need_closed : need.Closed past scriptAutomaton scriptGrammar where
  toClosed := short_closed
  needs q X hnext := by
    have hcode := code_ne_zero_of_next hnext
    have hcheck := of_checkEntries (Checked.need_next checked) hcode
    have hq : q < 54 := by
      by_contra hq
      exact hcode (code_eq_zero hq)
    rw [NeedTable.Needs]
    cases hneed : need.need q X with
    | none =>
      simp only [nextOf_code, hneed, hnext, decide_false, Bool.false_or, Bool.and_eq_true,
        decide_eq_true_eq] at hcheck
      exact hcheck
    | some kd =>
      obtain ⟨k, d⟩ := kd
      simp only [nextOf_code, hneed, hnext, decide_false, Bool.false_or, Bool.and_eq_true,
        decide_eq_true_eq, List.isPrefixOf_iff_prefix, List.all_eq_true, Bool.or_eq_true] at hcheck
      obtain ⟨⟨⟨⟨hk, hd⟩, hpast⟩, hshort⟩, horder⟩ := hcheck
      refine ⟨hk, hd, hpast, hshort, fun h0 => horder.resolve_left (not_not.mpr h0),
        fun q₀ hwalk => ?_⟩
      have hlen : d < (scriptGrammar.rhs k).length := (List.getElem?_eq_some_iff.mp hd).1
      have hgoto := of_checkWalks (Checked.walks_defined checked) hk hq hlen.le hwalk
      simpa [hd, hneed] using hgoto
  eof := free_of_ne (by decide) (by decide)

/-! ### The nodes of the symbols -/

/-- The node of each symbol holds the syntax tree that the actions expect. A literal has its
quotes. -/
def Fits (X : ℕ) (n : ParseTreeNode) : Prop :=
  match X with
  | 1 | 4 => ∃ b, n.userContents = some (.blockEntryNode b)
  | 2 => ∃ l, n.userContents = some (.lineNode l)
  | 3 => ∃ s, n.userContents = some (.statementNode s)
  | 5 => ∃ b, n.userContents = some (.blockNode b)
  | 6 => ∃ c, n.userContents = some (.constsNode c)
  | 7 => ∃ i, n.userContents = some (.indexNode i)
  | 8 => ∃ v, n.userContents = some (.variableNode v)
  | 9 => ∃ a, n.userContents = some (.argumentNode a)
  | 10 => n.userContents = none ∨ ∃ f, n.userContents = some (.functionNode f)
  | 11 => ∃ r, n.userContents = some (.runnableNode r)
  | 16 => 2 ≤ n.contents.length
  | _ => True

/-- The node of a token fits its symbol. -/
lemma fits_leaf {X : ℕ} {c : Units} (hX : isToken X = true) (hstring : X = 16 → 2 ≤ c.length) :
    Fits X (leaf c) := by
  have hlt := lt_of_token hX
  by_cases h10 : X = 10
  · exact h10 ▸ .inl rfl
  by_cases h16 : X = 16
  · rw [h16]
    exact hstring h16
  have hterminal : isTerminal X = true := by
    simpa [isToken, h10] using hX
  interval_cases X <;> trivial

open ParseTreeNode

variable {vs : List ParseTreeNode}

/-- A node that a production has built fits its symbol when its content does. -/
lemma exists_semantics {k X : ℕ} {action : List ParseTreeNode → Option INode} {content : INode}
    (haction : PActionDescription.actions[k]? = some action) (hcontent : action vs = some content)
    (hfits : Fits X (reduced k vs content)) : ∃ v, semantics k vs = some v ∧ Fits X v :=
  ⟨reduced k vs content, by simp [semantics, haction, hcontent], hfits⟩

theorem typed : scriptGrammar.Typed Fits where
  semantics k hk vs hvs := by
    have hk' : k < 24 := hk
    interval_cases k
    · -- script -> block_entry
      obtain _ | ⟨⟨b, hb⟩, ⟨⟩⟩ := hvs
      exact exists_semantics rfl (by simp [hb]; rfl) ⟨_, rfl⟩
    · -- line -> stmt
      obtain _ | ⟨⟨s, hs⟩, ⟨⟩⟩ := hvs
      exact exists_semantics rfl (by simp [asStatement, hs]; rfl) ⟨_, rfl⟩
    · -- stmt -> function
      obtain _ | ⟨hnone | ⟨f, hf⟩, ⟨⟩⟩ := hvs
      · exact exists_semantics rfl (by simp [asFunction, hnone]; rfl) ⟨_, rfl⟩
      · exact exists_semantics rfl (by simp [asFunction, hf]; rfl) ⟨_, rfl⟩
    · -- stmt -> index = index
      obtain _ | ⟨⟨i, hi⟩, _ | ⟨-, _ | ⟨⟨j, hj⟩, ⟨⟩⟩⟩⟩ := hvs
      exact exists_semantics rfl (by simp [asIndex, hi, hj]; rfl) ⟨_, rfl⟩
    · -- stmt -> runnable
      obtain _ | ⟨⟨r, hr⟩, ⟨⟩⟩ := hvs
      exact exists_semantics rfl (by simp [asRunnable, hr]; rfl) ⟨_, rfl⟩
    · -- block_entry -> [ block ]
      obtain _ | ⟨-, _ | ⟨⟨b, hb⟩, _ | ⟨-, ⟨⟩⟩⟩⟩ := hvs
      exact exists_semantics rfl (by simp [asBlock, hb]; rfl) ⟨_, rfl⟩
    · -- block_entry -> line
      obtain _ | ⟨⟨l, hl⟩, ⟨⟩⟩ := hvs
      exact exists_semantics rfl (by simp [asLine, hl]; rfl) ⟨_, rfl⟩
    · -- block -> line block
      obtain _ | ⟨⟨l, hl⟩, _ | ⟨⟨b, hb⟩, ⟨⟩⟩⟩ := hvs
      exact exists_semantics rfl (by simp [asBlock, asLine, hl, hb]; rfl) ⟨_, rfl⟩
    · -- block ->
      obtain ⟨⟩ := hvs
      exact ⟨_, rfl, _, rfl⟩
    · -- consts -> number
      obtain _ | ⟨-, ⟨⟩⟩ := hvs
      exact ⟨_, rfl, _, rfl⟩
    · -- consts -> string
      obtain _ | ⟨hlen, ⟨⟩⟩ := hvs
      exact exists_semantics rfl (if_neg (not_lt.mpr hlen)) ⟨_, rfl⟩
    · -- index -> variable
      obtain _ | ⟨⟨v, hv⟩, ⟨⟩⟩ := hvs
      exact exists_semantics rfl (by simp [asVariable, hv]; rfl) ⟨_, rfl⟩
    · -- index -> index [ variable ]
      obtain _ | ⟨⟨i, hi⟩, _ | ⟨-, _ | ⟨⟨v, hv⟩, _ | ⟨-, ⟨⟩⟩⟩⟩⟩ := hvs
      exact exists_semantics rfl (by simp [asIndex, asVariable, hi, hv]; rfl) ⟨_, rfl⟩
    · -- variable -> name
      obtain _ | ⟨-, ⟨⟩⟩ := hvs
      exact ⟨_, rfl, _, rfl⟩
    · -- variable -> function
      obtain _ | ⟨hnone | ⟨f, hf⟩, ⟨⟩⟩ := hvs
      · exact exists_semantics rfl (by simp [asFunction, hnone]; rfl) ⟨_, rfl⟩
      · exact exists_semantics rfl (by simp [asFunction, hf]; rfl) ⟨_, rfl⟩
    · -- variable -> consts
      obtain _ | ⟨⟨c, hc⟩, ⟨⟩⟩ := hvs
      exact exists_semantics rfl (by simp [asConsts, hc]; rfl) ⟨_, rfl⟩
    · -- argument -> index
      obtain _ | ⟨⟨i, hi⟩, ⟨⟩⟩ := hvs
      exact exists_semantics rfl (by simp [asIndex, hi]; rfl) ⟨_, rfl⟩
    · -- argument -> index , argument
      obtain _ | ⟨⟨i, hi⟩, _ | ⟨-, _ | ⟨⟨a, ha⟩, ⟨⟩⟩⟩⟩ := hvs
      exact exists_semantics rfl (by simp [asArgument, asIndex, hi, ha]; rfl) ⟨_, rfl⟩
    · -- function -> name ( )
      obtain _ | ⟨-, _ | ⟨-, _ | ⟨-, ⟨⟩⟩⟩⟩ := hvs
      exact ⟨_, rfl, .inr ⟨_, rfl⟩⟩
    · -- function -> name ( argument )
      obtain _ | ⟨-, _ | ⟨-, _ | ⟨⟨a, ha⟩, _ | ⟨-, ⟨⟩⟩⟩⟩⟩ := hvs
      exact exists_semantics rfl (by simp [asArgument, ha]; rfl) (.inr ⟨_, rfl⟩)
    · -- runnable -> loop
      obtain _ | ⟨-, _ | ⟨-, _ | ⟨-, _ | ⟨-, _ | ⟨⟨i, hi⟩, _ | ⟨-, _ | ⟨⟨j, hj⟩, _ | ⟨-, _ |
        ⟨⟨b, hb⟩, ⟨⟩⟩⟩⟩⟩⟩⟩⟩⟩⟩ := hvs
      exact exists_semantics rfl (by simp [asBlockEntry, asIndex, hi, hj, hb]; rfl) ⟨_, rfl⟩
    · -- runnable -> foreach
      obtain _ | ⟨-, _ | ⟨-, _ | ⟨-, _ | ⟨-, _ | ⟨⟨i, hi⟩, _ | ⟨-, _ | ⟨⟨b, hb⟩, ⟨⟩⟩⟩⟩⟩⟩⟩⟩ := hvs
      exact exists_semantics rfl (by simp [asBlockEntry, asIndex, hi, hb]; rfl) ⟨_, rfl⟩
    · -- runnable -> if
      obtain _ | ⟨-, _ | ⟨-, _ | ⟨⟨i, hi⟩, _ | ⟨-, _ | ⟨⟨b, hb⟩, ⟨⟩⟩⟩⟩⟩⟩ := hvs
      exact exists_semantics rfl (by simp [asBlockEntry, asIndex, hi, hb]; rfl) ⟨_, rfl⟩
    · -- runnable -> if else
      obtain _ | ⟨-, _ | ⟨-, _ | ⟨⟨i, hi⟩, _ | ⟨-, _ | ⟨⟨b, hb⟩, _ | ⟨-, _ | ⟨⟨e, he⟩, ⟨⟩⟩⟩⟩⟩⟩⟩⟩ :=
        hvs
      exact exists_semantics rfl (by simp [asBlockEntry, asIndex, hi, hb, he]; rfl) ⟨_, rfl⟩
  token X hX := ⟨leaf [34, 34], fits_leaf hX fun _ => le_refl 2⟩

end ScriptGrammar

end Violet
