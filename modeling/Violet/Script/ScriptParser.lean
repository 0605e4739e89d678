import Violet.Dart.Str
import Violet.Script.ScriptModel

/-!
# The parser

`ShiftReduceParser` reads one token at a time: an action of its table shifts the token, reduces a
production, accepts, or reports an error. `ScriptParser` holds the tables of scripts.
-/

namespace Violet

open Dart

/-- The tables of a parser. A negative code reduces the production of that number, a positive one
shifts to that state. -/
structure ParserTables where
  symbolTable : List (Str × ℕ)
  table : List (List ℤ)
  production : List ℕ
  groupTable : List ℕ
  accept : ℤ
  actions : List (List ParseTreeNode → Option INode)

/-- An error of Dart: a name that the symbol table lacks is no index, an index may be out of range,
and a cast may fail. -/
inductive ParserError where
  | nullIndex
  | range
  | cast
  deriving DecidableEq, Repr

/-- The stacks hold the last state and the last node first. -/
structure ShiftReduceParser where
  stateStack : List ℕ
  treenodeStack : List ParseTreeNode
  latestError : Bool
  latestReduce : Bool

namespace ShiftReduceParser

/-- A parser that has read nothing. -/
def init : ShiftReduceParser := ⟨[], [], false, false⟩

def isError (p : ShiftReduceParser) : Bool := p.latestError

def reduce (p : ShiftReduceParser) : Bool := p.latestReduce

variable (tables : ParserTables)

/-- The code at the top state in front of a symbol. -/
def code (p : ShiftReduceParser) (index : ℕ) : Option ℤ :=
  p.stateStack.head?.bind fun state => tables.table[state]?.bind fun row => row[index]?

/-- `_reduce`: the nodes of the right-hand side become the children of a new one. -/
def reduceBy (p : ShiftReduceParser) (reduceProduction : ℕ) :
    Except ParserError ShiftReduceParser :=
  match tables.production[reduceProduction]?, tables.groupTable[reduceProduction]? with
  | some n, some group =>
    if p.stateStack.length ≤ n ∨ p.treenodeStack.length < n then .error .range
    else
      let states := p.stateStack.drop n
      let childs := (p.treenodeStack.take n).reverse
      match code tables { p with stateStack := states } group with
      | none => .error .range
      | some state =>
        .ok { p with
          stateStack := state.toNat :: states
          treenodeStack := .node (childs.flatMap ParseTreeNode.contents) none
            (some (reduceProduction - 1)) childs :: p.treenodeStack.drop n
          latestReduce := true }
  | _, _ => .error .range

def insertByIndex (p : ShiftReduceParser) (index : ℕ) (contents : Units) :
    Except ParserError ShiftReduceParser :=
  let p := if p.stateStack.length = 0 then { p with stateStack := [0], latestError := false } else p
  let p := { p with latestReduce := false }
  match code tables p index with
  | none => .error .range
  | some code =>
    if code = tables.accept then .ok p
    else if 0 < code then
      .ok { p with
        stateStack := code.toNat :: p.stateStack
        treenodeStack := .node contents none none [] :: p.treenodeStack }
    else if code < 0 then p.reduceBy tables (-code).toNat
    else .ok ⟨[], [], true, p.latestReduce⟩

def insertByTokenName (p : ShiftReduceParser) (tokenName : Str) (contents : Units) :
    Except ParserError ShiftReduceParser :=
  match tables.symbolTable.lookup tokenName with
  | none => .error .nullIndex
  | some index => p.insertByIndex tables index contents

/-- The action of the node that has just been reduced. -/
def runAction (p : ShiftReduceParser) : Except ParserError ShiftReduceParser :=
  match p.treenodeStack with
  | .node contents _ (some rule) childs :: rest =>
    match tables.actions[rule]? with
    | none => .error .range
    | some action =>
      match action childs with
      | none => .error .cast
      | some content =>
        .ok { p with treenodeStack := .node contents (some content) (some rule) childs :: rest }
  | _ => .error .nullIndex

end ShiftReduceParser

namespace ScriptParser

def symbolTable : List (Str × ℕ) :=
  [("S'".toList, 0), ("script".toList, 1), ("line".toList, 2), ("stmt".toList, 3),
   ("block_entry".toList, 4), ("block".toList, 5), ("consts".toList, 6), ("index".toList, 7),
   ("variable".toList, 8), ("argument".toList, 9), ("function".toList, 10),
   ("runnable".toList, 11), ("=".toList, 12), ("[".toList, 13), ("]".toList, 14),
   ("number".toList, 15), ("string".toList, 16), ("name".toList, 17), (",".toList, 18),
   ("(".toList, 19), (")".toList, 20), ("loop".toList, 21), ("to".toList, 22),
   ("foreach".toList, 23), (":".toList, 24), ("if".toList, 25), ("else".toList, 26),
   ("$".toList, 27)]

/-- The symbols that a line may stand in front of. -/
def behindLine : List ℕ := [14, 15, 16, 17, 21, 23, 25, 26, 27]

/-- The symbols that an operand may stand in front of. -/
def behindOperand : List ℕ := [12, 13, 14, 15, 16, 17, 18, 20, 21, 22, 23, 25, 26, 27]

/-- The rows of the table: each code with the columns that it stands in. -/
def rows : List (List (ℤ × List ℕ)) :=
  [[(1, [1]), (4, [2]), (5, [3]), (2, [4]), (14, [6]), (7, [7]), (10, [8]), (6, [10]), (8, [11]),
   (3, [13]), (15, [15]), (16, [16]), (9, [17]), (11, [21]), (12, [23]), (13, [25])],
   [(54, [27])], [(-1, [27])], [(18, [2]), (5, [3]), (17, [5]), (14, [6]), (7, [7]), (10, [8]),
   (6, [10]), (8, [11]), (-9, [14]), (15, [15]), (16, [16]), (9, [17]), (11, [21]), (12, [23]),
   (13, [25])], [(-7, behindLine)], [(-2, behindLine)], [(-15, [12, 13]), (-3, behindLine)],
   [(19, [12]), (20, [13])], [(-5, behindLine)], [(-14, behindOperand), (21, [19])],
   [(-12, behindOperand)], [(22, [19])], [(23, [19])], [(24, [19])], [(-16, behindOperand)],
   [(-10, behindOperand)], [(-11, behindOperand)], [(25, [14])], [(18, [2]), (5, [3]), (26, [5]),
   (14, [6]), (7, [7]), (10, [8]), (6, [10]), (8, [11]), (-9, [14]), (15, [15]), (16, [16]),
   (9, [17]), (11, [21]), (12, [23]), (13, [25])], [(14, [6]), (27, [7]), (10, [8]), (28, [10]),
   (15, [15]), (16, [16]), (9, [17])], [(14, [6]), (29, [8]), (28, [10]), (15, [15]), (16, [16]),
   (9, [17])], [(14, [6]), (32, [7]), (10, [8]), (31, [9]), (28, [10]), (15, [15]), (16, [16]),
   (9, [17]), (30, [20])], [(33, [17])], [(34, [17])], [(14, [6]), (35, [7]), (10, [8]),
   (28, [10]), (15, [15]), (16, [16]), (9, [17])], [(-6, behindLine)], [(-8, [14])], [(20, [13]),
   (-4, behindLine)], [(-15, behindOperand.erase 12)], [(36, [14])], [(-19, behindOperand)],
   [(37, [20])], [(20, [13]), (38, [18]), (-17, [20])], [(39, [12])], [(40, [24])], [(20, [13]),
   (41, [20])], [(-13, behindOperand)], [(-20, behindOperand)], [(14, [6]), (32, [7]), (10, [8]),
   (42, [9]), (28, [10]), (15, [15]), (16, [16]), (9, [17])], [(14, [6]), (43, [7]), (10, [8]),
   (28, [10]), (15, [15]), (16, [16]), (9, [17])], [(14, [6]), (44, [7]), (10, [8]), (28, [10]),
   (15, [15]), (16, [16]), (9, [17])], [(4, [2]), (5, [3]), (45, [4]), (14, [6]), (7, [7]),
   (10, [8]), (6, [10]), (8, [11]), (3, [13]), (15, [15]), (16, [16]), (9, [17]), (11, [21]),
   (12, [23]), (13, [25])], [(-18, [20])], [(20, [13]), (46, [22])], [(20, [13]), (47, [20])],
   [(-23, [14, 15, 16, 17, 21, 23, 25, 27]), (48, [26])], [(14, [6]), (49, [7]), (10, [8]),
   (28, [10]), (15, [15]), (16, [16]), (9, [17])], [(4, [2]), (5, [3]), (50, [4]), (14, [6]),
   (7, [7]), (10, [8]), (6, [10]), (8, [11]), (3, [13]), (15, [15]), (16, [16]), (9, [17]),
   (11, [21]), (12, [23]), (13, [25])], [(4, [2]), (5, [3]), (51, [4]), (14, [6]), (7, [7]),
   (10, [8]), (6, [10]), (8, [11]), (3, [13]), (15, [15]), (16, [16]), (9, [17]), (11, [21]),
   (12, [23]), (13, [25])], [(20, [13]), (52, [20])], [(-22, behindLine)], [(-24, behindLine)],
   [(4, [2]), (5, [3]), (53, [4]), (14, [6]), (7, [7]), (10, [8]), (6, [10]), (8, [11]),
   (3, [13]), (15, [15]), (16, [16]), (9, [17]), (11, [21]), (12, [23]), (13, [25])],
   [(-21, behindLine)]]

/-- The code in a column of a row. -/
def entry (row : List (ℤ × List ℕ)) (X : ℕ) : ℤ :=
  ((row.find? fun e => X ∈ e.2).map Prod.fst).getD 0

def gotoTable : List (List ℤ) := rows.map fun row => (List.range 28).map (entry row)

def production : List ℕ :=
  [1, 1, 1, 1, 3, 1, 3, 1, 2, 0, 1, 1, 1, 4, 1, 1, 1, 1, 3, 3, 4, 9, 7, 5, 7]

def groupTable : List ℕ :=
  [0, 1, 2, 3, 3, 3, 4, 4, 5, 5, 6, 6, 7, 7, 8, 8, 8, 9, 9, 10, 10, 11, 11, 11, 11]

def accept : ℤ := 54

end ScriptParser

/-- The tables of the parser of scripts. -/
def scriptParser : ParserTables where
  symbolTable := ScriptParser.symbolTable
  table := ScriptParser.gotoTable
  production := ScriptParser.production
  groupTable := ScriptParser.groupTable
  accept := ScriptParser.accept
  actions := PActionDescription.actions

end Violet
