import Violet.Program.Prog
import Violet.Script.ScriptBuiltIn
import Violet.Script.ScriptModel

/-!
# The script runner

A script runs on a stack of frames, of which the last is the map of the caller. Every place where
the runner reads or changes its state is one operation, whose label tells what is done.
-/

namespace Violet

open Dart Program ScriptBuiltIn

/-- A frame: the map of the caller, by its address, or one that the runner has pushed. -/
inductive ScriptFrame where
  | caller (m : ℕ)
  | own (entries : Map (Option Units) Ref)
deriving DecidableEq, Repr

def ScriptFrame.entries (s : Memory) : ScriptFrame → Map (Option Units) Ref
  | caller m => s.map m
  | own entries => entries

/-- The memory, and the stack with the top first. -/
structure ScriptIsolate where
  memory : Memory
  stack : List ScriptFrame := []
deriving DecidableEq, Repr

/-- What an operation does. Constants, names and references are those of its arguments. -/
inductive ScriptEvent where
  | builtIn (name : Units) (args : List Ref)
  | printInternal (r : Ref)
  | integer (content : Units)
  | string (content : Units)
  | name (name : Units) (isLeftVariable : Bool)
  | index (v1 v2 : Ref)
  | assign (v1 v2 : Ref)
  | loop (name : Units) (i1 i2 : Ref)
  | counter (name : Units) (ii1 ii2 : Option ℤ)
  | foreach (name : Units) (index : Ref)
  | element (name : Units) (index : Ref) (i : ℕ)
  | remove (name : Units)
  | condition (cond : Ref)
  | pushStack (depth : ℕ)
  | popStack
  | statement (stat : PStatement) (depth : ℕ)
deriving DecidableEq, Repr

/-- What the runner does to its state. -/
abbrev ScriptStep (α : Type) := Operation ScriptIsolate ScriptError α

abbrev ScriptProg (α : Type) := Prog ScriptIsolate ScriptEvent ScriptError α

namespace ScriptIsolate

/-! ### Operations -/

/-- A function does not see the stack. -/
def onMemory {α : Type} (c : ScriptCall α) : ScriptStep α := fun s =>
  match c s.memory with
  | .ok (a, memory) => .ok (a, { s with memory })
  | .error e => .error e

/-- What a name is bound to, which may be null. -/
def lookup (s : ScriptIsolate) (name : Units) : Option Ref :=
  s.stack.findSome? fun f => (f.entries s.memory).get? (some name)

def getValue (s : ScriptIsolate) (name : Units) : Ref := (s.lookup name).join

def pushStack : ScriptStep Unit := modify fun s => { s with stack := .own [] :: s.stack }

def popStack : ScriptStep Unit := do
  match (← get).stack with
  | _ :: stack => modify fun s => { s with stack }
  | [] => throw .rangeError

/-- The entries of `_stack.last`. -/
def last : ScriptStep (Map (Option Units) Ref) := do
  let s ← get
  match s.stack with
  | f :: _ => return f.entries s.memory
  | [] => throw .stateError

/-- `_stack.last` gets other entries. -/
def setLast (entries : Map (Option Units) Ref) : ScriptStep Unit := do
  match (← get).stack with
  | .own _ :: stack => modify fun s => { s with stack := .own entries :: stack }
  | .caller m :: _ => onMemory (ScriptCall.setMap m entries)
  | [] => throw .stateError

/-- `_stack.last[name] = r` -/
def put (name : Units) (r : Ref) : ScriptStep Unit := do
  setLast ((← last).set (some name) r)

/-- A variable by its name. A new one is bound when it is to be assigned. -/
def find (name : Units) (isLeftVariable : Bool) : ScriptStep Ref := do
  match (← get).lookup name with
  | some r => return r
  | none =>
    if isLeftVariable then
      let nv ← onMemory (ScriptCall.newVariable .notReady)
      put name nv
      return nv
    else throw (.exception (units "[RUNNER] " ++ name ++
      units " variable is not found in this scope!"))

def integer (content : Units) : ScriptCall Ref := do
  match content.intParse with
  | some n => ScriptCall.newVariable (.fromInt n)
  | none => throw .formatException

/-- An element of a list, or a value of a map. -/
def indexing (v1 v2 : Ref) : ScriptCall Ref := do
  let v ← ScriptCall.deref v1
  if v.isList then
    let w ← ScriptCall.deref v2
    if !w.isInteger then
      throw (.exception (units "[RUNNER] Cannot indexing by not integer value"))
    let rs := (← get).list (← ScriptCall.onNull v.list)
    let i ← ScriptCall.onNull (← w.asInt)
    if rs.length ≤ i then
      throw (.exception (units "[RUNNER] Overflow, cannot index over list length"))
    return rs.getD (← placeIn rs.length i) none
  else if v.isMap then
    let w ← ScriptCall.deref v2
    if !w.isString then
      throw (.exception (units "[RUNNER] Cannot mapping by not string value"))
    let key ← w.asString
    match ((← get).map (← ScriptCall.onNull v.map)).get? key with
    | some (some a) => return some a
    | _ => throw (.exception (units "[RUNNER] Key " ++ w.valueText ++
        units " is not found on map "))
  else throw (.exception (units "[RUNNER] Cannot indexing or mapping by not list or map value"))

/-- The variable of `v1` becomes what that of `v2` is. -/
def assign (v1 v2 : Ref) : ScriptCall Unit := do
  let v ← ScriptCall.deref v2
  if !v.isReady then
    throw (.exception (units "[RUNNER] Cannot assign index to not ready variable."))
  ScriptCall.setVariable (← ScriptCall.onNull v1) { v with isReady := true }

/-- `if (_stack.last.containsKey(name)) throw` -/
def checkUnused (name : Units) : ScriptStep Unit := do
  if (← last).containsKey (some name) then
    throw (.exception (units "[RUNNER] " ++ name ++ units " is already used!"))

/-- The loop variable is bound, and the bounds are read. -/
def beginLoop (name : Units) (i1 i2 : Ref) : ScriptStep (Option ℤ × Option ℤ) := do
  let text := units "[RUNNER] Cannot looping by not integer value"
  let v1 ← onMemory (ScriptCall.deref i1)
  if !v1.isInteger then throw (.exception text)
  let v2 ← onMemory (ScriptCall.deref i2)
  if !v2.isInteger then throw (.exception text)
  let ii1 ← v1.asInt
  let ii2 ← v2.asInt
  checkUnused name
  put name (← onMemory (ScriptCall.newVariable { isInteger := true, value := ii1.map .int }))
  return (ii1, ii2)

/-- Whether the loop goes on; then its variable gets the counter for its value. -/
def count (name : Units) (ii1 ii2 : Option ℤ) : ScriptStep Bool := do
  let a ← onMemory (ScriptCall.onNull ii1)
  let b ← onMemory (ScriptCall.onNull ii2)
  if b < a then return false
  let r := ((← last).get? (some name)).join
  let v ← onMemory (ScriptCall.deref r)
  onMemory (ScriptCall.setVariable (← onMemory (ScriptCall.onNull r))
    { v with value := some (.int a) })
  return true

/-- The check of a list that is iterated. -/
def beginForeach (name : Units) (index : Ref) : ScriptStep Unit := do
  if !(← onMemory (ScriptCall.deref index)).isList then
    throw (.exception (units "[RUNNER] List type can only iterate."))
  checkUnused name

/-- Whether there is another element; then the variable is bound to it. -/
def element (name : Units) (index : Ref) (i : ℕ) : ScriptStep Bool := do
  let v ← onMemory (ScriptCall.deref index)
  let l ← onMemory (ScriptCall.onNull v.list)
  match ((← get).memory.list l)[i]? with
  | some r =>
    put name r
    return true
  | none => return false

/-- `_stack.last.removeWhere((key, value) => key == name)` -/
def remove (name : Units) : ScriptStep Unit := do
  setLast ((← last).filter fun e => e.1 ≠ some name)

/-- Does a condition hold? Null is not zero. -/
def condition (cond : Ref) : ScriptCall Bool := do
  let v ← ScriptCall.deref cond
  if !v.isInteger then
    throw (.exception (units "[RUNNER] Cannot conditioning by not integer value"))
  return (← v.asInt) ≠ some 0

/-- What is printed inside a value that is printed. -/
def printed (r : Ref) : ScriptCall (List Ref) := do
  let v ← ScriptCall.deref r
  if v.isString then
    let _ ← v.asString
    return []
  else if v.isInteger then
    let _ ← v.asInt
    return []
  else if v.isList then return (← get).list (← ScriptCall.onNull v.list)
  else if v.isMap then return ((← get).map (← ScriptCall.onNull v.map)).map Prod.snd
  else return []

/-! ### Functions -/

open Prog ScriptCall

/-- The values are printed one after the other, each with what is inside it. -/
def print (args : List Ref) : ScriptProg Ref := do
  loop (fun rs : List Ref =>
    match rs with
    | [] => return .inr ()
    | r :: rs => do
      let inner ← perform (.printInternal r) (onMemory (printed r))
      return .inl (inner ++ rs)) args
  perform (.builtIn (units "print") args) (onMemory (newVariable .notReady))

def runBuiltIn (P : ScriptPlatform) (name : Units) (args : List Ref) : ScriptProg Ref :=
  match select P name args.length with
  | .error e => raise e
  | .ok .print => print args
  | .ok (.string f) => perform (.builtIn name args)
      (onMemory (do newVariable (.fromString (some (← f (← read args))))))
  | .ok (.integer f) => perform (.builtIn name args)
      (onMemory (do newVariable (.fromInt (← f (← read args)))))
  | .ok (.call f) => perform (.builtIn name args) (onMemory (f args))

/-! ### Values -/

section

variable (P : ScriptPlatform)

mutual

def runIndex : PIndex → Bool → ScriptProg Ref
  | .ofVariable content, isLeftVariable => runVariable content isLeftVariable
  | .indexing index content, _ => do
    let v1 ← runIndex index false
    let v2 ← runVariable content false
    perform (.index v1 v2) (onMemory (indexing v1 v2))

def runVariable : PVariable → Bool → ScriptProg Ref
  | .function function, _ => runFunction function
  | .name name, isLeftVariable => perform (.name name isLeftVariable) (find name isLeftVariable)
  | .consts (.integer content), _ => perform (.integer content) (onMemory (integer content))
  | .consts (.string content), _ =>
    perform (.string content) (onMemory (newVariable (.fromString (some content))))
  | .null, _ => raise (.exception (units "[RUNNER] Dead reaching!"))

def runArgument : PArgument → ScriptProg (List Ref)
  | .last index => do return [← runIndex index false]
  | .cons index argument => do
    let i ← runIndex index false
    let a ← runArgument argument
    return i :: a

def runFunction : PFunction → ScriptProg Ref
  | .call name => runBuiltIn P name []
  | .callWith name argument => do runBuiltIn P name (← runArgument argument)

end

/-! ### Statements -/

mutual

/-- A statement inside `depth` brackets. -/
def runStatement (depth : ℕ) : PStatement → ScriptProg Unit
  | .sfunction none => raise .noSuchMethod
  | .sfunction (some function) => do
    let _ ← runFunction P function
  | .sindex index1 index2 => do
    let v1 ← runIndex P index1 true
    let v2 ← runIndex P index2 false
    perform (.assign v1 v2) (onMemory (assign v1 v2))
  | .srunnable runnable => runRunnable depth runnable

def runLine (depth : ℕ) : PLine → ScriptProg Unit
  | .mk statement => do
    perform (.statement statement depth) (fun s => .ok ((), s))
    runStatement depth statement

def runBlock (depth : ℕ) : PBlock → ScriptProg Unit
  | .empty => return ()
  | .cons line block => do
    runLine depth line
    runBlock depth block

def runBlockEntry (depth : ℕ) : PBlockEntry → ScriptProg Unit
  | .innerBlock block => do
    perform (.pushStack (depth + 1)) pushStack
    runBlock (depth + 1) block
    perform .popStack popStack
  | .line line => runLine depth line

def runRunnable (depth : ℕ) : PRunnable → ScriptProg Unit
  | .sloop name index1 index2 blockEntry1 => do
    let i1 ← runIndex P index1 false
    let i2 ← runIndex P index2 false
    let bounds ← perform (.loop name i1 i2) (beginLoop name i1 i2)
    loop (fun ii1 : Option ℤ => do
      if ← perform (.counter name ii1 bounds.2) (count name ii1 bounds.2) then
        runBlockEntry depth blockEntry1
        return .inl (ii1.map fun n => wrap (n + 1))
      else return .inr ()) bounds.1
    perform (.remove name) (remove name)
  | .sforeach name index1 blockEntry1 => do
    let index ← runIndex P index1 false
    perform (.foreach name index) (beginForeach name index)
    loop (fun i : ℕ => do
      if ← perform (.element name index i) (element name index i) then
        runBlockEntry depth blockEntry1
        return .inl (i + 1)
      else return .inr ()) 0
    perform (.remove name) (remove name)
  | .sif index1 blockEntry1 => do
    let cond ← runIndex P index1 false
    if ← perform (.condition cond) (onMemory (condition cond)) then
      runBlockEntry depth blockEntry1
  | .sifelse index1 blockEntry1 blockEntry2 => do
    let cond ← runIndex P index1 false
    if ← perform (.condition cond) (onMemory (condition cond)) then
      runBlockEntry depth blockEntry1
    else runBlockEntry depth blockEntry2

end

/-- The script of a tree runs on a frame of its own above the map of the caller. -/
def runScript (tree : ParseTreeNode) : ScriptProg Unit := do
  match tree.userContents with
  | some (.blockEntryNode blockEntry) =>
    perform (.pushStack 0) pushStack
    runBlockEntry P 0 blockEntry
    perform .popStack popStack
  | _ => raise (.exception (units "[RUNNER] Error cannot continue!"))

end

/-- The state in which a run starts. -/
def start (memory : Memory) (caller : ℕ) : ScriptIsolate := ⟨memory, [.caller caller]⟩

end ScriptIsolate

end Violet
