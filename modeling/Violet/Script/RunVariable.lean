import Violet.Dart.Integer
import Violet.Dart.Map
import Violet.Dart.Units
import Violet.Program.Operation

/-!
# The values of scripts

A value is an object whose type is told by flags, and that an assignment changes in place. Lists and
maps are objects of their own, which several values may share.
-/

namespace Violet

open Dart

/-! ### Exceptions -/

/-- What stops a script: the exceptions of the runner and of its functions, the other exceptions of
Dart and of the network, and the errors of Dart. -/
inductive ScriptError where
  | exception (text : Units)
  | formatException
  | divisionByZero
  | clientException
  | rangeError
  | typeError
  | noSuchMethod
  | argumentError
  | stateError
deriving DecidableEq, Repr

namespace ScriptError

/-- The exceptions that the source throws itself. -/
def Own : ScriptError → Prop
  | exception _ => True
  | _ => False

end ScriptError

/-! ### Variables -/

/-- A value of Dart; of those that are neither numbers nor texts only `toString` is known. -/
inductive ScriptValue where
  | int (n : ℤ)
  | string (s : Units)
  | other (text : Units)
deriving DecidableEq, Repr

/-- A reference to an object; `none` is null. -/
abbrev Ref := Option ℕ

/-- A variable with its list or map, if it has one. -/
structure RunVariable where
  isList : Bool := false
  isString : Bool := false
  isInteger : Bool := false
  isMap : Bool := false
  isReady : Bool := true
  list : Ref := none
  map : Ref := none
  value : Option ScriptValue := none
deriving DecidableEq, Repr

namespace RunVariable

def fromInt (n : ℤ) : RunVariable := { isInteger := true, value := some (.int n) }

def fromString (s : Option Units) : RunVariable := { isString := true, value := s.map .string }

def ofList (l : ℕ) : RunVariable := { isList := true, list := some l }

def ofMap (m : ℕ) : RunVariable := { isMap := true, map := some m }

/-- A variable without a value. -/
def notReady : RunVariable := { isReady := false }

/-- `value as int`. -/
def asInt (v : RunVariable) : Except ScriptError (Option ℤ) :=
  match v.value with
  | none => .ok none
  | some (.int n) => .ok (some n)
  | some _ => .error .typeError

/-- `value as String`. -/
def asString (v : RunVariable) : Except ScriptError (Option Units) :=
  match v.value with
  | none => .ok none
  | some (.string s) => .ok (some s)
  | some _ => .error .typeError

/-- `value.toString()`. -/
def valueText (v : RunVariable) : Units :=
  match v.value with
  | none => units "null"
  | some (.int n) => (intToString n).flatMap encodeChar
  | some (.string s) => s
  | some (.other text) => text

/-- One flag is set, and it tells the type of the value; without a value no flag is set. -/
inductive WellFormed : RunVariable → Prop where
  | notReady : WellFormed notReady
  | fromInt (n : ℤ) : WellFormed (fromInt n)
  | fromString (s : Units) : WellFormed (fromString (some s))
  | ofList (l : ℕ) : WellFormed (ofList l)
  | ofMap (m : ℕ) : WellFormed (ofMap m)

end RunVariable

/-! ### Memory -/

/-- The objects, by their addresses, and the number of requests that have been sent. -/
structure Memory where
  cells : List RunVariable := []
  lists : List (List Ref) := []
  maps : List (Map (Option Units) Ref) := []
  requests : ℕ := 0
deriving DecidableEq, Repr

/-- What a function does to the memory. -/
abbrev ScriptCall (α : Type) := Program.Operation Memory ScriptError α

namespace Memory

variable (s : Memory)

/-- The variable at an address. -/
def cell (a : ℕ) : RunVariable := s.cells.getD a .notReady

def list (l : ℕ) : List Ref := s.lists.getD l []

def map (m : ℕ) : Map (Option Units) Ref := s.maps.getD m []

/-- The variable of a reference. -/
def deref (r : Ref) : Option RunVariable := r.map s.cell

end Memory

namespace ScriptCall

def newVariable (v : RunVariable) : ScriptCall Ref := do
  let s ← get
  set { s with cells := s.cells ++ [v] }
  return some s.cells.length

def newList (rs : List Ref) : ScriptCall ℕ := do
  let s ← get
  set { s with lists := s.lists ++ [rs] }
  return s.lists.length

def newMap (entries : Map (Option Units) Ref) : ScriptCall ℕ := do
  let s ← get
  set { s with maps := s.maps ++ [entries] }
  return s.maps.length

def setVariable (a : ℕ) (v : RunVariable) : ScriptCall Unit :=
  modify fun s => { s with cells := s.cells.set a v }

def setList (l : ℕ) (rs : List Ref) : ScriptCall Unit :=
  modify fun s => { s with lists := s.lists.set l rs }

def setMap (m : ℕ) (entries : Map (Option Units) Ref) : ScriptCall Unit :=
  modify fun s => { s with maps := s.maps.set m entries }

/-- A call on null. -/
def onNull {α : Type} : Option α → ScriptCall α
  | some a => return a
  | none => throw .noSuchMethod

/-- The variable of a reference on which something is called. -/
def deref (r : Ref) : ScriptCall RunVariable := do
  onNull ((← get).deref r)

end ScriptCall

end Violet
