import Violet.Dart.Text
import Violet.Script.RunVariable

/-!
# The functions of scripts

Each function checks its arguments by hand, which are any number of values or null. Most functions
compute a text or a number from their arguments; the others read and change lists and maps.
-/

namespace Violet

open Dart

/-! ### What the functions rest on -/

/-- What `jsonDecode` returns. Of a number with a fraction only its text is known. -/
inductive Json where
  | null
  | bool (b : Bool)
  | int (n : ℤ)
  | double (text : Units)
  | string (s : Units)
  | list (elements : List Json)
  | map (entries : List (Units × Json))

/-- `jsonDecode`, where `none` is a format exception, and the network: what the request with a
number gets for an address and headers, where `none` is an exception. -/
structure ScriptPlatform where
  jsonDecode : Units → Option Json
  get : ℕ → Units → Map (Option Units) (Option Units) → Option Units

/-- No text is JSON, and no request gets an answer. -/
def ScriptPlatform.offline : ScriptPlatform := ⟨fun _ => none, fun _ _ _ => none⟩

namespace ScriptBuiltIn

/-- `int.parse(…, radix: 16)`, where `none` is a format exception. -/
def hexParse (s : Units) : Option ℤ :=
  let parse (neg : Bool) (ds : Str) : Option ℤ :=
    (parseHex ds).bind fun n =>
      if neg then (if n ≤ 2 ^ 63 then some (-(n : ℤ)) else none)
      else if n < 2 ^ 63 then some n
      else none
  match Dart.trim s.toStr with
  | '-' :: ds => parse true ds
  | '+' :: ds => parse false ds
  | ds => parse false ds

/-- Numbers have 64 bits. -/
def wrap (n : ℤ) : ℤ := n.bmod (2 ^ 64)

/-- `substring`; without an end it goes to the end of the text. -/
def substring (s : Units) (start : ℤ) (stop : Option ℤ) : Except ScriptError Units :=
  let stop := stop.getD s.length
  if 0 ≤ start ∧ start ≤ stop ∧ stop ≤ s.length then
    .ok ((s.take stop.toNat).drop start.toNat)
  else .error .rangeError

/-- The unit at a place. -/
def unitAt (s : Units) (i : ℤ) : Except ScriptError UInt16 :=
  match s[i.toNat]? with
  | some u => if 0 ≤ i then .ok u else .error .rangeError
  | none => .error .rangeError

lemma substring_eq {s before part after : Units} {start : ℤ} {stop : Option ℤ}
    (hs : s = before ++ part ++ after) (hstart : start = before.length)
    (hstop : stop.getD s.length = before.length + part.length) :
    substring s start stop = .ok part := by
  have hlength : s.length = before.length + part.length + after.length := by
    rw [hs, List.length_append, List.length_append]
  have hstop' : (stop.getD s.length).toNat = (before ++ part).length := by
    rw [List.length_append]
    omega
  rw [substring, hstart, if_pos (by omega), hstop', hs, List.take_left, Int.toNat_natCast,
    List.drop_left]

lemma unitAt_eq {s : Units} {i : ℕ} {u : UInt16} (h : s[i]? = some u) : unitAt s i = .ok u := by
  rw [unitAt, Int.toNat_natCast, h]
  exact if_pos (Int.natCast_nonneg i)

/-- `String.fromCharCode`. -/
def fromCharCode (n : ℤ) : Except ScriptError Units :=
  if n < 0 ∨ 0x10FFFF < n then .error .rangeError
  else if n < 0x10000 then .ok [.ofNat n.toNat]
  else
    let n := n.toNat - 0x10000
    .ok [.ofNat (0xD800 + n / 0x400), .ofNat (0xDC00 + n % 0x400)]

def ofBool (b : Bool) : ℤ := if b then 1 else 0

/-! ### Arguments -/

/-- The arguments, where `none` is null. -/
abbrev Args := List (Option RunVariable)

/-- `args[i]`, of which a field is read. -/
def argument (args : Args) (i : ℕ) : Except ScriptError RunVariable :=
  match args[i]? with
  | none => .error .rangeError
  | some none => .error .noSuchMethod
  | some (some v) => .ok v

/-- `args[i].value as int` -/
def intAt (args : Args) (i : ℕ) : Except ScriptError (Option ℤ) := do
  (← argument args i).asInt

/-- `args[i].value as String` -/
def textAt (args : Args) (i : ℕ) : Except ScriptError (Option Units) := do
  (← argument args i).asString

/-- `if (!args[0].f) throw` -/
def checkFirst (f : RunVariable → Bool) (args : Args) (text : String) :
    Except ScriptError Unit := do
  if f (← argument args 0) then return
  throw (.exception (units text))

/-- `if (!args[0].f && !args[1].g) throw` -/
def checkEither (f g : RunVariable → Bool) (args : Args) (text : String) :
    Except ScriptError Unit := do
  if f (← argument args 0) then return
  if g (← argument args 1) then return
  throw (.exception (units text))

/-! ### String functions -/

/-- A function of a text; `null` is what it throws for null. -/
def ofText {α : Type} (args : Args) (text : String) (null : ScriptError)
    (f : Units → Except ScriptError α) : Except ScriptError α := do
  checkFirst (·.isString) args text
  match ← textAt args 0 with
  | some s => f s
  | none => throw null

/-- A function of two texts. -/
def ofTexts {α : Type} (args : Args) (text : String) (f : Units → Units → α) :
    Except ScriptError α := do
  checkEither (·.isString) (·.isString) args text
  match ← textAt args 0, ← textAt args 1 with
  | some s, some t => return f s t
  | _, _ => throw .noSuchMethod

/-- A function of a text and a place. -/
def ofTextAt {α : Type} (args : Args) (text : String) (f : UInt16 → α) :
    Except ScriptError α := do
  checkEither (·.isString) (·.isInteger) args text
  match ← textAt args 0, ← intAt args 1 with
  | some s, some i => return f (← unitAt s i)
  | some _, none => throw .argumentError
  | none, _ => throw .noSuchMethod

def strReplace (args : Args) : Except ScriptError Units := do
  if !(← argument args 0).isString then
    checkEither (·.isString) (·.isString) args.tail
      "[RUNNER-FUNCTION] Replace argument type error!"
  match ← textAt args 0, ← textAt args 1, ← textAt args 2 with
  | some s, some pattern, some sub => return s.replaceAll pattern sub
  | some _, _, _ => throw .argumentError
  | none, _, _ => throw .noSuchMethod

/-- `args.any((element) => element.isList || element.isMap)` -/
def anyCompound : Args → Except ScriptError Bool
  | [] => return false
  | none :: _ => throw .noSuchMethod
  | some v :: args => if v.isList || v.isMap then return true else anyCompound args

def strConcat (args : Args) : Except ScriptError Units := do
  if ← anyCompound args then
    throw (.exception (units
      "[RUNNER-FUNCTION] Concat arguments must be integer or string type!"))
  return args.flatMap fun v => v.elim [] RunVariable.valueText

def strIndexOf (args : Args) : Except ScriptError ℤ :=
  ofTexts args "[RUNNER-FUNCTION] IndexOf arguments must be string type!" fun s t =>
    (s.indexOf? t).elim (-1) (fun i => (i : ℤ))

/-- Are the first two arguments no text and no number? -/
def substrMistyped (args : Args) : Except ScriptError Bool := do
  if (← argument args 0).isString then return false
  return !(← argument args 1).isInteger

def strSubstr (args : Args) : Except ScriptError Units := do
  let text := "[RUNNER-FUNCTION] Substr argument type error!"
  if ← substrMistyped args then throw (.exception (units text))
  if args.length > 3 || args.length ≤ 1 then throw (.exception (units text))
  if args.length = 3 then
    if !(← argument args 2).isInteger then throw (.exception (units text))
  let s ← textAt args 0
  let start ← intAt args 1
  let stop ← if args.length = 2 then pure none else intAt args 2
  match s, start with
  | some s, some start => substring s start stop
  | _, _ => throw .noSuchMethod

def strLen (args : Args) : Except ScriptError ℤ :=
  ofText args "[RUNNER-FUNCTION] Len argument type error!" .noSuchMethod fun s =>
    return (s.length : ℤ)

def strTrim (args : Args) : Except ScriptError Units :=
  ofText args "[RUNNER-FUNCTION] Trim argument type error!" .noSuchMethod fun s => return s.trim

def strLTrim (args : Args) : Except ScriptError Units :=
  ofText args "[RUNNER-FUNCTION] LTrim argument type error!" .noSuchMethod fun s =>
    return s.trimLeft

def strRTrim (args : Args) : Except ScriptError Units :=
  ofText args "[RUNNER-FUNCTION] RTrim argument type error!" .noSuchMethod fun s =>
    return s.trimRight

def strAt (args : Args) : Except ScriptError Units :=
  ofTextAt args "[RUNNER-FUNCTION] At argument type error!" fun u => [u]

def strIsInt (args : Args) : Except ScriptError ℤ :=
  ofText args "[RUNNER-FUNCTION] IsInt argument type error!" .argumentError fun s =>
    return ofBool s.intParse.isSome

def strIsHexInt (args : Args) : Except ScriptError ℤ :=
  ofText args "[RUNNER-FUNCTION] IsHexInt argument type error!" .argumentError fun s =>
    return ofBool (hexParse s).isSome

/-- What `int.parse` returns or throws. -/
def parsed : Option ℤ → Except ScriptError ℤ
  | some n => return n
  | none => throw .formatException

def strToInt (args : Args) : Except ScriptError ℤ :=
  ofText args "[RUNNER-FUNCTION] ToInt argument type error!" .argumentError fun s =>
    parsed s.intParse

def strHexToInt (args : Args) : Except ScriptError ℤ :=
  ofText args "[RUNNER-FUNCTION] HexToInt argument type error!" .argumentError fun s =>
    parsed (hexParse s)

def strCodeUnitAt (args : Args) : Except ScriptError ℤ :=
  ofTextAt args "[RUNNER-FUNCTION] CodeUnitAt argument type error!" fun u => (u.toNat : ℤ)

def strFromCharCode (args : Args) : Except ScriptError Units := do
  checkFirst (·.isInteger) args "[RUNNER-FUNCTION] FromCharCode argument type error!"
  match ← intAt args 0 with
  | some n => fromCharCode n
  | none => throw .noSuchMethod

/-! ### Integer functions -/

/-- A function of two numbers. -/
def ofInts (args : Args) (text : String) (f : ℤ → ℤ → Except ScriptError ℤ) :
    Except ScriptError ℤ := do
  checkEither (·.isInteger) (·.isInteger) args text
  match ← intAt args 0, ← intAt args 1 with
  | some a, some b => f a b
  | _, _ => throw .noSuchMethod

def intToString (args : Args) : Except ScriptError Units := do
  checkFirst (·.isInteger) args "[RUNNER-FUNCTION] ToString argument type error!"
  match ← intAt args 0 with
  | some n => return (Dart.intToString n).flatMap encodeChar
  | none => return units "null"

def intAdd (args : Args) : Except ScriptError ℤ :=
  ofInts args "[RUNNER-FUNCTION] Add argument type error!" fun a b => return wrap (a + b)

def intSub (args : Args) : Except ScriptError ℤ :=
  ofInts args "[RUNNER-FUNCTION] Subtract argument type error!" fun a b => return wrap (a - b)

def intMul (args : Args) : Except ScriptError ℤ :=
  ofInts args "[RUNNER-FUNCTION] Multiple argument type error!" fun a b => return wrap (a * b)

def intDiv (args : Args) : Except ScriptError ℤ :=
  ofInts args "[RUNNER-FUNCTION] Divide argument type error!" fun a b =>
    if b = 0 then throw .divisionByZero else return wrap (a.tdiv b)

def intRemain (args : Args) : Except ScriptError ℤ :=
  ofInts args "[RUNNER-FUNCTION] Remain argument type error!" fun a b =>
    if b = 0 then throw .divisionByZero else return a % b

/-! ### Logic functions -/

/-- `(args[i].value as int) != 0`, which null is not either. -/
def nonZeroAt (args : Args) (i : ℕ) : Except ScriptError Bool := do
  return (← intAt args i) ≠ some 0

def logicAnd (args : Args) : Except ScriptError ℤ := do
  checkEither (·.isInteger) (·.isInteger) args "[RUNNER-FUNCTION] Logic And argument type error!"
  if ← nonZeroAt args 0 then return ofBool (← nonZeroAt args 1) else return 0

def logicOr (args : Args) : Except ScriptError ℤ := do
  checkEither (·.isInteger) (·.isInteger) args "[RUNNER-FUNCTION] Logic Or argument type error!"
  if ← nonZeroAt args 0 then return 1 else return ofBool (← nonZeroAt args 1)

def logicNot (args : Args) : Except ScriptError ℤ := do
  checkFirst (·.isInteger) args "[RUNNER-FUNCTION] Logic Not argument type error!"
  return ofBool !(← nonZeroAt args 0)

def logicXor (args : Args) : Except ScriptError ℤ := do
  checkEither (·.isInteger) (·.isInteger) args "[RUNNER-FUNCTION] Logic Xor argument type error!"
  return ofBool ((← nonZeroAt args 0) != (← nonZeroAt args 1))

def logicGr (args : Args) : Except ScriptError ℤ :=
  ofInts args "[RUNNER-FUNCTION] Logic Gr argument type error!" fun a b => return ofBool (a > b)

def logicGre (args : Args) : Except ScriptError ℤ :=
  ofInts args "[RUNNER-FUNCTION] Logic Gre argument type error!" fun a b => return ofBool (a ≥ b)

def logicLs (args : Args) : Except ScriptError ℤ :=
  ofInts args "[RUNNER-FUNCTION] Logic Ls argument type error!" fun a b => return ofBool (a < b)

def logicLse (args : Args) : Except ScriptError ℤ :=
  ofInts args "[RUNNER-FUNCTION] Logic Lse argument type error!" fun a b => return ofBool (a ≤ b)

/-- Are two values equal? They are compared as numbers or else as texts. -/
def sameAt (args : Args) (text : String) : Except ScriptError Bool := do
  let a ← argument args 0
  let b ← argument args 1
  if a.isInteger ≠ b.isInteger ∨ a.isString ≠ b.isString then throw (.exception (units text))
  if a.isInteger then return (← intAt args 0) = (← intAt args 1)
  return (← textAt args 0) = (← textAt args 1)

def logicEq (args : Args) : Except ScriptError ℤ := do
  return ofBool (← sameAt args "[RUNNER-FUNCTION] Logic Eq argument type error!")

def logicNeq (args : Args) : Except ScriptError ℤ := do
  return ofBool !(← sameAt args "[RUNNER-FUNCTION] Logic Neq argument type error!")

def logicStringContains (args : Args) : Except ScriptError ℤ :=
  ofTexts args "[RUNNER-FUNCTION] Logic String Contains argument type error!" fun s t =>
    ofBool (s.contains t)

def logicStringStartsWith (args : Args) : Except ScriptError ℤ :=
  ofTexts args "[RUNNER-FUNCTION] Logic String StartsWith argument type error!" fun s t =>
    ofBool (s.startsWith t)

def logicStringEndsWith (args : Args) : Except ScriptError ℤ :=
  ofTexts args "[RUNNER-FUNCTION] Logic String EndsWith argument type error!" fun s t =>
    ofBool (s.endsWith t)

/-! ### Functions of lists and maps -/

open ScriptCall

/-- The arguments as they are now. -/
def read (args : List Ref) : ScriptCall Args := return args.map (← get).deref

/-- `args[i]` -/
def referenceAt (args : List Ref) (i : ℕ) : ScriptCall Ref :=
  match args[i]? with
  | some r => return r
  | none => throw .rangeError

def strSplit (args : List Ref) : ScriptCall Ref := do
  let parts ← ofTexts (← read args) "[RUNNER-FUNCTION] Split argument type error!" Units.split
  let rs ← parts.mapM fun part => newVariable (.fromString (some part))
  newVariable (.ofList (← newList rs))

def mapMapCreate (_ : List Ref) : ScriptCall Ref := do
  newVariable (.ofMap (← newMap []))

def mapMapInsert (args : List Ref) : ScriptCall Ref := do
  let cells ← read args
  checkEither (·.isMap) (·.isString) cells "[RUNNER-FUNCTION] MapInstert argument type error!"
  let v ← argument cells 0
  let key ← textAt cells 1
  let r ← referenceAt args 2
  let m ← onNull v.map
  setMap m (((← get).map m).set key r)
  newVariable .notReady

mutual

/-- An element of a JSON list; it is null for null, truth values and fractions. -/
def ofJson : Json → ScriptCall Ref
  | .string s => newVariable (.fromString (some s))
  | .int n => newVariable (.fromInt n)
  | .map entries => do newVariable (.ofMap (← newMap (← fromMapJsonInternal entries [])))
  | .list elements => do newVariable (.ofList (← newList (← fromListJsonInternal elements)))
  | .null | .bool _ | .double _ => return none

def fromListJsonInternal : List Json → ScriptCall (List Ref)
  | [] => return []
  | e :: elements => do return (← ofJson e) :: (← fromListJsonInternal elements)

/-- The entries are put into the result, without those that would be null. -/
def fromMapJsonInternal :
    List (Units × Json) → Map (Option Units) Ref → ScriptCall (Map (Option Units) Ref)
  | [], result => return result
  | (key, value) :: entries, result => do
    match ← ofJson value with
    | some a => fromMapJsonInternal entries (result.set (some key) (some a))
    | none => fromMapJsonInternal entries result

end

/-- `jsonDecode(args[0].value as String)` -/
def decoded (P : ScriptPlatform) (cells : Args) : ScriptCall Json := do
  match P.jsonDecode (← onNull (← textAt cells 0)) with
  | some json => return json
  | none => throw .formatException

def mapFromJson (P : ScriptPlatform) (args : List Ref) : ScriptCall Ref := do
  let cells ← read args
  checkFirst (·.isString) cells "[RUNNER-FUNCTION] MapFromJson argument type error!"
  match ← decoded P cells with
  | .map entries => newVariable (.ofMap (← newMap (← fromMapJsonInternal entries [])))
  | _ => throw (.exception (units
      "[RUNNER-FUNCTION] MapFromJson only parse json_option! Try ListFromJson!"))

def mapKeys (args : List Ref) : ScriptCall Ref := do
  let cells ← read args
  checkFirst (·.isMap) cells "[RUNNER-FUNCTION] MapKeys argument type error!"
  let m ← onNull (← argument cells 0).map
  let rs ← ((← get).map m).mapM fun e => newVariable (.fromString e.1)
  newVariable (.ofList (← newList rs))

def logicMapContainsKey (args : List Ref) : ScriptCall Ref := do
  let cells ← read args
  checkEither (·.isMap) (·.isString) cells
    "[RUNNER-FUNCTION] Logic ContainsKey argument type error!"
  let v ← argument cells 0
  let key ← textAt cells 1
  let m ← onNull v.map
  newVariable (.fromInt (ofBool (((← get).map m).containsKey key)))

def listCreate (_ : List Ref) : ScriptCall Ref := do
  newVariable (.ofList (← newList []))

def listFromJson (P : ScriptPlatform) (args : List Ref) : ScriptCall Ref := do
  let cells ← read args
  checkFirst (·.isString) cells "[RUNNER-FUNCTION] ListFromJson argument type error!"
  match ← decoded P cells with
  | .list elements => newVariable (.ofList (← newList (← fromListJsonInternal elements)))
  | _ => throw (.exception (units
      "[RUNNER-FUNCTION] ListFromJson only parse json_array! Try ListFromJson!"))

/-- `if (!args[0].isList || !args[1].isInteger) throw` -/
def checkPlace (cells : Args) (text : String) : Except ScriptError Unit := do
  checkFirst (·.isList) cells text
  if (← argument cells 1).isInteger then return
  throw (.exception (units text))

/-- A place of a list of a length. -/
def placeIn (length : ℕ) (i : ℤ) : ScriptCall ℕ :=
  if 0 ≤ i ∧ i < length then return i.toNat else throw .rangeError

/-- It is called with two arguments but takes three. -/
def listInsert (args : List Ref) : ScriptCall Ref := do
  let cells ← read args
  checkPlace cells "[RUNNER-FUNCTION] List Insert argument type error!"
  let v ← argument cells 0
  let r ← referenceAt args 2
  let l ← onNull v.list
  match ← intAt cells 1 with
  | none => throw .argumentError
  | some i =>
    let rs := (← get).list l
    setList l (rs.insertIdx (← placeIn (rs.length + 1) i) r)
    newVariable .notReady

def listAppend (args : List Ref) : ScriptCall Ref := do
  let cells ← read args
  checkFirst (·.isList) cells "[RUNNER-FUNCTION] List Append argument type error!"
  let v ← argument cells 0
  let r ← referenceAt args 1
  let l ← onNull v.list
  setList l ((← get).list l ++ [r])
  newVariable .notReady

/-- It is called with one argument but takes two. -/
def listRemoveAt (args : List Ref) : ScriptCall Ref := do
  let cells ← read args
  checkPlace cells "[RUNNER-FUNCTION] List RemoveAt argument type error!"
  let v ← argument cells 0
  let l ← onNull v.list
  match ← intAt cells 1 with
  | none => throw .argumentError
  | some i =>
    let rs := (← get).list l
    setList l (rs.eraseIdx (← placeIn rs.length i))
    newVariable .notReady

/-- The headers of a map. -/
def headers : Map (Option Units) Ref → ScriptCall (Map (Option Units) (Option Units))
  | [] => return []
  | e :: entries => do
    let value ← (← deref e.2).asString
    return (e.1, value) :: (← headers entries)

/-- `http.get` -/
def request (P : ScriptPlatform) (address : Units) (header : Map (Option Units) (Option Units)) :
    ScriptCall Units := do
  let s ← get
  match P.get s.requests address header with
  | some body =>
    set { s with requests := s.requests + 1 }
    return body
  | none => throw .clientException

def httpDownload (P : ScriptPlatform) (args : List Ref) : ScriptCall Ref := do
  let text := "[RUNNER-FUNCTION] HTTP Download argument type error!"
  let cells ← read args
  if args.length ≥ 3 then throw (.exception (units text))
  checkFirst (·.isString) cells text
  if args.length = 2 then
    if !(← argument cells 1).isMap then throw (.exception (units text))
  let header ← if args.length = 1 then pure [] else do
    headers ((← get).map (← onNull (← argument cells 1).map))
  let body ← request P (← onNull (← textAt cells 0)) header
  newVariable (.fromString (some body))

/-! ### The table -/

/-- What a function returns: a text, a number, or a value that it puts together itself. -/
inductive BuiltIn where
  | print
  | string (f : Args → Except ScriptError Units)
  | integer (f : Args → Except ScriptError ℤ)
  | call (f : List Ref → ScriptCall Ref)

/-- The functions with the numbers of their arguments, where `none` is any number. -/
def refMap (P : ScriptPlatform) : List (Units × BuiltIn × Option ℕ) := [
  (units "print", .print, none),
  (units "split", .call strSplit, some 2),
  (units "replace", .string strReplace, some 3),
  (units "concat", .string strConcat, none),
  (units "indexof", .integer strIndexOf, some 2),
  (units "substr", .string strSubstr, none),
  (units "len", .integer strLen, some 1),
  (units "trim", .string strTrim, some 1),
  (units "ltrim", .string strLTrim, some 1),
  (units "rtrim", .string strRTrim, some 1),
  (units "at", .string strAt, some 2),
  (units "isint", .integer strIsInt, some 1),
  (units "ishexint", .integer strIsHexInt, some 1),
  (units "toint", .integer strToInt, some 1),
  (units "hextoint", .integer strHexToInt, some 1),
  (units "codeunitat", .integer strCodeUnitAt, some 2),
  (units "fromcharcode", .string strFromCharCode, some 1),
  (units "mapcreate", .call mapMapCreate, some 0),
  (units "mapinsert", .call mapMapInsert, some 3),
  (units "mapfromjson", .call (mapFromJson P), some 1),
  (units "mapkeys", .call mapKeys, some 1),
  (units "tostring", .string intToString, some 1),
  (units "add", .integer intAdd, some 2),
  (units "sub", .integer intSub, some 2),
  (units "mul", .integer intMul, some 2),
  (units "div", .integer intDiv, some 2),
  (units "mod", .integer intRemain, some 2),
  (units "and", .integer logicAnd, some 2),
  (units "or", .integer logicOr, some 2),
  (units "xor", .integer logicXor, some 2),
  (units "not", .integer logicNot, some 1),
  (units "gr", .integer logicGr, some 2),
  (units "gre", .integer logicGre, some 2),
  (units "ls", .integer logicLs, some 2),
  (units "lse", .integer logicLse, some 2),
  (units "eq", .integer logicEq, some 2),
  (units "neq", .integer logicNeq, some 2),
  (units "contains", .integer logicStringContains, some 2),
  (units "containskey", .call logicMapContainsKey, some 2),
  (units "startswith", .integer logicStringStartsWith, some 2),
  (units "endswith", .integer logicStringEndsWith, some 2),
  (units "listcreate", .call listCreate, some 0),
  (units "insert", .call listInsert, some 2),
  (units "append", .call listAppend, some 2),
  (units "removeat", .call listRemoveAt, some 1),
  (units "listfromjson", .call (listFromJson P), some 1),
  (units "download", .call (httpDownload P), none)]

/-- The function of a name for a number of arguments. -/
def select (P : ScriptPlatform) (name : Units) (count : ℕ) : Except ScriptError BuiltIn :=
  match (refMap P).lookup name with
  | none =>
    .error (.exception (units "[RUNNER-FUNCTION] " ++ name ++ units " function not found!"))
  | some (f, arity) =>
    if arity.all (· = count) then .ok f
    else .error (.exception (units "[RUNNER-FUNCTION] " ++ name ++
      units " arguments count is not matched!"))

end ScriptBuiltIn

end Violet
