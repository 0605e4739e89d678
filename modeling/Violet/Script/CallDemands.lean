import Violet.Script.Demands

/-!
# What the functions of lists and maps demand

Behind the check of its flag the list or the map of the first argument is looked up. The demands of
all functions make up a table beside that of the functions.
-/

namespace Violet

open Dart Program Operation ScriptBuiltIn ScriptCall

/-! ### Functions of lists and maps -/

section

variable {α β : Type} {v w : RunVariable} {s : Memory} {r q : Ref}

lemma total_newVariable (v : RunVariable) : Total (newVariable v) := fun _ => ⟨_, rfl⟩

lemma total_newList (rs : List Ref) : Total (newList rs) := fun _ => ⟨_, rfl⟩

lemma total_newMap (entries : Map (Option Units) Ref) : Total (newMap entries) := fun _ => ⟨_, rfl⟩

lemma total_setList (l : ℕ) (rs : List Ref) : Total (setList l rs) := fun _ => ⟨_, rfl⟩

lemma total_setMap (m : ℕ) (entries : Map (Option Units) Ref) : Total (setMap m entries) :=
  fun _ => ⟨_, rfl⟩

lemma total_ofList (rs : List Ref) : Total (do newVariable (.ofList (← newList rs))) :=
  (total_newList rs).bind fun _ => total_newVariable _

lemma total_ofMap (entries : Map (Option Units) Ref) :
    Total (do newVariable (.ofMap (← newMap entries))) :=
  (total_newMap entries).bind fun _ => total_newVariable _

mutual

/-- Whatever JSON is made to values. -/
lemma total_ofJson : (json : Json) → Total (ofJson json)
  | .string _ | .int _ => by
    rw [ofJson]
    exact total_newVariable _
  | .map entries => by
    rw [ofJson]
    exact (total_fromMapJsonInternal entries []).bind fun m => total_ofMap m
  | .list elements => by
    rw [ofJson]
    exact (total_fromListJsonInternal elements).bind fun rs => total_ofList rs
  | .null | .bool _ | .double _ => by
    rw [ofJson]
    exact total_pure none

lemma total_fromListJsonInternal : (elements : List Json) →
    Total (fromListJsonInternal elements)
  | [] => by
    rw [fromListJsonInternal]
    exact total_pure []
  | e :: elements => by
    rw [fromListJsonInternal]
    exact (total_ofJson e).bind fun r =>
      (total_fromListJsonInternal elements).bind fun rs => total_pure (r :: rs)

lemma total_fromMapJsonInternal : (entries : List (Units × Json)) →
    (result : Map (Option Units) Ref) → Total (fromMapJsonInternal entries result)
  | [], result => by
    rw [fromMapJsonInternal]
    exact total_pure result
  | (key, value) :: entries, result => by
    rw [fromMapJsonInternal]
    refine (total_ofJson value).bind fun r => ?_
    cases r with
    | none => exact total_fromMapJsonInternal entries result
    | some a => exact total_fromMapJsonInternal entries (result.set (some key) (some a))

end

/-- A variable with the flag of a list has one. -/
def OneList (v : Option RunVariable) : Prop := ∃ r, v = some r ∧ (r.isList → r.list ≠ none)

def OneMap (v : Option RunVariable) : Prop := ∃ r, v = some r ∧ (r.isMap → r.map ≠ none)

def MapAndKey (v w : Option RunVariable) : Prop :=
  EitherChecked (·.isMap) (·.isString) v w
    ((∃ r, v = some r ∧ r.map ≠ none) ∧ ∃ t, CastsText w t)

/-- The check has to fail: the argument behind the place is never there. -/
def NoPlace (v w : Option RunVariable) : Prop :=
  FirstChecked (·.isList) v (∃ r, w = some r ∧ r.isInteger = false)

/-- The headers are those of a map of texts. -/
def Heads (s : Memory) (entries : Map (Option Units) Ref)
    (header : Map (Option Units) (Option Units)) : Prop :=
  List.Forall₂ (fun e h => h.1 = e.1 ∧ CastsText (s.deref e.2) h.2) entries header

/-- The request gets an answer. -/
def Answered (P : ScriptPlatform) (s : Memory) (v : Option RunVariable)
    (header : Map (Option Units) (Option Units)) : Prop :=
  ∃ address, CastsText v (some address) ∧ P.get s.requests address header ≠ none

/-- The address is a text and the headers, if they are there, a map. The check throws for any other
number of arguments. -/
def Requested (P : ScriptPlatform) (s : Memory) : Args → Prop
  | [] => False
  | [v] => FirstChecked (·.isString) v (Answered P s v [])
  | [v, w] => FirstChecked (·.isString) v (FirstChecked (·.isMap) w (∃ r m header,
    w = some r ∧ r.map = some m ∧ Heads s (s.map m) header ∧ Answered P s v header))
  | _ => True

lemma read_bind_run (args : List Ref) (f : Args → ScriptCall α) :
    (read args >>= f) s = f (args.map s.deref) s := rfl

lemma deliberate_argument {args : Args} {i : ℕ} {v : Option RunVariable} (hv : args[i]? = some v)
    {f : RunVariable → Except ScriptError α} :
    Deliberate (argument args i >>= f) ↔ ∃ r, v = some r ∧ Deliberate (f r) := by
  rw [argument, hv]
  apply deliberate_of_null
  · rintro rfl
    rfl
  · rintro _ rfl
    rfl

lemma deliberate_onNull {x : Option β} {f : β → ScriptCall α} :
    Deliberate ((onNull x >>= f) s) ↔ ∃ a, x = some a ∧ Deliberate (f a s) := by
  apply deliberate_of_null
  · rintro rfl
    rfl
  · rintro _ rfl
    rfl

lemma deliberate_deref {f : RunVariable → ScriptCall α} :
    Deliberate ((deref r >>= f) s) ↔ ∃ v, s.deref r = some v ∧ Deliberate (f v s) := by
  change Deliberate ((onNull (s.deref r) >>= f) s) ↔ _
  exact deliberate_onNull

lemma deliberate_strSplit :
    Deliberate (strSplit [r, q] s) ↔ TwoTexts (s.deref r) (s.deref q) := by
  rw [strSplit, read_bind_run, Deliberate, throwsOnly_bind_of_forall, throwsOnly_lift_iff]
  · exact deliberate_ofTexts
  · intro parts s
    exact ((Total.mapM (fun _ => total_newVariable _) parts).bind fun rs =>
      total_ofList rs).throwsOnly

/-- A map is looked up, and a key is read, behind the check. -/
lemma deliberate_mapAndKey {args : Args} {v w : Option RunVariable} {text : String}
    {f : ℕ → Option Units → ScriptCall α} (hf : ∀ m key, Total (f m key)) :
    Deliberate ((liftM (checkEither (·.isMap) (·.isString) (v :: w :: args) text) >>= fun _ =>
      liftM (argument (v :: w :: args) 0) >>= fun r =>
      liftM (textAt (v :: w :: args) 1) >>= fun key =>
      onNull r.map >>= fun m => f m key : ScriptCall α) s) ↔ MapAndKey v w := by
  rw [lift_bind_run]
  refine deliberate_checkEither.trans (EitherChecked.congr ?_)
  rw [lift_bind_run, deliberate_argument (v := v) rfl]
  simp only [lift_bind_run]
  constructor
  · rintro ⟨r, hr, h⟩
    obtain ⟨t, ht, h⟩ := (deliberate_textAt (v := w) rfl).mp h
    obtain ⟨m, hm, -⟩ := deliberate_onNull.mp h
    exact ⟨⟨r, hr, by simp [hm]⟩, t, ht⟩
  · rintro ⟨⟨r, hr, hmap⟩, t, ht⟩
    obtain ⟨m, hm⟩ := Option.ne_none_iff_exists'.mp hmap
    refine ⟨r, hr, (deliberate_textAt (v := w) rfl).mpr ⟨t, ht, ?_⟩⟩
    exact deliberate_onNull.mpr ⟨m, hm, (hf m t).throwsOnly⟩

lemma total_get : Total (get : ScriptCall Memory) := fun s => ⟨(s, s), rfl⟩

lemma deliberate_mapMapInsert {t : Ref} :
    Deliberate (mapMapInsert [r, q, t] s) ↔ MapAndKey (s.deref r) (s.deref q) := by
  rw [mapMapInsert, read_bind_run]
  refine deliberate_mapAndKey (f := fun m key => do
    setMap m (((← get).map m).set key t)
    newVariable .notReady) fun m key => ?_
  exact total_get.bind fun _ => (total_setMap m _).bind fun _ => total_newVariable _

lemma deliberate_logicMapContainsKey :
    Deliberate (logicMapContainsKey [r, q] s) ↔ MapAndKey (s.deref r) (s.deref q) := by
  rw [logicMapContainsKey, read_bind_run]
  refine deliberate_mapAndKey (f := fun m key => do
    newVariable (.fromInt (ofBool (((← get).map m).containsKey key)))) fun m key => ?_
  exact total_get.bind fun _ => total_newVariable _

/-- Behind the check of a text, JSON is made of it. -/
lemma deliberate_decoded {P : ScriptPlatform} {args : Args} {v : Option RunVariable}
    {text : String} {f : Json → ScriptCall α} (hf : ∀ json s, Deliberate (f json s)) :
    Deliberate ((liftM (checkFirst (·.isString) (v :: args) text) >>= fun _ =>
      decoded P (v :: args) >>= f : ScriptCall α) s) ↔
      OneText (fun t => P.jsonDecode t ≠ none) v := by
  rw [lift_bind_run]
  refine deliberate_checkFirst.trans (FirstChecked.congr ?_)
  rw [Deliberate, throwsOnly_bind_of_forall hf, decoded, lift_bind_run]
  refine (deliberate_textAt (v := v) rfl).trans ?_
  constructor
  · rintro ⟨t, ht, h⟩
    obtain ⟨a, rfl, hmatch⟩ := deliberate_onNull.mp h
    refine ⟨a, ht, fun hnone => ?_⟩
    rw [hnone] at hmatch
    exact not_deliberate (e := .formatException) id hmatch
  · rintro ⟨a, ha, hjson⟩
    refine ⟨some a, ha, deliberate_onNull.mpr ⟨a, rfl, ?_⟩⟩
    obtain ⟨json, hjson⟩ := Option.ne_none_iff_exists'.mp hjson
    rw [hjson]
    exact throwsOnly_ok _

lemma deliberate_mapFromJson (P : ScriptPlatform) :
    Deliberate (mapFromJson P [r] s) ↔ OneText (fun t => P.jsonDecode t ≠ none) (s.deref r) := by
  rw [mapFromJson, read_bind_run]
  refine deliberate_decoded fun json s => ?_
  cases json with
  | map entries =>
    exact ((total_fromMapJsonInternal entries []).bind fun m => total_ofMap m).throwsOnly
  | _ => exact deliberate_exception _

lemma deliberate_listFromJson (P : ScriptPlatform) :
    Deliberate (listFromJson P [r] s) ↔
      OneText (fun t => P.jsonDecode t ≠ none) (s.deref r) := by
  rw [listFromJson, read_bind_run]
  refine deliberate_decoded fun json s => ?_
  cases json with
  | list elements =>
    exact ((total_fromListJsonInternal elements).bind fun rs => total_ofList rs).throwsOnly
  | _ => exact deliberate_exception _

/-- Behind the check of its flag, the list or the map of the first argument is looked up. -/
lemma deliberate_lookedUp (g : RunVariable → Bool) (field : RunVariable → Option ℕ) {args : Args}
    {v : Option RunVariable} {text : String} {f : ℕ → ScriptCall α} (hf : ∀ l, Total (f l)) :
    Deliberate ((liftM (checkFirst g (v :: args) text) >>= fun _ =>
      liftM (argument (v :: args) 0) >>= fun r => onNull (field r) >>= f : ScriptCall α) s) ↔
      ∃ r, v = some r ∧ (g r → field r ≠ none) := by
  rw [lift_bind_run]
  refine deliberate_checkFirst.trans (exists_congr fun r => and_congr_right fun hr => ?_)
  refine forall_congr' fun _ => ?_
  rw [lift_bind_run, deliberate_argument (v := v) rfl]
  constructor
  · rintro ⟨r', hr', h⟩
    obtain ⟨l, hl, -⟩ := deliberate_onNull.mp h
    obtain rfl := Option.some.inj (hr.symm.trans hr')
    simp [hl]
  · intro h
    obtain ⟨l, hl⟩ := Option.ne_none_iff_exists'.mp h
    exact ⟨r, hr, deliberate_onNull.mpr ⟨l, hl, (hf l).throwsOnly⟩⟩

lemma deliberate_mapKeys : Deliberate (mapKeys [r] s) ↔ OneMap (s.deref r) := by
  rw [mapKeys, read_bind_run, List.map_cons]
  refine deliberate_lookedUp (·.isMap) (·.map) fun m => ?_
  exact total_get.bind fun _ => (Total.mapM (fun _ => total_newVariable _) _).bind fun rs =>
    total_ofList rs

lemma deliberate_listAppend : Deliberate (listAppend [r, q] s) ↔ OneList (s.deref r) := by
  have hvalue : referenceAt [r, q] 1 = pure q := rfl
  rw [listAppend, read_bind_run, List.map_cons]
  simp only [hvalue, pure_bind]
  refine deliberate_lookedUp (·.isList) (·.list) fun l => ?_
  exact total_get.bind fun _ => (total_setList l _).bind fun _ => total_newVariable _

/-- The second argument is checked behind the first one. -/
lemma deliberate_checkPlace {args : Args} {v w : Option RunVariable} {text : String}
    {f : Unit → Except ScriptError α} (hw : (v :: args)[1]? = some w)
    (hf : ¬ Deliberate (f ())) :
    Deliberate (checkPlace (v :: args) text >>= f) ↔ NoPlace v w := by
  rw [checkPlace, bind_assoc, deliberate_checkFirst]
  refine FirstChecked.congr ?_
  rw [bind_assoc, deliberate_argument hw]
  refine exists_congr fun r => and_congr_right fun _ => ?_
  cases r.isInteger with
  | true => exact iff_of_false hf (by simp)
  | false => exact iff_of_true (deliberate_exception _) rfl

lemma deliberate_listInsert :
    Deliberate (listInsert [r, q] s) ↔ NoPlace (s.deref r) (s.deref q) := by
  rw [listInsert, read_bind_run, lift_bind_run]
  refine deliberate_checkPlace rfl fun h => ?_
  rw [lift_bind_run] at h
  obtain ⟨_, -, hthrow⟩ := (deliberate_argument (v := s.deref r) rfl).mp h
  exact not_deliberate (e := .rangeError) id hthrow

lemma deliberate_listRemoveAt :
    Deliberate (listRemoveAt [r] s) ↔ FirstChecked (·.isList) (s.deref r) False := by
  rw [listRemoveAt, read_bind_run, lift_bind_run]
  change Deliberate (checkPlace [s.deref r] _ >>= _) ↔ _
  rw [checkPlace, bind_assoc, deliberate_checkFirst]
  exact FirstChecked.congr (iff_of_false (not_deliberate (e := .rangeError) id) id)

/-! #### Requests -/

/-- The texts of a map are read one after the other. -/
lemma deliberate_headers {entries : Map (Option Units) Ref}
    {f : Map (Option Units) (Option Units) → ScriptCall α} :
    Deliberate ((headers entries >>= f) s) ↔
      ∃ header, Heads s entries header ∧ Deliberate (f header s) := by
  induction entries generalizing f with
  | nil =>
    constructor
    · intro h
      exact ⟨[], .nil, h⟩
    · rintro ⟨_, ⟨⟩, h⟩
      exact h
  | cons e entries ih =>
    rw [headers, bind_assoc, deliberate_deref]
    simp only [bind_assoc, lift_bind_run, deliberate_asString, ih, pure_bind]
    constructor
    · rintro ⟨v, hv, t, ht, header, hheader, h⟩
      exact ⟨_, .cons ⟨rfl, v, hv, ht⟩ hheader, h⟩
    · rintro ⟨_, hheads, h⟩
      obtain _ | ⟨⟨hkey, v, hv, ht⟩, hheader⟩ := hheads
      exact ⟨v, hv, _, ht, _, hheader, by rwa [← hkey]⟩

/-- The address is read, and the request is sent. -/
lemma deliberate_answered {P : ScriptPlatform} {args : Args} {v : Option RunVariable}
    {header : Map (Option Units) (Option Units)} (hv : args[0]? = some v) :
    Deliberate ((liftM (textAt args 0) >>= fun t => onNull t >>= fun address =>
      request P address header >>= fun body => newVariable (.fromString (some body)) :
        ScriptCall Ref) s) ↔ Answered P s v header := by
  rw [lift_bind_run, deliberate_textAt hv]
  simp only [deliberate_onNull]
  constructor
  · rintro ⟨_, ht, address, rfl, h⟩
    refine ⟨address, ht, fun hnone => ?_⟩
    rw [request, bind_assoc, get_bind_run, hnone] at h
    exact not_deliberate (e := .clientException) id h
  · rintro ⟨address, ht, hget⟩
    obtain ⟨body, hbody⟩ := Option.ne_none_iff_exists'.mp hget
    refine ⟨some address, ht, address, rfl, ?_⟩
    rw [request, bind_assoc, get_bind_run, hbody]
    exact throwsOnly_ok _

lemma deliberate_httpDownload (P : ScriptPlatform) (args : List Ref) :
    Deliberate (httpDownload P args s) ↔ Requested P s (args.map s.deref) := by
  rcases args with _ | ⟨r, _ | ⟨q, _ | ⟨t, args⟩⟩⟩
  · exact iff_of_false (not_deliberate (e := .rangeError) id) id
  · rw [httpDownload, read_bind_run]
    change Deliberate ((liftM (checkFirst (·.isString) [s.deref r] _) >>= _ : ScriptCall Ref) s) ↔ _
    rw [lift_bind_run]
    refine deliberate_checkFirst.trans (FirstChecked.congr ?_)
    exact deliberate_answered rfl
  · rw [httpDownload, read_bind_run]
    change Deliberate ((liftM (checkFirst (·.isString) [s.deref r, s.deref q] _) >>= _ :
      ScriptCall Ref) s) ↔ _
    rw [lift_bind_run]
    refine deliberate_checkFirst.trans (FirstChecked.congr ?_)
    rw [if_pos (show [r, q].length = 2 from rfl), lift_bind_run]
    refine (deliberate_argument (v := s.deref q) rfl).trans ?_
    refine exists_congr fun map => and_congr_right fun hmap => ?_
    refine (throwsOnly_check_iff trivial).trans (imp_congr (by simp) ?_)
    dsimp only
    rw [if_neg (by simp), get_bind_run, lift_bind_run]
    refine (deliberate_argument (v := s.deref q) rfl).trans ?_
    simp only [deliberate_onNull, deliberate_headers]
    constructor
    · rintro ⟨map', hmap', m, hm, header, hheads, h⟩
      exact ⟨map', m, header, hmap', hm, hheads, (deliberate_answered rfl).mp h⟩
    · rintro ⟨map', m, header, hmap', hm, hheads, h⟩
      exact ⟨map', hmap', m, hm, header, hheads, (deliberate_answered rfl).mpr h⟩
  · rw [httpDownload, read_bind_run]
    exact iff_of_true (deliberate_exception _) trivial

end

/-! ### The table -/

/-- What a function does for its arguments. -/
def ScriptBuiltIn.BuiltIn.run : BuiltIn → List Ref → ScriptCall Ref
  | .print, _ => newVariable .notReady
  | .string f, args => do newVariable (.fromString (some (← f (← read args))))
  | .integer f, args => do newVariable (.fromInt (← f (← read args)))
  | .call f, args => f args

/-- A demand on one argument. -/
def onOne (p : Option RunVariable → Prop) : Args → Prop
  | [v] => p v
  | _ => True

def onTwo (p : Option RunVariable → Option RunVariable → Prop) : Args → Prop
  | [v, w] => p v w
  | _ => True

def onThree (p : Option RunVariable → Option RunVariable → Option RunVariable → Prop) : Args → Prop
  | [v, w, u] => p v w u
  | _ => True

/-- What the functions of the table demand of their arguments. -/
def demands (P : ScriptPlatform) (s : Memory) : List (Units × (Args → Prop)) := [
  (units "print", fun _ => True),
  (units "split", onTwo TwoTexts),
  (units "replace", onThree Replaced),
  (units "concat", Concatenated),
  (units "indexof", onTwo TwoTexts),
  (units "substr", Cut),
  (units "len", onOne (OneText fun _ => True)),
  (units "trim", onOne (OneText fun _ => True)),
  (units "ltrim", onOne (OneText fun _ => True)),
  (units "rtrim", onOne (OneText fun _ => True)),
  (units "at", onTwo TextAndPlace),
  (units "isint", onOne (OneText fun _ => True)),
  (units "ishexint", onOne (OneText fun _ => True)),
  (units "toint", onOne (OneText fun t => t.intParse ≠ none)),
  (units "hextoint", onOne (OneText fun t => hexParse t ≠ none)),
  (units "codeunitat", onTwo TextAndPlace),
  (units "fromcharcode", onOne (OneInt CodePoint)),
  (units "mapcreate", fun _ => True),
  (units "mapinsert", onThree fun v w _ => MapAndKey v w),
  (units "mapfromjson", onOne (OneText fun t => P.jsonDecode t ≠ none)),
  (units "mapkeys", onOne OneMap),
  (units "tostring", onOne (OneInt fun _ => True)),
  (units "add", onTwo (Operands .add)),
  (units "sub", onTwo (Operands .sub)),
  (units "mul", onTwo (Operands .mul)),
  (units "div", onTwo (Operands .div)),
  (units "mod", onTwo (Operands .mod)),
  (units "and", onTwo (Operands .and)),
  (units "or", onTwo (Operands .or)),
  (units "xor", onTwo (Operands .xor)),
  (units "not", onOne (OneInt fun _ => True)),
  (units "gr", onTwo (Operands .gr)),
  (units "gre", onTwo (Operands .gre)),
  (units "ls", onTwo (Operands .ls)),
  (units "lse", onTwo (Operands .lse)),
  (units "eq", onTwo Alike),
  (units "neq", onTwo Alike),
  (units "contains", onTwo TwoTexts),
  (units "containskey", onTwo MapAndKey),
  (units "startswith", onTwo TwoTexts),
  (units "endswith", onTwo TwoTexts),
  (units "listcreate", fun _ => True),
  (units "insert", onTwo NoPlace),
  (units "append", onTwo fun v _ => OneList v),
  (units "removeat", onOne fun v => FirstChecked (·.isList) v False),
  (units "listfromjson", onOne (OneText fun t => P.jsonDecode t ≠ none)),
  (units "download", Requested P s)]

/-- The function can use its arguments exactly when they meet the demand. -/
def HasDemand (s : Memory) (f : Units × BuiltIn × Option ℕ) (d : Units × (Args → Prop)) : Prop :=
  f.1 = d.1 ∧ ∀ args, f.2.2.all (· = args.length) = true →
    (Deliberate (f.2.1.run args s) ↔ d.2 (args.map s.deref))

section

variable {s : Memory} {name : Units} {f : BuiltIn}

lemma hasDemand_any {arity : Option ℕ} {d : Args → Prop}
    (h : ∀ args, Deliberate (f.run args s) ↔ d (args.map s.deref)) :
    HasDemand s (name, f, arity) (name, d) :=
  ⟨rfl, fun args _ => h args⟩

lemma hasDemand_one {p : Option RunVariable → Prop}
    (h : ∀ r, Deliberate (f.run [r] s) ↔ p (s.deref r)) :
    HasDemand s (name, f, some 1) (name, onOne p) := by
  refine ⟨rfl, fun args hlength => ?_⟩
  obtain ⟨r, rfl⟩ := List.length_eq_one_iff.mp (of_decide_eq_true hlength).symm
  exact h r

lemma hasDemand_two {p : Option RunVariable → Option RunVariable → Prop}
    (h : ∀ r q, Deliberate (f.run [r, q] s) ↔ p (s.deref r) (s.deref q)) :
    HasDemand s (name, f, some 2) (name, onTwo p) := by
  refine ⟨rfl, fun args hlength => ?_⟩
  obtain ⟨r, q, rfl⟩ := List.length_eq_two.mp (of_decide_eq_true hlength).symm
  exact h r q

lemma hasDemand_three {p : Option RunVariable → Option RunVariable → Option RunVariable → Prop}
    (h : ∀ r q t, Deliberate (f.run [r, q, t] s) ↔ p (s.deref r) (s.deref q) (s.deref t)) :
    HasDemand s (name, f, some 3) (name, onThree p) := by
  refine ⟨rfl, fun args hlength => ?_⟩
  obtain ⟨r, q, t, rfl⟩ := List.length_eq_three.mp (of_decide_eq_true hlength).symm
  exact h r q t

/-- A text or a number is put into a new variable. -/
lemma deliberate_string {f : Args → Except ScriptError Units} {args : List Ref} :
    Deliberate ((BuiltIn.string f).run args s) ↔ Deliberate (f (args.map s.deref)) := by
  rw [BuiltIn.run, read_bind_run, Deliberate,
    throwsOnly_bind_of_forall fun _ _ => (total_newVariable _).throwsOnly, throwsOnly_lift_iff]

lemma deliberate_integer {f : Args → Except ScriptError ℤ} {args : List Ref} :
    Deliberate ((BuiltIn.integer f).run args s) ↔ Deliberate (f (args.map s.deref)) := by
  rw [BuiltIn.run, read_bind_run, Deliberate,
    throwsOnly_bind_of_forall fun _ _ => (total_newVariable _).throwsOnly, throwsOnly_lift_iff]

/-- Something is computed from a text. -/
lemma deliberate_ofText_ok {v : Option RunVariable} {α : Type} {text : String} {e : ScriptError}
    (he : ¬ e.Own) {g : Units → α} :
    Deliberate (ofText [v] text e fun t => .ok (g t)) ↔ OneText (fun _ => True) v := by
  rw [deliberate_ofText he]
  simp only [OneText, Deliberate, throwsOnly_ok]

/-- A number is read from a text. -/
lemma deliberate_ofText_parsed {v : Option RunVariable} {text : String} {g : Units → Option ℤ} :
    Deliberate (ofText [v] text .argumentError fun t => parsed (g t)) ↔
      OneText (fun t => g t ≠ none) v := by
  have hparsed (n : Option ℤ) : Deliberate (parsed n) ↔ n ≠ none := by
    cases n with
    | none => exact iff_of_false (not_deliberate (e := .formatException) id) (not_not.mpr rfl)
    | some n => exact iff_of_true (throwsOnly_ok n) (Option.some_ne_none n)
  rw [deliberate_ofText id]
  simp only [OneText, hparsed]

end

lemma hasDemand_operator {s : Memory} {name : Units} (op : IntOperator) (hop : op.arity = 2) :
    HasDemand s (name, .integer op.builtIn, some 2) (name, onTwo (Operands op)) :=
  hasDemand_two fun _ _ => deliberate_integer.trans (deliberate_operator hop)

/-- Each function of the table has its demand. -/
theorem hasDemand_refMap (P : ScriptPlatform) (s : Memory) :
    List.Forall₂ (HasDemand s) (refMap P) (demands P s) := by
  refine .cons (hasDemand_any fun _ => iff_of_true (throwsOnly_ok _) trivial) ?_
  refine .cons (hasDemand_two fun _ _ => deliberate_strSplit) ?_
  refine .cons (hasDemand_three fun _ _ _ => deliberate_string.trans deliberate_strReplace) ?_
  refine .cons (hasDemand_any fun _ => deliberate_string.trans deliberate_strConcat) ?_
  refine .cons (hasDemand_two fun _ _ => deliberate_integer.trans deliberate_ofTexts) ?_
  refine .cons (hasDemand_any fun _ => deliberate_string.trans deliberate_strSubstr) ?_
  refine .cons (hasDemand_one fun _ => deliberate_integer.trans (deliberate_ofText_ok id)) ?_
  refine .cons (hasDemand_one fun _ => deliberate_string.trans (deliberate_ofText_ok id)) ?_
  refine .cons (hasDemand_one fun _ => deliberate_string.trans (deliberate_ofText_ok id)) ?_
  refine .cons (hasDemand_one fun _ => deliberate_string.trans (deliberate_ofText_ok id)) ?_
  refine .cons (hasDemand_two fun _ _ => deliberate_string.trans deliberate_ofTextAt) ?_
  refine .cons (hasDemand_one fun _ => deliberate_integer.trans (deliberate_ofText_ok id)) ?_
  refine .cons (hasDemand_one fun _ => deliberate_integer.trans (deliberate_ofText_ok id)) ?_
  refine .cons (hasDemand_one fun _ => deliberate_integer.trans deliberate_ofText_parsed) ?_
  refine .cons (hasDemand_one fun _ => deliberate_integer.trans deliberate_ofText_parsed) ?_
  refine .cons (hasDemand_two fun _ _ => deliberate_integer.trans deliberate_ofTextAt) ?_
  refine .cons (hasDemand_one fun _ => deliberate_string.trans deliberate_strFromCharCode) ?_
  refine .cons (hasDemand_any fun _ => iff_of_true (throwsOnly_ok _) trivial) ?_
  refine .cons (hasDemand_three fun _ _ _ => deliberate_mapMapInsert) ?_
  refine .cons (hasDemand_one fun _ => deliberate_mapFromJson P) ?_
  refine .cons (hasDemand_one fun _ => deliberate_mapKeys) ?_
  refine .cons (hasDemand_one fun _ => deliberate_string.trans deliberate_intToString) ?_
  refine .cons (hasDemand_operator .add rfl) ?_
  refine .cons (hasDemand_operator .sub rfl) ?_
  refine .cons (hasDemand_operator .mul rfl) ?_
  refine .cons (hasDemand_operator .div rfl) ?_
  refine .cons (hasDemand_operator .mod rfl) ?_
  refine .cons (hasDemand_operator .and rfl) ?_
  refine .cons (hasDemand_operator .or rfl) ?_
  refine .cons (hasDemand_operator .xor rfl) ?_
  refine .cons (hasDemand_one fun _ => deliberate_integer.trans deliberate_logicNot) ?_
  refine .cons (hasDemand_operator .gr rfl) ?_
  refine .cons (hasDemand_operator .gre rfl) ?_
  refine .cons (hasDemand_operator .ls rfl) ?_
  refine .cons (hasDemand_operator .lse rfl) ?_
  refine .cons (hasDemand_two fun _ _ => deliberate_integer.trans deliberate_sameAt) ?_
  refine .cons (hasDemand_two fun _ _ => deliberate_integer.trans deliberate_sameAt) ?_
  refine .cons (hasDemand_two fun _ _ => deliberate_integer.trans deliberate_ofTexts) ?_
  refine .cons (hasDemand_two fun _ _ => deliberate_logicMapContainsKey) ?_
  refine .cons (hasDemand_two fun _ _ => deliberate_integer.trans deliberate_ofTexts) ?_
  refine .cons (hasDemand_two fun _ _ => deliberate_integer.trans deliberate_ofTexts) ?_
  refine .cons (hasDemand_any fun _ => iff_of_true (throwsOnly_ok _) trivial) ?_
  refine .cons (hasDemand_two fun _ _ => deliberate_listInsert) ?_
  refine .cons (hasDemand_two fun _ _ => deliberate_listAppend) ?_
  refine .cons (hasDemand_one fun _ => deliberate_listRemoveAt) ?_
  refine .cons (hasDemand_one fun _ => deliberate_listFromJson P) ?_
  refine .cons (hasDemand_any fun _ => deliberate_httpDownload P _) ?_
  exact .nil

/-- A function that is called by its name can use its arguments. -/
def Demanded (P : ScriptPlatform) (s : Memory) (name : Units) (args : Args) : Prop :=
  ∀ d, (demands P s).lookup name = some d → d args

theorem deliberate_iff_demanded {P : ScriptPlatform} {s : Memory} {name : Units} {f : BuiltIn}
    {arity : Option ℕ} {args : List Ref} (h : (refMap P).lookup name = some (f, arity))
    (harity : arity.all (· = args.length) = true) :
    Deliberate (f.run args s) ↔ Demanded P s name (args.map s.deref) := by
  obtain ⟨d, hd, hdemand⟩ := lookup_of_forall₂ (fun _ _ h => h.1) (hasDemand_refMap P s) h
  rw [hdemand.2 args harity]
  constructor
  · intro hargs d' hd'
    exact Option.some.inj (hd.symm.trans hd') ▸ hargs
  · intro hdemanded
    exact hdemanded d hd

end Violet
