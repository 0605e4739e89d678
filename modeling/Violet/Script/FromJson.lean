import Violet.Script.Elements

/-!
# JSON

What is made of JSON is converted back to the same value, if the value has no null, no truth values
and no fractions in it.
-/

namespace Violet

open Dart Program Prog Operation ScriptBuiltIn ScriptCall ScriptIsolate

namespace Json

/-- JSON of strings, integers, arrays and objects. -/
inductive Portable : Json → Prop
  | string (s : Units) : Portable (.string s)
  | int (n : ℤ) : Portable (.int n)
  | list {elements : List Json} (h : ∀ e ∈ elements, Portable e) : Portable (.list elements)
  | map {entries : List (Units × Json)} (hkeys : (Map.keys entries).Nodup)
      (h : ∀ e ∈ entries, Portable e.2) : Portable (.map entries)

/-- The same value as an element of a list or a map. -/
def element : Json → Element
  | .null | .bool _ | .double _ => .null
  | .int n => .int n
  | .string s => .string s
  | .list elements => .list (elements.map element)
  | .map entries => .map (entries.map fun e => (some e.1, element e.2))
decreasing_by
  · decreasing_tactic
  · obtain ⟨k, v⟩ := e
    have := List.sizeOf_lt_of_mem ‹_›
    simp only [Prod.mk.sizeOf_spec] at this
    simp only [map.sizeOf_spec]
    omega

/-- The entries of an object with their elements. -/
def elements (entries : List (Units × Json)) : Map (Option Units) Element :=
  entries.map fun e => (some e.1, e.2.element)

lemma keys_elements (entries : List (Units × Json)) :
    (elements entries).keys = (Map.keys entries).map some := by
  simp [elements, Map.keys]

lemma element_list (es : List Json) : (list es).element = .list (es.map element) := by
  rw [element]

lemma element_map (entries : List (Units × Json)) :
    (map entries).element = .map (elements entries) := by
  rw [element, elements]

end Json

/-- Entries with different keys stay as they are. -/
lemma ofEntries_of_nodup {entries : Map (Option Units) Element} (h : entries.keys.Nodup) :
    Element.ofEntries entries = .map entries := by
  suffices hfold : ∀ done : Map (Option Units) Element, (done ++ entries : Map _ _).keys.Nodup →
      entries.foldl (fun map e => Map.set map e.1 e.2) done = done ++ entries by
    rw [Element.ofEntries, hfold [] h, List.nil_append]
  clear h
  induction entries with
  | nil => exact fun done _ => (List.append_nil done).symm
  | cons e entries ih =>
    intro done hnodup
    have hnotmem : e.1 ∉ Map.keys done := by
      rw [Map.keys, List.map_append, List.nodup_append] at hnodup
      exact fun hmem => hnodup.2.2 e.1 hmem e.1 List.mem_cons_self rfl
    rw [List.foldl_cons, Map.set_of_notMem hnotmem, ih _ (by simpa using hnodup),
      List.append_assoc, List.singleton_append]

namespace Memory

variable {s s' s'' : Memory} {r : Ref} {rs : List Ref} {e : Element} {v : RunVariable}

/-- What is in a memory is in another one as well. -/
structure RemainsIn (s s' : Memory) : Prop where
  cells : s.cells <+: s'.cells
  lists : s.lists <+: s'.lists
  maps : s.maps <+: s'.maps

lemma RemainsIn.refl (s : Memory) : s.RemainsIn s :=
  ⟨List.prefix_refl _, List.prefix_refl _, List.prefix_refl _⟩

lemma RemainsIn.trans (h : s.RemainsIn s') (h' : s'.RemainsIn s'') : s.RemainsIn s'' :=
  ⟨h.cells.trans h'.cells, h.lists.trans h'.lists, h.maps.trans h'.maps⟩

lemma getD_concat {α : Type} {l l' : List α} {a : α} (h : l ++ [a] <+: l') (d : α) :
    l'.getD l.length d = a := by
  obtain ⟨t, rfl⟩ := h
  simp

/-! ### Conversion -/

/-- Wherever the memory remains, the reference is converted to the element. -/
def Exports (s : Memory) (r : Ref) (e : Element) : Prop :=
  ∃ depth, ∀ d ≥ depth, ∀ s', s.RemainsIn s' → s'.toElement d r = some (.ok e)

lemma Exports.mono (h : s.Exports r e) (hs : s.RemainsIn s') : s'.Exports r e := by
  obtain ⟨depth, hdepth⟩ := h
  exact ⟨depth, fun d hd t ht => hdepth d hd t (hs.trans ht)⟩

/-- The entries have the same keys, and their references are converted to the elements. -/
def ExportsAll (s : Memory) (m : Map (Option Units) Ref) (entries : Map (Option Units) Element) :
    Prop :=
  List.Forall₂ (fun x e => x.1 = e.1 ∧ s.Exports x.2 e.2) m entries

lemma ExportsAll.mono {m : Map (Option Units) Ref} {entries : Map (Option Units) Element}
    (h : s.ExportsAll m entries) (hs : s.RemainsIn s') : s'.ExportsAll m entries :=
  List.Forall₂.imp (fun _ _ hx => ⟨hx.1, hx.2.mono hs⟩) h

lemma ExportsAll.keys {m : Map (Option Units) Ref} {entries : Map (Option Units) Element}
    (h : s.ExportsAll m entries) : m.keys = entries.keys := by
  induction h with
  | nil => rfl
  | cons hx _ ih => exact congrArg₂ List.cons hx.1 ih

/-- Results that are there from some depth on, one after the other. -/
lemma exists_collect {α β : Type} {f : Memory → ℕ → α → Option (Except ScriptError β)}
    {as : List α} {bs : List β}
    (h : List.Forall₂ (fun a b => ∃ depth, ∀ d ≥ depth, ∀ s', s.RemainsIn s' →
      f s' d a = some (.ok b)) as bs) :
    ∃ depth, ∀ d ≥ depth, ∀ s', s.RemainsIn s' → collect (f s' d) as = some (.ok bs) := by
  induction h with
  | nil => exact ⟨0, fun _ _ _ _ => rfl⟩
  | cons hhead _ ih =>
    obtain ⟨d1, h1⟩ := hhead
    obtain ⟨d2, h2⟩ := ih
    refine ⟨max d1 d2, fun d hd t ht => ?_⟩
    rw [collect, h1 d ((le_max_left _ _).trans hd) t ht, h2 d ((le_max_right _ _).trans hd) t ht]
    rfl

end Memory

/-! ### Import -/

/-- The call returns, takes nothing out of the memory and leaves it with a property. -/
def Builds {α : Type} (Q : α → Memory → Prop) (c : ScriptCall α) (s : Memory) : Prop :=
  ∃ a s', c s = .ok (a, s') ∧ s.RemainsIn s' ∧ Q a s'

section

variable {α β : Type} {Q : α → Memory → Prop} {R : β → Memory → Prop} {c : ScriptCall α}
  {f : α → ScriptCall β} {s : Memory}

lemma builds_pure {a : α} (h : Q a s) : Builds Q (pure a) s := ⟨a, s, rfl, .refl s, h⟩

lemma Builds.bind (h : Builds Q c s) (hf : ∀ a s', s.RemainsIn s' → Q a s' → Builds R (f a) s') :
    Builds R (c >>= f) s := by
  obtain ⟨a, s', hc, hs, hQ⟩ := h
  obtain ⟨b, t, ht, hst, hR⟩ := hf a s' hs hQ
  exact ⟨b, t, bind_run_eq_ok.mpr ⟨a, s', hc, ht⟩, hs.trans hst, hR⟩

/-- A part that only reads. -/
lemma builds_run_bind {a : α} (hc : c s = .ok (a, s)) (h : Builds R (f a) s) :
    Builds R (c >>= f) s := by
  obtain ⟨b, s', hf, hs, hR⟩ := h
  exact ⟨b, s', bind_run_eq_ok.mpr ⟨a, s, hc, hf⟩, hs, hR⟩

end

variable {s : Memory} {rs : List Ref} {es : List Element}

/-- A reference is returned that is converted to the element. -/
def ConvertsTo (e : Element) (r : Ref) (s : Memory) : Prop := r ≠ none ∧ s.Exports r e

/-- A new variable, and how it is converted in the memories in which it is. -/
lemma builds_newVariable {v : RunVariable} {e : Element}
    (h : ∃ depth, ∀ d ≥ depth, ∀ s', s.RemainsIn s' → ∀ r, s'.deref r = some v →
      s'.toElement (d + 1) r = some (.ok e)) : Builds (ConvertsTo e) (newVariable v) s := by
  obtain ⟨depth, hdepth⟩ := h
  have hs : s.RemainsIn { s with cells := s.cells ++ [v] } :=
    ⟨List.prefix_append _ _, List.prefix_refl _, List.prefix_refl _⟩
  refine ⟨_, _, rfl, hs, Option.some_ne_none _, depth + 1, fun d hd t ht => ?_⟩
  obtain ⟨d, rfl⟩ := Nat.exists_eq_add_of_le' ((Nat.le_add_left 1 depth).trans hd)
  refine hdepth d (Nat.le_of_succ_le_succ hd) t (hs.trans ht) _ ?_
  rw [Memory.deref, Option.map_some, Memory.cell, Memory.getD_concat ht.cells]

lemma builds_newList (rs : List Ref) :
    Builds (fun l s' => ∀ t, s'.RemainsIn t → t.list l = rs) (newList rs) s :=
  ⟨_, _, rfl, ⟨List.prefix_refl _, List.prefix_append _ _, List.prefix_refl _⟩,
    fun _ ht => Memory.getD_concat ht.lists []⟩

lemma builds_newMap (entries : Map (Option Units) Ref) :
    Builds (fun m s' => ∀ t, s'.RemainsIn t → t.map m = entries) (newMap entries) s :=
  ⟨_, _, rfl, ⟨List.prefix_refl _, List.prefix_refl _, List.prefix_append _ _⟩,
    fun _ ht => Memory.getD_concat ht.maps []⟩

/-- A list of references that are converted to the elements. -/
lemma builds_ofList (h : List.Forall₂ s.Exports rs es) :
    Builds (ConvertsTo (.list es)) (do newVariable (.ofList (← newList rs))) s := by
  refine (builds_newList rs).bind fun l s' hs hl => builds_newVariable ?_
  obtain ⟨depth, hdepth⟩ := Memory.exists_collect h
  refine ⟨depth, fun d hd t ht r hr => ?_⟩
  rw [Memory.toElement, hr]
  simp [RunVariable.ofList, hl t ht, hdepth d hd t (hs.trans ht), Except.map]

/-- A map with different keys. -/
lemma builds_ofMap {m : Map (Option Units) Ref} {entries : Map (Option Units) Element}
    (hkeys : entries.keys.Nodup)
    (h : s.ExportsAll m entries) :
    Builds (ConvertsTo (.map entries)) (do newVariable (.ofMap (← newMap m))) s := by
  refine (builds_newMap m).bind fun l s' hs hl => builds_newVariable ?_
  have hcollect : ∃ depth, ∀ d ≥ depth, ∀ s', s.RemainsIn s' →
      collect (fun e => (s'.toElement d e.2).map fun r => r.map fun a => (e.1, a)) m =
        some (.ok entries) := by
    refine Memory.exists_collect (List.Forall₂.imp (fun x e hx => ?_) h)
    obtain ⟨hkey, depth, hdepth⟩ := hx
    refine ⟨depth, fun d hd t ht => ?_⟩
    rw [hdepth d hd t ht, hkey]
    rfl
  obtain ⟨depth, hdepth⟩ := hcollect
  refine ⟨depth, fun d hd t ht r hr => ?_⟩
  rw [Memory.toElement, hr]
  simp only [RunVariable.ofMap, Bool.false_eq_true, if_false, if_true, hl t ht,
    hdepth d hd t (hs.trans ht), Option.map_some]
  rw [Except.map, ofEntries_of_nodup hkeys]

/-- The elements of a list are built one after the other. -/
lemma builds_fromListJsonInternal {elements : List Json} (s : Memory)
    (h : ∀ e ∈ elements, ∀ s, Builds (ConvertsTo e.element) (ofJson e) s) :
    Builds (fun rs s' => List.Forall₂ s'.Exports rs (elements.map Json.element))
      (fromListJsonInternal elements) s := by
  induction elements generalizing s with
  | nil =>
    rw [fromListJsonInternal]
    exact builds_pure .nil
  | cons e elements ih =>
    obtain ⟨he, helements⟩ := List.forall_mem_cons.mp h
    rw [fromListJsonInternal]
    refine (he s).bind fun r s1 _ hr => (ih s1 helements).bind fun rs s2 hs hrs => ?_
    exact builds_pure (.cons (hr.2.mono hs) hrs)

/-- The entries of an object are put behind the ones that are there. -/
lemma builds_fromMapJsonInternal {entries : List (Units × Json)} (s : Memory)
    (h : ∀ e ∈ entries, ∀ s, Builds (ConvertsTo e.2.element) (ofJson e.2) s)
    {m : Map (Option Units) Ref} (done : List (Units × Json))
    (hkeys : (Map.keys (done ++ entries)).Nodup) (hm : s.ExportsAll m (Json.elements done)) :
    Builds (fun m' s' => s'.ExportsAll m' (Json.elements (done ++ entries)))
      (fromMapJsonInternal entries m) s := by
  induction entries generalizing s m done with
  | nil =>
    rw [fromMapJsonInternal, List.append_nil]
    exact builds_pure hm
  | cons e entries ih =>
    obtain ⟨key, value⟩ := e
    obtain ⟨hvalue, hentries⟩ := List.forall_mem_cons.mp h
    rw [fromMapJsonInternal]
    refine (hvalue s).bind fun r s1 hs hr => ?_
    obtain ⟨a, rfl⟩ := Option.ne_none_iff_exists'.mp hr.1
    have hnew : some key ∉ m.keys := by
      rw [hm.keys, Json.keys_elements]
      rw [Map.keys, List.map_append, List.nodup_append] at hkeys
      exact fun hmem => hkeys.2.2 key (by simpa [Map.keys] using hmem) key List.mem_cons_self rfl
    have hset : s1.ExportsAll (m.set (some key) (some a))
        (Json.elements (done ++ [(key, value)])) := by
      rw [Map.set_of_notMem hnew, Json.elements, List.map_append]
      exact List.rel_append (hm.mono hs) (.cons ⟨rfl, hr.2⟩ .nil)
    rw [← List.singleton_append, ← List.append_assoc] at hkeys ⊢
    exact ih s1 hentries _ hkeys hset

/-- The variable of a portable value is converted back to it. -/
theorem builds_ofJson {json : Json} (h : json.Portable) (s : Memory) :
    Builds (ConvertsTo json.element) (ofJson json) s := by
  induction h generalizing s with
  | string t =>
    rw [ofJson]
    refine builds_newVariable ⟨0, fun d _ s' _ r hr => ?_⟩
    simp [Memory.toElement, hr, RunVariable.fromString, RunVariable.asString, Json.element,
      Except.map]
  | int n =>
    rw [ofJson]
    refine builds_newVariable ⟨0, fun d _ s' _ r hr => ?_⟩
    simp [Memory.toElement, hr, RunVariable.fromInt, RunVariable.asInt, Json.element, Except.map]
  | list _ ih =>
    rw [ofJson, Json.element_list]
    exact (builds_fromListJsonInternal s ih).bind fun rs s' _ hrs => builds_ofList hrs
  | map hkeys _ ih =>
    rw [ofJson, Json.element_map]
    refine (builds_fromMapJsonInternal s ih [] hkeys .nil).bind fun m s' _ hm => ?_
    refine builds_ofMap ?_ hm
    rw [Json.keys_elements]
    exact hkeys.map (Option.some_injective _)

/-! ### Export -/

namespace Memory

variable {s : Memory} {r : Ref} {d : ℕ}

lemma scalar_ne {α : Type} {x : Except ScriptError (Option α)} {f : α → Element} {e : Element}
    (h : x.map (fun o => o.elim .null f) = .ok e) : e = .null ∨ ∃ a, e = f a := by
  cases x with
  | error _ => cases h
  | ok o =>
    cases o with
    | none => exact .inl (Except.ok.inj h).symm
    | some a => exact .inr ⟨a, (Except.ok.inj h).symm⟩

/-- What a variable is converted to tells its type. -/
lemma exists_of_toElement {e : Element} (h : s.toElement d r = some (.ok e)) :
    ∃ v, s.deref r = some v ∧ (∀ es, e = .list es → v.isList) ∧ ∀ es, e = .map es → v.isMap := by
  cases d with
  | zero => cases h
  | succ d =>
    rw [toElement] at h
    cases hv : s.deref r with
    | none => simp [hv] at h
    | some v =>
      refine ⟨v, rfl, ?_⟩
      simp only [hv] at h
      split_ifs at h with hint hstring hlist hmap
      · rcases scalar_ne (Option.some.inj h) with rfl | ⟨n, rfl⟩ <;> simp
      · rcases scalar_ne (Option.some.inj h) with rfl | ⟨t, rfl⟩ <;> simp
      · refine ⟨fun _ _ => hlist, ?_⟩
        rintro es rfl
        cases hl : v.list with
        | none => simp [hl] at h
        | some l =>
          simp only [hl] at h
          obtain ⟨x, -, hx⟩ := Option.map_eq_some_iff.mp h
          cases x <;> cases hx
      · refine ⟨?_, fun _ _ => hmap⟩
        rintro es rfl
        cases hm : v.map with
        | none => simp [hm] at h
        | some m =>
          simp only [hm] at h
          obtain ⟨x, -, hx⟩ := Option.map_eq_some_iff.mp h
          cases x <;> cases hx
      · cases h

lemma toList_of_toElement {es : List Element} (h : s.toElement d r = some (.ok (.list es))) :
    s.toList d r = some (.ok es) := by
  obtain ⟨v, hv, hlist, -⟩ := exists_of_toElement h
  simp [toList, hv, hlist es rfl, h, Except.bind]

lemma toMap_of_toElement {entries : Map (Option Units) Element}
    (h : s.toElement d r = some (.ok (.map entries))) : s.toMap d r = some (.ok entries) := by
  obtain ⟨v, hv, -, hmap⟩ := exists_of_toElement h
  simp [toMap, hv, hmap entries rfl, h, Except.bind]

/-- The reference leads to a variable with the text. -/
def HasText (s : Memory) (r : Ref) (text : Units) : Prop :=
  ∃ v, s.deref r = some v ∧ v.isString ∧ v.value = some (.string text)

end Memory

variable {P : ScriptPlatform} {r : Ref} {text : Units}

/-- The check and the decoding in front of an import. -/
lemma builds_decoded {json : Json} {message : String} {Q : Ref → Memory → Prop}
    {f : Json → ScriptCall Ref} (hr : s.HasText r text) (hdecode : P.jsonDecode text = some json)
    (h : Builds Q (f json) s) :
    Builds Q (do
      let cells ← read [r]
      checkFirst (·.isString) cells message
      f (← decoded P cells)) s := by
  obtain ⟨v, hv, hstring, hvalue⟩ := hr
  have hread : read [r] s = .ok ([some v], s) := by
    rw [← hv]
    rfl
  have hcheck : (liftM (checkFirst (·.isString) [some v] message) : ScriptCall Unit) s =
      .ok ((), s) := by
    refine lift_run_eq_ok.mpr ⟨bind_eq_ok.mpr ⟨v, rfl, ?_⟩, rfl⟩
    rw [if_pos hstring]
    rfl
  have hdecoded : decoded P [some v] s = .ok (json, s) := by
    have htext : v.asString = .ok (some text) := by rw [RunVariable.asString, hvalue]
    refine bind_run_eq_ok.mpr ⟨some text, s, lift_run_eq_ok.mpr ⟨htext, rfl⟩, ?_⟩
    refine bind_run_eq_ok.mpr ⟨text, s, rfl, ?_⟩
    rw [hdecode]
    rfl
  exact builds_run_bind hread (builds_run_bind hcheck (builds_run_bind hdecoded h))

lemma builds_listFromJson {elements : List Json} (hr : s.HasText r text)
    (hdecode : P.jsonDecode text = some (.list elements)) (h : (Json.list elements).Portable) :
    Builds (ConvertsTo (.list (elements.map Json.element))) (listFromJson P [r]) s := by
  have hjson := builds_ofJson h s
  rw [ofJson, Json.element_list] at hjson
  exact builds_decoded hr hdecode hjson

lemma builds_mapFromJson {entries : List (Units × Json)} (hr : s.HasText r text)
    (hdecode : P.jsonDecode text = some (.map entries)) (h : (Json.map entries).Portable) :
    Builds (ConvertsTo (.map (Json.elements entries))) (mapFromJson P [r]) s := by
  have hjson := builds_ofJson h s
  rw [ofJson, Json.element_map] at hjson
  exact builds_decoded hr hdecode hjson

/-- A call of an imported function in the runner. -/
lemma Builds.completes {s : ScriptIsolate} (name : Units) {f : List Ref → ScriptCall Ref}
    {e : Element} (hselect : select P name 1 = .ok (.call f))
    (h : Builds (ConvertsTo e) (f [r]) s.memory) :
    ∃ r' s', (runBuiltIn P name [r]).Completes s r' s' ∧ s'.stack = s.stack ∧
      s.memory.RemainsIn s'.memory ∧ s'.memory.Exports r' e := by
  obtain ⟨r', memory, hrun, hs, -, he⟩ := h
  refine ⟨r', { s with memory }, ?_, rfl, hs, he⟩
  rw [runBuiltIn, List.length_singleton, hselect]
  exact completes_perform.mpr (onMemory_eq_ok.mpr ⟨memory, hrun, rfl⟩)

/-- Importing a portable value returns a variable, which is converted back to the value wherever
what has been built remains. -/
theorem exports_imported (P : ScriptPlatform) {json : Json} (h : json.Portable) {text : Units}
    (hdecode : P.jsonDecode text = some json) (s : ScriptIsolate) {r : Ref}
    (hr : s.memory.HasText r text) :
    (∀ elements, json = .list elements →
      ∃ r' s', (runBuiltIn P (units "listfromjson") [r]).Completes s r' s' ∧
        ∃ depth, ∀ d ≥ depth, ∀ memory, s'.memory.RemainsIn memory →
          memory.toList d r' = some (.ok (elements.map Json.element))) ∧
      ∀ entries, json = .map entries →
        ∃ r' s', (runBuiltIn P (units "mapfromjson") [r]).Completes s r' s' ∧
          ∃ depth, ∀ d ≥ depth, ∀ memory, s'.memory.RemainsIn memory →
            memory.toMap d r' = some (.ok (Json.elements entries)) := by
  constructor
  · rintro elements rfl
    obtain ⟨r', s', hrun, -, -, depth, hdepth⟩ :=
      (builds_listFromJson hr hdecode h).completes (units "listfromjson") rfl
    exact ⟨r', s', hrun, depth, fun d hd memory hmemory =>
      Memory.toList_of_toElement (hdepth d hd memory hmemory)⟩
  · rintro entries rfl
    obtain ⟨r', s', hrun, -, -, depth, hdepth⟩ :=
      (builds_mapFromJson hr hdecode h).completes (units "mapfromjson") rfl
    exact ⟨r', s', hrun, depth, fun d hd memory hmemory =>
      Memory.toMap_of_toElement (hdepth d hd memory hmemory)⟩

/-- `[1,{"a":"x"}]` -/
def numberAndObjectText : Units := units "[1,\x7b\"a\":\"x\"\x7d]"

def numberAndObject : List Json :=
  [.int 1, .map [(units "a", .string (units "x"))]]

/-- A decoder that knows one text. -/
def decodesOne : ScriptPlatform where
  jsonDecode text :=
    if text = numberAndObjectText then some (.list numberAndObject) else none
  get _ _ _ := none

theorem exports_imported_nested : ∃ r s',
    (runBuiltIn decodesOne (units "listfromjson") [some 0]).Completes
      ⟨{ cells := [.fromString (some numberAndObjectText)] }, []⟩ r s' ∧
      ∃ depth, ∀ d ≥ depth, ∀ memory, s'.memory.RemainsIn memory →
        memory.toList d r =
          some (.ok [.int 1, .map [(some (units "a"), .string (units "x"))]]) := by
  have hportable : (Json.list numberAndObject).Portable := by
    refine .list (List.forall_mem_cons.mpr ⟨.int 1, List.forall_mem_singleton.mpr ?_⟩)
    exact .map (by simp [Map.keys]) (List.forall_mem_singleton.mpr (.string _))
  have hr : Memory.HasText { cells := [.fromString (some numberAndObjectText)] } (some 0)
      numberAndObjectText := ⟨_, rfl, rfl, rfl⟩
  have hexports := (exports_imported decodesOne hportable (if_pos rfl)
    ⟨{ cells := [.fromString (some numberAndObjectText)] }, []⟩ hr).1 _ rfl
  simpa [numberAndObject, Json.element] using hexports

end Violet
