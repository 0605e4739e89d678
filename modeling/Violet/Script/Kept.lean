import Violet.Script.Region
import Violet.Script.Runs

/-!
# What the operations keep

A property of the variables and of the references is kept by every operation of the runner, as long
as the calls and the counters of loops do not break it.
-/

namespace Violet

open Dart Program Operation ScriptBuiltIn ScriptIsolate

namespace ScriptIsolate

/-- The variable of a name in the frame on top. -/
def topVariable (s : ScriptIsolate) (name : Units) : Option RunVariable :=
  s.memory.deref (s.stack.head?.bind fun f => (f.entries s.memory).get? (some name)).join

end ScriptIsolate

namespace Region

variable {R : Region} {P : ScriptPlatform} {s s' : ScriptIsolate} {l : ScriptEvent} {α : Type}
  {op : ScriptStep α} {out : α → List Ref} {a : α}

/-- The memory and the frames have the property. -/
structure HoldsIn (R : Region) (s : ScriptIsolate) : Prop where
  memory : R.Holds s.memory
  frames : ∀ f ∈ s.stack, ∀ e ∈ f.entries s.memory, R.ref e.2

/-- The operation does not break the property: no null comes from JSON or from the keys of a map
unless null has the property, and a variable keeps it when it gets a counter. -/
def Admits (R : Region) (P : ScriptPlatform) : ScriptEvent → ScriptIsolate → Prop
  | .builtIn name args, s =>
    (name = units "mapfromjson" → R.ref none ∨ WholeMap P (args.map s.memory.deref)) ∧
    (name = units "listfromjson" → R.ref none ∨ WholeList P (args.map s.memory.deref)) ∧
    (name = units "mapkeys" →
      R.cell (.fromString none) ∨ HasKeys s.memory (args.map s.memory.deref))
  | .loop _ i1 _, s => ∀ v n, s.memory.deref i1 = Option.some v → v.isInteger → v.asInt = .ok n →
      R.cell { isInteger := true, value := n.map .int }
  | .counter name ii1 ii2, s => ∀ v n k, s.topVariable name = Option.some v →
      ii1 = Option.some n → ii2 = Option.some k → n ≤ k →
      R.cell { v with value := Option.some (.int n) }
  | _, _ => True

/-! ### The functions -/

/-- The functions that put together what they return. -/
lemma call_holds {name : Units} {args : List Ref} {f : List Ref → ScriptCall Ref}
    {arity : Option ℕ} {m m' : Memory} {r : Ref}
    (hlookup : (refMap P).lookup name = Option.some (.call f, arity)) (hm : R.Holds m)
    (hargs : ∀ r ∈ args, R.ref r)
    (hmap : name = units "mapfromjson" → R.ref none ∨ WholeMap P (args.map m.deref))
    (hlist : name = units "listfromjson" → R.ref none ∨ WholeList P (args.map m.deref))
    (hkeys : name = units "mapkeys" → R.cell (.fromString none) ∨ HasKeys m (args.map m.deref))
    (h : f args m = .ok (r, m')) : R.Holds m' ∧ R.ref r := by
  obtain ⟨l1, l2, hsplit, -⟩ := List.lookup_eq_some_iff.mp hlookup
  have hmem : (name, BuiltIn.call f, arity) ∈ refMap P := by
    rw [hsplit]
    exact List.mem_append_right l1 List.mem_cons_self
  simp only [refMap, List.mem_cons, Prod.mk.injEq, reduceCtorEq, false_and, and_false, false_or,
    List.not_mem_nil, or_false, BuiltIn.call.injEq] at hmem
  rcases hmem with ⟨rfl, rfl, -⟩ | ⟨rfl, rfl, -⟩ | ⟨rfl, rfl, -⟩ | ⟨rfl, rfl, -⟩ | ⟨rfl, rfl, -⟩ |
    ⟨rfl, rfl, -⟩ | ⟨rfl, rfl, -⟩ | ⟨rfl, rfl, -⟩ | ⟨rfl, rfl, -⟩ | ⟨rfl, rfl, -⟩ | ⟨rfl, rfl, -⟩ |
    ⟨rfl, rfl, -⟩
  · exact keeps_strSplit args m r m' hm h
  · exact keeps_mapMapCreate args m r m' hm h
  · exact keeps_mapMapInsert hargs m r m' hm h
  · exact mapFromJson_holds hm (hmap rfl) h
  · exact mapKeys_holds hm (hkeys rfl) h
  · exact keeps_logicMapContainsKey args m r m' hm h
  · exact keeps_listCreate args m r m' hm h
  · exact keeps_listInsert hargs m r m' hm h
  · exact keeps_listAppend hargs m r m' hm h
  · exact keeps_listRemoveAt args m r m' hm h
  · exact listFromJson_holds hm (hlist rfl) h
  · exact keeps_httpDownload P args m r m' hm h

/-! ### The operations -/

lemma HoldsIn.onMemory {c : ScriptCall α} {Q : α → Prop} (hs : R.HoldsIn s)
    (hc : ∀ m, c s.memory = .ok (a, m) → R.Holds m ∧ Q a)
    (h : onMemory c s = .ok (a, s')) : R.HoldsIn s' ∧ Q a := by
  obtain ⟨m, hm, rfl⟩ := onMemory_eq_ok.mp h
  obtain ⟨hholds, hQ⟩ := hc m hm
  refine ⟨⟨hholds, fun f hf e he => ?_⟩, hQ⟩
  cases f with
  | caller i => exact hholds.map i e he
  | own entries => exact hs.frames (.own entries) hf e he

lemma HoldsIn.lookup {name : Units} {r : Ref} (hs : R.HoldsIn s)
    (h : s.lookup name = Option.some r) : R.ref r := by
  obtain ⟨f, hf, hr⟩ := List.exists_of_findSome?_eq_some h
  exact hs.frames f hf (Option.some name, r) (Map.mem_of_get? hr)

/-- The frame on top gets other entries. -/
lemma HoldsIn.setTop {memory memory' : Memory} {e e' : Map (Option Units) Ref}
    {tail : List ScriptFrame} (hs : R.HoldsIn ⟨memory, .own e :: tail⟩) (hm : R.Holds memory')
    (he' : ∀ x ∈ e', R.ref x.2) : R.HoldsIn ⟨memory', .own e' :: tail⟩ := by
  refine ⟨hm, List.forall_mem_cons.mpr ⟨he', fun f hf x hx => ?_⟩⟩
  cases f with
  | caller i => exact hm.map i x hx
  | own entries => exact hs.frames (.own entries) (List.mem_cons_of_mem _ hf) x hx

lemma HoldsIn.top {memory : Memory} {e : Map (Option Units) Ref} {tail : List ScriptFrame}
    (hs : R.HoldsIn ⟨memory, .own e :: tail⟩) : ∀ x ∈ e, R.ref x.2 :=
  hs.frames (.own e) List.mem_cons_self

/-- What is found in a list or a map, and what is printed inside of it. -/
lemma keeps_indexing (v1 v2 : Ref) : Keeps R.Holds R.ref (indexing v1 v2) := by
  refine (keeps_deref v1).bind fun v hv => keeps_ite (fun _ => ?_) fun _ => keeps_ite (fun _ => ?_)
    fun _ => keeps_throw _
  · refine (keeps_deref v2).bind fun w hw => keeps_check _ fun _ => ?_
    refine keeps_get.bind fun s hs => (keeps_onNull _).bind fun rs _ => ?_
    refine (keeps_compute _).bind fun n _ => (keeps_onNull n).bind fun i _ => ?_
    refine keeps_check _ fun _ => ?_
    refine (keeps_placeIn _ i).bind fun k hk => keeps_pure ?_
    rw [List.getD_eq_getElem?_getD, List.getElem?_eq_getElem hk]
    exact hs.list rs _ (List.getElem_mem hk)
  · refine (keeps_deref v2).bind fun w hw => keeps_check _ fun _ => ?_
    refine (keeps_compute _).bind fun key _ => keeps_get.bind fun s hs => ?_
    refine (keeps_onNull _).bind fun m _ => ?_
    rcases (s.map m).get? key with _ | _ | a
    · exact keeps_throw _
    · exact keeps_throw _
    · exact keeps_pure (R.some a)

lemma keeps_printed (r : Ref) : Keeps R.Holds (fun rs => ∀ r ∈ rs, R.ref r) (printed r) := by
  refine (keeps_deref r).bind fun v hv => keeps_ite (fun _ => ?_) fun _ => keeps_ite (fun _ => ?_)
    fun _ => keeps_ite (fun _ => ?_) fun _ => keeps_ite (fun _ => ?_) fun _ => ?_
  · exact (keeps_compute _).bind fun _ _ => keeps_pure (by simp)
  · exact (keeps_compute _).bind fun _ _ => keeps_pure (by simp)
  · exact keeps_get.bind fun s hs => (keeps_onNull _).bind fun l _ => keeps_pure (hs.list l)
  · refine keeps_get.bind fun s hs => (keeps_onNull _).bind fun m _ => keeps_pure ?_
    exact List.forall_mem_map.mpr (hs.map m)
  · exact keeps_pure (by simp)

lemma keeps_assign (v1 v2 : Ref) : Keeps R.Holds (fun _ => True) (assign v1 v2) := by
  refine (keeps_deref v2).bind fun v hv => keeps_check _ fun hready => ?_
  refine (keeps_onNull v1).bind fun a _ => keeps_setVariable a ?_
  -- the variable that is copied is ready already
  obtain ⟨_, _, _, _, isReady, _, _, _⟩ := v
  obtain rfl : isReady = true := by simpa using hready
  exact hv

lemma keeps_integer (content : Units) : Keeps R.Holds R.ref (integer content) := by
  rw [integer]
  cases content.intParse with
  | none => exact keeps_throw _
  | some n => exact keeps_newVariable (R.fromInt n)

lemma keeps_condition (cond : Ref) : Keeps R.Holds (fun _ => True) (condition cond) := by
  refine (keeps_deref cond).bind fun v _ => keeps_check _ fun _ => ?_
  exact (keeps_compute _).bind fun _ _ => keeps_pure trivial

/-- An operation keeps the property. -/
theorem step_holds (hl : IsStep P l op out) (hs : R.HoldsIn s) (hfits : Fits l s)
    (hrefs : ∀ r ∈ l.refs, R.ref r) (hadmits : R.Admits P l s) (h : op s = .ok (a, s')) :
    R.HoldsIn s' ∧ ∀ r ∈ out a, R.ref r := by
  have hcall {c : ScriptCall α} {Q : α → Prop} (hc : Keeps R.Holds Q c)
      (h : onMemory c s = .ok (a, s')) : R.HoldsIn s' ∧ Q a :=
    hs.onMemory (fun m hm => hc s.memory a m hs.memory hm) h
  cases hl with
  | printInternal r => exact hcall (keeps_printed r) h
  | print args =>
    exact (hcall (keeps_newVariable R.notReady) h).imp_right List.forall_mem_singleton.mpr
  | stringFunction _ _ =>
    exact (hcall ((keeps_read _).bind fun _ _ => (keeps_compute _).bind fun text _ =>
      keeps_newVariable (R.fromString text)) h).imp_right List.forall_mem_singleton.mpr
  | integerFunction _ _ =>
    exact (hcall ((keeps_read _).bind fun _ _ => (keeps_compute _).bind fun n _ =>
      keeps_newVariable (R.fromInt n)) h).imp_right List.forall_mem_singleton.mpr
  | call hlookup _ =>
    exact (hs.onMemory (fun m hm =>
      call_holds hlookup hs.memory hrefs hadmits.1 hadmits.2.1 hadmits.2.2 hm) h).imp_right
      List.forall_mem_singleton.mpr
  | integer content =>
    exact (hcall (keeps_integer content) h).imp_right List.forall_mem_singleton.mpr
  | string content =>
    exact (hcall (keeps_newVariable (R.fromString content)) h).imp_right
      List.forall_mem_singleton.mpr
  | index v1 v2 => exact (hcall (keeps_indexing v1 v2) h).imp_right List.forall_mem_singleton.mpr
  | assign v1 v2 => exact ⟨(hcall (keeps_assign v1 v2) h).1, nofun⟩
  | condition cond => exact ⟨(hcall (keeps_condition cond) h).1, nofun⟩
  | name name isLeftVariable =>
    cases hlookup : s.lookup name with
    | some r =>
      cases (find_some hlookup).symm.trans h
      exact ⟨hs, List.forall_mem_singleton.mpr (hs.lookup hlookup)⟩
    | none =>
      cases isLeftVariable with
      | false => cases (find_unknown hlookup).symm.trans h
      | true =>
        obtain ⟨memory, stack⟩ := s
        obtain ⟨e, tail, rfl⟩ := hfits
        cases (find_new hlookup).symm.trans h
        obtain ⟨hm, hr⟩ := keeps_newVariable R.notReady memory _ _ hs.memory rfl
        exact ⟨hs.setTop hm (ref_of_mem_set hs.top hr), List.forall_mem_singleton.mpr hr⟩
  | loop name i1 i2 =>
    obtain ⟨memory, stack⟩ := s
    obtain ⟨e, tail, rfl⟩ := hfits
    obtain ⟨v1, v2, hv1, -, hi1, -, hii1, -, -, rfl⟩ := beginLoop_eq_ok h
    obtain ⟨hm, hr⟩ := keeps_newVariable (hadmits v1 _ hv1 hi1 hii1) memory _ _ hs.memory rfl
    exact ⟨hs.setTop hm (ref_of_mem_set hs.top hr), nofun⟩
  | counter name ii1 ii2 =>
    obtain ⟨memory, stack⟩ := s
    obtain ⟨e, tail, hstack, -⟩ := hfits
    cases hstack
    obtain ⟨n, k, rfl, rfl, ⟨-, -, rfl⟩ | ⟨hle, -, cell, v, hcell, hv, rfl⟩⟩ := count_eq_ok h
    · exact ⟨hs, nofun⟩
    · have htop : topVariable ⟨memory, .own e :: tail⟩ name = Option.some v :=
        (congrArg memory.deref hcell).trans hv
      have hcount := hadmits v n k htop rfl rfl (Int.not_lt.mp hle)
      obtain ⟨hm, -⟩ := keeps_setVariable cell hcount memory _ _ hs.memory rfl
      exact ⟨hs.setTop hm hs.top, nofun⟩
  | foreach name i =>
    obtain ⟨memory, stack⟩ := s
    obtain ⟨e, tail, rfl⟩ := hfits
    obtain ⟨-, -, rfl⟩ := beginForeach_eq_ok h
    exact ⟨hs, nofun⟩
  | element name i n =>
    obtain ⟨memory, stack⟩ := s
    obtain ⟨e, tail, rfl⟩ := hfits
    obtain ⟨v, l, -, -, ⟨r, hr, -, rfl⟩ | ⟨-, rfl⟩⟩ := element_eq_ok h
    · have hr' := hs.memory.list l r (List.mem_of_getElem? hr)
      exact ⟨hs.setTop hs.memory (ref_of_mem_set hs.top hr'), nofun⟩
    · exact ⟨hs, nofun⟩
  | remove name =>
    obtain ⟨memory, stack⟩ := s
    obtain ⟨e, tail, rfl⟩ := hfits
    cases h
    exact ⟨hs.setTop hs.memory fun x hx => hs.top x (List.mem_of_mem_filter hx), nofun⟩
  | pushStack depth =>
    cases h
    exact ⟨⟨hs.memory, List.forall_mem_cons.mpr ⟨by simp [ScriptFrame.entries], hs.frames⟩⟩, nofun⟩
  | popStack =>
    obtain ⟨memory, stack⟩ := s
    obtain ⟨e, tail, rfl⟩ := hfits
    cases h
    exact ⟨⟨hs.memory, fun f hf => hs.frames f (List.mem_cons_of_mem _ hf)⟩, nofun⟩
  | statement stat depth =>
    cases h
    exact ⟨hs, nofun⟩

end Region

end Violet
