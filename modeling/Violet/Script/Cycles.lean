import Violet.Script.Compilation
import Violet.Script.Flags
import Violet.Script.Tidy

/-!
# Lists and maps inside themselves

Nothing keeps a script from putting a list into itself, after which its conversion and its printing
do not end. In a run that never does so, both end for all variables.
-/

namespace Violet

open Dart Program Prog Relation ScriptBuiltIn ScriptCall ScriptIsolate ScriptCache

/-- Nothing is put into a list, a map or a variable that this is inside of. -/
def ClosesNoCycle : ScriptEvent → ScriptIsolate → Prop
  | .builtIn name args, s =>
    (name = units "append" → Apart s.memory args[0]? args[1]?) ∧
    (name = units "insert" ∨ name = units "mapinsert" → Apart s.memory args[0]? args[2]?)
  | .assign v1 v2, s => ∀ a b, v1 = some a → v2 = some b → ¬ TransGen s.memory.Inside a b
  | _, _ => True

/-- The memory is tidy, and the names are bound to variables that are there. -/
structure TidyIn (s : ScriptIsolate) : Prop where
  memory : s.memory.Tidy
  frames : ∀ f ∈ s.stack, ∀ e ∈ f.entries s.memory, s.memory.HasRef e.2

def tidiness : Contract ScriptIsolate ScriptEvent ScriptError where
  guard := ClosesNoCycle
  always := TidyIn
  before _ _ := True
  raises _ := True

variable {P : ScriptPlatform} {s s' : ScriptIsolate} {α : Type} {a : α} {r : Ref}
  {memory memory' : Memory} {e e' : Map (Option Units) Ref} {tail : List ScriptFrame}

/-! ### Calls -/

/-- The functions that put together what they return. -/
lemma tidies_call {name : Units} {args : List Ref} {f : List Ref → ScriptCall Ref}
    {arity : Option ℕ} (hlookup : (refMap P).lookup name = some (.call f, arity))
    (h : memory.Tidy) (hargs : ∀ r ∈ args, memory.HasRef r)
    (happend : name = units "append" → Apart memory args[0]? args[1]?)
    (hinsert : name = units "insert" ∨ name = units "mapinsert" →
      Apart memory args[0]? args[2]?) : Tidies (fun r s' => s'.HasRef r) (f args) memory := by
  obtain ⟨l1, l2, hsplit, -⟩ := List.lookup_eq_some_iff.mp hlookup
  have hmem : (name, BuiltIn.call f, arity) ∈ refMap P := by
    rw [hsplit]
    exact List.mem_append_right l1 List.mem_cons_self
  simp only [refMap, List.mem_cons, Prod.mk.injEq, reduceCtorEq, false_and, and_false, false_or,
    List.not_mem_nil, or_false, BuiltIn.call.injEq] at hmem
  rcases hmem with ⟨rfl, rfl, -⟩ | ⟨rfl, rfl, -⟩ | ⟨rfl, rfl, -⟩ | ⟨rfl, rfl, -⟩ | ⟨rfl, rfl, -⟩ |
    ⟨rfl, rfl, -⟩ | ⟨rfl, rfl, -⟩ | ⟨rfl, rfl, -⟩ | ⟨rfl, rfl, -⟩ | ⟨rfl, rfl, -⟩ | ⟨rfl, rfl, -⟩ |
    ⟨rfl, rfl, -⟩
  · exact tidies_strSplit h
  · exact tidies_ofMap h (by simp)
  · exact tidies_mapMapInsert h hargs (hinsert (.inr rfl))
  · exact tidies_mapFromJson P h
  · exact tidies_mapKeys h
  · exact tidies_logicMapContainsKey h
  · exact tidies_ofList h (by simp)
  · exact tidies_listInsert h hargs (hinsert (.inl rfl))
  · exact tidies_listAppend h hargs (happend rfl)
  · exact tidies_listRemoveAt h
  · exact tidies_listFromJson P h
  · exact tidies_httpDownload P h

lemma tidies_integer (h : memory.Tidy) (content : Units) :
    Tidies (fun r s' => s'.HasRef r) (integer content) memory := by
  rw [integer]
  cases content.intParse with
  | none => exact tidies_throw _
  | some n => exact tidies_newPlain h rfl rfl

lemma tidies_indexing (h : memory.Tidy) (v1 v2 : Ref) :
    Tidies (fun r s' => s'.HasRef r) (indexing v1 v2) memory := by
  refine tidies_deref_bind fun v _ => tidies_ite ?_ (tidies_ite ?_ (tidies_throw _))
  · refine tidies_deref_bind fun w _ => tidies_check (tidies_get_bind ?_)
    refine tidies_onNull_bind fun l _ => tidies_lift_bind fun n _ => ?_
    refine tidies_onNull_bind fun i _ => tidies_check ?_
    refine tidies_placeIn_bind fun k hk => tidies_pure h ?_
    rw [List.getD_eq_getElem?_getD, List.getElem?_eq_getElem hk]
    exact h.list l _ (List.getElem_mem hk)
  · refine tidies_deref_bind fun w _ => tidies_check (tidies_lift_bind fun key _ => ?_)
    refine tidies_get_bind (tidies_onNull_bind fun m _ => ?_)
    cases hget : (memory.map m).get? key with
    | none => exact tidies_throw _
    | some r =>
      cases r with
      | none => exact tidies_throw _
      | some b => exact tidies_pure h (h.map m _ (Map.mem_of_get? hget))

/-- A variable becomes what another one is that it is not inside of. -/
lemma tidies_assign (h : memory.Tidy) {v1 v2 : Ref}
    (hcycle : ∀ a b, v1 = some a → v2 = some b → ¬ TransGen memory.Inside a b) :
    Tidies (fun _ _ => True) (assign v1 v2) memory := by
  refine tidies_deref_bind fun v hv => tidies_check (tidies_onNull_bind fun a ha => ?_)
  obtain ⟨b, rfl, rfl⟩ := Option.map_eq_some_iff.mp hv
  rintro _ _ ⟨⟩
  refine ⟨h.setVariable ⟨(h.cell b).list, (h.cell b).map⟩ fun y hy hay => ?_,
    ⟨by simp, le_rfl, le_rfl⟩, trivial⟩
  exact hcycle a b ha rfl (.tail' hay hy)

/-! ### Operations -/

namespace TidyIn

lemma onMemory {c : ScriptCall α} {Q : α → Memory → Prop} (hs : TidyIn s)
    (hc : Tidies Q c s.memory) (h : onMemory c s = .ok (a, s')) :
    TidyIn s' ∧ s.memory.Extends s'.memory ∧ Q a s'.memory := by
  obtain ⟨m, hm, rfl⟩ := onMemory_eq_ok.mp h
  obtain ⟨htidy, hextends, hQ⟩ := hc a m hm
  refine ⟨⟨htidy, fun f hf x hx => ?_⟩, hextends, hQ⟩
  cases f with
  | caller i => exact htidy.map i x hx
  | own entries => exact (hs.frames (.own entries) hf x hx).mono hextends

lemma lookup {name : Units} (hs : TidyIn s) (h : s.lookup name = some r) : s.memory.HasRef r := by
  obtain ⟨f, hf, hr⟩ := List.exists_of_findSome?_eq_some h
  exact hs.frames f hf (some name, r) (Map.mem_of_get? hr)

/-- The frame on top gets other entries. -/
lemma setTop (hs : TidyIn ⟨memory, .own e :: tail⟩) (hm : memory'.Tidy)
    (hextends : memory.Extends memory') (he' : ∀ x ∈ e', memory'.HasRef x.2) :
    TidyIn ⟨memory', .own e' :: tail⟩ := by
  refine ⟨hm, List.forall_mem_cons.mpr ⟨he', fun f hf x hx => ?_⟩⟩
  cases f with
  | caller i => exact hm.map i x hx
  | own entries =>
    exact (hs.frames (.own entries) (List.mem_cons_of_mem _ hf) x hx).mono hextends

lemma top (hs : TidyIn ⟨memory, .own e :: tail⟩) : ∀ x ∈ e, memory.HasRef x.2 :=
  hs.frames (.own e) List.mem_cons_self

/-- A name in the frame on top is bound to something else. -/
lemma setName (hs : TidyIn ⟨memory, .own e :: tail⟩) (hm : memory'.Tidy)
    (hextends : memory.Extends memory') (k : Option Units) (hr : memory'.HasRef r) :
    TidyIn ⟨memory', .own (e.set k r) :: tail⟩ := by
  refine hs.setTop hm hextends fun x hx => ?_
  rcases Map.mem_set hx with rfl | hx
  · exact hr
  · exact (hs.top x hx).mono hextends

end TidyIn

/-- What an operation has to show: what holds afterwards, for the references as well. -/
def Tidily (s : ScriptIsolate) (s' : ScriptIsolate) (rs : List Ref) : Prop :=
  TidyIn s' ∧ (∀ r ∈ rs, s'.memory.HasRef r) ∧ ∀ r, s.memory.HasRef r → s'.memory.HasRef r

lemma TidyIn.tidily_none (hs : TidyIn s') (hextends : s.memory.Extends s'.memory) :
    Tidily s s' [] :=
  ⟨hs, nofun, fun _ hr => hr.mono hextends⟩

lemma TidyIn.tidily_one (hs : TidyIn s') (hextends : s.memory.Extends s'.memory)
    (hr : s'.memory.HasRef r) : Tidily s s' [r] :=
  ⟨hs, List.forall_mem_singleton.mpr hr, fun _ hr => hr.mono hextends⟩

/-- A function returns a variable. -/
lemma TidyIn.tidily_call {c : ScriptCall Ref} (hs : TidyIn s)
    (hc : Tidies (fun r s' => s'.HasRef r) c s.memory)
    (h : ScriptIsolate.onMemory c s = .ok (r, s')) : Tidily s s' [r] := by
  obtain ⟨hs', hextends, hr⟩ := hs.onMemory hc h
  exact hs'.tidily_one hextends hr

/-- A counter changes nothing inside its variable. -/
lemma tidy_counter (h : memory.Tidy) {cell : ℕ} {v : RunVariable}
    (hv : memory.deref (some cell) = some v) (n : ℤ) :
    Memory.Tidy { memory with
      cells := memory.cells.set cell { v with value := some (.int n) } } := by
  obtain rfl := Option.some.inj hv
  refine h.setVariable ⟨(h.cell cell).list, (h.cell cell).map⟩ fun y hy hcell => ?_
  exact h.wf.transGen.irrefl.irrefl cell (.tail' hcell hy)

/-- An operation that closes no cycle keeps the memory tidy. -/
theorem tidily_step {l : ScriptEvent} {op : ScriptStep α} {out : α → List Ref}
    (hl : IsStep P l op out) (hs : TidyIn s) (hfits : Fits l s)
    (hrefs : ∀ r ∈ l.refs, s.memory.HasRef r) (hcycle : ClosesNoCycle l s)
    (h : op s = .ok (a, s')) : Tidily s s' (out a) := by
  cases hl with
  | printInternal r =>
    obtain ⟨rfl, v, -, hinner⟩ := printed_eq_ok h
    exact ⟨hs, fun r hr => hs.memory.inner v r (hinner r hr), fun _ hr => hr⟩
  | print args => exact hs.tidily_call (tidies_newPlain hs.memory rfl rfl) h
  | stringFunction _ _ =>
    exact hs.tidily_call (tidies_read_bind (tidies_lift_bind fun _ _ =>
      tidies_newPlain hs.memory rfl rfl)) h
  | integerFunction _ _ =>
    exact hs.tidily_call (tidies_read_bind (tidies_lift_bind fun _ _ =>
      tidies_newPlain hs.memory rfl rfl)) h
  | call hlookup _ =>
    exact hs.tidily_call (tidies_call hlookup hs.memory hrefs hcycle.1 hcycle.2) h
  | integer content => exact hs.tidily_call (tidies_integer hs.memory content) h
  | string content => exact hs.tidily_call (tidies_newPlain hs.memory rfl rfl) h
  | index v1 v2 => exact hs.tidily_call (tidies_indexing hs.memory v1 v2) h
  | assign v1 v2 =>
    obtain ⟨hs', hextends, -⟩ := hs.onMemory (tidies_assign hs.memory hcycle) h
    exact hs'.tidily_none hextends
  | condition cond =>
    have hcond : Tidies (fun _ _ => True) (condition cond) s.memory :=
      tidies_deref_bind fun v _ => tidies_check (tidies_lift_bind fun _ _ =>
        tidies_pure hs.memory trivial)
    obtain ⟨hs', hextends, -⟩ := hs.onMemory hcond h
    exact hs'.tidily_none hextends
  | name name isLeftVariable =>
    cases hlookup : s.lookup name with
    | some r =>
      cases (find_some hlookup).symm.trans h
      exact hs.tidily_one (.refl _) (hs.lookup hlookup)
    | none =>
      cases isLeftVariable with
      | false => cases (find_unknown hlookup).symm.trans h
      | true =>
        obtain ⟨memory, stack⟩ := s
        obtain ⟨e, tail, rfl⟩ := hfits
        cases (find_new hlookup).symm.trans h
        obtain ⟨hm, hextends, hr⟩ := tidies_newPlain (v := .notReady) hs.memory rfl rfl _ _ rfl
        exact (hs.setName hm hextends _ hr).tidily_one hextends hr
  | loop name i1 i2 =>
    obtain ⟨memory, stack⟩ := s
    obtain ⟨e, tail, rfl⟩ := hfits
    obtain ⟨_, _, -, -, -, -, -, -, -, rfl⟩ := beginLoop_eq_ok h
    obtain ⟨hm, hextends, hr⟩ := tidies_newPlain
      (v := { isInteger := true, value := a.1.map .int }) hs.memory rfl rfl _ _ rfl
    exact (hs.setName hm hextends _ hr).tidily_none hextends
  | counter name ii1 ii2 =>
    obtain ⟨memory, stack⟩ := s
    obtain ⟨e, tail, hstack, -⟩ := hfits
    cases hstack
    obtain ⟨n, k, -, -, ⟨-, -, rfl⟩ | ⟨-, -, cell, v, -, hv, rfl⟩⟩ := count_eq_ok h
    · exact hs.tidily_none (.refl _)
    · have hm := tidy_counter hs.memory hv n
      have hextends : memory.Extends { memory with
          cells := memory.cells.set cell { v with value := some (.int n) } } :=
        ⟨by simp, le_rfl, le_rfl⟩
      exact (hs.setTop hm hextends fun x hx => (hs.top x hx).mono hextends).tidily_none hextends
  | foreach name i =>
    obtain ⟨memory, stack⟩ := s
    obtain ⟨e, tail, rfl⟩ := hfits
    obtain ⟨-, -, rfl⟩ := beginForeach_eq_ok h
    exact hs.tidily_none (.refl _)
  | element name i n =>
    obtain ⟨memory, stack⟩ := s
    obtain ⟨e, tail, rfl⟩ := hfits
    obtain ⟨v, l, -, -, ⟨r, hr, -, rfl⟩ | ⟨-, rfl⟩⟩ := element_eq_ok h
    · have hr' := hs.memory.list l r (List.mem_of_getElem? hr)
      exact (hs.setName hs.memory (.refl _) _ hr').tidily_none (.refl _)
    · exact hs.tidily_none (.refl _)
  | remove name =>
    obtain ⟨memory, stack⟩ := s
    obtain ⟨e, tail, rfl⟩ := hfits
    cases h
    exact (hs.setTop hs.memory (.refl _) fun x hx =>
      hs.top x (List.mem_of_mem_filter hx)).tidily_none (.refl _)
  | pushStack depth =>
    cases h
    refine TidyIn.tidily_none ⟨hs.memory, List.forall_mem_cons.mpr ⟨?_, hs.frames⟩⟩ (.refl _)
    simp [ScriptFrame.entries]
  | popStack =>
    obtain ⟨memory, stack⟩ := s
    obtain ⟨e, tail, rfl⟩ := hfits
    cases h
    exact TidyIn.tidily_none ⟨hs.memory, fun f hf => hs.frames f (List.mem_cons_of_mem _ hf)⟩
      (.refl _)
  | statement stat depth =>
    cases h
    exact hs.tidily_none (.refl _)

/-! ### Runs -/

theorem tidiness_sound : SoundIn P tidiness fun s r => s.memory.HasRef r where
  before _ _ _ _ := trivial
  ok hl hs hfits hrefs hcycle h := tidily_step hl hs hfits hrefs hcycle h
  error _ _ _ _ _ _ := trivial
  exception _ := trivial
  noFunction _ := trivial

/-- Both conversions of a variable and its printing return or throw. -/
def ConvertsAndPrints (s : ScriptIsolate) (r : Ref) : Prop := s.memory.Ports r ∧ (print [r]).Ends s

/-- A variable with nothing endless inside of it is converted and printed, whatever cycles there are
elsewhere. -/
lemma convertsAndPrints_of_grounded (h : s.memory.Grounded r) : ConvertsAndPrints s r :=
  ⟨h.ports, ends_print h⟩

/-- In every run in which nothing is put into a list, a map or a variable that this is inside of,
the conversions and the printing of all variables end. -/
theorem ends_of_closesNoCycle (P : ScriptPlatform) (tree : ParseTreeNode) {memory : Memory}
    {caller : ℕ} (hmemory : memory.Tidy) {c : ScriptProg Unit × ScriptIsolate}
    (hc : Reaches ClosesNoCycle (runScript P tree, start memory caller) c) (r : Ref) :
    ConvertsAndPrints c.2 r := by
  have hstart : TidyIn (start memory caller) := by
    refine ⟨hmemory, fun f hf => ?_⟩
    obtain rfl := List.mem_singleton.mp hf
    exact hmemory.map caller
  have hs : TidyIn c.2 :=
    ((tidiness_sound (P := P)).meets_runScript tree hstart rfl).always_of_reaches hc
  exact convertsAndPrints_of_grounded fun a _ => hs.memory.wf.apply a

/-! ### A list in itself -/

/-- The variable and all that is inside of it are ready. -/
def OnlyReady (s : Memory) (r : Ref) : Prop :=
  ∀ a ∈ r, ∀ b, ReflTransGen s.Inside b a → (s.cell b).isReady

/-- A list that begins with itself is not converted in any depth. -/
lemma toElement_self {v : RunVariable} {l : ℕ} {rs : List Ref} (hv : memory.deref r = some v)
    (hint : v.isInteger = false) (hstring : v.isString = false) (hlist : v.isList)
    (hl : v.list = some l) (hrs : memory.list l = r :: rs) (depth : ℕ) :
    memory.toElement depth r = none := by
  induction depth with
  | zero => rfl
  | succ depth ih => simp [Memory.toElement, hv, hint, hstring, hlist, hl, hrs, collect, ih]

lemma not_ports_self {v : RunVariable} {l : ℕ} {rs : List Ref} (hv : memory.deref r = some v)
    (hint : v.isInteger = false) (hstring : v.isString = false) (hlist : v.isList)
    (hl : v.list = some l) (hrs : memory.list l = r :: rs) : ¬ memory.Ports r := by
  rintro ⟨depth, htoList, -⟩
  simp [Memory.toList, hv, hlist, toElement_self hv hint hstring hlist hl hrs] at htoList

lemma onlyReady_self {a l : ℕ} {v : RunVariable} (hv : memory.deref (some a) = some v)
    (hready : v.isReady) (hl : v.list = some l) (hm : v.map = none)
    (hrs : memory.list l = [some a]) : OnlyReady memory (some a) := by
  obtain rfl := Option.some.inj hv
  rintro _ ⟨⟩ b hb
  have heq : b = a := by
    induction hb using ReflTransGen.head_induction_on with
    | refl => rfl
    | head hinside _ ih =>
      subst ih
      simpa [Memory.Inside, Memory.inner, hl, hm, hrs] using hinside
  exact heq ▸ hready

/-- `x=listcreate()append(x,x)` -/
def putsIntoItself : PBlockEntry :=
  .innerBlock (.cons
    (.mk (.sindex (.ofVariable (.name (units "x")))
      (.ofVariable (.function (.call (units "listcreate"))))))
    (.cons (.mk (.sfunction (some (.callWith (units "append")
      (.cons (.ofVariable (.name (units "x"))) (.last (.ofVariable (.name (units "x")))))))))
      .empty))

/-- The variable `y` of the caller, a list with an empty list. -/
def nested : Memory where
  cells := [{ isList := true, list := some 0 }, { isList := true, list := some 1 }]
  lists := [[some 1], []]
  maps := [[(some (units "y"), some 0)]]

lemma tidy_nested : nested.Tidy where
  cells := List.forall_mem_cons.mpr ⟨⟨by simp [nested], by simp⟩,
    List.forall_mem_singleton.mpr ⟨by simp [nested], by simp⟩⟩
  lists := by simp [nested, Memory.HasRef]
  maps := by simp [nested, Memory.HasRef]
  wf := by
    have hacc : ∀ a, Acc nested.Inside (a + 1) := fun a => by
      have hempty : nested.inner (nested.cell (a + 1)) = [] := by
        cases a <;> rfl
      exact ⟨_, fun b hb => by simp [Memory.Inside, hempty] at hb⟩
    refine ⟨fun a => ?_⟩
    cases a with
    | zero =>
      refine ⟨0, fun b hb => ?_⟩
      obtain rfl := Option.some.inj (List.mem_singleton.mp hb)
      exact hacc 0
    | succ a => exact hacc a

/-- `x=listcreate()append(x,y)` -/
def appendsList : PBlockEntry :=
  .innerBlock (.cons
    (.mk (.sindex (.ofVariable (.name (units "x")))
      (.ofVariable (.function (.call (units "listcreate"))))))
    (.cons (.mk (.sfunction (some (.callWith (units "append")
      (.cons (.ofVariable (.name (units "x"))) (.last (.ofVariable (.name (units "y")))))))))
      .empty))

def appending : ScriptProg Unit × ScriptIsolate :=
  (runScript .offline (.node [] (some (.blockEntryNode appendsList)) none []), start nested 0)

/-- Nothing is put into a list or a map, and what is assigned has nothing inside. -/
def closesNothing : ScriptEvent → ScriptIsolate → Bool
  | .builtIn name _, _ => name ≠ units "append" ∧ name ≠ units "insert" ∧ name ≠ units "mapinsert"
  | .assign _ v2, s => v2.all fun b => (s.memory.inner (s.memory.cell b)).isEmpty
  | _, _ => true

lemma closesNoCycle_of_closesNothing (l : ScriptEvent) (s : ScriptIsolate)
    (h : closesNothing l s = true) : ClosesNoCycle l s := by
  cases l with
  | builtIn name args =>
    obtain ⟨happend, hinsert, hmapinsert⟩ := of_decide_eq_true h
    exact ⟨fun hname => absurd hname happend, fun hname =>
      absurd hname (not_or.mpr ⟨hinsert, hmapinsert⟩)⟩
  | assign v1 v2 =>
    rintro a b - rfl hinside
    obtain ⟨c, -, hlast⟩ := TransGen.tail'_iff.mp hinside
    have hempty : s.memory.inner (s.memory.cell b) = [] := List.isEmpty_iff.mp h
    rw [Memory.Inside, hempty] at hlast
    cases hlast
  | _ => trivial

/-- Only what is among some variables is inside one of them. -/
lemma mem_of_inside {known : List ℕ} (hknown : ∀ b ∈ known, ∀ c, memory.Inside c b → c ∈ known)
    {a b : ℕ} (hb : b ∈ known) (h : ReflTransGen memory.Inside a b) : a ∈ known := by
  induction h using ReflTransGen.head_induction_on with
  | refl => exact hb
  | head hinside _ ih => exact hknown _ ih _ hinside

/-- The memory when the list has been made. -/
def withList : Memory where
  cells := nested.cells ++ [{ isList := true, list := some 2 }, { isList := true, list := some 2 }]
  lists := nested.lists ++ [[]]
  maps := nested.maps

lemma apart_withList : Apart withList (some (some 2)) (some (some 0)) := by
  rintro a b ha hb z hz hinside
  cases ha
  cases hb
  have hclosed : ∀ b ∈ [0, 1], ∀ c, withList.Inside c b → c ∈ [0, 1] := by
    intro b hb c hc
    rcases List.mem_pair.mp hb with rfl | rfl
    · obtain rfl := Option.some.inj (List.mem_singleton.mp hc)
      exact List.mem_pair.mpr (.inr rfl)
    · cases hc
  rcases List.mem_pair.mp (mem_of_inside hclosed (by simp) hinside) with rfl | rfl
  · rcases hz with ⟨l, hl, hl'⟩ | ⟨m, hm, -⟩
    · cases hl
      cases hl'
    · cases hm
  · rcases hz with ⟨l, hl, hl'⟩ | ⟨m, hm, -⟩
    · cases hl
      cases hl'
    · cases hm

/-- A list of the caller is appended to a new one. -/
theorem ends_of_closesNoCycle_appended : ∃ c, Reaches ClosesNoCycle appending c ∧
    c.2.memory.list 2 = [some 0] ∧ ConvertsAndPrints c.2 (some 2) := by
  have hrun := reaches_exec_of_passes closesNoCycle_of_closesNothing 9 (c := appending)
    (by decide +kernel)
  have hlabel : (exec 9 appending).1.label =
      some (.builtIn (units "append") [some 2, some 0]) := by decide +kernel
  have hmemory : (exec 9 appending).2.memory = withList := by decide +kernel
  have hguard : Admits ClosesNoCycle (exec 9 appending) () := by
    intro l hl
    cases hlabel.symm.trans hl
    exact ⟨fun _ => hmemory ▸ apart_withList, fun hname => absurd hname (by decide)⟩
  obtain ⟨c, hc⟩ : ∃ c, next (exec 9 appending) = some c :=
    Option.isSome_iff_exists.mp (by decide +kernel)
  have hlist : (next (exec 9 appending)).map (fun c => c.2.memory.list 2) = some [some 0] := by
    decide +kernel
  rw [hc] at hlist
  have hreach := hrun.trans (step_reaches hguard hc)
  exact ⟨c, hreach, Option.some.inj hlist,
    ends_of_closesNoCycle .offline _ tidy_nested hreach (some 2)⟩

/-- A list that has been appended to itself is not converted. -/
theorem not_convertsAndPrints_self :
    ¬ ∀ (P : ScriptPlatform) (script : Units) (tree : ParseTreeNode), Compiles script (.ok tree) →
      ∀ (memory : Memory) (caller : ℕ), memory.Tidy →
        ∀ c, Reaches anyLabel (runScript P tree, start memory caller) c →
          ∀ r, c.2.Reachable r → OnlyReady c.2.memory r → ConvertsAndPrints c.2 r := by
  intro h
  obtain ⟨tree, htree, hcontents⟩ := exists_tree (units "x=listcreate()append(x,x)")
    (.blockEntryNode putsIntoItself) 80 (by decide +kernel)
  have hrun := reaches_exec 10 (runScript .offline
    (.node [] (some (.blockEntryNode putsIntoItself)) none []), start nested 0)
  rw [← runScript_eq .offline hcontents] at hrun
  have hlookup : lookup (exec 10 (runScript .offline
      (.node [] (some (.blockEntryNode putsIntoItself)) none []), start nested 0)).2
      (units "x") = some (some 2) := by
    decide +kernel
  have hderef : (exec 10 (runScript .offline
      (.node [] (some (.blockEntryNode putsIntoItself)) none []),
      start nested 0)).2.memory.deref (some 2) = some { isList := true, list := some 2 } := by
    decide +kernel
  have hlist : (exec 10 (runScript .offline
      (.node [] (some (.blockEntryNode putsIntoItself)) none []),
      start nested 0)).2.memory.list 2 = [some 2] := by
    decide +kernel
  rw [← runScript_eq .offline hcontents] at hlookup hderef hlist
  refine not_ports_self hderef rfl rfl rfl rfl hlist ?_
  exact (h .offline _ tree htree nested 0 tidy_nested _ hrun (some 2)
    (reachable_of_lookup hlookup) (onlyReady_self hderef rfl rfl rfl hlist)).1

end Violet
