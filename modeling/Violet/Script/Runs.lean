import Violet.Script.ScriptRunner

/-!
# Runs of scripts

What a run keeps is kept by each operation of the runner. What the operations do to the stack serves
for all such properties: values and statements leave the frames below the top one as they are, and
take no name from the top one. One induction on the syntax then shows that a contract is kept.
-/

namespace Violet

open Dart Program ScriptBuiltIn

/-- The references that an operation uses. -/
def ScriptEvent.refs : ScriptEvent → List Ref
  | builtIn _ args => args
  | printInternal r => [r]
  | index v1 v2 | assign v1 v2 => [v1, v2]
  | loop _ i1 i2 => [i1, i2]
  | foreach _ i | element _ i _ => [i]
  | condition cond => [cond]
  | _ => []

def PLine.statement : PLine → PStatement
  | mk statement => statement

/-- The variable of a loop. -/
def PStatement.loopVariable : PStatement → Option Units
  | srunnable (.sloop name _ _ _) | srunnable (.sforeach name _ _) => some name
  | _ => none

namespace ScriptIsolate

/-! ### The stack -/

/-- The frame on top is one that the runner has pushed. -/
def OwnTop (s : ScriptIsolate) : Prop := ∃ e tail, s.stack = .own e :: tail

/-- The frame on top, which the runner has pushed, has the name. -/
def Binds (s : ScriptIsolate) (name : Units) : Prop :=
  ∃ e tail, s.stack = .own e :: tail ∧ e.containsKey (some name) = true

/-- The frame on top may have got more names. The others have stayed. -/
def Grows (s s' : ScriptIsolate) : Prop :=
  ∃ e e' tail, s.stack = .own e :: tail ∧ s'.stack = .own e' :: tail ∧
    ∀ k, e.containsKey k = true → e'.containsKey k = true

variable {s s' s'' : ScriptIsolate} {name : Units}

lemma OwnTop.grows (h : s.OwnTop) (hstack : s'.stack = s.stack) : Grows s s' := by
  obtain ⟨e, tail, he⟩ := h
  exact ⟨e, e, tail, he, hstack.trans he, fun _ hk => hk⟩

namespace Grows

lemma ownTop (h : Grows s s') : s'.OwnTop := by
  obtain ⟨_, e', tail, -, he', -⟩ := h
  exact ⟨e', tail, he'⟩

lemma trans (h : Grows s s') (h' : Grows s' s'') : Grows s s'' := by
  obtain ⟨e, e', tail, he, he', hk⟩ := h
  obtain ⟨f, e'', tail', hf, he'', hk'⟩ := h'
  obtain ⟨hef, rfl⟩ := List.cons.inj (he'.symm.trans hf)
  cases hef
  exact ⟨e, e'', tail, he, he'', fun k h => hk' k (hk k h)⟩

lemma length_eq (h : Grows s s') : s'.stack.length = s.stack.length := by
  obtain ⟨e, e', tail, he, he', -⟩ := h
  rw [he, he', List.length_cons, List.length_cons]

lemma binds (h : Grows s s') (hs : s.Binds name) : s'.Binds name := by
  obtain ⟨e, e', tail, he, he', hk⟩ := h
  obtain ⟨f, tail', hf, hname⟩ := hs
  obtain ⟨hef, rfl⟩ := List.cons.inj (he.symm.trans hf)
  cases hef
  exact ⟨e', tail, he', hk _ hname⟩

/-- A name that was new has been taken from the frame on top again. -/
lemma remove (h : Grows s s') (hs : ¬ s.Binds name)
    (hremove : ∃ e tail, s'.stack = .own e :: tail ∧
      s''.stack = .own (e.filter fun x => x.1 ≠ some name) :: tail) :
    Grows s s'' ∧ ¬ s''.Binds name := by
  obtain ⟨e, e', tail, he, he', hk⟩ := h
  obtain ⟨f, tail', hf, hf'⟩ := hremove
  obtain ⟨hef, rfl⟩ := List.cons.inj (he'.symm.trans hf)
  cases hef
  refine ⟨⟨e, _, tail, he, hf', fun k hname => ?_⟩, ?_⟩
  · have hne : k ≠ some name := fun heq => hs ⟨e, tail, he, heq ▸ hname⟩
    rw [Map.containsKey, Map.get?_filter_ne _ hne]
    exact hk k hname
  · rintro ⟨g, tail', hg, hname⟩
    obtain ⟨hfg, -⟩ := List.cons.inj (hf'.symm.trans hg)
    cases hfg
    rw [Map.containsKey, Map.get?_filter_self] at hname
    cases hname

/-- The block on top of the frame is left again. -/
lemma pop (h : Grows s s') {f : ScriptFrame} {stack : List ScriptFrame}
    (hs : s.stack = .own [] :: stack) (hpop : s'.stack = f :: s''.stack) : s''.stack = stack := by
  obtain ⟨e, e', tail, he, he', -⟩ := h
  rw [(List.cons.inj (hpop.symm.trans he')).2, (List.cons.inj (he.symm.trans hs)).2]

end Grows

/-! ### Operations -/

/-- The operations of the runner by their labels, and the references that they return. -/
inductive IsStep (P : ScriptPlatform) :
    {α : Type} → ScriptEvent → ScriptStep α → (α → List Ref) → Prop where
  | printInternal (r : Ref) : IsStep P (.printInternal r) (onMemory (printed r)) id
  | print (args : List Ref) :
    IsStep P (.builtIn (units "print") args) (onMemory (ScriptCall.newVariable .notReady)) ([·])
  | stringFunction {name : Units} {args : List Ref} {f : Args → Except ScriptError Units}
      {arity : Option ℕ} (h : (refMap P).lookup name = some (.string f, arity))
      (harity : arity.all (· = args.length) = true) :
    IsStep P (.builtIn name args)
      (onMemory (do ScriptCall.newVariable (.fromString (some (← f (← read args)))))) ([·])
  | integerFunction {name : Units} {args : List Ref} {f : Args → Except ScriptError ℤ}
      {arity : Option ℕ} (h : (refMap P).lookup name = some (.integer f, arity))
      (harity : arity.all (· = args.length) = true) :
    IsStep P (.builtIn name args)
      (onMemory (do ScriptCall.newVariable (.fromInt (← f (← read args))))) ([·])
  | call {name : Units} {args : List Ref} {f : List Ref → ScriptCall Ref} {arity : Option ℕ}
      (h : (refMap P).lookup name = some (.call f, arity))
      (harity : arity.all (· = args.length) = true) :
    IsStep P (.builtIn name args) (onMemory (f args)) ([·])
  | integer (content : Units) : IsStep P (.integer content) (onMemory (integer content)) ([·])
  | string (content : Units) :
    IsStep P (.string content) (onMemory (ScriptCall.newVariable (.fromString (some content))))
      ([·])
  | name (name : Units) (isLeftVariable : Bool) :
    IsStep P (.name name isLeftVariable) (find name isLeftVariable) ([·])
  | index (v1 v2 : Ref) : IsStep P (.index v1 v2) (onMemory (indexing v1 v2)) ([·])
  | assign (v1 v2 : Ref) : IsStep P (.assign v1 v2) (onMemory (assign v1 v2)) fun _ => []
  | loop (name : Units) (i1 i2 : Ref) :
    IsStep P (.loop name i1 i2) (beginLoop name i1 i2) fun _ => []
  | counter (name : Units) (ii1 ii2 : Option ℤ) :
    IsStep P (.counter name ii1 ii2) (count name ii1 ii2) fun _ => []
  | foreach (name : Units) (index : Ref) :
    IsStep P (.foreach name index) (beginForeach name index) fun _ => []
  | element (name : Units) (index : Ref) (i : ℕ) :
    IsStep P (.element name index i) (element name index i) fun _ => []
  | remove (name : Units) : IsStep P (.remove name) (remove name) fun _ => []
  | condition (cond : Ref) : IsStep P (.condition cond) (onMemory (condition cond)) fun _ => []
  | pushStack (depth : ℕ) : IsStep P (.pushStack depth) pushStack fun _ => []
  | popStack : IsStep P .popStack popStack fun _ => []
  | statement (stat : PStatement) (depth : ℕ) :
    IsStep P (.statement stat depth) (fun s => .ok ((), s)) fun _ => []

/-- How the runner carries out an operation. -/
def Fits : ScriptEvent → ScriptIsolate → Prop
  | .pushStack depth, s => s.stack.length = 1 + depth
  | .counter name _ _, s => s.Binds name
  | .statement _ depth, s => s.OwnTop ∧ s.stack.length = 2 + depth
  | _, s => s.OwnTop

lemma Fits.ownTop {l : ScriptEvent} (h : Fits l s) (hl : ∀ depth, l ≠ .pushStack depth) :
    s.OwnTop := by
  cases l with
  | pushStack depth => exact absurd rfl (hl depth)
  | counter name ii1 ii2 =>
    obtain ⟨e, tail, he, -⟩ := h
    exact ⟨e, tail, he⟩
  | statement stat depth => exact h.1
  | _ => exact h

/-- What the operation does to the stack. -/
def Effect : ScriptEvent → ScriptIsolate → ScriptIsolate → Prop
  | .pushStack _, s, s' => s'.stack = .own [] :: s.stack
  | .popStack, s, s' => ∃ f, s.stack = f :: s'.stack
  | .loop name _ _, s, s' => ¬ s.Binds name ∧ Grows s s' ∧ s'.Binds name
  | .foreach name _, s, s' => ¬ s.Binds name ∧ Grows s s'
  | .remove name, s, s' => ∃ e tail, s.stack = .own e :: tail ∧
      s'.stack = .own (e.filter fun x => x.1 ≠ some name) :: tail
  | _, s, s' => Grows s s'

/-! #### Their effects -/

section

variable {memory memory' : Memory} {e : Map (Option Units) Ref} {tail : List ScriptFrame}
  {α : Type} {a : α} {r : Ref}

lemma onMemory_eq_ok {c : ScriptCall α} :
    onMemory c s = .ok (a, s') ↔
      ∃ memory, c s.memory = .ok (a, memory) ∧ s' = { s with memory } := by
  rw [onMemory]
  rcases c s.memory with e | ⟨b, memory⟩
  · simp
  · simp only [Except.ok.injEq, Prod.mk.injEq]
    constructor
    · rintro ⟨rfl, rfl⟩
      exact ⟨memory, ⟨rfl, rfl⟩, rfl⟩
    · rintro ⟨_, ⟨rfl, rfl⟩, rfl⟩
      exact ⟨rfl, rfl⟩

lemma onMemory_stack {c : ScriptCall α} (h : onMemory c s = .ok (a, s')) : s'.stack = s.stack := by
  obtain ⟨memory, -, rfl⟩ := onMemory_eq_ok.mp h
  rfl

lemma deref_eq_ok {v : RunVariable} :
    onMemory (ScriptCall.deref r) s = .ok (v, s') ↔ s.memory.deref r = some v ∧ s = s' := by
  have hrun : onMemory (ScriptCall.deref r) s = match s.memory.deref r with
      | some v => .ok (v, s)
      | none => .error .noSuchMethod := by
    cases r <;> rfl
  rw [hrun]
  cases s.memory.deref r <;> simp

lemma onNull_eq_ok {x : Option α} :
    onMemory (ScriptCall.onNull x) s = .ok (a, s') ↔ x = some a ∧ s = s' := by
  cases x with
  | none => exact ⟨fun h => (nomatch h), fun h => (nomatch h.1)⟩
  | some b =>
    constructor
    · rintro ⟨⟩
      exact ⟨rfl, rfl⟩
    · rintro ⟨⟨⟩, rfl⟩
      rfl

lemma remove_own (memory : Memory) (e : Map (Option Units) Ref) (tail : List ScriptFrame)
    (name : Units) :
    remove name ⟨memory, .own e :: tail⟩ =
      .ok ((), ⟨memory, .own (e.filter fun x => x.1 ≠ some name) :: tail⟩) :=
  rfl

lemma checkUnused_own (name : Units) :
    checkUnused name ⟨memory, .own e :: tail⟩ = if e.containsKey (some name) then
      .error (.exception (units "[RUNNER] " ++ name ++ units " is already used!"))
      else .ok ((), ⟨memory, .own e :: tail⟩) := by
  change (if e.containsKey (some name) = true then throw _ else pure () : ScriptStep Unit) _ = _
  split_ifs <;> rfl

lemma find_some {isLeftVariable : Bool} (h : s.lookup name = some r) :
    find name isLeftVariable s = .ok (r, s) := by
  rw [find, Operation.get_bind_run, h]
  rfl

/-- A new name is bound in the frame on top. -/
lemma find_new (h : lookup ⟨memory, .own e :: tail⟩ name = none) :
    find name true ⟨memory, .own e :: tail⟩ = .ok (some memory.cells.length,
      ⟨{ memory with cells := memory.cells ++ [.notReady] },
        .own (e.set (some name) (some memory.cells.length)) :: tail⟩) := by
  rw [find, Operation.get_bind_run, h]
  rfl

lemma find_unknown (h : s.lookup name = none) :
    find name false s = .error (.exception (units "[RUNNER] " ++ name ++
      units " variable is not found in this scope!")) := by
  rw [find, Operation.get_bind_run, h]
  rfl

/-- A name is set in the frame on top. -/
lemma grows_set (memory memory' : Memory) (e : Map (Option Units) Ref) (tail : List ScriptFrame)
    (k : Option Units) (r : Ref) :
    Grows ⟨memory, .own e :: tail⟩ ⟨memory', .own (e.set k r) :: tail⟩ := by
  refine ⟨e, e.set k r, tail, rfl, rfl, fun k' hk' => ?_⟩
  rw [Map.containsKey, Map.get?_set]
  split_ifs
  · rfl
  · exact hk'

lemma find_grows {isLeftVariable : Bool} (htop : s.OwnTop)
    (h : find name isLeftVariable s = .ok (r, s')) : Grows s s' := by
  cases hlookup : s.lookup name with
  | some r' =>
    rw [find_some hlookup] at h
    cases h
    exact htop.grows rfl
  | none =>
    cases isLeftVariable with
    | false => cases (find_unknown hlookup).symm.trans h
    | true =>
      obtain ⟨memory, stack⟩ := s
      obtain ⟨e, tail, rfl⟩ := htop
      cases (find_new hlookup).symm.trans h
      exact grows_set _ _ _ _ _ _

lemma checkUnused_eq_ok {u : Unit} :
    checkUnused name ⟨memory, .own e :: tail⟩ = .ok (u, s') ↔
      e.containsKey (some name) = false ∧ s' = ⟨memory, .own e :: tail⟩ := by
  rw [checkUnused_own]
  cases e.containsKey (some name) <;> simp [eq_comm]

/-- What a loop does at its begin. -/
lemma beginLoop_eq_ok {i1 i2 : Ref} {bounds : Option ℤ × Option ℤ}
    (h : beginLoop name i1 i2 ⟨memory, .own e :: tail⟩ = .ok (bounds, s')) :
    ∃ v1 v2, memory.deref i1 = some v1 ∧ memory.deref i2 = some v2 ∧ v1.isInteger ∧ v2.isInteger ∧
      v1.asInt = .ok bounds.1 ∧ v2.asInt = .ok bounds.2 ∧ e.containsKey (some name) = false ∧
      s' = ⟨{ memory with cells := memory.cells ++
          [{ isInteger := true, value := bounds.1.map .int }] },
        .own (e.set (some name) (some memory.cells.length)) :: tail⟩ := by
  unfold beginLoop at h
  simp only [Operation.bind_run_eq_ok, Operation.check_run_eq_ok, Operation.lift_run_eq_ok,
    Operation.pure_run_eq_ok, deref_eq_ok] at h
  obtain ⟨v1, _, ⟨hv1, rfl⟩, hi1, v2, _, ⟨hv2, rfl⟩, hi2, ii1, _, ⟨hii1, rfl⟩, ii2, _, ⟨hii2, rfl⟩,
    _, _, hunused, _, _, hnew, _, _, hput, rfl, rfl⟩ := h
  obtain ⟨hfree, rfl⟩ := checkUnused_eq_ok.mp hunused
  cases hnew
  cases hput
  exact ⟨v1, v2, hv1, hv2, by simpa using hi1, by simpa using hi2, hii1, hii2, hfree, rfl⟩

lemma binds_own : Binds ⟨memory, .own e :: tail⟩ name ↔ e.containsKey (some name) = true := by
  constructor
  · rintro ⟨_, _, ⟨⟩, h⟩
    exact h
  · intro h
    exact ⟨e, tail, rfl, h⟩

/-- The variable of a loop is new in the frame on top. -/
lemma beginLoop_effect {i1 i2 : Ref} {bounds : Option ℤ × Option ℤ} (htop : s.OwnTop)
    (h : beginLoop name i1 i2 s = .ok (bounds, s')) :
    ¬ s.Binds name ∧ Grows s s' ∧ s'.Binds name := by
  obtain ⟨memory, stack⟩ := s
  obtain ⟨e, tail, rfl⟩ := htop
  obtain ⟨_, _, -, -, -, -, -, -, hfree, rfl⟩ := beginLoop_eq_ok h
  refine ⟨by simp [binds_own, hfree], grows_set _ _ _ _ _ _, ?_⟩
  rw [binds_own, Map.containsKey, Map.get?_set_self]
  rfl

/-- What is done with the counter of a loop. -/
lemma count_eq_ok {ii1 ii2 : Option ℤ} {goes : Bool}
    (h : count name ii1 ii2 ⟨memory, .own e :: tail⟩ = .ok (goes, s')) :
    ∃ a b, ii1 = some a ∧ ii2 = some b ∧
      (b < a ∧ goes = false ∧ s' = ⟨memory, .own e :: tail⟩ ∨
        ¬ b < a ∧ goes = true ∧ ∃ cell v, (e.get? (some name)).join = some cell ∧
          memory.deref (some cell) = some v ∧
          s' = ⟨{ memory with cells := memory.cells.set cell { v with value := some (.int a) } },
            .own e :: tail⟩) := by
  unfold count at h
  simp only [Operation.bind_run_eq_ok, onNull_eq_ok] at h
  obtain ⟨a, _, ⟨rfl, rfl⟩, b, _, ⟨rfl, rfl⟩, h⟩ := h
  refine ⟨a, b, rfl, rfl, ?_⟩
  by_cases hlt : b < a
  · rw [if_pos hlt] at h
    cases h
    exact .inl ⟨hlt, rfl, rfl⟩
  · rw [if_neg hlt] at h
    simp only [Operation.bind_run_eq_ok, deref_eq_ok, onNull_eq_ok, Operation.pure_run_eq_ok] at h
    obtain ⟨_, _, hlast, v, _, ⟨hv, rfl⟩, cell, _, ⟨hcell, rfl⟩, _, _, hset, rfl, rfl⟩ := h
    cases hlast
    cases hset
    exact .inr ⟨hlt, rfl, cell, v, hcell, hcell ▸ hv, rfl⟩

lemma count_stack {ii1 ii2 : Option ℤ} {goes : Bool} (htop : s.OwnTop)
    (h : count name ii1 ii2 s = .ok (goes, s')) : s'.stack = s.stack := by
  obtain ⟨memory, stack⟩ := s
  obtain ⟨e, tail, rfl⟩ := htop
  obtain ⟨a, b, -, -, ⟨-, -, rfl⟩ | ⟨-, -, cell, v, -, -, rfl⟩⟩ := count_eq_ok h <;> rfl

lemma beginForeach_eq_ok {index : Ref} {u : Unit}
    (h : beginForeach name index ⟨memory, .own e :: tail⟩ = .ok (u, s')) :
    (∃ v, memory.deref index = some v ∧ v.isList) ∧ e.containsKey (some name) = false ∧
      s' = ⟨memory, .own e :: tail⟩ := by
  unfold beginForeach at h
  simp only [Operation.bind_run_eq_ok, Operation.check_run_eq_ok, deref_eq_ok] at h
  obtain ⟨v, _, ⟨hv, rfl⟩, hlist, hunused⟩ := h
  exact ⟨⟨v, hv, by simpa using hlist⟩, checkUnused_eq_ok.mp hunused⟩

lemma beginForeach_effect {index : Ref} {u : Unit} (htop : s.OwnTop)
    (h : beginForeach name index s = .ok (u, s')) : ¬ s.Binds name ∧ Grows s s' := by
  obtain ⟨memory, stack⟩ := s
  obtain ⟨e, tail, rfl⟩ := id htop
  obtain ⟨-, hfree, rfl⟩ := beginForeach_eq_ok h
  exact ⟨by simp [binds_own, hfree], htop.grows rfl⟩

lemma element_eq_ok {index : Ref} {i : ℕ} {goes : Bool}
    (h : element name index i ⟨memory, .own e :: tail⟩ = .ok (goes, s')) :
    ∃ v l, memory.deref index = some v ∧ v.list = some l ∧
      ((∃ r, (memory.list l)[i]? = some r ∧ goes = true ∧
          s' = ⟨memory, .own (e.set (some name) r) :: tail⟩) ∨
        goes = false ∧ s' = ⟨memory, .own e :: tail⟩) := by
  unfold element at h
  simp only [Operation.bind_run_eq_ok, deref_eq_ok, onNull_eq_ok] at h
  obtain ⟨v, _, ⟨hv, rfl⟩, l, _, ⟨hl, rfl⟩, _, _, ⟨⟩, h⟩ := h
  refine ⟨v, l, hv, hl, ?_⟩
  cases hr : (memory.list l)[i]? with
  | none =>
    simp only [hr] at h
    cases h
    exact .inr ⟨rfl, rfl⟩
  | some r =>
    simp only [hr] at h
    cases h
    exact .inl ⟨r, rfl, rfl, rfl⟩

lemma element_grows {index : Ref} {i : ℕ} {goes : Bool} (htop : s.OwnTop)
    (h : element name index i s = .ok (goes, s')) : Grows s s' := by
  obtain ⟨memory, stack⟩ := s
  obtain ⟨e, tail, rfl⟩ := id htop
  obtain ⟨v, l, -, -, ⟨r, -, -, rfl⟩ | ⟨-, rfl⟩⟩ := element_eq_ok h
  · exact grows_set _ _ _ _ _ _
  · exact htop.grows rfl

lemma pushStack_eq_ok {u : Unit} (h : pushStack s = .ok (u, s')) :
    s' = { s with stack := .own [] :: s.stack } := by
  cases h
  rfl

/-- What an operation does to the stack. -/
theorem IsStep.effect {P : ScriptPlatform} {l : ScriptEvent} {op : ScriptStep α}
    {out : α → List Ref} (hl : IsStep P l op out) (htop : s.OwnTop) (h : op s = .ok (a, s')) :
    Effect l s s' := by
  cases hl with
  | printInternal | print | stringFunction | integerFunction | call | integer | string | index
  | assign | condition => exact htop.grows (onMemory_stack h)
  | name name isLeftVariable => exact find_grows htop h
  | loop name i1 i2 => exact beginLoop_effect htop h
  | counter name ii1 ii2 => exact htop.grows (count_stack htop h)
  | foreach name i => exact beginForeach_effect htop h
  | element name i n => exact element_grows htop h
  | remove name =>
    obtain ⟨memory, stack⟩ := s
    obtain ⟨e, tail, rfl⟩ := htop
    cases h
    exact ⟨e, tail, rfl, rfl⟩
  | pushStack depth =>
    cases h
    rfl
  | popStack =>
    obtain ⟨memory, stack⟩ := s
    obtain ⟨e, tail, rfl⟩ := htop
    cases h
    exact ⟨.own e, rfl⟩
  | statement stat depth =>
    cases h
    exact htop.grows rfl

end

/-- A script is run by its syntax tree. -/
lemma runScript_eq (P : ScriptPlatform) {tree : ParseTreeNode} {blockEntry : PBlockEntry}
    (h : tree.userContents = some (.blockEntryNode blockEntry)) :
    runScript P tree = runScript P (.node [] (some (.blockEntryNode blockEntry)) none []) := by
  unfold runScript
  rw [h]
  rfl

/-! ### Contracts -/

lemma select_eq_ok {P : ScriptPlatform} {name : Units} {n : ℕ} {f : BuiltIn}
    (h : select P name n = .ok f) :
    ∃ arity, (refMap P).lookup name = some (f, arity) ∧ arity.all (· = n) = true := by
  unfold select at h
  split at h
  · cases h
  · rename_i g arity hlookup
    by_cases harity : arity.all (· = n) = true
    · rw [if_pos harity] at h
      cases h
      exact ⟨arity, hlookup, harity⟩
    · rw [if_neg harity] at h
      cases h

lemma select_eq_error {P : ScriptPlatform} {name : Units} {n : ℕ} {e : ScriptError}
    (h : select P name n = .error e) : ∃ text, e = .exception text := by
  unfold select at h
  split at h
  · cases h
    exact ⟨_, rfl⟩
  · split_ifs at h
    cases h
    exact ⟨_, rfl⟩

/-- Each operation keeps the contract, and `V` holds of all references from then on. -/
structure SoundIn (P : ScriptPlatform) (C : Contract ScriptIsolate ScriptEvent ScriptError)
    (V : ScriptIsolate → Ref → Prop) : Prop where
  before {α : Type} {l : ScriptEvent} {op : ScriptStep α} {out : α → List Ref} {s : ScriptIsolate} :
    IsStep P l op out → C.always s → Fits l s → (∀ r ∈ l.refs, V s r) → C.before l s
  ok {α : Type} {l : ScriptEvent} {op : ScriptStep α} {out : α → List Ref} {s s' : ScriptIsolate}
      {a : α} : IsStep P l op out → C.always s → Fits l s → (∀ r ∈ l.refs, V s r) → C.guard l s →
    op s = .ok (a, s') → C.always s' ∧ (∀ r ∈ out a, V s' r) ∧ ∀ r, V s r → V s' r
  error {α : Type} {l : ScriptEvent} {op : ScriptStep α} {out : α → List Ref} {s : ScriptIsolate}
      {e : ScriptError} : IsStep P l op out → C.always s → Fits l s → (∀ r ∈ l.refs, V s r) →
    C.guard l s → op s = .error e → C.raises e
  exception (text : Units) : C.raises (.exception text)
  noFunction {depth : ℕ} {s : ScriptIsolate} :
    C.guard (.statement (.sfunction none) depth) s → C.raises .noSuchMethod

/-- Each operation keeps the contract, and `V` holds of all references. -/
structure Sound (P : ScriptPlatform) (C : Contract ScriptIsolate ScriptEvent ScriptError)
    (V : Ref → Prop) : Prop where
  before {α : Type} {l : ScriptEvent} {op : ScriptStep α} {out : α → List Ref} {s : ScriptIsolate} :
    IsStep P l op out → C.always s → Fits l s → (∀ r ∈ l.refs, V r) → C.before l s
  ok {α : Type} {l : ScriptEvent} {op : ScriptStep α} {out : α → List Ref} {s s' : ScriptIsolate}
      {a : α} : IsStep P l op out → C.always s → Fits l s → (∀ r ∈ l.refs, V r) → C.guard l s →
    op s = .ok (a, s') → C.always s' ∧ ∀ r ∈ out a, V r
  error {α : Type} {l : ScriptEvent} {op : ScriptStep α} {out : α → List Ref} {s : ScriptIsolate}
      {e : ScriptError} : IsStep P l op out → C.always s → Fits l s → (∀ r ∈ l.refs, V r) →
    C.guard l s → op s = .error e → C.raises e
  exception (text : Units) : C.raises (.exception text)
  noFunction {depth : ℕ} {s : ScriptIsolate} :
    C.guard (.statement (.sfunction none) depth) s → C.raises .noSuchMethod

namespace Sound

/-- What runs on the stack of `s` leaves the frame on top without the variable. -/
def Leaves (name : Option Units) (s s' : ScriptIsolate) : Prop :=
  Grows s s' ∧ ∀ n, name = some n → ¬ s'.Binds n

end Sound

variable {P : ScriptPlatform} {C : Contract ScriptIsolate ScriptEvent ScriptError}
  {α : Type} {l : ScriptEvent} {op : ScriptStep α} {out : α → List Ref}

/-- What runs on the stack of `s` keeps its references. -/
def Carries (V : ScriptIsolate → Ref → Prop) (s s' : ScriptIsolate) : Prop :=
  Grows s s' ∧ ∀ r, V s r → V s' r

namespace Carries

variable {V : ScriptIsolate → Ref → Prop} {s s' s'' : ScriptIsolate}

lemma ownTop (h : Carries V s s') : s'.OwnTop := h.1.ownTop

lemma length_eq (h : Carries V s s') : s'.stack.length = s.stack.length := h.1.length_eq

lemma trans (h : Carries V s s') (h' : Carries V s' s'') : Carries V s s'' :=
  ⟨h.1.trans h'.1, fun r hr => h'.2 r (h.2 r hr)⟩

lemma refl (h : s.OwnTop) : Carries V s s := ⟨h.grows rfl, fun _ hr => hr⟩

end Carries

namespace SoundIn

variable {V : ScriptIsolate → Ref → Prop}

lemma perform (h : SoundIn P C V) (hl : IsStep P l op out) (hs : C.always s) (hfits : Fits l s)
    (hrefs : ∀ r ∈ l.refs, V s r) :
    C.Meets (fun a s' => C.guard l s ∧ op s = .ok (a, s') ∧ (∀ r ∈ out a, V s' r) ∧
      ∀ r, V s r → V s' r) (Prog.perform l op) s := by
  refine Contract.meets_perform hs (h.before hl hs hfits hrefs) (fun a s' hg hop => ?_)
    fun e hg hop => h.error hl hs hfits hrefs hg hop
  obtain ⟨hs', hout, hkept⟩ := h.ok hl hs hfits hrefs hg hop
  exact ⟨hs', hg, hop, hout, hkept⟩

/-- An operation on a stack whose top frame is the runner's. -/
lemma perform_effect (h : SoundIn P C V) (hl : IsStep P l op out) (hs : C.always s)
    (htop : s.OwnTop) (hfits : Fits l s) (hrefs : ∀ r ∈ l.refs, V s r) :
    C.Meets (fun a s' => C.guard l s ∧ Effect l s s' ∧ (∀ r ∈ out a, V s' r) ∧
      ∀ r, V s r → V s' r) (Prog.perform l op) s :=
  (h.perform hl hs hfits hrefs).mono fun _ _ _ ⟨hg, hop, hrest⟩ => ⟨hg, hl.effect htop hop, hrest⟩

/-- An operation that leaves the frames below the top one as they are. -/
lemma perform_carries (h : SoundIn P C V) (hl : IsStep P l op out) (hs : C.always s)
    (htop : s.OwnTop) (hfits : Fits l s) (hrefs : ∀ r ∈ l.refs, V s r)
    (heffect : ∀ s', Effect l s s' → Grows s s') :
    C.Meets (fun a s' => Carries V s s' ∧ ∀ r ∈ out a, V s' r) (Prog.perform l op) s :=
  (h.perform_effect hl hs htop hfits hrefs).mono fun _ s' _ ⟨_, he, hout, hkept⟩ =>
    ⟨⟨heffect s' he, hkept⟩, hout⟩

/-! #### Values -/

/-- A value is computed: names may have been added to the top frame. -/
def Gives (V : ScriptIsolate → Ref → Prop) (s : ScriptIsolate) (r : Ref) (s' : ScriptIsolate) :
    Prop :=
  Carries V s s' ∧ V s' r

lemma meets_print (h : SoundIn P C V) {args : List Ref} (hs : C.always s) (htop : s.OwnTop)
    (hargs : ∀ r ∈ args, V s r) : C.Meets (Gives V s) (print args) s := by
  unfold print
  refine Contract.meets_bind (Contract.meets_loop
    (fun rs s' => C.always s' ∧ Carries V s s' ∧ ∀ r ∈ rs, V s' r) ⟨hs, .refl htop, hargs⟩
    (Q := fun _ s' => Carries V s s') fun rs s1 ⟨hs1, h1, hrs⟩ => ?_) fun _ s1 hs1 h1 => ?_
  · cases rs with
    | nil => exact Contract.meets_ret hs1 h1
    | cons r rs =>
      obtain ⟨hr, hrs⟩ := List.forall_mem_cons.mp hrs
      refine Contract.meets_bind (h.perform_carries (.printInternal r) hs1 h1.ownTop h1.ownTop
        (List.forall_mem_singleton.mpr hr) fun _ he => he) fun inner s2 hs2 ⟨h2, hinner⟩ => ?_
      exact Contract.meets_ret hs2 ⟨hs2, h1.trans h2,
        List.forall_mem_append.mpr ⟨hinner, fun r hr => h2.2 r (hrs r hr)⟩⟩
  · exact (h.perform_carries (.print args) hs1 h1.ownTop h1.ownTop
      (fun r hr => h1.2 r (hargs r hr)) fun _ he => he).mono
      fun r s2 _ ⟨h2, hout⟩ => ⟨h1.trans h2, hout r (by simp)⟩

/-- An operation that returns a value. -/
lemma meets_perform (h : SoundIn P C V) {op : ScriptStep Ref} (hl : IsStep P l op ([·]))
    (hs : C.always s) (htop : s.OwnTop) (hfits : Fits l s) (hrefs : ∀ r ∈ l.refs, V s r)
    (heffect : ∀ s', Effect l s s' → Grows s s') : C.Meets (Gives V s) (Prog.perform l op) s :=
  (h.perform_carries hl hs htop hfits hrefs heffect).mono fun r _ _ ⟨h', hout⟩ =>
    ⟨h', hout r (by simp)⟩

lemma meets_runBuiltIn (h : SoundIn P C V) (name : Units) {args : List Ref} (hs : C.always s)
    (htop : s.OwnTop) (hargs : ∀ r ∈ args, V s r) :
    C.Meets (Gives V s) (runBuiltIn P name args) s := by
  unfold runBuiltIn
  cases hselect : select P name args.length with
  | error e =>
    obtain ⟨text, rfl⟩ := select_eq_error hselect
    exact Contract.meets_raise hs (h.exception text)
  | ok f =>
    obtain ⟨arity, hlookup, harity⟩ := select_eq_ok hselect
    cases f with
    | print => exact h.meets_print hs htop hargs
    | string f =>
      exact h.meets_perform (.stringFunction hlookup harity) hs htop htop hargs fun _ he => he
    | integer f =>
      exact h.meets_perform (.integerFunction hlookup harity) hs htop htop hargs fun _ he => he
    | call f => exact h.meets_perform (.call hlookup harity) hs htop htop hargs fun _ he => he

mutual

theorem meets_runIndex (h : SoundIn P C V) : (index : PIndex) → ∀ (isLeftVariable : Bool)
    {s : ScriptIsolate}, C.always s → s.OwnTop →
    C.Meets (Gives V s) (runIndex P index isLeftVariable) s
  | .ofVariable content, isLeftVariable, s, hs, htop => by
    rw [runIndex]
    exact meets_runVariable h content isLeftVariable hs htop
  | .indexing index content, _, s, hs, htop => by
    rw [runIndex]
    refine Contract.meets_bind (meets_runIndex h index false hs htop) fun v1 s1 hs1 h1 => ?_
    refine Contract.meets_bind (meets_runVariable h content false hs1 h1.1.ownTop)
      fun v2 s2 hs2 h2 => ?_
    refine (h.meets_perform (.index v1 v2) hs2 h2.1.ownTop h2.1.ownTop ?_ fun _ he => he).mono
      fun r s3 _ h3 => ⟨(h1.1.trans h2.1).trans h3.1, h3.2⟩
    simp only [ScriptEvent.refs, List.mem_cons, List.not_mem_nil, or_false, forall_eq_or_imp,
      forall_eq]
    exact ⟨h2.1.2 v1 h1.2, h2.2⟩

theorem meets_runVariable (h : SoundIn P C V) : (content : PVariable) → ∀ (isLeftVariable : Bool)
    {s : ScriptIsolate}, C.always s → s.OwnTop →
    C.Meets (Gives V s) (runVariable P content isLeftVariable) s
  | .function function, _, s, hs, htop => by
    rw [runVariable]
    exact meets_runFunction h function hs htop
  | .name name, isLeftVariable, s, hs, htop => by
    rw [runVariable]
    exact h.meets_perform (.name name isLeftVariable) hs htop htop (by simp [ScriptEvent.refs])
      fun _ he => he
  | .consts (.integer content), _, s, hs, htop => by
    rw [runVariable]
    exact h.meets_perform (.integer content) hs htop htop (by simp [ScriptEvent.refs])
      fun _ he => he
  | .consts (.string content), _, s, hs, htop => by
    rw [runVariable]
    exact h.meets_perform (.string content) hs htop htop (by simp [ScriptEvent.refs])
      fun _ he => he
  | .null, _, s, hs, htop => by
    rw [runVariable]
    exact Contract.meets_raise hs (h.exception _)

theorem meets_runArgument (h : SoundIn P C V) : (argument : PArgument) → ∀ {s : ScriptIsolate},
    C.always s → s.OwnTop →
      C.Meets (fun rs s' => Carries V s s' ∧ ∀ r ∈ rs, V s' r) (runArgument P argument) s
  | .last index, s, hs, htop => by
    rw [runArgument]
    refine Contract.meets_bind (meets_runIndex h index false hs htop) fun i s1 hs1 h1 => ?_
    exact Contract.meets_ret hs1 ⟨h1.1, List.forall_mem_singleton.mpr h1.2⟩
  | .cons index argument, s, hs, htop => by
    rw [runArgument]
    refine Contract.meets_bind (meets_runIndex h index false hs htop) fun i s1 hs1 h1 => ?_
    refine Contract.meets_bind (meets_runArgument h argument hs1 h1.1.ownTop)
      fun a s2 hs2 h2 => ?_
    exact Contract.meets_ret hs2 ⟨h1.1.trans h2.1,
      List.forall_mem_cons.mpr ⟨h2.1.2 i h1.2, h2.2⟩⟩

theorem meets_runFunction (h : SoundIn P C V) : (function : PFunction) → ∀ {s : ScriptIsolate},
    C.always s → s.OwnTop → C.Meets (Gives V s) (runFunction P function) s
  | .call name, s, hs, htop => by
    rw [runFunction]
    exact h.meets_runBuiltIn name hs htop (by simp)
  | .callWith name argument, s, hs, htop => by
    rw [runFunction]
    refine Contract.meets_bind (meets_runArgument h argument hs htop) fun args s1 hs1 h1 => ?_
    exact (h.meets_runBuiltIn name hs1 h1.1.ownTop h1.2).mono
      fun r s2 _ h2 => ⟨h1.1.trans h2.1, h2.2⟩

end

/-! #### Statements -/

/-- What runs on the stack of `s` keeps its references, and leaves the frame on top without the
variable. -/
def Leaves (V : ScriptIsolate → Ref → Prop) (name : Option Units) (s s' : ScriptIsolate) : Prop :=
  Carries V s s' ∧ ∀ n, name = some n → ¬ s'.Binds n

mutual

theorem meets_runStatement (h : SoundIn P C V) : (stat : PStatement) → ∀ {depth : ℕ}
    {s : ScriptIsolate}, C.always s → s.OwnTop → s.stack.length = 2 + depth →
    (stat = .sfunction none → C.raises .noSuchMethod) →
    C.Meets (fun _ => Leaves V stat.loopVariable s) (runStatement P depth stat) s
  | .sfunction none, depth, s, hs, htop, _, hnone => by
    rw [runStatement]
    exact Contract.meets_raise hs (hnone rfl)
  | .sfunction (some function), depth, s, hs, htop, _, _ => by
    rw [runStatement]
    refine Contract.meets_bind (h.meets_runFunction function hs htop) fun _ s1 hs1 h1 => ?_
    exact Contract.meets_ret hs1 ⟨h1.1, nofun⟩
  | .sindex index1 index2, depth, s, hs, htop, _, _ => by
    rw [runStatement]
    refine Contract.meets_bind (h.meets_runIndex index1 true hs htop) fun v1 s1 hs1 h1 => ?_
    refine Contract.meets_bind (h.meets_runIndex index2 false hs1 h1.1.ownTop)
      fun v2 s2 hs2 h2 => ?_
    refine (h.perform_carries (.assign v1 v2) hs2 h2.1.ownTop h2.1.ownTop ?_ fun _ he => he).mono
      fun _ s3 _ ⟨h3, _⟩ => ⟨(h1.1.trans h2.1).trans h3, nofun⟩
    simp only [ScriptEvent.refs, List.mem_cons, List.not_mem_nil, or_false, forall_eq_or_imp,
      forall_eq]
    exact ⟨h2.1.2 v1 h1.2, h2.2⟩
  | .srunnable runnable, depth, s, hs, htop, hdepth, _ => by
    rw [runStatement]
    exact meets_runRunnable h runnable hs htop hdepth

theorem meets_runLine (h : SoundIn P C V) : (line : PLine) → ∀ {depth : ℕ} {s : ScriptIsolate},
    C.always s → s.OwnTop → s.stack.length = 2 + depth →
    C.Meets (fun _ => Leaves V line.statement.loopVariable s) (runLine P depth line) s
  | .mk statement, depth, s, hs, htop, hdepth => by
    rw [runLine]
    refine Contract.meets_bind (h.perform (.statement statement depth) hs ⟨htop, hdepth⟩
      (by simp [ScriptEvent.refs]))
      fun _ s1 hs1 ⟨hguard, hop, _⟩ => ?_
    cases hop
    refine meets_runStatement h statement hs1 htop hdepth ?_
    rintro rfl
    exact h.noFunction hguard

theorem meets_runBlock (h : SoundIn P C V) : (block : PBlock) → ∀ {depth : ℕ} {s : ScriptIsolate},
    C.always s → s.OwnTop → s.stack.length = 2 + depth →
    C.Meets (fun _ => Carries V s) (runBlock P depth block) s
  | .empty, depth, s, hs, htop, _ => by
    rw [runBlock]
    exact Contract.meets_ret hs (.refl htop)
  | .cons line block, depth, s, hs, htop, hdepth => by
    rw [runBlock]
    refine Contract.meets_bind (meets_runLine h line hs htop hdepth) fun _ s1 hs1 h1 => ?_
    exact (meets_runBlock h block hs1 h1.1.ownTop (h1.1.length_eq.trans hdepth)).mono
      fun _ s2 _ h2 => h1.1.trans h2

theorem meets_runBlockEntry (h : SoundIn P C V) : (blockEntry : PBlockEntry) → ∀ {depth : ℕ}
    {s : ScriptIsolate}, C.always s → s.OwnTop → s.stack.length = 2 + depth →
    C.Meets (fun _ s' => Carries V s s' ∧
      ∀ block, blockEntry = .innerBlock block → s'.stack = s.stack)
      (runBlockEntry P depth blockEntry) s
  | .innerBlock block, depth, s, hs, htop, hdepth => by
    rw [runBlockEntry]
    refine Contract.meets_bind (h.perform (.pushStack (depth + 1)) hs
      (hdepth.trans (by omega)) (by simp [ScriptEvent.refs])) fun _ s1 hs1 ⟨_, hpush, _, h1⟩ => ?_
    have hpushed : s1.stack = .own [] :: s.stack := by rw [pushStack_eq_ok hpush]
    have hdepth1 : s1.stack.length = 2 + (depth + 1) := by
      rw [hpushed, List.length_cons, hdepth, Nat.add_assoc]
    refine Contract.meets_bind (meets_runBlock h block hs1 ⟨[], s.stack, hpushed⟩ hdepth1)
      fun _ s2 hs2 h2 => ?_
    refine (h.perform_effect .popStack hs2 h2.ownTop h2.ownTop (by simp [ScriptEvent.refs])).mono
      fun _ s3 _ ⟨_, ⟨f, hf⟩, _, h3⟩ => ?_
    have hpopped := h2.1.pop hpushed hf
    exact ⟨⟨htop.grows hpopped, fun r hr => h3 r (h2.2 r (h1 r hr))⟩, fun _ _ => hpopped⟩
  | .line line, depth, s, hs, htop, hdepth => by
    rw [runBlockEntry]
    exact (meets_runLine h line hs htop hdepth).mono fun _ s' _ h' => ⟨h'.1, nofun⟩

theorem meets_runRunnable (h : SoundIn P C V) : (runnable : PRunnable) → ∀ {depth : ℕ}
    {s : ScriptIsolate}, C.always s → s.OwnTop → s.stack.length = 2 + depth →
    C.Meets (fun _ => Leaves V (PStatement.srunnable runnable).loopVariable s)
      (runRunnable P depth runnable) s
  | .sloop name index1 index2 blockEntry1, depth, s, hs, htop, hdepth => by
    rw [runRunnable]
    refine Contract.meets_bind (h.meets_runIndex index1 false hs htop) fun i1 s1 hs1 h1 => ?_
    refine Contract.meets_bind (h.meets_runIndex index2 false hs1 h1.1.ownTop)
      fun i2 s2 hs2 h2 => ?_
    refine Contract.meets_bind
      (h.perform_effect (.loop name i1 i2) hs2 h2.1.ownTop h2.1.ownTop ?_)
      fun bounds s3 hs3 ⟨_, ⟨hunbound, hgrows, hbinds⟩, _, hkept⟩ => ?_
    · simp only [ScriptEvent.refs, List.mem_cons, List.not_mem_nil, or_false, forall_eq_or_imp,
        forall_eq]
      exact ⟨h2.1.2 i1 h1.2, h2.2⟩
    · have hdepth3 : s3.stack.length = 2 + depth :=
        hgrows.length_eq.trans (h2.1.length_eq.trans (h1.1.length_eq.trans hdepth))
      -- the variable stays bound while the loop runs
      refine Contract.meets_bind (Contract.meets_loop (fun _ s' => C.always s' ∧ Carries V s3 s')
        ⟨hs3, .refl hgrows.ownTop⟩ (Q := fun _ s' => Carries V s3 s') fun ii1 s4 ⟨hs4, h4⟩ => ?_)
        fun _ s5 hs5 h5 => ?_
      · refine Contract.meets_bind (h.perform_carries (.counter name ii1 bounds.2) hs4 h4.ownTop
          (h4.1.binds hbinds) (by simp [ScriptEvent.refs]) fun _ he => he)
          fun goes s5 hs5 ⟨h5, _⟩ => ?_
        cases goes with
        | true =>
          refine Contract.meets_bind (meets_runBlockEntry h blockEntry1 hs5
            ((h4.trans h5).ownTop) ((h4.trans h5).length_eq.trans hdepth3)) fun _ s6 hs6 h6 => ?_
          exact Contract.meets_ret hs6 ⟨hs6, (h4.trans h5).trans h6.1⟩
        | false => exact Contract.meets_ret hs5 (h4.trans h5)
      · refine (h.perform_effect (.remove name) hs5 h5.ownTop h5.ownTop
          (by simp [ScriptEvent.refs])).mono
          fun _ s6 _ ⟨_, hremove, _, h6⟩ => ?_
        obtain ⟨hgrows6, hgone⟩ := (hgrows.trans h5.1).remove hunbound hremove
        have h36 : Carries V s2 s6 := ⟨hgrows6, fun r hr => h6 r (h5.2 r (hkept r hr))⟩
        exact ⟨(h1.1.trans h2.1).trans h36, fun _ hname => Option.some.inj hname ▸ hgone⟩
  | .sforeach name index1 blockEntry1, depth, s, hs, htop, hdepth => by
    rw [runRunnable]
    refine Contract.meets_bind (h.meets_runIndex index1 false hs htop) fun index s1 hs1 h1 => ?_
    refine Contract.meets_bind (h.perform_effect (.foreach name index) hs1 h1.1.ownTop h1.1.ownTop
      (List.forall_mem_singleton.mpr h1.2))
      fun _ s2 hs2 ⟨_, ⟨hunbound, hgrows⟩, _, hkept⟩ => ?_
    have hdepth2 : s2.stack.length = 2 + depth :=
      hgrows.length_eq.trans (h1.1.length_eq.trans hdepth)
    refine Contract.meets_bind (Contract.meets_loop (fun _ s' => C.always s' ∧ Carries V s2 s')
      ⟨hs2, .refl hgrows.ownTop⟩ (Q := fun _ s' => Carries V s2 s') fun i s3 ⟨hs3, h3⟩ => ?_)
      fun _ s4 hs4 h4 => ?_
    · refine Contract.meets_bind (h.perform_carries (.element name index i) hs3 h3.ownTop h3.ownTop
        (List.forall_mem_singleton.mpr (h3.2 index (hkept index h1.2))) fun _ he => he)
        fun goes s4 hs4 ⟨h4, _⟩ => ?_
      cases goes with
      | true =>
        refine Contract.meets_bind (meets_runBlockEntry h blockEntry1 hs4 ((h3.trans h4).ownTop)
          ((h3.trans h4).length_eq.trans hdepth2)) fun _ s5 hs5 h5 => ?_
        exact Contract.meets_ret hs5 ⟨hs5, (h3.trans h4).trans h5.1⟩
      | false => exact Contract.meets_ret hs4 (h3.trans h4)
    · refine (h.perform_effect (.remove name) hs4 h4.ownTop h4.ownTop
        (by simp [ScriptEvent.refs])).mono fun _ s5 _ ⟨_, hremove, _, h5⟩ => ?_
      obtain ⟨hgrows5, hgone⟩ := (hgrows.trans h4.1).remove hunbound hremove
      have h15 : Carries V s1 s5 := ⟨hgrows5, fun r hr => h5 r (h4.2 r (hkept r hr))⟩
      exact ⟨h1.1.trans h15, fun _ hname => Option.some.inj hname ▸ hgone⟩
  | .sif index1 blockEntry1, depth, s, hs, htop, hdepth => by
    rw [runRunnable]
    refine Contract.meets_bind (h.meets_runIndex index1 false hs htop) fun cond s1 hs1 h1 => ?_
    refine Contract.meets_bind (h.perform_carries (.condition cond) hs1 h1.1.ownTop h1.1.ownTop
      (List.forall_mem_singleton.mpr h1.2) fun _ he => he) fun holds s2 hs2 ⟨h2, _⟩ => ?_
    have h12 := h1.1.trans h2
    cases holds with
    | true =>
      exact (meets_runBlockEntry h blockEntry1 hs2 h12.ownTop (h12.length_eq.trans hdepth)).mono
        fun _ s3 _ h3 => ⟨h12.trans h3.1, nofun⟩
    | false => exact Contract.meets_ret hs2 ⟨h12, nofun⟩
  | .sifelse index1 blockEntry1 blockEntry2, depth, s, hs, htop, hdepth => by
    rw [runRunnable]
    refine Contract.meets_bind (h.meets_runIndex index1 false hs htop) fun cond s1 hs1 h1 => ?_
    refine Contract.meets_bind (h.perform_carries (.condition cond) hs1 h1.1.ownTop h1.1.ownTop
      (List.forall_mem_singleton.mpr h1.2) fun _ he => he) fun holds s2 hs2 ⟨h2, _⟩ => ?_
    have h12 := h1.1.trans h2
    cases holds with
    | true =>
      exact (meets_runBlockEntry h blockEntry1 hs2 h12.ownTop (h12.length_eq.trans hdepth)).mono
        fun _ s3 _ h3 => ⟨h12.trans h3.1, nofun⟩
    | false =>
      exact (meets_runBlockEntry h blockEntry2 hs2 h12.ownTop (h12.length_eq.trans hdepth)).mono
        fun _ s3 _ h3 => ⟨h12.trans h3.1, nofun⟩

end

/-- A sound contract is kept by the whole script, which leaves the stack as it was. -/
theorem meets_runScript (h : SoundIn P C V) (tree : ParseTreeNode) {s : ScriptIsolate}
    (hs : C.always s) (hstack : s.stack.length = 1) :
    C.Meets (fun _ s' => s'.stack = s.stack) (runScript P tree) s := by
  unfold runScript
  split
  · rename_i blockEntry _
    refine Contract.meets_bind (h.perform (.pushStack 0) hs hstack (by simp [ScriptEvent.refs]))
      fun _ s1 hs1 ⟨_, hpush, _⟩ => ?_
    have hpushed : s1.stack = .own [] :: s.stack := by rw [pushStack_eq_ok hpush]
    have hdepth : s1.stack.length = 2 + 0 := by rw [hpushed, List.length_cons, hstack]
    refine Contract.meets_bind (h.meets_runBlockEntry blockEntry hs1 ⟨[], s.stack, hpushed⟩ hdepth)
      fun _ s2 hs2 h2 => ?_
    refine (h.perform_effect .popStack hs2 h2.1.ownTop h2.1.ownTop
      (by simp [ScriptEvent.refs])).mono fun _ s3 _ ⟨_, ⟨f, hf⟩, _⟩ => ?_
    exact h2.1.1.pop hpushed hf
  · exact Contract.meets_raise hs (h.exception _)

end SoundIn

/-! #### What holds of all references -/

namespace Sound

variable {V : Ref → Prop}

lemma soundIn (h : Sound P C V) : SoundIn P C fun _ => V where
  before := h.before
  ok hl hs hfits hrefs hguard hop :=
    (h.ok hl hs hfits hrefs hguard hop).imp_right fun hout => ⟨hout, fun _ hr => hr⟩
  error := h.error
  exception := h.exception
  noFunction := h.noFunction

theorem meets_runLine (h : Sound P C V) (line : PLine) {depth : ℕ} {s : ScriptIsolate}
    (hs : C.always s) (htop : s.OwnTop) (hdepth : s.stack.length = 2 + depth) :
    C.Meets (fun _ => Leaves line.statement.loopVariable s) (runLine P depth line) s :=
  (h.soundIn.meets_runLine line hs htop hdepth).mono fun _ _ _ h' => ⟨h'.1.1, h'.2⟩

theorem meets_runBlockEntry (h : Sound P C V) (blockEntry : PBlockEntry) {depth : ℕ}
    {s : ScriptIsolate} (hs : C.always s) (htop : s.OwnTop)
    (hdepth : s.stack.length = 2 + depth) :
    C.Meets (fun _ s' => Grows s s' ∧ ∀ block, blockEntry = .innerBlock block → s'.stack = s.stack)
      (runBlockEntry P depth blockEntry) s :=
  (h.soundIn.meets_runBlockEntry blockEntry hs htop hdepth).mono fun _ _ _ h' => ⟨h'.1.1, h'.2⟩

theorem meets_runScript (h : Sound P C V) (tree : ParseTreeNode) {s : ScriptIsolate}
    (hs : C.always s) (hstack : s.stack.length = 1) :
    C.Meets (fun _ s' => s'.stack = s.stack) (runScript P tree) s :=
  h.soundIn.meets_runScript tree hs hstack

end Sound

end ScriptIsolate

end Violet
