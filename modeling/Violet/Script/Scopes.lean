import Violet.Script.Compilation
import Violet.Script.Kept

/-!
# Scopes

A script leaves the stack as it was. What is bound in brackets, and the variable of a loop, is bound
no more behind them. The map of the caller is only out of reach if no value of the script has it.
-/

namespace Violet

open Dart Program Prog ScriptBuiltIn ScriptIsolate ScriptCache

variable {P : ScriptPlatform} {s s' : ScriptIsolate} {caller : ℕ} {entries : Map (Option Units) Ref}
  {tree : ParseTreeNode} {memory : Memory} {name : Units}

/-- No variable has the map of the caller, which keeps its entries. -/
def callerRegion (caller : ℕ) (entries : Map (Option Units) Ref) : Region where
  cell v := v.map ≠ some caller
  ref _ := True
  frozen m := if m = caller then some entries else none
  notReady := nofun
  fromInt _ := nofun
  fromString _ := nofun
  ofList _ := nofun
  ofMap h hm := by
    rw [if_pos (Option.some.inj hm)] at h
    cases h
  map {_ m} hv hm := if_neg fun heq : m = caller => hv (heq ▸ hm)
  some _ := trivial

lemma callerRegion_admits (l : ScriptEvent) (s : ScriptIsolate)
    (hs : (callerRegion caller entries).HoldsIn s) :
    (callerRegion caller entries).Admits P l s := by
  cases l with
  | builtIn name args => exact ⟨fun _ => .inl trivial, fun _ => .inl trivial, fun _ => .inl nofun⟩
  | loop name i1 i2 => exact fun _ _ _ _ _ => nofun
  | counter name ii1 ii2 =>
    intro v n k hv _ _ _
    exact (hs.memory.deref hv : v.map ≠ some caller)
  | _ => trivial

/-- Above the frame of the caller there are frames of the runner only. -/
def Stacked (caller : ℕ) (s : ScriptIsolate) : Prop :=
  ∃ es : List (Map (Option Units) Ref), s.stack = es.map .own ++ [.caller caller]

/-- The number of frames when something is carried out that stands in this number of brackets. -/
def AtDepth : ScriptEvent → ScriptIsolate → Prop
  | .statement _ depth, s => s.stack.length = 2 + depth
  | .pushStack depth, s => s.stack.length = 1 + depth
  | _, _ => True

def scopes (caller : ℕ) (entries : Map (Option Units) Ref) :
    Contract ScriptIsolate ScriptEvent ScriptError where
  guard := anyLabel
  always s := (callerRegion caller entries).HoldsIn s ∧ Stacked caller s
  before := AtDepth
  raises _ := True

lemma Stacked.tail {e : Map (Option Units) Ref} {tail : List ScriptFrame} (hs : Stacked caller s)
    (h : s.stack = .own e :: tail) :
    ∃ es : List (Map (Option Units) Ref), tail = es.map .own ++ [.caller caller] := by
  obtain ⟨es, hes⟩ := hs
  cases es with
  | nil => cases h.symm.trans hes
  | cons e' es => exact ⟨es, (List.cons.inj (h.symm.trans hes)).2⟩

lemma Stacked.grows (hs : Stacked caller s) (h : Grows s s') : Stacked caller s' := by
  obtain ⟨e, e', tail, he, he', -⟩ := h
  obtain ⟨es, hes⟩ := hs.tail he
  exact ⟨e' :: es, by rw [he', hes]; rfl⟩

lemma Stacked.step {l : ScriptEvent} {α : Type} {op : ScriptStep α} {out : α → List Ref} {a : α}
    (hl : IsStep P l op out) (hs : Stacked caller s) (hfits : Fits l s)
    (h : op s = .ok (a, s')) : Stacked caller s' := by
  have heffect (hne : ∀ depth, l ≠ .pushStack depth) : Effect l s s' :=
    hl.effect (hfits.ownTop hne) h
  cases l with
  | pushStack depth =>
    cases hl
    obtain ⟨es, hes⟩ := hs
    exact ⟨[] :: es, by rw [pushStack_eq_ok h, hes]; rfl⟩
  | popStack =>
    obtain ⟨f, hf⟩ := heffect nofun
    obtain ⟨e, tail, he⟩ := id hfits
    obtain ⟨es, hes⟩ := hs.tail he
    exact ⟨es, (List.cons.inj (hf.symm.trans he)).2.trans hes⟩
  | remove name =>
    obtain ⟨e, tail, he, he'⟩ := heffect nofun
    obtain ⟨es, hes⟩ := hs.tail he
    exact ⟨_ :: es, by rw [he', hes]; rfl⟩
  | loop name i1 i2 => exact hs.grows (heffect nofun).2.1
  | foreach name i => exact hs.grows (heffect nofun).2
  | _ => exact hs.grows (heffect nofun)

lemma Stacked.ownTop (hs : Stacked caller s) (h : 1 < s.stack.length) : s.OwnTop := by
  obtain ⟨es, hes⟩ := hs
  cases es with
  | nil =>
    rw [hes] at h
    exact absurd h (lt_irrefl 1)
  | cons e es => exact ⟨e, _, hes⟩

/-- The number of frames follows the brackets. -/
theorem scopes_sound : Sound P (scopes caller entries) fun _ => True where
  before {_ l _ _ s} _ _ hfits _ := by
    cases l with
    | statement stat depth => exact hfits.2
    | pushStack depth => exact hfits
    | _ => trivial
  ok hl hs hfits _ _ h :=
    ⟨⟨(Region.step_holds hl hs.1 hfits (fun _ _ => trivial) (callerRegion_admits _ _ hs.1) h).1,
      hs.2.step hl hfits h⟩, fun _ _ => trivial⟩
  error _ _ _ _ _ _ := trivial
  exception _ := trivial
  noFunction _ := trivial

/-! ### Names -/

/-- A name has no variable unless some frame has it. -/
lemma lookup_eq_none_iff :
    s.lookup name = none ↔ ∀ f ∈ s.stack, (f.entries s.memory).get? (some name) = none :=
  List.findSome?_eq_none_iff

/-- The frames that stay have the same names: the map of the caller does not change. -/
lemma entries_eq (hs : (scopes caller entries).always s) (hs' : (scopes caller entries).always s')
    {f : ScriptFrame} (hf : f ∈ s.stack) : f.entries s'.memory = f.entries s.memory := by
  cases f with
  | own e => rfl
  | caller m =>
    obtain ⟨es, hes⟩ := hs.2
    rw [hes] at hf
    have hm : m = caller := by
      rcases List.mem_append.mp hf with hf | hf
      · obtain ⟨e, -, he⟩ := List.mem_map.mp hf
        cases he
      · cases List.mem_singleton.mp hf
        rfl
    have hget {t : ScriptIsolate} (ht : (scopes caller entries).always t) :
        t.memory.maps[caller]? = some entries := ht.1.memory.frozen caller entries (if_pos rfl)
    rw [hm, ScriptFrame.entries, ScriptFrame.entries, Memory.map, Memory.map,
      List.getD_eq_getElem?_getD, List.getD_eq_getElem?_getD, hget hs, hget hs']

/-- Behind brackets a name is bound only if it was before them. -/
lemma lookup_eq_none_of_stack_eq (hs : (scopes caller entries).always s)
    (hs' : (scopes caller entries).always s') (hstack : s'.stack = s.stack)
    (h : s.lookup name = none) : s'.lookup name = none := by
  rw [lookup_eq_none_iff] at h ⊢
  rw [hstack]
  intro f hf
  rw [entries_eq hs hs' hf]
  exact h f hf

/-- Behind a loop its variable is bound only if it was before it. -/
lemma lookup_eq_none_of_leaves (hs : (scopes caller entries).always s)
    (hs' : (scopes caller entries).always s') (hleaves : Sound.Leaves (some name) s s')
    (h : s.lookup name = none) : s'.lookup name = none := by
  obtain ⟨⟨e, e', tail, he, he', -⟩, hgone⟩ := hleaves
  rw [lookup_eq_none_iff] at h ⊢
  rw [he']
  refine List.forall_mem_cons.mpr ⟨?_, fun f hf => ?_⟩
  · by_contra hne
    exact hgone name rfl ⟨e', tail, he', Option.isSome_iff_ne_none.mpr hne⟩
  · have hmem : f ∈ s.stack := by
      rw [he]
      exact List.mem_cons_of_mem _ hf
    rw [entries_eq hs hs' hmem]
    exact h f hmem

/-! ### Runs -/

lemma always_start (hentries : memory.maps[caller]? = some entries)
    (hheld : ∀ v ∈ memory.cells, v.map ≠ some caller) :
    (scopes caller entries).always (start memory caller) := by
  refine ⟨⟨⟨hheld, fun _ _ _ _ => trivial, fun _ _ _ _ => trivial, fun m entries' hm => ?_⟩,
    fun _ _ _ _ => trivial⟩, [], rfl⟩
  obtain ⟨hm, he⟩ := Option.ite_none_right_eq_some.mp hm
  rw [hm]
  exact hentries.trans he

/-- A completed script leaves the frame of the caller alone with the same variables. On its way the
stack follows the brackets; and a name that is unbound before brackets is unbound behind them, as is
the variable of a loop behind the loop. -/
theorem scopes_restored (P : ScriptPlatform) (tree : ParseTreeNode) {memory : Memory} {caller : ℕ}
    {entries : Map (Option Units) Ref} (hentries : memory.maps[caller]? = some entries)
    (hheld : ∀ v ∈ memory.cells, v.map ≠ some caller) :
    (∀ s', (runScript P tree).Completes (start memory caller) () s' →
      s'.stack = [.caller caller] ∧ s'.memory.maps[caller]? = some entries) ∧
    ∀ c, Reaches anyLabel (runScript P tree, start memory caller) c →
      (∀ stat depth, c.1.label = some (.statement stat depth) → c.2.stack.length = 2 + depth) ∧
      (∀ block depth k s', c.1 = (runBlockEntry P depth (.innerBlock block)).bind k →
        (runBlockEntry P depth (.innerBlock block)).Completes c.2 () s' →
        ∀ name, c.2.lookup name = none → s'.lookup name = none) ∧
      ∀ line depth k s', c.1 = (runLine P depth line).bind k →
        (runLine P depth line).Completes c.2 () s' →
        ∀ name, line.statement.loopVariable = some name → c.2.lookup name = none →
          s'.lookup name = none := by
  have hmeets := (scopes_sound (P := P)).meets_runScript tree (always_start hentries hheld) rfl
  refine ⟨fun s' hrun => ?_, fun c hc => ?_⟩
  · have hs' := hmeets.always_of_reaches hrun
    exact ⟨hmeets.result hrun, hs'.1.memory.frozen caller entries (if_pos rfl)⟩
  · have hs := hmeets.always_of_reaches hc
    refine ⟨fun stat depth hl => hmeets.before_of_reaches hc hl, ?_, ?_⟩
    · intro block depth k s' hblock hrun name hname
      have hl : c.1.label = some (.pushStack (depth + 1)) := by
        rw [hblock, runBlockEntry]
        rfl
      have hpush : c.2.stack.length = 1 + (depth + 1) := hmeets.before_of_reaches hc hl
      have hdepth : c.2.stack.length = 2 + depth := by omega
      have hmeets' := (scopes_sound (P := P)).meets_runBlockEntry (.innerBlock block) hs
        (hs.2.ownTop (by omega)) hdepth
      exact lookup_eq_none_of_stack_eq hs (hmeets'.always_of_reaches hrun)
        ((hmeets'.result hrun).2 block rfl) hname
    · intro line depth k s' hline hrun name hvariable hname
      have hl : c.1.label = some (.statement line.statement depth) := by
        cases line
        rw [hline, runLine]
        rfl
      have hdepth : c.2.stack.length = 2 + depth := hmeets.before_of_reaches hc hl
      have hmeets' := (scopes_sound (P := P)).meets_runLine line hs (hs.2.ownTop (by omega)) hdepth
      refine lookup_eq_none_of_leaves hs (hmeets'.always_of_reaches hrun) ?_ hname
      rw [← hvariable]
      exact hmeets'.result hrun

/-- `mapinsert(self,"x",1)` -/
def insertsX : PBlockEntry :=
  .innerBlock (.cons (.mk (.sfunction (some (.callWith (units "mapinsert")
    (.cons (.ofVariable (.name (units "self")))
      (.cons (.ofVariable (.consts (.string (units "x"))))
        (.last (.ofVariable (.consts (.integer (units "1"))))))))))) .empty)

/-- The variable `self` has the map at this address. -/
def selfMemory (m : ℕ) : Memory where
  cells := [.ofMap m]
  maps := [[(some (units "self"), some 0)], []]

/-- A script that inserts into another map than that of the caller. -/
theorem scopes_restored_mapinsert : ∃ s',
    (runScript .offline (.node [] (some (.blockEntryNode insertsX)) none [])).Completes
      (start (selfMemory 1) 0) () s' ∧
    s'.stack = [.caller 0] ∧ s'.memory.maps[0]? = some [(some (units "self"), some 0)] := by
  have hrun := reaches_exec 20 (runScript .offline
    (.node [] (some (.blockEntryNode insertsX)) none []), start (selfMemory 1) 0)
  have hspec := @scopes_restored .offline (.node [] (some (.blockEntryNode insertsX)) none [])
    (selfMemory 1) 0 _ rfl (by decide)
  exact ⟨_, hrun, hspec.1 _ hrun⟩

/-- A script inserts a name into the map of the caller, which its variable `self` has. -/
theorem not_scopes_restored_self :
    ¬ ∀ (P : ScriptPlatform) (script : Units) (tree : ParseTreeNode), Compiles script (.ok tree) →
      ∀ (memory : Memory) (caller : ℕ) (entries : Map (Option Units) Ref) (s' : ScriptIsolate),
        memory.maps[caller]? = some entries →
        (runScript P tree).Completes (start memory caller) () s' →
        s'.memory.maps[caller]? = some entries := by
  intro h
  obtain ⟨tree, htree, hcontents⟩ := exists_tree (units "mapinsert(self,\"x\",1)")
    (.blockEntryNode insertsX) 60 (by decide +kernel)
  have hrun := reaches_exec 20 (runScript .offline tree, start (selfMemory 0) 0)
  rw [runScript_eq .offline hcontents] at hrun
  have hentries := h .offline _ tree htree (selfMemory 0) 0 _ _ rfl
    (by rw [runScript_eq .offline hcontents]; exact hrun)
  revert hentries
  decide

end Violet
