import Violet.Script.CallDemands
import Violet.Script.Compilation
import Violet.Script.Runs

/-!
# Exceptions of scripts

The runner checks flags and casts values as its functions do. Where each operation of a run can use
what it is given, the run stops with no exception but those of the source.
-/

namespace Violet

open Dart Program Prog Operation ScriptBuiltIn ScriptCall ScriptIsolate ScriptCache

/-! ### What the operations ask for -/

/-- What is printed of a value can be read. -/
def Printable (v : Option RunVariable) : Prop :=
  ∃ r, v = some r ∧
    if r.isString then ∃ t, r.asString = .ok t
    else if r.isInteger then ∃ n, r.asInt = .ok n
    else if r.isList then r.list ≠ none
    else r.isMap → r.map ≠ none

/-- A list has no negative places, and a map is asked for a text. -/
def Indexed (s : Memory) (v1 v2 : Ref) : Prop :=
  ∃ v, s.deref v1 = some v ∧
    if v.isList then FirstChecked (·.isInteger) (s.deref v2)
      (v.list ≠ none ∧ ∃ i, Casts (s.deref v2) (some i) ∧ 0 ≤ i)
    else v.isMap → FirstChecked (·.isString) (s.deref v2)
      (v.map ≠ none ∧ ∃ t, CastsText (s.deref v2) t)

/-- The bounds of a loop are numbers. -/
def Bounded (v w : Option RunVariable) : Prop :=
  FirstChecked (·.isInteger) v (FirstChecked (·.isInteger) w
    ((∃ n, Casts v n) ∧ ∃ n, Casts w n))

/-- The counter is compared, and the variable of the loop is there. -/
def Counted (s : ScriptIsolate) (name : Units) (ii1 ii2 : Option ℤ) : Prop :=
  ∃ a, ii1 = some a ∧ ∃ b, ii2 = some b ∧ (¬ b < a →
    ∃ e tail, s.stack = .own e :: tail ∧ (e.get? (some name)).join ≠ none)

/-- The operation can use what it is given. -/
def Serves (P : ScriptPlatform) : ScriptEvent → ScriptIsolate → Prop
  | .builtIn name args, s => Demanded P s.memory name (args.map s.memory.deref)
  | .printInternal r, s => Printable (s.memory.deref r)
  | .integer content, _ => content.intParse ≠ none
  | .index v1 v2, s => Indexed s.memory v1 v2
  | .assign v1 v2, s => ∃ v, s.memory.deref v2 = some v ∧ (v.isReady → v1 ≠ none)
  | .loop _ i1 i2, s => Bounded (s.memory.deref i1) (s.memory.deref i2)
  | .counter name ii1 ii2, s => Counted s name ii1 ii2
  | .foreach _ index, _ => index ≠ none
  | .element _ index _, s => ∃ v, s.memory.deref index = some v ∧ v.list ≠ none
  | .condition cond, s =>
    FirstChecked (·.isInteger) (s.memory.deref cond) (∃ n, Casts (s.memory.deref cond) n)
  | .statement stat _, _ => stat ≠ .sfunction none
  | _, _ => True

section

variable {α β : Type} {s : Memory} {r : Ref}

/-- A reference that must not be null. -/
lemma deliberate_onNull_pure {x : Option β} {f : β → α} :
    Deliberate ((onNull x >>= fun b => pure (f b) : ScriptCall α) s) ↔ x ≠ none := by
  rw [deliberate_onNull, Option.ne_none_iff_exists']
  exact exists_congr fun b => and_iff_left (throwsOnly_ok _)

lemma deliberate_printed : Deliberate (printed r s) ↔ Printable (s.deref r) := by
  rw [printed, deliberate_deref]
  refine exists_congr fun v => and_congr_right fun _ => ?_
  split_ifs with hstring hint hlist hmap
  · rw [lift_bind_run, deliberate_asString]
    exact exists_congr fun t => and_iff_left (throwsOnly_ok _)
  · rw [lift_bind_run, deliberate_asInt]
    exact exists_congr fun n => and_iff_left (throwsOnly_ok _)
  · rw [get_bind_run, deliberate_onNull_pure]
  · rw [get_bind_run, deliberate_onNull_pure]
    exact ⟨fun h _ => h, fun h => h hmap⟩
  · exact iff_of_true (throwsOnly_ok _) fun h => absurd h hmap

lemma deliberate_integer_content (content : Units) :
    Deliberate (integer content s) ↔ content.intParse ≠ none := by
  rw [integer]
  cases content.intParse with
  | none => exact iff_of_false (not_deliberate (e := .formatException) id) (not_not.mpr rfl)
  | some n => exact iff_of_true (throwsOnly_ok _) (Option.some_ne_none n)

/-- A variable is looked up, and its flag is checked. -/
lemma deliberate_checked {σ : Type} {op : Operation σ ScriptError RunVariable} {t : σ}
    {v : Option RunVariable} {g : RunVariable → Bool} {text : Units} {p : Prop}
    {f : RunVariable → Unit → Operation σ ScriptError α}
    (hop : ∀ f : RunVariable → Operation σ ScriptError α,
      Deliberate ((op >>= f) t) ↔ ∃ w, v = some w ∧ Deliberate (f w t))
    (hf : ∀ w, v = some w → (Deliberate (f w () t) ↔ p)) :
    Deliberate ((op >>= fun w =>
      if (!g w) = true then throw (.exception text) >>= f w else f w ()) t) ↔
      FirstChecked g v p := by
  rw [hop]
  refine exists_congr fun w => and_congr_right fun hw => ?_
  exact (throwsOnly_check_iff trivial).trans (imp_congr (by simp) (hf w hw))

lemma deliberate_placeIn {n : ℕ} {i : ℤ} {f : ℕ → α} (h : ¬ n ≤ i) :
    Deliberate ((placeIn n i >>= fun k => pure (f k) : ScriptCall α) s) ↔ 0 ≤ i := by
  rw [placeIn]
  split_ifs with hi
  · exact iff_of_true (throwsOnly_ok _) hi.1
  · exact iff_of_false (not_deliberate (e := .rangeError) id) (by omega)

lemma deliberate_indexing (v1 v2 : Ref) :
    Deliberate (indexing v1 v2 s) ↔ Indexed s v1 v2 := by
  rw [indexing, deliberate_deref]
  refine exists_congr fun v => and_congr_right fun _ => ?_
  split_ifs with hlist hmap
  · refine deliberate_checked (fun _ => deliberate_deref) fun w hw => ?_
    simp only [get_bind_run, deliberate_onNull, lift_bind_run, deliberate_asInt]
    constructor
    · rintro ⟨l, hl, _, hint, i, rfl, h⟩
      refine ⟨by simp [hl], i, ⟨w, hw, hint⟩, ?_⟩
      by_contra hi
      have hlt : ¬ ((s.list l).length : ℤ) ≤ i := by omega
      rw [if_neg hlt, deliberate_placeIn hlt] at h
      exact hi h
    · rintro ⟨hl, i, ⟨w', hw', hint⟩, hi⟩
      obtain ⟨l, hl⟩ := Option.ne_none_iff_exists'.mp hl
      obtain rfl := Option.some.inj (hw.symm.trans hw')
      refine ⟨l, hl, some i, hint, i, rfl, (throwsOnly_check_iff trivial).mpr fun hlt => ?_⟩
      exact (deliberate_placeIn hlt).mpr hi
  · refine (deliberate_checked (fun _ => deliberate_deref) fun w hw => ?_).trans
      ⟨fun h _ => h, fun h => h hmap⟩
    simp only [lift_bind_run, deliberate_asString, get_bind_run, deliberate_onNull]
    constructor
    · rintro ⟨key, ht, m, hm, -⟩
      exact ⟨by simp [hm], key, w, hw, ht⟩
    · rintro ⟨hm, key, w', hw', ht⟩
      obtain ⟨m, hm⟩ := Option.ne_none_iff_exists'.mp hm
      obtain rfl := Option.some.inj (hw.symm.trans hw')
      refine ⟨key, ht, m, hm, ?_⟩
      rcases (s.map m).get? key with _ | _ | a
      · exact deliberate_exception _
      · exact deliberate_exception _
      · exact throwsOnly_ok _
  · exact iff_of_true (deliberate_exception _) fun h => absurd h hmap

lemma deliberate_assign (v1 v2 : Ref) :
    Deliberate (assign v1 v2 s) ↔ ∃ v, s.deref v2 = some v ∧ (v.isReady → v1 ≠ none) := by
  rw [assign]
  refine deliberate_deref.trans (exists_congr fun v => and_congr_right fun _ => ?_)
  refine (throwsOnly_check_iff trivial).trans (imp_congr (by simp) ?_)
  refine deliberate_onNull.trans (Iff.trans ?_ Option.ne_none_iff_exists'.symm)
  exact exists_congr fun a => and_iff_left (throwsOnly_ok _)

lemma deliberate_condition (cond : Ref) :
    Deliberate (condition cond s) ↔
      FirstChecked (·.isInteger) (s.deref cond) (∃ n, Casts (s.deref cond) n) := by
  rw [condition]
  refine deliberate_checked (fun _ => deliberate_deref) fun w hw => ?_
  simp only [lift_bind_run, deliberate_asInt]
  constructor
  · rintro ⟨n, hn, -⟩
    exact ⟨n, w, hw, hn⟩
  · rintro ⟨n, w', hw', hn⟩
    obtain rfl := Option.some.inj (hw.symm.trans hw')
    exact ⟨n, hn, throwsOnly_ok _⟩

end

/-! ### Operations -/

section

variable {α β : Type} {s : ScriptIsolate} {name : Units}

lemma deliberate_onMemory {c : ScriptCall α} :
    Deliberate (onMemory c s) ↔ Deliberate (c s.memory) := by
  rw [onMemory]
  cases c s.memory with
  | error e => exact throwsOnly_error_iff.trans throwsOnly_error_iff.symm
  | ok r => exact iff_of_true (throwsOnly_ok _) (throwsOnly_ok r)

lemma deliberate_onMemory_onNull {x : Option β} {f : β → ScriptStep α} :
    Deliberate ((onMemory (onNull x) >>= f) s) ↔ ∃ b, x = some b ∧ Deliberate (f b s) := by
  apply deliberate_of_null
  · rintro rfl
    rfl
  · rintro _ rfl
    rfl

lemma deliberate_onMemory_deref {r : Ref} {f : RunVariable → ScriptStep α} :
    Deliberate ((onMemory (deref r) >>= f) s) ↔
      ∃ v, s.memory.deref r = some v ∧ Deliberate (f v s) := by
  change Deliberate ((onMemory (onNull (s.memory.deref r)) >>= f) s) ↔ _
  exact deliberate_onMemory_onNull

/-- A name that is used already is an exception of the source. -/
lemma deliberate_checkUnused_bind (hs : s.OwnTop) {f : Unit → ScriptStep α}
    (hf : Deliberate (f () s)) : Deliberate ((checkUnused name >>= f) s) := by
  obtain ⟨memory, stack⟩ := s
  obtain ⟨e, tail, rfl⟩ := hs
  change Deliberate (checkUnused name ⟨memory, .own e :: tail⟩ >>= fun r => f r.1 r.2)
  rw [checkUnused_own]
  split_ifs
  · exact deliberate_exception _
  · exact hf

lemma deliberate_find (hs : s.OwnTop) (isLeftVariable : Bool) :
    Deliberate (find name isLeftVariable s) := by
  cases hlookup : s.lookup name with
  | some r =>
    rw [find_some hlookup]
    exact throwsOnly_ok _
  | none =>
    cases isLeftVariable with
    | false =>
      rw [find_unknown hlookup]
      exact deliberate_exception _
    | true =>
      obtain ⟨memory, stack⟩ := s
      obtain ⟨e, tail, rfl⟩ := hs
      rw [find_new hlookup]
      exact throwsOnly_ok _

lemma deliberate_beginLoop (hs : s.OwnTop) (i1 i2 : Ref) :
    Deliberate (beginLoop name i1 i2 s) ↔ Bounded (s.memory.deref i1) (s.memory.deref i2) := by
  rw [beginLoop]
  refine deliberate_checked (fun _ => deliberate_onMemory_deref) fun v hv => ?_
  refine deliberate_checked (fun _ => deliberate_onMemory_deref) fun w hw => ?_
  simp only [lift_bind_run, deliberate_asInt]
  constructor
  · rintro ⟨n, hn, k, hk, -⟩
    exact ⟨⟨n, v, hv, hn⟩, k, w, hw, hk⟩
  · rintro ⟨⟨n, v', hv', hn⟩, k, w', hw', hk⟩
    obtain rfl := Option.some.inj (hv.symm.trans hv')
    obtain rfl := Option.some.inj (hw.symm.trans hw')
    refine ⟨n, hn, k, hk, deliberate_checkUnused_bind hs ?_⟩
    obtain ⟨memory, stack⟩ := s
    obtain ⟨e, tail, rfl⟩ := hs
    exact throwsOnly_ok _

/-- The name is looked up in the frame on top. -/
lemma deliberate_last_bind {memory : Memory} {e : Map (Option Units) Ref} {tail : List ScriptFrame}
    {f : Map (Option Units) Ref → ScriptStep α} :
    Deliberate ((last >>= f) ⟨memory, .own e :: tail⟩) ↔
      Deliberate (f e ⟨memory, .own e :: tail⟩) :=
  Iff.rfl

lemma deliberate_count (hs : s.OwnTop) (ii1 ii2 : Option ℤ) :
    Deliberate (count name ii1 ii2 s) ↔ Counted s name ii1 ii2 := by
  obtain ⟨memory, stack⟩ := s
  obtain ⟨e, tail, rfl⟩ := hs
  rw [count]
  simp only [deliberate_onMemory_onNull]
  refine exists_congr fun a => and_congr_right fun _ => ?_
  refine exists_congr fun b => and_congr_right fun _ => ?_
  split_ifs with hlt
  · exact iff_of_true (throwsOnly_ok _) fun h => absurd hlt h
  · rw [deliberate_last_bind, deliberate_onMemory_deref]
    simp only [deliberate_onMemory_onNull]
    constructor
    · rintro ⟨v, -, cell, hcell, -⟩ _
      exact ⟨e, tail, rfl, by simp [hcell]⟩
    · intro h
      obtain ⟨_, _, ⟨⟩, hcell⟩ := h hlt
      obtain ⟨cell, hcell⟩ := Option.ne_none_iff_exists'.mp hcell
      exact ⟨memory.cell cell, by rw [hcell]; rfl, cell, hcell, throwsOnly_ok _⟩

lemma deliberate_beginForeach (hs : s.OwnTop) (index : Ref) :
    Deliberate (beginForeach name index s) ↔ index ≠ none := by
  rw [beginForeach, deliberate_onMemory_deref]
  constructor
  · rintro ⟨v, hv, -⟩ rfl
    cases hv
  · intro h
    obtain ⟨a, rfl⟩ := Option.ne_none_iff_exists'.mp h
    refine ⟨_, rfl, (throwsOnly_check_iff trivial).mpr fun _ => ?_⟩
    rw [← bind_pure (checkUnused name)]
    exact deliberate_checkUnused_bind hs (throwsOnly_ok _)

lemma deliberate_element (hs : s.OwnTop) (index : Ref) (i : ℕ) :
    Deliberate (element name index i s) ↔
      ∃ v, s.memory.deref index = some v ∧ v.list ≠ none := by
  obtain ⟨memory, stack⟩ := s
  obtain ⟨e, tail, rfl⟩ := hs
  rw [element, deliberate_onMemory_deref]
  refine exists_congr fun v => and_congr_right fun _ => ?_
  rw [deliberate_onMemory_onNull, Option.ne_none_iff_exists']
  refine exists_congr fun l => and_iff_left ?_
  rw [get_bind_run]
  cases (memory.list l)[i]? <;> exact throwsOnly_ok _

/-- An operation throws other exceptions exactly when it cannot use what it is given. -/
theorem deliberate_iff_serves {P : ScriptPlatform} {l : ScriptEvent} {op : ScriptStep α}
    {out : α → List Ref} (hl : IsStep P l op out) (hfits : Fits l s)
    (hstat : ∀ stat depth, l ≠ .statement stat depth) : Deliberate (op s) ↔ Serves P l s := by
  cases hl with
  | printInternal r => exact deliberate_onMemory.trans deliberate_printed
  | print args =>
    have hlookup : (refMap P).lookup (units "print") = some (.print, none) := rfl
    exact deliberate_onMemory.trans (deliberate_iff_demanded hlookup rfl)
  | stringFunction hlookup harity =>
    exact deliberate_onMemory.trans (deliberate_iff_demanded hlookup harity)
  | integerFunction hlookup harity =>
    exact deliberate_onMemory.trans (deliberate_iff_demanded hlookup harity)
  | call hlookup harity =>
    exact deliberate_onMemory.trans (deliberate_iff_demanded hlookup harity)
  | integer content => exact deliberate_onMemory.trans (deliberate_integer_content content)
  | string content => exact iff_of_true (throwsOnly_ok _) trivial
  | name name isLeftVariable => exact iff_of_true (deliberate_find hfits isLeftVariable) trivial
  | index v1 v2 => exact deliberate_onMemory.trans (deliberate_indexing v1 v2)
  | assign v1 v2 => exact deliberate_onMemory.trans (deliberate_assign v1 v2)
  | loop name i1 i2 => exact deliberate_beginLoop hfits i1 i2
  | counter name ii1 ii2 => exact deliberate_count (hfits.ownTop (by simp)) ii1 ii2
  | foreach name index => exact deliberate_beginForeach hfits index
  | element name index i => exact deliberate_element hfits index i
  | remove name =>
    obtain ⟨memory, stack⟩ := s
    obtain ⟨e, tail, rfl⟩ := hfits
    exact iff_of_true (throwsOnly_ok _) trivial
  | condition cond => exact deliberate_onMemory.trans (deliberate_condition cond)
  | pushStack depth => exact iff_of_true (throwsOnly_ok _) trivial
  | popStack =>
    obtain ⟨memory, stack⟩ := s
    obtain ⟨e, tail, rfl⟩ := hfits
    exact iff_of_true (throwsOnly_ok _) trivial
  | statement stat depth => exact absurd rfl (hstat stat depth)

end

/-! ### Runs -/

/-- Each operation can use what it is given. -/
def service (P : ScriptPlatform) : Contract ScriptIsolate ScriptEvent ScriptError where
  guard := Serves P
  always _ := True
  before _ _ := True
  raises := ScriptError.Own

theorem service_sound (P : ScriptPlatform) : Sound P (service P) fun _ => True where
  before _ _ _ _ := trivial
  ok _ _ _ _ _ _ := ⟨trivial, fun _ _ => trivial⟩
  error {_ l op _ s e} hl _ hfits _ hserves he := by
    by_cases hstat : ∃ stat depth, l = .statement stat depth
    · obtain ⟨stat, depth, rfl⟩ := hstat
      cases hl
      cases he
    · have hne : ∀ stat depth, l ≠ .statement stat depth :=
        fun stat depth heq => hstat ⟨stat, depth, heq⟩
      exact (deliberate_iff_serves hl hfits hne).mpr hserves e he
  exception _ := trivial
  noFunction hserves := absurd rfl hserves

/-- The runs of scripts, and the calls of single functions. -/
inductive IsRun (P : ScriptPlatform) : {α : Type} → ScriptProg α → ScriptIsolate → Prop where
  | script (tree : ParseTreeNode) (memory : Memory) (caller : ℕ) :
    IsRun P (runScript P tree) (start memory caller)
  | call (name : Units) (args : List Ref) {s : ScriptIsolate} (hs : s.OwnTop) :
    IsRun P (runBuiltIn P name args) s

/-- When the run is over, it has returned, or an exception of the source has stopped it. -/
def StopsWell {α : Type} (c : ScriptProg α × ScriptIsolate) : Prop :=
  next c = none → (∃ a, c.1 = .ret a) ∨ ∃ e, raised c = some e ∧ e.Own

section

variable {P : ScriptPlatform} {α : Type} {p : ScriptProg α} {s : ScriptIsolate}
  {c : ScriptProg α × ScriptIsolate}

lemma IsRun.raises (hp : IsRun P p s) (hc : Reaches (Serves P) (p, s) c)
    (hserves : Admits (Serves P) c ()) {e : ScriptError} (he : raised c = some e) : e.Own := by
  cases hp with
  | script tree memory caller =>
    exact ((service_sound P).meets_runScript tree trivial rfl).raises_of_reaches hc hserves he
  | call name args hs =>
    exact ((service_sound P).soundIn.meets_runBuiltIn name trivial hs
      fun _ _ => trivial).raises_of_reaches hc hserves he

lemma StopsWell.own (h : StopsWell c) {e : ScriptError} (he : raised c = some e) : e.Own := by
  rcases h (next_eq_none_of_raised he) with ⟨a, ha⟩ | ⟨e', he', hown⟩
  · obtain ⟨p, s⟩ := c
    cases ha
    cases he
  · cases he.symm.trans he'
    exact hown

/-- In every run whose operations can use what they are given, no exceptions stop the script but
those of the source. -/
theorem stopsWell_of_serves (hp : IsRun P p s) (hc : Reaches (Serves P) (p, s) c)
    (hserves : Admits (Serves P) c ()) : StopsWell c := by
  intro hend
  rcases ret_or_raised hend with hret | ⟨e, he⟩
  · exact .inl hret
  · exact .inr ⟨e, he, hp.raises hc hserves he⟩

end

/-- `len` checks a number and throws. -/
theorem stopsWell_of_serves_len :
    StopsWell (runBuiltIn .offline (units "len") [some 0],
      ⟨{ cells := [.fromInt 1] }, [.own []]⟩) := by
  refine stopsWell_of_serves (.call (units "len") [some 0] ⟨[], [], rfl⟩) .refl fun l hl => ?_
  cases hl
  rintro _ ⟨⟩
  exact ⟨_, rfl, fun h => absurd h (by decide)⟩

/-- `removeat(listcreate())` -/
def removesNothing : PBlockEntry :=
  .innerBlock (.cons (.mk (.sfunction (some (.callWith (units "removeat")
    (.last (.ofVariable (.function (.call (units "listcreate"))))))))) .empty)

/-- The function of one argument reads a second one. -/
theorem not_stopsWell_removeat :
    ¬ ∀ (P : ScriptPlatform) (script : Units) (tree : ParseTreeNode), Compiles script (.ok tree) →
      ∀ (memory : Memory) (caller : ℕ) (c : ScriptProg Unit × ScriptIsolate),
        Reaches anyLabel (runScript P tree, start memory caller) c → StopsWell c := by
  intro h
  obtain ⟨tree, htree, hcontents⟩ := exists_tree (units "removeat(listcreate())")
    (.blockEntryNode removesNothing) 60 (by decide +kernel)
  have hrun := reaches_exec 4 (runScript .offline
    (.node [] (some (.blockEntryNode removesNothing)) none []), start {} 0)
  have hraised : raised (exec 4 (runScript .offline
      (.node [] (some (.blockEntryNode removesNothing)) none []), start {} 0)) =
        some .rangeError := by
    decide +kernel
  rw [← runScript_eq .offline hcontents] at hrun hraised
  exact (h .offline _ tree htree {} 0 _ hrun).own hraised

end Violet
