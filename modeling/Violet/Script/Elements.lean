import Violet.Links.Acyclic
import Violet.Script.Region
import Violet.Script.Runs

/-!
# Elements of lists and maps

What a script has put together is handed over as lists and maps of Dart, or is printed. Both go into
the elements of lists and maps, and do not end when a list or a map is inside itself.
-/

namespace Violet

open Dart Program

/-- What a variable is converted to. -/
inductive Element where
  | null
  | int (n : ℤ)
  | string (s : Units)
  | list (elements : List Element)
  | map (entries : List (Option Units × Element))

/-- The map into which the entries are put one after the other. -/
def Element.ofEntries (entries : List (Option Units × Element)) : Element :=
  .map (entries.foldl (fun map e => Map.set map e.1 e.2) [])

/-- The results one after the other, until one throws; `none` is a call that has not returned. -/
def collect {α β : Type} (f : α → Option (Except ScriptError β)) :
    List α → Option (Except ScriptError (List β))
  | [] => some (.ok [])
  | a :: as =>
    match f a with
    | none => none
    | some (.error e) => some (.error e)
    | some (.ok b) => (collect f as).map fun r => r.map (b :: ·)

namespace Memory

variable (s : Memory)

/-- `_toElement`, with a depth in which it is to return. -/
def toElement : ℕ → Ref → Option (Except ScriptError Element)
  | 0, _ => none
  | depth + 1, rv =>
    match s.deref rv with
    | none => some (.error .noSuchMethod)
    | some v =>
      if v.isInteger then some (v.asInt.map fun n => n.elim .null .int)
      else if v.isString then some (v.asString.map fun t => t.elim .null .string)
      else if v.isList then
        match v.list with
        | none => some (.error .noSuchMethod)
        | some l => (collect (toElement depth) (s.list l)).map fun r => r.map .list
      else if v.isMap then
        match v.map with
        | none => some (.error .noSuchMethod)
        | some m =>
          (collect (fun e => (toElement depth e.2).map fun r => r.map fun a => (e.1, a))
            (s.map m)).map fun r => r.map .ofEntries
      else some (.error (.exception (units "[RUNVARIABLE] Dead reaching!")))

def toList (depth : ℕ) (r : Ref) : Option (Except ScriptError (List Element)) :=
  match s.deref r with
  | none => some (.error .noSuchMethod)
  | some v =>
    if !v.isList then some (.error (.exception
      (units "[RUNVARIABLE] You cannot port this variable to list!")))
    else (s.toElement depth r).map fun e =>
      e.bind fun
        | .list elements => .ok elements
        | _ => .error .typeError

def toMap (depth : ℕ) (r : Ref) : Option (Except ScriptError (Map (Option Units) Element)) :=
  match s.deref r with
  | none => some (.error .noSuchMethod)
  | some v =>
    if !v.isMap then some (.error (.exception
      (units "[RUNVARIABLE] You cannot port this variable to map!")))
    else (s.toElement depth r).map fun e =>
      e.bind fun
        | .map entries => .ok entries
        | _ => .error .typeError

/-- The references in the list and in the map of a variable. -/
def inner (v : RunVariable) : List Ref :=
  v.list.elim [] s.list ++ v.map.elim [] fun m => (s.map m).map Prod.snd

/-- A variable is an element of the list of another one, or a value in its map. -/
def Inside (b a : ℕ) : Prop := some b ∈ s.inner (s.cell a)

variable {s} {a depth : ℕ} {r : Ref}

/-! ### Depth -/

section

variable {α β : Type} {f g : α → Option (Except ScriptError β)} {as : List α}

lemma collect_mono (h : ∀ a ∈ as, ∀ r, f a = some r → g a = some r)
    {r : Except ScriptError (List β)} (hr : collect f as = some r) : collect g as = some r := by
  induction as generalizing r with
  | nil => exact hr
  | cons a as ih =>
    obtain ⟨ha, has⟩ := List.forall_mem_cons.mp h
    rw [collect] at hr ⊢
    cases hfa : f a with
    | none =>
      rw [hfa] at hr
      cases hr
    | some ra =>
      rw [hfa] at hr
      rw [ha ra hfa]
      cases ra with
      | error e => exact hr
      | ok b =>
        obtain ⟨r', hr', rfl⟩ := Option.map_eq_some_iff.mp hr
        exact Option.map_eq_some_iff.mpr ⟨r', ih has hr', rfl⟩

lemma collect_isSome (h : ∀ a ∈ as, (f a).isSome) : (collect f as).isSome := by
  induction as with
  | nil => rfl
  | cons a as ih =>
    obtain ⟨ha, has⟩ := List.forall_mem_cons.mp h
    obtain ⟨ra, hra⟩ := Option.isSome_iff_exists.mp ha
    rw [collect, hra]
    cases ra with
    | error e => rfl
    | ok b => simpa using ih has

end

/-- More depth changes nothing. -/
lemma toElement_succ {e : Except ScriptError Element} (h : s.toElement depth r = some e) :
    s.toElement (depth + 1) r = some e := by
  induction depth generalizing r e with
  | zero => cases h
  | succ depth ih =>
    rw [toElement] at h ⊢
    cases hv : s.deref r with
    | none =>
      rw [hv] at h
      exact h
    | some v =>
      rw [hv] at h
      simp only at h ⊢
      split_ifs at h ⊢
      · exact h
      · exact h
      · cases hl : v.list with
        | none =>
          rw [hl] at h
          exact h
        | some l =>
          rw [hl] at h
          obtain ⟨r', hr', rfl⟩ := Option.map_eq_some_iff.mp h
          exact Option.map_eq_some_iff.mpr ⟨r', collect_mono (fun a _ _ => ih) hr', rfl⟩
      · cases hm : v.map with
        | none =>
          rw [hm] at h
          exact h
        | some m =>
          rw [hm] at h
          obtain ⟨r', hr', rfl⟩ := Option.map_eq_some_iff.mp h
          refine Option.map_eq_some_iff.mpr ⟨r', collect_mono (fun a _ _ hr => ?_) hr', rfl⟩
          obtain ⟨r'', hr'', rfl⟩ := Option.map_eq_some_iff.mp hr
          exact Option.map_eq_some_iff.mpr ⟨r'', ih hr'', rfl⟩
      · exact h

lemma toElement_mono {depth' : ℕ} (hle : depth ≤ depth') {e : Except ScriptError Element}
    (h : s.toElement depth r = some e) : s.toElement depth' r = some e := by
  induction hle with
  | refl => exact h
  | step _ ih => exact toElement_succ ih

/-- Some depth suffices for all. -/
lemma exists_depth (s : Memory) (rs : List Ref)
    (h : ∀ r ∈ rs, ∃ depth, (s.toElement depth r).isSome) :
    ∃ depth, ∀ r ∈ rs, (s.toElement depth r).isSome := by
  induction rs with
  | nil => exact ⟨0, nofun⟩
  | cons r rs ih =>
    obtain ⟨⟨d, hd⟩, hrs⟩ := List.forall_mem_cons.mp h
    obtain ⟨d', hd'⟩ := ih hrs
    have hmono {r : Ref} {d : ℕ} (hd : (s.toElement d r).isSome) {d' : ℕ} (hle : d ≤ d') :
        (s.toElement d' r).isSome := by
      obtain ⟨e, he⟩ := Option.isSome_iff_exists.mp hd
      rw [toElement_mono hle he]
      rfl
    exact ⟨max d d', List.forall_mem_cons.mpr ⟨hmono hd (le_max_left _ _),
      fun r hr => hmono (hd' r hr) (le_max_right _ _)⟩⟩

/-! ### Ends -/

/-- A reference whose elements end: null, or a variable that is accessible. -/
def Grounded (s : Memory) (r : Ref) : Prop := ∀ a ∈ r, Acc s.Inside a

/-- A variable is converted when all that is in it is. -/
lemma toElement_isSome_of_inner {v : RunVariable} (hv : s.deref r = some v)
    (h : ∀ r ∈ s.inner v, (s.toElement depth r).isSome) : (s.toElement (depth + 1) r).isSome := by
  rw [toElement, hv]
  simp only
  split_ifs
  · rfl
  · rfl
  · cases hl : v.list with
    | none => rfl
    | some l =>
      rw [Option.isSome_map]
      exact collect_isSome fun r hr => h r (List.mem_append_left _ (by simpa [hl] using hr))
  · cases hm : v.map with
    | none => rfl
    | some m =>
      rw [Option.isSome_map]
      refine collect_isSome fun e he => ?_
      rw [Option.isSome_map]
      exact h e.2 (List.mem_append_right _ (by simpa [hm] using ⟨e.1, he⟩))
  · rfl

/-- The conversion of a variable ends when nothing in it is inside itself. -/
lemma exists_toElement (h : s.Grounded r) : ∃ depth, (s.toElement depth r).isSome := by
  cases r with
  | none => exact ⟨1, rfl⟩
  | some a =>
    have hacc := h a rfl
    clear h
    induction hacc with
    | intro a hacc ih =>
      obtain ⟨depth, hdepth⟩ := exists_depth s (s.inner (s.cell a)) fun r hr => by
        cases r with
        | none => exact ⟨1, rfl⟩
        | some b => exact ih b hr
      exact ⟨depth + 1, toElement_isSome_of_inner rfl hdepth⟩

/-- The calls of `toList` and `toMap` on a variable return or throw. -/
def Ports (s : Memory) (r : Ref) : Prop :=
  ∃ depth, (s.toList depth r).isSome ∧ (s.toMap depth r).isSome

lemma Grounded.ports (h : s.Grounded r) : s.Ports r := by
  obtain ⟨depth, hdepth⟩ := exists_toElement h
  obtain ⟨e, he⟩ := Option.isSome_iff_exists.mp hdepth
  refine ⟨depth, ?_, ?_⟩
  · rw [toList]
    cases s.deref r with
    | none => rfl
    | some v =>
      simp only [he]
      split_ifs <;> rfl
  · rw [toMap]
    cases s.deref r with
    | none => rfl
    | some v =>
      simp only [he]
      split_ifs <;> rfl

end Memory

lemma ScriptCall.deref_run_eq_ok {s s' : Memory} {r : Ref} {v : RunVariable} :
    ScriptCall.deref r s = .ok (v, s') ↔ s.deref r = some v ∧ s = s' := by
  change ScriptCall.onNull (s.deref r) s = _ ↔ _
  exact Region.onNull_run_eq_ok

/-! ### Printing -/

namespace ScriptIsolate

open Prog

/-- The first of the values is printed, and what is in it comes next. -/
def printTurn : List Ref → ScriptProg (List Ref ⊕ Unit)
  | [] => return .inr ()
  | r :: rs => do
    let inner ← perform (.printInternal r) (onMemory (printed r))
    return .inl (inner ++ rs)

lemma print_eq (args : List Ref) : print args = iterate printTurn args fun _ =>
    perform (.builtIn (units "print") args) (onMemory (ScriptCall.newVariable .notReady)) := by
  have hturn : printTurn = fun rs : List Ref =>
      match rs with
      | [] => return .inr ()
      | r :: rs => do
        let inner ← perform (.printInternal r) (onMemory (printed r))
        return .inl (inner ++ rs) := by
    funext rs
    cases rs <;> rfl
  rw [hturn]
  rfl

variable {s s' : ScriptIsolate} {r : Ref} {rs inner : List Ref} {k : Unit → ScriptProg Ref}

/-- What is printed inside a value is in its list or its map. -/
lemma printed_eq_ok (h : onMemory (printed r) s = .ok (inner, s')) :
    s' = s ∧ ∃ v, s.memory.deref r = some v ∧ ∀ r ∈ inner, r ∈ s.memory.inner v := by
  obtain ⟨memory, hrun, rfl⟩ := onMemory_eq_ok.mp h
  unfold printed at hrun
  obtain ⟨v, _, hv, hrun⟩ := Operation.bind_run_eq_ok.mp hrun
  obtain ⟨hderef, rfl⟩ := ScriptCall.deref_run_eq_ok.mp hv
  have hempty {α : Type} {op : Except ScriptError α} {inner : List Ref}
      (h : (do let _ ← op; return [] : ScriptCall (List Ref)) s.memory = .ok (inner, memory)) :
      memory = s.memory ∧ ∀ r ∈ inner, r ∈ s.memory.inner v := by
    obtain ⟨_, _, hop, hret⟩ := Operation.bind_run_eq_ok.mp h
    obtain ⟨-, rfl⟩ := Operation.lift_run_eq_ok.mp hop
    cases hret
    exact ⟨rfl, nofun⟩
  suffices hinner : memory = s.memory ∧ ∀ r ∈ inner, r ∈ s.memory.inner v by
    obtain ⟨rfl, hinner⟩ := hinner
    exact ⟨rfl, v, hderef, hinner⟩
  split_ifs at hrun
  · exact hempty hrun
  · exact hempty hrun
  · obtain ⟨_, _, ⟨⟩, hrun⟩ := Operation.bind_run_eq_ok.mp hrun
    obtain ⟨l, _, hnull, hret⟩ := Operation.bind_run_eq_ok.mp hrun
    obtain ⟨hl, rfl⟩ := Region.onNull_run_eq_ok.mp hnull
    cases hret
    exact ⟨rfl, fun r hr => List.mem_append_left _ (by rwa [hl])⟩
  · obtain ⟨_, _, ⟨⟩, hrun⟩ := Operation.bind_run_eq_ok.mp hrun
    obtain ⟨m, _, hnull, hret⟩ := Operation.bind_run_eq_ok.mp hrun
    obtain ⟨hm, rfl⟩ := Region.onNull_run_eq_ok.mp hnull
    cases hret
    exact ⟨rfl, fun r hr => List.mem_append_right _ (by rwa [hm])⟩
  · cases hrun
    exact ⟨rfl, nofun⟩

/-- One value after the other is printed when what is in it is. -/
lemma ends_print_append (h : ∀ r ∈ inner, ∀ rs, (iterate printTurn rs k).Ends s →
    (iterate printTurn (r :: rs) k).Ends s) (hrest : (iterate printTurn rs k).Ends s) :
    (iterate printTurn (inner ++ rs) k).Ends s := by
  induction inner with
  | nil => exact hrest
  | cons r inner ih =>
    obtain ⟨hr, hinner⟩ := List.forall_mem_cons.mp h
    exact hr _ (ih hinner)

lemma ends_print_step (h : ∀ inner, onMemory (printed r) s = .ok (inner, s) →
    (iterate printTurn (inner ++ rs) k).Ends s) : (iterate printTurn (r :: rs) k).Ends s := by
  refine ends_of_next rfl (ends_act fun inner s' hop => ?_)
  obtain ⟨rfl, -⟩ := printed_eq_ok hop
  exact h inner hop

/-- The printing of a value ends when nothing in it is inside itself. -/
lemma ends_print_cons (h : s.memory.Grounded r) (hrest : (iterate printTurn rs k).Ends s) :
    (iterate printTurn (r :: rs) k).Ends s := by
  cases r with
  | none =>
    refine ends_print_step fun inner hop => ?_
    obtain ⟨-, v, hv, -⟩ := printed_eq_ok hop
    cases hv
  | some a =>
    have hacc := h a rfl
    clear h
    induction hacc generalizing rs with
    | intro a hacc ih =>
      refine ends_print_step fun inner hop => ends_print_append (fun r hr rs hrs => ?_) hrest
      obtain ⟨-, v, hv, hinner⟩ := printed_eq_ok hop
      cases hv
      cases r with
      | none =>
        refine ends_print_step fun inner hop => ?_
        obtain ⟨-, v, hv, -⟩ := printed_eq_ok hop
        cases hv
      | some b => exact ih b (hinner _ hr) hrs

/-- The call of `print` on a variable returns or throws. -/
theorem ends_print (h : s.memory.Grounded r) : (print [r]).Ends s := by
  rw [print_eq]
  refine ends_print_cons h (ends_of_next rfl (ends_act fun b s' _ => ends_ret b s'))

end ScriptIsolate

end Violet
