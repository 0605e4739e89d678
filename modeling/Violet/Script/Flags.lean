import Violet.Script.Compilation
import Violet.Script.Kept

/-!
# Flags

The flags of a value tell its type. What breaks this is JSON that has lists with elements of which
no value is made, a map with null for a key, and a loop whose variable has become a text, a list or
a map.
-/

namespace Violet

open Dart Program Prog ScriptBuiltIn ScriptIsolate ScriptCache

variable {P : ScriptPlatform} {s s' : ScriptIsolate}

/-- The references that are reached from the frames by way of lists and maps. -/
inductive ScriptIsolate.Reachable (s : ScriptIsolate) : Ref → Prop where
  | frame {f : ScriptFrame} {e : Option Units × Ref} (hf : f ∈ s.stack)
      (he : e ∈ f.entries s.memory) : Reachable s e.2
  | element {r r' : Ref} {v : RunVariable} {l : ℕ} (h : Reachable s r)
      (hv : s.memory.deref r = some v) (hl : v.list = some l) (hr' : r' ∈ s.memory.list l) :
      Reachable s r'
  | entry {r : Ref} {v : RunVariable} {m : ℕ} {e : Option Units × Ref} (h : Reachable s r)
      (hv : s.memory.deref r = some v) (hm : v.map = some m) (he : e ∈ s.memory.map m) :
      Reachable s e.2

lemma reachable_of_lookup {name : Units} {r : Ref} (h : s.lookup name = some r) :
    s.Reachable r := by
  obtain ⟨f, hf, hr⟩ := List.exists_of_findSome?_eq_some h
  exact .frame hf (Map.mem_of_get? hr)

/-- No reference is null, and the flags of a variable tell its type. -/
def flagsRegion : Region where
  cell := RunVariable.WellFormed
  ref r := r ≠ none
  frozen _ := none
  notReady := .notReady
  fromInt := .fromInt
  fromString := .fromString
  ofList := .ofList
  ofMap _ := .ofMap _
  map _ _ := rfl
  some _ := nofun

lemma Region.HoldsIn.ne_none (hs : flagsRegion.HoldsIn s) {r : Ref} (hr : s.Reachable r) :
    r ≠ none := by
  cases hr with
  | frame hf he => exact hs.frames _ hf _ he
  | element _ _ _ hr' => exact hs.memory.list _ _ hr'
  | entry _ _ _ he => exact hs.memory.map _ _ he

/-- The calls and counters that keep the flags: of each element of a list in JSON a value is made,
the map whose keys are listed has no null among them, and the variable of a loop is an integer when
it is set. -/
def KeepsFlags (P : ScriptPlatform) : ScriptEvent → ScriptIsolate → Prop
  | .builtIn name args, s =>
    (name = units "mapfromjson" → Region.WholeMap P (args.map s.memory.deref)) ∧
    (name = units "listfromjson" → Region.WholeList P (args.map s.memory.deref)) ∧
    (name = units "mapkeys" → Region.HasKeys s.memory (args.map s.memory.deref))
  | .counter name ii1 ii2, s => ∀ v n k, s.topVariable name = some v → ii1 = some n →
      ii2 = some k → n ≤ k → v.isInteger
  | _, _ => True

def flags (P : ScriptPlatform) : Contract ScriptIsolate ScriptEvent ScriptError where
  guard := KeepsFlags P
  always := flagsRegion.HoldsIn
  before _ _ := True
  raises _ := True

/-- A well-formed number. -/
lemma RunVariable.WellFormed.eq_fromInt {v : RunVariable} (h : v.WellFormed) (hv : v.isInteger) :
    ∃ n, v = .fromInt n := by
  cases h with
  | fromInt n => exact ⟨n, rfl⟩
  | _ => cases hv

lemma flagsRegion_admits {l : ScriptEvent} (hs : flagsRegion.HoldsIn s) (h : KeepsFlags P l s) :
    flagsRegion.Admits P l s := by
  cases l with
  | builtIn name args =>
    exact ⟨fun hname => .inr (h.1 hname), fun hname => .inr (h.2.1 hname),
      fun hname => .inr (h.2.2 hname)⟩
  | loop name i1 i2 =>
    intro v n hv hint hn
    obtain ⟨k, rfl⟩ := (hs.memory.deref hv : v.WellFormed).eq_fromInt hint
    cases hn
    exact RunVariable.WellFormed.fromInt k
  | counter name ii1 ii2 =>
    intro v n k hv hii1 hii2 hle
    have hwf : v.WellFormed := hs.memory.deref hv
    obtain ⟨j, rfl⟩ := hwf.eq_fromInt (h v n k hv hii1 hii2 hle)
    exact RunVariable.WellFormed.fromInt n
  | _ => trivial

theorem flags_sound : Sound P (flags P) fun r => r ≠ none where
  before _ _ _ _ := trivial
  ok hl hs hfits hrefs hguard h :=
    Region.step_holds hl hs hfits hrefs (flagsRegion_admits hs hguard) h
  error _ _ _ _ _ _ := trivial
  exception _ := trivial
  noFunction _ := trivial

/-- Where all steps keep the flags, every variable that is reached is there, and its flags tell its
type. -/
theorem flags_kept (P : ScriptPlatform) (tree : ParseTreeNode) {memory : Memory} {caller : ℕ}
    (hcells : ∀ v ∈ memory.cells, v.WellFormed) (hlists : ∀ l ∈ memory.lists, ∀ r ∈ l, r ≠ none)
    (hmaps : ∀ m ∈ memory.maps, ∀ e ∈ m, e.2 ≠ none) {c : ScriptProg Unit × ScriptIsolate}
    (hc : Reaches (KeepsFlags P) (runScript P tree, start memory caller) c) {r : Ref}
    (hr : c.2.Reachable r) : ∃ v, c.2.memory.deref r = some v ∧ v.WellFormed := by
  have hstart : flagsRegion.HoldsIn (start memory caller) := by
    have hmemory : flagsRegion.Holds memory := ⟨hcells, hlists, hmaps, nofun⟩
    refine ⟨hmemory, fun f hf => ?_⟩
    obtain rfl := List.mem_singleton.mp hf
    exact hmemory.map caller
  have hs := ((flags_sound (P := P)).meets_runScript tree hstart rfl).always_of_reaches hc
  obtain ⟨a, rfl⟩ := Option.ne_none_iff_exists'.mp (hs.ne_none hr)
  exact ⟨_, rfl, hs.memory.cell a⟩

/-- `loop(i=0 to 1)i="s"` -/
def assignsText : PBlockEntry :=
  .innerBlock (.cons (.mk (.srunnable (.sloop (units "i")
    (.ofVariable (.consts (.integer (units "0")))) (.ofVariable (.consts (.integer (units "1"))))
    (.line (.mk (.sindex (.ofVariable (.name (units "i")))
      (.ofVariable (.consts (.string (units "s")))))))))) .empty)

/-- `loop(i=0 to 1)x=i` -/
def copiesCounter : PBlockEntry :=
  .innerBlock (.cons (.mk (.srunnable (.sloop (units "i")
    (.ofVariable (.consts (.integer (units "0")))) (.ofVariable (.consts (.integer (units "1"))))
    (.line (.mk (.sindex (.ofVariable (.name (units "x")))
      (.ofVariable (.name (units "i"))))))))) .empty)

/-- No JSON is read and no map is listed, and a variable that is counted is an integer. -/
def countsIntegers : ScriptEvent → ScriptIsolate → Bool
  | .builtIn .., _ => false
  | .counter name _ _, s => (s.topVariable name).all RunVariable.isInteger
  | _, _ => true

lemma keepsFlags_of_countsIntegers (l : ScriptEvent) (s : ScriptIsolate)
    (h : countsIntegers l s = true) : KeepsFlags P l s := by
  cases l with
  | builtIn => cases h
  | counter name ii1 ii2 =>
    intro v n k hv _ _ _
    rw [countsIntegers, hv] at h
    exact h
  | _ => trivial

/-- The script on a text `x` of the caller. -/
def copying : ScriptProg Unit × ScriptIsolate :=
  (runScript .offline (.node [] (some (.blockEntryNode copiesCounter)) none []),
    start { cells := [.fromString (some (units "a"))], maps := [[(some (units "x"), some 0)]] } 0)

/-- In the second round the text has become a number. -/
theorem flags_kept_copied : ∃ c v, Reaches (KeepsFlags .offline) copying c ∧
    c.2.memory.deref (some 0) = some v ∧ v.value = some (.int 1) ∧ v.WellFormed := by
  have hrun := reaches_exec_of_passes (keepsFlags_of_countsIntegers (P := .offline)) 18
    (c := copying) (by decide +kernel)
  have hlookup : (exec 18 copying).2.lookup (units "x") = some (some 0) := by decide +kernel
  have hderef : (exec 18 copying).2.memory.deref (some 0) = some (.fromInt 1) := by decide +kernel
  obtain ⟨v, hv, hwf⟩ := flags_kept .offline _ (List.forall_mem_singleton.mpr (.fromString _))
    (by simp) (by simp) hrun (reachable_of_lookup hlookup)
  cases hderef.symm.trans hv
  exact ⟨_, _, hrun, hderef, rfl, hwf⟩

/-- In the second round the variable of the loop is a text with a number for its value. -/
theorem not_flags_kept_loop :
    ¬ ∀ (P : ScriptPlatform) (script : Units) (tree : ParseTreeNode), Compiles script (.ok tree) →
      ∀ (memory : Memory) (caller : ℕ), (∀ v ∈ memory.cells, v.WellFormed) →
        (∀ l ∈ memory.lists, ∀ r ∈ l, r ≠ none) → (∀ m ∈ memory.maps, ∀ e ∈ m, e.2 ≠ none) →
        ∀ c, Reaches anyLabel (runScript P tree, start memory caller) c →
          ∀ r, c.2.Reachable r →
            ∃ v, c.2.memory.deref r = some v ∧ (v.isReady → v.WellFormed) := by
  intro h
  obtain ⟨tree, htree, hcontents⟩ := exists_tree (units "loop(i=0 to 1)i=\"s\"")
    (.blockEntryNode assignsText) 80 (by decide +kernel)
  have hrun := reaches_exec 17 (runScript .offline
    (.node [] (some (.blockEntryNode assignsText)) none []), start { maps := [[]] } 0)
  rw [← runScript_eq .offline hcontents] at hrun
  have hlookup : lookup (exec 17 (runScript .offline
      (.node [] (some (.blockEntryNode assignsText)) none []), start { maps := [[]] } 0)).2
      (units "i") = some (some 2) := by
    decide +kernel
  have hderef : (exec 17 (runScript .offline
      (.node [] (some (.blockEntryNode assignsText)) none []),
      start { maps := [[]] } 0)).2.memory.deref (some 2) =
      some { isString := true, value := some (.int 1) } := by
    decide +kernel
  rw [← runScript_eq .offline hcontents] at hlookup hderef
  obtain ⟨v, hv, hwf⟩ := h .offline _ tree htree { maps := [[]] } 0 (by simp) (by simp) (by simp) _
    hrun (some 2) (reachable_of_lookup hlookup)
  cases hderef.symm.trans hv
  cases hwf rfl

end Violet
