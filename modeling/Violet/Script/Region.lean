import Mathlib.Data.List.InsertIdx
import Violet.Script.ScriptBuiltIn

/-!
# What the functions keep

A property of the variables, of the references in lists and maps, and some maps that are not to be
touched: the functions keep all of it, since they only ever write what they have read or made.
-/

namespace Violet

open Dart Program Operation ScriptCall

/-! ### JSON -/

namespace Json

/-- No value is made of this. -/
def Absent : Json → Prop
  | null | bool _ | double _ => True
  | _ => False

mutual

/-- A value is made of each element of the lists. -/
def Whole : Json → Prop
  | list elements => WholeElements elements
  | map entries => WholeEntries entries
  | _ => True

def WholeElements : List Json → Prop
  | [] => True
  | e :: elements => ¬ e.Absent ∧ Whole e ∧ WholeElements elements

def WholeEntries : List (Units × Json) → Prop
  | [] => True
  | (_, value) :: entries => Whole value ∧ WholeEntries entries

end

end Json

/-- A property of the variables and of the references in lists and maps, and the entries of the maps
that no variable has. -/
structure Region where
  cell : RunVariable → Prop
  ref : Ref → Prop
  frozen : ℕ → Option (Map (Option Units) Ref)
  notReady : cell .notReady
  fromInt (n : ℤ) : cell (.fromInt n)
  fromString (s : Units) : cell (.fromString (some s))
  ofList (l : ℕ) : cell (.ofList l)
  ofMap {m : ℕ} (h : frozen m = none) : cell (.ofMap m)
  map {v : RunVariable} {m : ℕ} (h : cell v) (hm : v.map = some m) : frozen m = none
  some (a : ℕ) : ref (some a)

namespace Region

/-- The memory has the property. -/
structure Holds (R : Region) (s : Memory) : Prop where
  cells : ∀ v ∈ s.cells, R.cell v
  lists : ∀ l ∈ s.lists, ∀ r ∈ l, R.ref r
  maps : ∀ m ∈ s.maps, ∀ e ∈ m, R.ref e.2
  frozen : ∀ m entries, R.frozen m = Option.some entries → s.maps[m]? = Option.some entries

variable {R : Region} {s : Memory}

namespace Holds

lemma cell (h : R.Holds s) (a : ℕ) : R.cell (s.cell a) := by
  rw [Memory.cell, List.getD_eq_getElem?_getD]
  cases ha : s.cells[a]? with
  | none => exact R.notReady
  | some v => exact h.cells v (List.mem_of_getElem? ha)

lemma deref (h : R.Holds s) {r : Ref} {v : RunVariable} (hv : s.deref r = Option.some v) :
    R.cell v := by
  obtain ⟨a, -, rfl⟩ := Option.map_eq_some_iff.mp hv
  exact h.cell a

lemma list (h : R.Holds s) (l : ℕ) : ∀ r ∈ s.list l, R.ref r := by
  rw [Memory.list, List.getD_eq_getElem?_getD]
  cases hl : s.lists[l]? with
  | none => nofun
  | some rs => exact h.lists rs (List.mem_of_getElem? hl)

lemma map (h : R.Holds s) (m : ℕ) : ∀ e ∈ s.map m, R.ref e.2 := by
  rw [Memory.map, List.getD_eq_getElem?_getD]
  cases hm : s.maps[m]? with
  | none => nofun
  | some entries => exact h.maps entries (List.mem_of_getElem? hm)

end Holds

/-! ### Writing -/

variable {v : RunVariable} {rs : List Ref} {entries : Map (Option Units) Ref}

lemma keeps_newVariable (hv : R.cell v) : Keeps R.Holds R.ref (newVariable v) := by
  rintro s _ _ hs ⟨⟩
  refine ⟨⟨?_, hs.lists, hs.maps, hs.frozen⟩, R.some _⟩
  exact List.forall_mem_append.mpr ⟨hs.cells, List.forall_mem_singleton.mpr hv⟩

lemma keeps_newList (hrs : ∀ r ∈ rs, R.ref r) :
    Keeps R.Holds (fun _ => True) (newList rs) := by
  rintro s _ _ hs ⟨⟩
  refine ⟨⟨hs.cells, ?_, hs.maps, hs.frozen⟩, trivial⟩
  exact List.forall_mem_append.mpr ⟨hs.lists, List.forall_mem_singleton.mpr hrs⟩

lemma keeps_newMap (he : ∀ e ∈ entries, R.ref e.2) :
    Keeps R.Holds (fun m => R.frozen m = none) (newMap entries) := by
  rintro s _ _ hs ⟨⟩
  refine ⟨⟨hs.cells, hs.lists, ?_, fun m entries' hm => ?_⟩, ?_⟩
  · exact List.forall_mem_append.mpr ⟨hs.maps, List.forall_mem_singleton.mpr he⟩
  · have hold := hs.frozen m entries' hm
    rw [List.getElem?_append_left (List.getElem?_eq_some_iff.mp hold).1]
    exact hold
  · by_contra hne
    obtain ⟨entries', hentries⟩ := Option.ne_none_iff_exists'.mp hne
    exact absurd (List.getElem?_eq_some_iff.mp (hs.frozen _ _ hentries)).1 (lt_irrefl _)

lemma keeps_setVariable (a : ℕ) (hv : R.cell v) :
    Keeps R.Holds (fun _ => True) (setVariable a v) := by
  rintro s _ _ hs ⟨⟩
  refine ⟨⟨fun w hw => ?_, hs.lists, hs.maps, hs.frozen⟩, trivial⟩
  rcases List.mem_or_eq_of_mem_set hw with hw | rfl
  · exact hs.cells w hw
  · exact hv

lemma keeps_setList (l : ℕ) (hrs : ∀ r ∈ rs, R.ref r) :
    Keeps R.Holds (fun _ => True) (setList l rs) := by
  rintro s _ _ hs ⟨⟩
  refine ⟨⟨hs.cells, fun w hw => ?_, hs.maps, hs.frozen⟩, trivial⟩
  rcases List.mem_or_eq_of_mem_set hw with hw | rfl
  · exact hs.lists w hw
  · exact hrs

lemma keeps_setMap {m : ℕ} (hm : R.frozen m = none) (he : ∀ e ∈ entries, R.ref e.2) :
    Keeps R.Holds (fun _ => True) (setMap m entries) := by
  rintro s _ _ hs ⟨⟩
  refine ⟨⟨hs.cells, hs.lists, fun w hw => ?_, fun m' entries' hm' => ?_⟩, trivial⟩
  · rcases List.mem_or_eq_of_mem_set hw with hw | rfl
    · exact hs.maps w hw
    · exact he
  · have hne : m ≠ m' := by
      rintro rfl
      cases hm.symm.trans hm'
    exact (List.getElem?_set_ne hne).trans (hs.frozen m' entries' hm')

/-! ### Reading -/

lemma keeps_get : Keeps R.Holds R.Holds (get : ScriptCall Memory) := by
  rintro s _ _ hs ⟨⟩
  exact ⟨hs, hs⟩

lemma onNull_run_eq_ok {α : Type} {x : Option α} {a : α} {s' : Memory} :
    (onNull x : ScriptCall α) s = .ok (a, s') ↔ x = Option.some a ∧ s = s' := by
  cases x with
  | none => exact ⟨fun h => (nomatch h), fun h => (nomatch h.1)⟩
  | some b =>
    constructor
    · rintro ⟨⟩
      exact ⟨rfl, rfl⟩
    · rintro ⟨⟨⟩, rfl⟩
      rfl

lemma keeps_onNull {α : Type} (x : Option α) :
    Keeps R.Holds (fun a => x = Option.some a) (onNull x) := by
  cases x with
  | none => exact keeps_throw _
  | some a => exact keeps_pure rfl

lemma keeps_deref (r : Ref) : Keeps R.Holds R.cell (deref r) := by
  refine keeps_get.bind fun s hs => ?_
  exact (keeps_onNull _).mono fun v hv => hs.deref hv

/-- The arguments are variables with the property. -/
def Reads (R : Region) (cells : ScriptBuiltIn.Args) : Prop :=
  ∀ v, Option.some v ∈ cells → R.cell v

lemma keeps_read (args : List Ref) : Keeps R.Holds R.Reads (ScriptBuiltIn.read args) := by
  refine keeps_get.bind fun s hs => keeps_pure fun v hv => ?_
  obtain ⟨r, -, hr⟩ := List.mem_map.mp hv
  exact hs.deref hr

/-- What is computed from the arguments does not matter. -/
lemma keeps_compute {α : Type} (r : Except ScriptError α) :
    Keeps R.Holds (fun _ => True) (liftM r : ScriptCall α) :=
  keeps_lift fun _ _ => trivial

lemma keeps_argument {cells : ScriptBuiltIn.Args} (h : R.Reads cells) (i : ℕ) :
    Keeps R.Holds R.cell (liftM (ScriptBuiltIn.argument cells i) : ScriptCall RunVariable) := by
  refine keeps_lift fun v hv => h v ?_
  rw [ScriptBuiltIn.argument] at hv
  split at hv
  · cases hv
  · cases hv
  · rename_i hi
    cases hv
    exact List.mem_of_getElem? hi

lemma keeps_referenceAt {args : List Ref} (h : ∀ r ∈ args, R.ref r) (i : ℕ) :
    Keeps R.Holds R.ref (ScriptBuiltIn.referenceAt args i) := by
  rw [ScriptBuiltIn.referenceAt]
  cases hi : args[i]? with
  | none => exact keeps_throw _
  | some r => exact keeps_pure (h r (List.mem_of_getElem? hi))

/-! ### The functions -/

open ScriptBuiltIn

lemma keeps_mapM {α : Type} {f : α → ScriptCall Ref} {xs : List α}
    (h : ∀ x ∈ xs, Keeps R.Holds R.ref (f x)) :
    Keeps R.Holds (fun rs => ∀ r ∈ rs, R.ref r) (xs.mapM f) := by
  induction xs with
  | nil => exact keeps_pure (by simp)
  | cons x xs ih =>
    rw [List.mapM_cons]
    obtain ⟨hx, hxs⟩ := List.forall_mem_cons.mp h
    refine hx.bind fun r hr => (ih hxs).bind fun rs hrs => keeps_pure ?_
    exact List.forall_mem_cons.mpr ⟨hr, hrs⟩

lemma keeps_strSplit (args : List Ref) : Keeps R.Holds R.ref (strSplit args) := by
  refine (keeps_read args).bind fun cells _ => (keeps_compute _).bind fun parts _ => ?_
  refine (keeps_mapM fun part _ => keeps_newVariable (R.fromString part)).bind fun rs hrs => ?_
  exact (keeps_newList hrs).bind fun l _ => keeps_newVariable (R.ofList l)

lemma keeps_mapMapCreate (args : List Ref) : Keeps R.Holds R.ref (mapMapCreate args) :=
  (keeps_newMap (by simp)).bind fun _ hm => keeps_newVariable (R.ofMap hm)

lemma keeps_listCreate (args : List Ref) : Keeps R.Holds R.ref (listCreate args) :=
  (keeps_newList (by simp)).bind fun l _ => keeps_newVariable (R.ofList l)

lemma ref_of_mem_set {k : Option Units} {r : Ref} (he : ∀ e ∈ entries, R.ref e.2) (hr : R.ref r) :
    ∀ e ∈ entries.set k r, R.ref e.2 := by
  intro e hmem
  rcases Map.mem_set hmem with rfl | hmem
  · exact hr
  · exact he e hmem

lemma keeps_mapMapInsert {args : List Ref} (hargs : ∀ r ∈ args, R.ref r) :
    Keeps R.Holds R.ref (mapMapInsert args) := by
  refine (keeps_read args).bind fun cells hcells => (keeps_compute _).bind fun _ _ => ?_
  refine (keeps_argument hcells 0).bind fun v hv => (keeps_compute _).bind fun key _ => ?_
  refine (keeps_referenceAt hargs 2).bind fun r hr => (keeps_onNull v.map).bind fun m hm => ?_
  refine keeps_get.bind fun s hs => ?_
  refine (keeps_setMap (R.map hv hm) (ref_of_mem_set (hs.map m) hr)).bind fun _ _ => ?_
  exact keeps_newVariable R.notReady

lemma keeps_logicMapContainsKey (args : List Ref) :
    Keeps R.Holds R.ref (logicMapContainsKey args) := by
  refine (keeps_read args).bind fun cells hcells => (keeps_compute _).bind fun _ _ => ?_
  refine (keeps_argument hcells 0).bind fun v hv => (keeps_compute _).bind fun key _ => ?_
  refine (keeps_onNull v.map).bind fun m _ => keeps_get.bind fun s _ => ?_
  exact keeps_newVariable (R.fromInt _)

lemma keeps_placeIn (n : ℕ) (i : ℤ) : Keeps R.Holds (· < n) (placeIn n i) := by
  rw [placeIn]
  split_ifs with h
  · exact keeps_pure (by omega)
  · exact keeps_throw _

lemma keeps_listInsert {args : List Ref} (hargs : ∀ r ∈ args, R.ref r) :
    Keeps R.Holds R.ref (listInsert args) := by
  refine (keeps_read args).bind fun cells hcells => (keeps_compute _).bind fun _ _ => ?_
  refine (keeps_argument hcells 0).bind fun v hv => ?_
  refine (keeps_referenceAt hargs 2).bind fun r hr => (keeps_onNull v.list).bind fun l _ => ?_
  refine (keeps_compute _).bind fun i _ => ?_
  cases i with
  | none => exact keeps_throw _
  | some i =>
    refine keeps_get.bind fun s hs => (keeps_placeIn _ i).bind fun n _ => ?_
    refine (keeps_setList l fun r' hr' => ?_).bind fun _ _ => keeps_newVariable R.notReady
    rcases List.eq_or_mem_of_mem_insertIdx hr' with rfl | hmem
    · exact hr
    · exact hs.list l r' hmem

lemma keeps_listAppend {args : List Ref} (hargs : ∀ r ∈ args, R.ref r) :
    Keeps R.Holds R.ref (listAppend args) := by
  refine (keeps_read args).bind fun cells hcells => (keeps_compute _).bind fun _ _ => ?_
  refine (keeps_argument hcells 0).bind fun v hv => ?_
  refine (keeps_referenceAt hargs 1).bind fun r hr => (keeps_onNull v.list).bind fun l _ => ?_
  refine keeps_get.bind fun s hs => (keeps_setList l ?_).bind fun _ _ =>
    keeps_newVariable R.notReady
  exact List.forall_mem_append.mpr ⟨hs.list l, List.forall_mem_singleton.mpr hr⟩

lemma keeps_listRemoveAt (args : List Ref) : Keeps R.Holds R.ref (listRemoveAt args) := by
  refine (keeps_read args).bind fun cells hcells => (keeps_compute _).bind fun _ _ => ?_
  refine (keeps_argument hcells 0).bind fun v hv => (keeps_onNull v.list).bind fun l _ => ?_
  refine (keeps_compute _).bind fun i _ => ?_
  cases i with
  | none => exact keeps_throw _
  | some i =>
    refine keeps_get.bind fun s hs => (keeps_placeIn _ i).bind fun n _ => ?_
    refine (keeps_setList l fun r hr => ?_).bind fun _ _ => keeps_newVariable R.notReady
    exact hs.list l r (List.mem_of_mem_eraseIdx hr)

/-! #### JSON -/

mutual

lemma keeps_ofJson : (e : Json) → R.ref none ∨ e.Whole →
    Keeps R.Holds (fun r => R.ref none ∨ ¬ e.Absent → R.ref r) (ofJson e)
  | .string s, _ => by
    rw [ofJson]
    exact (keeps_newVariable (R.fromString s)).mono fun r hr _ => hr
  | .int n, _ => by
    rw [ofJson]
    exact (keeps_newVariable (R.fromInt n)).mono fun r hr _ => hr
  | .map entries, h => by
    rw [ofJson]
    refine (keeps_fromMapJsonInternal entries [] h (by simp)).bind fun m hm => ?_
    refine (keeps_newMap hm).bind fun a ha => ?_
    exact (keeps_newVariable (R.ofMap ha)).mono fun r hr _ => hr
  | .list elements, h => by
    rw [ofJson]
    refine (keeps_fromListJsonInternal elements h).bind fun rs hrs => ?_
    refine (keeps_newList hrs).bind fun l _ => ?_
    exact (keeps_newVariable (R.ofList l)).mono fun r hr _ => hr
  | .null, _ => by
    rw [ofJson]
    exact keeps_pure fun h => h.resolve_right (not_not.mpr trivial)
  | .bool _, _ => by
    rw [ofJson]
    exact keeps_pure fun h => h.resolve_right (not_not.mpr trivial)
  | .double _, _ => by
    rw [ofJson]
    exact keeps_pure fun h => h.resolve_right (not_not.mpr trivial)

lemma keeps_fromListJsonInternal : (elements : List Json) →
    R.ref none ∨ Json.WholeElements elements →
    Keeps R.Holds (fun rs => ∀ r ∈ rs, R.ref r) (fromListJsonInternal elements)
  | [], _ => by
    rw [fromListJsonInternal]
    exact keeps_pure (by simp)
  | e :: elements, h => by
    rw [fromListJsonInternal]
    refine (keeps_ofJson e (h.imp_right fun h => h.2.1)).bind fun r hr => ?_
    refine (keeps_fromListJsonInternal elements (h.imp_right fun h => h.2.2)).bind
      fun rs hrs => keeps_pure ?_
    exact List.forall_mem_cons.mpr ⟨hr (h.imp_right fun h => h.1), hrs⟩

lemma keeps_fromMapJsonInternal : (entries : List (Units × Json)) →
    (result : Map (Option Units) Ref) → R.ref none ∨ Json.WholeEntries entries →
    (∀ e ∈ result, R.ref e.2) →
    Keeps R.Holds (fun m => ∀ e ∈ m, R.ref e.2) (fromMapJsonInternal entries result)
  | [], result, _, hresult => by
    rw [fromMapJsonInternal]
    exact keeps_pure hresult
  | (key, value) :: entries, result, h, hresult => by
    rw [fromMapJsonInternal]
    refine (keeps_ofJson value (h.imp_right fun h => h.1)).bind fun r _ => ?_
    have hentries : R.ref none ∨ Json.WholeEntries entries := h.imp_right fun h => h.2
    cases r with
    | none => exact keeps_fromMapJsonInternal entries result hentries hresult
    | some a =>
      exact keeps_fromMapJsonInternal entries _ hentries (ref_of_mem_set hresult (R.some a))

end

/-- The JSON text that is read holds a map that is whole. -/
def WholeMap (P : ScriptPlatform) (cells : Args) : Prop :=
  ∀ text entries, textAt cells 0 = .ok (Option.some text) →
    P.jsonDecode text = Option.some (.map entries) → (Json.map entries).Whole

/-- The JSON text that is read holds a list that is whole. -/
def WholeList (P : ScriptPlatform) (cells : Args) : Prop :=
  ∀ text elements, textAt cells 0 = .ok (Option.some text) →
    P.jsonDecode text = Option.some (.list elements) → (Json.list elements).Whole

/-- The map whose keys are listed. -/
def HasKeys (s : Memory) (cells : Args) : Prop :=
  ∀ v m, argument cells 0 = .ok v → v.map = Option.some m → ∀ e ∈ s.map m, e.1 ≠ none

lemma keeps_decoded (P : ScriptPlatform) (cells : Args) :
    Keeps R.Holds (fun json => ∃ text, textAt cells 0 = .ok (Option.some text) ∧
      P.jsonDecode text = Option.some json) (decoded P cells) := by
  refine (keeps_lift (Q := fun text => textAt cells 0 = .ok text) fun _ h => h).bind
    fun text htext => ?_
  refine (keeps_onNull text).bind fun text' htext' => ?_
  cases hjson : P.jsonDecode text' with
  | none => exact keeps_throw _
  | some json => exact keeps_pure ⟨text', htext' ▸ htext, hjson⟩

variable {P : ScriptPlatform} {args : List Ref} {s' : Memory} {r : Ref}

lemma mapFromJson_holds (hs : R.Holds s) (h : R.ref none ∨ WholeMap P (args.map s.deref))
    (hrun : mapFromJson P args s = .ok (r, s')) : R.Holds s' ∧ R.ref r := by
  obtain ⟨cells, _, hread, hrest⟩ := bind_run_eq_ok.mp hrun
  cases hread
  refine ((keeps_compute _).bind fun _ _ => (keeps_decoded P _).bind fun json hjson => ?_)
    s r s' hs hrest
  obtain ⟨text, htext, hdecode⟩ := hjson
  cases json with
  | map entries =>
    have hwhole : R.ref none ∨ Json.WholeEntries entries :=
      h.imp_right fun h => h text entries htext hdecode
    refine (keeps_fromMapJsonInternal entries [] hwhole (by simp)).bind fun m hm => ?_
    exact (keeps_newMap hm).bind fun a ha => keeps_newVariable (R.ofMap ha)
  | _ => exact keeps_throw _

lemma listFromJson_holds (hs : R.Holds s) (h : R.ref none ∨ WholeList P (args.map s.deref))
    (hrun : listFromJson P args s = .ok (r, s')) : R.Holds s' ∧ R.ref r := by
  obtain ⟨cells, _, hread, hrest⟩ := bind_run_eq_ok.mp hrun
  cases hread
  refine ((keeps_compute _).bind fun _ _ => (keeps_decoded P _).bind fun json hjson => ?_)
    s r s' hs hrest
  obtain ⟨text, htext, hdecode⟩ := hjson
  cases json with
  | list elements =>
    have hwhole : R.ref none ∨ Json.WholeElements elements :=
      h.imp_right fun h => h text elements htext hdecode
    refine (keeps_fromListJsonInternal elements hwhole).bind fun rs hrs => ?_
    exact (keeps_newList hrs).bind fun l _ => keeps_newVariable (R.ofList l)
  | _ => exact keeps_throw _

lemma mapKeys_holds (hs : R.Holds s)
    (h : R.cell (.fromString none) ∨ HasKeys s (args.map s.deref))
    (hrun : mapKeys args s = .ok (r, s')) : R.Holds s' ∧ R.ref r := by
  obtain ⟨cells, _, hread, hrest⟩ := bind_run_eq_ok.mp hrun
  cases hread
  obtain ⟨_, _, hcheck, hrest⟩ := bind_run_eq_ok.mp hrest
  obtain ⟨-, rfl⟩ := lift_run_eq_ok.mp hcheck
  obtain ⟨v, _, hv, hrest⟩ := bind_run_eq_ok.mp hrest
  obtain ⟨hargument, rfl⟩ := lift_run_eq_ok.mp hv
  obtain ⟨m, _, hm, hrest⟩ := bind_run_eq_ok.mp hrest
  obtain ⟨hmap, rfl⟩ := onNull_run_eq_ok.mp hm
  refine ((keeps_mapM fun e he => ?_).bind fun rs hrs => (keeps_newList hrs).bind fun l _ =>
    keeps_newVariable (R.ofList l)) s r s' hs hrest
  rcases h with hnull | hkeys
  · cases e.1 with
    | none => exact keeps_newVariable hnull
    | some key => exact keeps_newVariable (R.fromString key)
  · obtain ⟨key, hkey⟩ := Option.ne_none_iff_exists'.mp (hkeys v m hargument hmap e he)
    rw [hkey]
    exact keeps_newVariable (R.fromString key)

/-! #### The network -/

lemma keeps_headers : (entries : Map (Option Units) Ref) →
    Keeps R.Holds (fun _ => True) (headers entries)
  | [] => by
    rw [headers]
    exact keeps_pure trivial
  | e :: entries => by
    rw [headers]
    refine (keeps_deref e.2).bind fun v _ => (keeps_compute _).bind fun value _ => ?_
    exact (keeps_headers entries).bind fun _ _ => keeps_pure trivial

lemma keeps_request (P : ScriptPlatform) (address : Units)
    (header : Map (Option Units) (Option Units)) :
    Keeps R.Holds (fun _ => True) (request P address header) := by
  refine keeps_get.bind fun s hs => ?_
  cases P.get s.requests address header with
  | none => exact keeps_throw _
  | some body =>
    rintro t _ _ - ⟨⟩
    exact ⟨⟨hs.cells, hs.lists, hs.maps, hs.frozen⟩, trivial⟩

lemma keeps_httpDownload (P : ScriptPlatform) (args : List Ref) :
    Keeps R.Holds R.ref (httpDownload P args) := by
  refine (keeps_read args).bind fun cells hcells => keeps_check _ fun _ => ?_
  refine (keeps_compute _).bind fun _ _ => ?_
  have hget (header : Map (Option Units) (Option Units)) :
      Keeps R.Holds R.ref ((liftM (textAt cells 0) : ScriptCall (Option Units)) >>= fun text =>
        onNull text >>= fun address => request P address header >>= fun body =>
          newVariable (.fromString (Option.some body))) := by
    refine (keeps_compute _).bind fun text _ => (keeps_onNull text).bind fun address _ => ?_
    exact (keeps_request P address header).bind fun body _ => keeps_newVariable (R.fromString body)
  have hheader : Keeps R.Holds R.ref (do
      let header ← if args.length = 1 then pure [] else do
        headers ((← get).map (← onNull (← (liftM (argument cells 1) : ScriptCall _)).map))
      let body ← request P (← onNull (← (liftM (textAt cells 0) : ScriptCall _))) header
      newVariable (.fromString (Option.some body))) := by
    refine keeps_ite (fun _ => hget []) fun _ => ?_
    refine keeps_get.bind fun s hs => (keeps_argument hcells 1).bind fun v hv => ?_
    refine (keeps_onNull v.map).bind fun m _ => (keeps_headers _).bind fun header _ => ?_
    exact hget header
  refine keeps_ite (fun _ => ?_) fun _ => hheader
  exact (keeps_argument hcells 1).bind fun v _ => keeps_check _ fun _ => hheader

end Region

end Violet
