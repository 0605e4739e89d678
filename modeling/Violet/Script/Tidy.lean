import Violet.Script.Elements

/-!
# Tidy memories

In a tidy memory each reference leads to a variable that is there, each variable has a list or a map
that is there, and none is inside itself. New variables, lists and maps keep this. What is put into
a list, a map or a variable keeps it as long as this is not inside of what is put.
-/

namespace Violet

open Dart Program Relation ScriptCall

namespace Memory

variable {s s' s'' : Memory} {v : RunVariable} {r : Ref} {a : ℕ}

/-! ### Addresses -/

/-- The reference is null or leads to a variable. -/
def HasRef (s : Memory) (r : Ref) : Prop := ∀ a ∈ r, a < s.cells.length

/-- The list and the map of the variable are there. -/
structure HasParts (s : Memory) (v : RunVariable) : Prop where
  list : ∀ l ∈ v.list, l < s.lists.length
  map : ∀ m ∈ v.map, m < s.maps.length

structure Tidy (s : Memory) : Prop where
  cells : ∀ v ∈ s.cells, s.HasParts v
  lists : ∀ rs ∈ s.lists, ∀ r ∈ rs, s.HasRef r
  maps : ∀ entries ∈ s.maps, ∀ e ∈ entries, s.HasRef e.2
  wf : WellFounded s.Inside

/-- Nothing has been taken away. -/
structure Extends (s s' : Memory) : Prop where
  cells : s.cells.length ≤ s'.cells.length
  lists : s.lists.length ≤ s'.lists.length
  maps : s.maps.length ≤ s'.maps.length

lemma Extends.refl (s : Memory) : s.Extends s := ⟨le_rfl, le_rfl, le_rfl⟩

lemma Extends.trans (h : s.Extends s') (h' : s'.Extends s'') : s.Extends s'' :=
  ⟨h.cells.trans h'.cells, h.lists.trans h'.lists, h.maps.trans h'.maps⟩

lemma HasRef.mono (h : s.HasRef r) (hs : s.Extends s') : s'.HasRef r :=
  fun a ha => (h a ha).trans_le hs.cells

lemma HasParts.mono (h : s.HasParts v) (hs : s.Extends s') : s'.HasParts v :=
  ⟨fun l hl => (h.list l hl).trans_le hs.lists, fun m hm => (h.map m hm).trans_le hs.maps⟩

lemma hasRef_none (s : Memory) : s.HasRef none := nofun

lemma hasParts_of_none (hl : v.list = none) (hm : v.map = none) : s.HasParts v :=
  ⟨by simp [hl], by simp [hm]⟩

/-- What is in a variable depends on its own list and map. -/
lemma mem_inner_congr (h : r ∈ s'.inner v) (hl : ∀ l ∈ v.list, s'.list l = s.list l)
    (hm : ∀ m ∈ v.map, s'.map m = s.map m) : r ∈ s.inner v := by
  rcases List.mem_append.mp h with hr | hr
  · refine List.mem_append_left _ ?_
    cases hlist : v.list with
    | none => simp [hlist] at hr
    | some l =>
      rw [hlist, Option.elim_some, hl l hlist] at hr
      exact hr
  · refine List.mem_append_right _ ?_
    cases hmap : v.map with
    | none => simp [hmap] at hr
    | some m =>
      rw [hmap, Option.elim_some, hm m hmap] at hr
      exact hr

lemma list_set (s : Memory) (l k : ℕ) (rs : List Ref) :
    list { s with lists := s.lists.set l rs } k = s.list k ∨
      l = k ∧ list { s with lists := s.lists.set l rs } k = rs := by
  rw [list, list, List.getD, List.getD, List.getElem?_set]
  split_ifs with heq hlt
  · exact .inr ⟨heq, rfl⟩
  · refine .inl ?_
    rw [← heq, List.getElem?_eq_none (by omega)]
  · exact .inl rfl

lemma map_set (s : Memory) (m k : ℕ) (entries : Map (Option Units) Ref) :
    map { s with maps := s.maps.set m entries } k = s.map k ∨
      m = k ∧ map { s with maps := s.maps.set m entries } k = entries := by
  rw [map, map, List.getD, List.getD, List.getElem?_set]
  split_ifs with heq hlt
  · exact .inr ⟨heq, rfl⟩
  · refine .inl ?_
    rw [← heq, List.getElem?_eq_none (by omega)]
  · exact .inl rfl

/-- The links between variables that stay when lists and maps change. -/
lemma wf_of_inner (h : WellFounded s.Inside) (hcells : s'.cells = s.cells)
    {t : ℕ → Prop} (hinner : ∀ x y, some y ∈ s'.inner (s.cell x) →
      s.Inside y x ∨ t x ∧ ∀ z, ReflTransGen s.Inside z y → ¬ t z) : WellFounded s'.Inside := by
  refine Links.wellFounded_of_links h (s := t)
    (t := fun y => ∀ z, ReflTransGen s.Inside z y → ¬ t z) (fun y x hyx => ?_)
    fun y hy z hz => hy z hz
  rw [Inside, cell, hcells] at hyx
  exact hinner x y hyx

namespace Tidy

variable {rs : List Ref} {entries : Map (Option Units) Ref} {l m : ℕ}

lemma cell (h : s.Tidy) (a : ℕ) : s.HasParts (s.cell a) := by
  rw [Memory.cell, List.getD_eq_getElem?_getD]
  cases ha : s.cells[a]? with
  | none => exact hasParts_of_none rfl rfl
  | some v => exact h.cells v (List.mem_of_getElem? ha)

lemma list (h : s.Tidy) (l : ℕ) : ∀ r ∈ s.list l, s.HasRef r := by
  rw [Memory.list, List.getD_eq_getElem?_getD]
  cases hl : s.lists[l]? with
  | none => exact List.forall_mem_nil _
  | some rs => exact h.lists rs (List.mem_of_getElem? hl)

lemma map (h : s.Tidy) (m : ℕ) : ∀ e ∈ s.map m, s.HasRef e.2 := by
  rw [Memory.map, List.getD_eq_getElem?_getD]
  cases hm : s.maps[m]? with
  | none => exact List.forall_mem_nil _
  | some entries => exact h.maps entries (List.mem_of_getElem? hm)

lemma inner (h : s.Tidy) (v : RunVariable) : ∀ r ∈ s.inner v, s.HasRef r := by
  intro r hr
  rcases List.mem_append.mp hr with hr | hr
  · cases hl : v.list with
    | none => simp [hl] at hr
    | some l => exact h.list l r (by simpa [hl] using hr)
  · cases hm : v.map with
    | none => simp [hm] at hr
    | some m =>
      rw [hm, Option.elim_some] at hr
      obtain ⟨e, he, rfl⟩ := List.mem_map.mp hr
      exact h.map m e he

/-! ### New objects -/

/-- Nothing leads to an address without a variable. -/
lemma lt_of_within (h : s.Tidy) {x y : ℕ} (hy : y < s.cells.length)
    (hxy : ReflTransGen s.Inside x y) : x < s.cells.length := by
  rcases hxy.cases_head with rfl | ⟨z, hz, -⟩
  · exact hy
  · exact h.inner _ _ hz x rfl

lemma newVariable (h : s.Tidy) (hv : s.HasParts v) :
    Tidy { s with cells := s.cells ++ [v] } := by
  have hmono : s.Extends { s with cells := s.cells ++ [v] } := ⟨by simp, le_rfl, le_rfl⟩
  refine ⟨fun w hw => ?_, fun rs hrs r hr => (h.lists rs hrs r hr).mono hmono,
    fun e he r hr => (h.maps e he r hr).mono hmono, ?_⟩
  · rcases List.mem_append.mp hw with hw | hw
    · exact (h.cells w hw).mono hmono
    · exact List.mem_singleton.mp hw ▸ hv.mono hmono
  · -- the new links lead from the new variable to older ones
    refine Links.wellFounded_of_links h.wf (s := fun x => x = s.cells.length)
      (t := fun y => y < s.cells.length) (fun y x hyx => ?_) fun y hy z hz heq => ?_
    · change some y ∈ s.inner (List.getD (s.cells ++ [v]) x .notReady) at hyx
      by_cases hx : x < s.cells.length
      · rw [List.getD, List.getElem?_append_left hx] at hyx
        exact .inl hyx
      · refine .inr ⟨?_, h.inner _ _ hyx y rfl⟩
        by_contra hne
        rw [List.getD, List.getElem?_eq_none (by simp; omega)] at hyx
        simp [Memory.inner, RunVariable.notReady] at hyx
    · exact absurd (h.lt_of_within hy hz) (by omega)

lemma newList (h : s.Tidy) (hrs : ∀ r ∈ rs, s.HasRef r) :
    Tidy { s with lists := s.lists ++ [rs] } := by
  have hmono : s.Extends { s with lists := s.lists ++ [rs] } := ⟨le_rfl, by simp, le_rfl⟩
  refine ⟨fun v hv => (h.cells v hv).mono hmono,
    List.forall_mem_append.mpr ⟨h.lists, List.forall_mem_singleton.mpr hrs⟩, h.maps,
    wf_of_inner (t := fun _ => False) h.wf rfl fun x y hyx => .inl ?_⟩
  refine mem_inner_congr hyx (fun l hl => ?_) fun _ _ => rfl
  have hlt := (h.cell x).list l hl
  simp [Memory.list, List.getD, List.getElem?_append_left hlt]

lemma newMap (h : s.Tidy) (he : ∀ e ∈ entries, s.HasRef e.2) :
    Tidy { s with maps := s.maps ++ [entries] } := by
  have hmono : s.Extends { s with maps := s.maps ++ [entries] } := ⟨le_rfl, le_rfl, by simp⟩
  refine ⟨fun v hv => (h.cells v hv).mono hmono, h.lists,
    List.forall_mem_append.mpr ⟨h.maps, List.forall_mem_singleton.mpr he⟩,
    wf_of_inner (t := fun _ => False) h.wf rfl fun x y hyx => .inl ?_⟩
  refine mem_inner_congr hyx (fun _ _ => rfl) fun m hm => ?_
  have hlt := (h.cell x).map m hm
  simp [Memory.map, List.getD, List.getElem?_append_left hlt]

/-! ### Changes -/

/-- A list gets other elements, which are old ones or have no variable with this list inside. -/
lemma setList (h : s.Tidy) (hrs : ∀ r ∈ rs, s.HasRef r)
    (hnew : ∀ y, some y ∈ rs → some y ∈ s.list l ∨
      ∀ z, ReflTransGen s.Inside z y → l ∉ (s.cell z).list) :
    Tidy { s with lists := s.lists.set l rs } := by
  refine ⟨fun v hv => ⟨fun k hk => ?_, (h.cells v hv).map⟩, fun rs' hrs' => ?_, h.maps,
    wf_of_inner (t := fun x => l ∈ (s.cell x).list) h.wf rfl fun x y hyx => ?_⟩
  · simpa using (h.cells v hv).list k hk
  · rcases List.mem_or_eq_of_mem_set hrs' with hrs' | rfl
    · exact h.lists rs' hrs'
    · exact hrs
  · rcases List.mem_append.mp hyx with hy | hy
    · cases hlist : (s.cell x).list with
      | none => simp [hlist] at hy
      | some k =>
        rw [hlist, Option.elim_some] at hy
        have hold (hy : some y ∈ s.list k) : s.Inside y x :=
          List.mem_append_left _ (by rwa [hlist])
        rcases s.list_set l k rs with hset | ⟨rfl, hset⟩
        · exact .inl (hold (hset ▸ hy))
        · exact (hnew y (hset ▸ hy)).imp hold fun hz => ⟨rfl, hz⟩
    · exact .inl (List.mem_append_right _ hy)

/-- A map gets other entries, which are old ones or have no variable with this map inside. -/
lemma setMap (h : s.Tidy) (he : ∀ e ∈ entries, s.HasRef e.2)
    (hnew : ∀ e ∈ entries, ∀ y, e.2 = some y → e ∈ s.map m ∨
      ∀ z, ReflTransGen s.Inside z y → m ∉ (s.cell z).map) :
    Tidy { s with maps := s.maps.set m entries } := by
  refine ⟨fun v hv => ⟨(h.cells v hv).list, fun k hk => ?_⟩, h.lists, fun entries' hentries' => ?_,
    wf_of_inner (t := fun x => m ∈ (s.cell x).map) h.wf rfl fun x y hyx => ?_⟩
  · simpa using (h.cells v hv).map k hk
  · rcases List.mem_or_eq_of_mem_set hentries' with hentries' | rfl
    · exact h.maps entries' hentries'
    · exact he
  · rcases List.mem_append.mp hyx with hy | hy
    · exact .inl (List.mem_append_left _ hy)
    · cases hmap : (s.cell x).map with
      | none => simp [hmap] at hy
      | some k =>
        rw [hmap, Option.elim_some] at hy
        obtain ⟨e, he, hey⟩ := List.mem_map.mp hy
        have hold (he : e ∈ s.map k) : s.Inside y x :=
          List.mem_append_right _ (by rw [hmap]; exact hey ▸ List.mem_map_of_mem he)
        rcases s.map_set m k entries with hset | ⟨rfl, hset⟩
        · exact .inl (hold (hset ▸ he))
        · exact (hnew e (hset ▸ he) y hey).imp hold fun hz => ⟨rfl, hz⟩

/-- A variable becomes what another value is in which it is not inside. -/
lemma setVariable (h : s.Tidy) (hv : s.HasParts v)
    (hnew : ∀ y, some y ∈ s.inner v → ¬ ReflTransGen s.Inside a y) :
    Tidy { s with cells := s.cells.set a v } := by
  have hmono : s.Extends { s with cells := s.cells.set a v } := ⟨by simp, le_rfl, le_rfl⟩
  refine ⟨fun w hw => ?_, fun rs hrs r hr => (h.lists rs hrs r hr).mono hmono,
    fun e he r hr => (h.maps e he r hr).mono hmono, ?_⟩
  · rcases List.mem_or_eq_of_mem_set hw with hw | rfl
    · exact (h.cells w hw).mono hmono
    · exact hv.mono hmono
  · refine Links.wellFounded_of_links h.wf (s := fun x => x = a)
      (t := fun y => ¬ ReflTransGen s.Inside a y) (fun y x hyx => ?_) ?_
    · change some y ∈ s.inner (List.getD (s.cells.set a v) x .notReady) at hyx
      rw [List.getD, List.getElem?_set] at hyx
      split_ifs at hyx with hx hlt
      · exact .inr ⟨hx.symm, hnew y hyx⟩
      · simp [Memory.inner, RunVariable.notReady] at hyx
      · exact .inl hyx
    · rintro y hy z hz rfl
      exact hy hz

end Tidy

end Memory

/-! ### Calls -/

namespace ScriptCall

open Memory ScriptBuiltIn

variable {α β : Type} {Q : α → Memory → Prop} {Q' : β → Memory → Prop} {s : Memory}
  {c : ScriptCall α} {f : α → ScriptCall β} {v : RunVariable} {r : Ref} {rs args : List Ref}
  {entries : Map (Option Units) Ref} {cells : Args} {l m : ℕ}

/-- When the call returns, the memory is tidy and extends the one before, and `Q` holds. -/
def Tidies (Q : α → Memory → Prop) (c : ScriptCall α) (s : Memory) : Prop :=
  ∀ a s', c s = .ok (a, s') → s'.Tidy ∧ s.Extends s' ∧ Q a s'

lemma tidies_pure (h : s.Tidy) {a : α} (ha : Q a s) : Tidies Q (pure a) s := by
  rintro _ _ ⟨⟩
  exact ⟨h, .refl s, ha⟩

lemma tidies_throw (e : ScriptError) : Tidies Q (throw e) s := by
  rintro a s' ⟨⟩

lemma Tidies.bind (h : Tidies Q c s)
    (hf : ∀ a s', s'.Tidy → s.Extends s' → Q a s' → Tidies Q' (f a) s') :
    Tidies Q' (c >>= f) s := by
  intro b s'' hrun
  obtain ⟨a, s', ha, hb⟩ := Operation.bind_run_eq_ok.mp hrun
  obtain ⟨hs', hextends, hQ⟩ := h a s' ha
  obtain ⟨hs'', hextends', hQ'⟩ := hf a s' hs' hextends hQ b s'' hb
  exact ⟨hs'', hextends.trans hextends', hQ'⟩

/-- A computation on what has been read. -/
lemma tidies_lift_bind {x : Except ScriptError α} (hf : ∀ a, x = .ok a → Tidies Q' (f a) s) :
    Tidies Q' (liftM x >>= f) s := by
  intro b s'' hrun
  obtain ⟨a, s', ha, hb⟩ := Operation.bind_run_eq_ok.mp hrun
  obtain ⟨hx, rfl⟩ := Operation.lift_run_eq_ok.mp ha
  exact hf a hx b s'' hb

lemma tidies_onNull_bind {x : Option α} (hf : ∀ a, x = some a → Tidies Q' (f a) s) :
    Tidies Q' (onNull x >>= f) s := by
  intro b s'' hrun
  obtain ⟨a, s', ha, hb⟩ := Operation.bind_run_eq_ok.mp hrun
  obtain ⟨hx, rfl⟩ := Region.onNull_run_eq_ok.mp ha
  exact hf a hx b s'' hb

lemma tidies_deref_bind {f : RunVariable → ScriptCall β}
    (hf : ∀ v, s.deref r = some v → Tidies Q' (f v) s) : Tidies Q' (deref r >>= f) s := by
  intro b s'' hrun
  obtain ⟨v, s', hderef, hb⟩ := Operation.bind_run_eq_ok.mp hrun
  obtain ⟨hv, rfl⟩ := deref_run_eq_ok.mp hderef
  exact hf v hv b s'' hb

lemma tidies_get_bind {f : Memory → ScriptCall β} (hf : Tidies Q' (f s) s) :
    Tidies Q' (get >>= f) s := hf

lemma tidies_read_bind {f : Args → ScriptCall β} (hf : Tidies Q' (f (args.map s.deref)) s) :
    Tidies Q' (read args >>= f) s := hf

/-- Nothing comes behind an exception. -/
lemma tidies_throw_bind {e : ScriptError} {f : α → ScriptCall β} :
    Tidies Q' (throw e >>= f) s := by
  rintro b s' ⟨⟩

lemma tidies_referenceAt_bind {i : ℕ} {f : Ref → ScriptCall β}
    (hf : ∀ r, args[i]? = some r → Tidies Q' (f r) s) : Tidies Q' (referenceAt args i >>= f) s := by
  rw [referenceAt]
  cases hi : args[i]? with
  | none => exact tidies_throw_bind
  | some r => exact hf r hi

lemma tidies_placeIn_bind {n : ℕ} {i : ℤ} {f : ℕ → ScriptCall β}
    (hf : ∀ k < n, Tidies Q' (f k) s) : Tidies Q' (placeIn n i >>= f) s := by
  rw [placeIn]
  split_ifs with h
  · exact hf _ (by omega)
  · exact tidies_throw_bind

lemma tidies_check {p : Prop} [Decidable p] {e : ScriptError} {f : Unit → ScriptCall α}
    (h : Tidies Q (f ()) s) : Tidies Q (if p then throw e >>= f else f ()) s := by
  intro a s' hrun
  exact h a s' (Operation.check_run_eq_ok.mp hrun).2

lemma tidies_ite {p : Prop} [Decidable p] {c c' : ScriptCall α} (h : Tidies Q c s)
    (h' : Tidies Q c' s) : Tidies Q (if p then c else c') s := by
  split_ifs
  · exact h
  · exact h'

lemma argument_eq_ok {i : ℕ} (h : argument (args.map s.deref) i = .ok v) :
    ∃ r, args[i]? = some r ∧ s.deref r = some v := by
  rw [argument, List.getElem?_map] at h
  cases hr : args[i]? with
  | none =>
    rw [hr] at h
    cases h
  | some r =>
    rw [hr] at h
    refine ⟨r, rfl, ?_⟩
    cases hv : s.deref r with
    | none =>
      rw [Option.map_some, hv] at h
      cases h
    | some w =>
      rw [Option.map_some, hv] at h
      cases h
      rfl

/-! #### New objects -/

lemma tidies_newVariable (h : s.Tidy) (hv : s.HasParts v) :
    Tidies (fun r s' => s'.HasRef r) (newVariable v) s := by
  rintro _ _ ⟨⟩
  refine ⟨h.newVariable hv, ⟨by simp, le_rfl, le_rfl⟩, ?_⟩
  rintro a ha
  cases ha
  simp

lemma tidies_newPlain (h : s.Tidy) (hl : v.list = none) (hm : v.map = none) :
    Tidies (fun r s' => s'.HasRef r) (newVariable v) s :=
  tidies_newVariable h (hasParts_of_none hl hm)

/-- A list and its variable. -/
lemma tidies_ofList (h : s.Tidy) (hrs : ∀ r ∈ rs, s.HasRef r) :
    Tidies (fun r s' => s'.HasRef r) (newList rs >>= fun l => newVariable (.ofList l)) s := by
  have hlist : Tidies (fun l s' => l < s'.lists.length) (newList rs) s := by
    rintro _ _ ⟨⟩
    exact ⟨h.newList hrs, ⟨le_rfl, by simp, le_rfl⟩, by simp⟩
  refine hlist.bind fun l s' hs' _ hl => tidies_newVariable hs' ⟨fun k hk => ?_, nofun⟩
  cases hk
  exact hl

/-- A map and its variable. -/
lemma tidies_ofMap (h : s.Tidy) (he : ∀ e ∈ entries, s.HasRef e.2) :
    Tidies (fun r s' => s'.HasRef r) (newMap entries >>= fun m => newVariable (.ofMap m)) s := by
  have hmap : Tidies (fun m s' => m < s'.maps.length) (newMap entries) s := by
    rintro _ _ ⟨⟩
    exact ⟨h.newMap he, ⟨le_rfl, le_rfl, by simp⟩, by simp⟩
  refine hmap.bind fun m s' hs' _ hm => tidies_newVariable hs' ⟨nofun, fun k hk => ?_⟩
  cases hk
  exact hm

lemma tidies_mapM (h : s.Tidy) {g : α → RunVariable}
    (hg : ∀ x, (g x).list = none ∧ (g x).map = none) (xs : List α) :
    Tidies (fun rs s' => ∀ r ∈ rs, s'.HasRef r) (xs.mapM fun x => newVariable (g x)) s := by
  induction xs generalizing s with
  | nil => exact tidies_pure h (by simp)
  | cons x xs ih =>
    rw [List.mapM_cons]
    refine (tidies_newPlain h (hg x).1 (hg x).2).bind fun r s1 h1 _ hr => ?_
    refine (ih h1).bind fun rs s2 h2 h12 hrs => tidies_pure h2 ?_
    exact List.forall_mem_cons.mpr ⟨hr.mono h12, hrs⟩

/-! #### JSON -/

mutual

lemma tidies_ofJson : (e : Json) → ∀ {s : Memory}, s.Tidy →
    Tidies (fun r s' => s'.HasRef r) (ofJson e) s
  | .string t, s, h => by
    rw [ofJson]
    exact tidies_newPlain h rfl rfl
  | .int n, s, h => by
    rw [ofJson]
    exact tidies_newPlain h rfl rfl
  | .map entries, s, h => by
    rw [ofJson]
    exact (tidies_fromMapJsonInternal entries [] h (by simp)).bind fun m s' hs' _ hm =>
      tidies_ofMap hs' hm
  | .list elements, s, h => by
    rw [ofJson]
    exact (tidies_fromListJsonInternal elements h).bind fun rs s' hs' _ hrs => tidies_ofList hs' hrs
  | .null, s, h => by
    rw [ofJson]
    exact tidies_pure h (hasRef_none s)
  | .bool _, s, h => by
    rw [ofJson]
    exact tidies_pure h (hasRef_none s)
  | .double _, s, h => by
    rw [ofJson]
    exact tidies_pure h (hasRef_none s)

lemma tidies_fromListJsonInternal : (elements : List Json) → ∀ {s : Memory}, s.Tidy →
    Tidies (fun rs s' => ∀ r ∈ rs, s'.HasRef r) (fromListJsonInternal elements) s
  | [], s, h => by
    rw [fromListJsonInternal]
    exact tidies_pure h (by simp)
  | e :: elements, s, h => by
    rw [fromListJsonInternal]
    refine (tidies_ofJson e h).bind fun r s1 h1 _ hr => ?_
    refine (tidies_fromListJsonInternal elements h1).bind fun rs s2 h2 h12 hrs =>
      tidies_pure h2 ?_
    exact List.forall_mem_cons.mpr ⟨hr.mono h12, hrs⟩

lemma tidies_fromMapJsonInternal : (entries : List (Units × Json)) →
    (result : Map (Option Units) Ref) → ∀ {s : Memory}, s.Tidy → (∀ e ∈ result, s.HasRef e.2) →
    Tidies (fun m s' => ∀ e ∈ m, s'.HasRef e.2) (fromMapJsonInternal entries result) s
  | [], result, s, h, hresult => by
    rw [fromMapJsonInternal]
    exact tidies_pure h hresult
  | (key, value) :: entries, result, s, h, hresult => by
    rw [fromMapJsonInternal]
    refine (tidies_ofJson value h).bind fun r s1 h1 h01 hr => ?_
    have hold : ∀ e ∈ result, s1.HasRef e.2 := fun e he => (hresult e he).mono h01
    cases r with
    | none => exact tidies_fromMapJsonInternal entries result h1 hold
    | some a =>
      refine tidies_fromMapJsonInternal entries _ h1 fun e he => ?_
      rcases Map.mem_set he with rfl | he
      · exact hr
      · exact hold e he

end

lemma tidies_decoded_bind {P : ScriptPlatform} {f : Json → ScriptCall β}
    (hf : ∀ json, Tidies Q' (f json) s) : Tidies Q' (decoded P cells >>= f) s := by
  intro b s'' hrun
  obtain ⟨json, s', hjson, hb⟩ := Operation.bind_run_eq_ok.mp hrun
  obtain rfl : s' = s := by
    obtain ⟨_, _, htext, hjson⟩ := Operation.bind_run_eq_ok.mp hjson
    obtain ⟨-, rfl⟩ := Operation.lift_run_eq_ok.mp htext
    obtain ⟨text, _, hnull, hjson⟩ := Operation.bind_run_eq_ok.mp hjson
    obtain ⟨-, rfl⟩ := Region.onNull_run_eq_ok.mp hnull
    cases hdecode : P.jsonDecode text with
    | none =>
      rw [hdecode] at hjson
      cases hjson
    | some json' =>
      rw [hdecode] at hjson
      cases hjson
      rfl
  exact hf json b s'' hb

lemma tidies_mapFromJson (P : ScriptPlatform) (h : s.Tidy) :
    Tidies (fun r s' => s'.HasRef r) (mapFromJson P args) s := by
  refine tidies_read_bind (tidies_lift_bind fun _ _ => tidies_decoded_bind fun json => ?_)
  cases json with
  | map entries =>
    exact (tidies_fromMapJsonInternal entries [] h (by simp)).bind fun m s' hs' _ hm =>
      tidies_ofMap hs' hm
  | _ => exact tidies_throw _

lemma tidies_listFromJson (P : ScriptPlatform) (h : s.Tidy) :
    Tidies (fun r s' => s'.HasRef r) (listFromJson P args) s := by
  refine tidies_read_bind (tidies_lift_bind fun _ _ => tidies_decoded_bind fun json => ?_)
  cases json with
  | list elements =>
    exact (tidies_fromListJsonInternal elements h).bind fun rs s' hs' _ hrs => tidies_ofList hs' hrs
  | _ => exact tidies_throw _

/-! #### Lists and maps -/

lemma tidies_strSplit (h : s.Tidy) : Tidies (fun r s' => s'.HasRef r) (strSplit args) s := by
  refine tidies_read_bind (tidies_lift_bind fun parts _ => ?_)
  exact (tidies_mapM h (fun _ => ⟨rfl, rfl⟩) parts).bind fun rs s' hs' _ hrs =>
    tidies_ofList hs' hrs

lemma tidies_mapKeys (h : s.Tidy) : Tidies (fun r s' => s'.HasRef r) (mapKeys args) s := by
  refine tidies_read_bind (tidies_lift_bind fun _ _ => tidies_lift_bind fun v _ => ?_)
  refine tidies_onNull_bind fun m _ => tidies_get_bind ?_
  exact (tidies_mapM h (fun _ => ⟨rfl, rfl⟩) (s.map m)).bind fun rs s' hs' _ hrs =>
    tidies_ofList hs' hrs

lemma tidies_logicMapContainsKey (h : s.Tidy) :
    Tidies (fun r s' => s'.HasRef r) (logicMapContainsKey args) s := by
  refine tidies_read_bind (tidies_lift_bind fun _ _ => tidies_lift_bind fun v _ => ?_)
  refine tidies_lift_bind fun key _ => tidies_onNull_bind fun m _ => tidies_get_bind ?_
  exact tidies_newPlain h rfl rfl

/-- The variables share a list or a map. -/
def Shares (s : Memory) (a b : ℕ) : Prop :=
  (∃ l ∈ (s.cell a).list, l ∈ (s.cell b).list) ∨ ∃ m ∈ (s.cell a).map, m ∈ (s.cell b).map

/-- What is to be put into a list or a map has nothing inside that shares it. -/
def Apart (s : Memory) (target value : Option Ref) : Prop :=
  ∀ a b, target = some (some a) → value = some (some b) →
    ∀ z, Shares s a z → ¬ ReflTransGen s.Inside z b

/-- The argument whose list or map is changed. -/
lemma exists_target (hv : argument (args.map s.deref) 0 = .ok v) :
    ∃ a, args[0]? = some (some a) ∧ v = s.cell a := by
  obtain ⟨r, hr, hv⟩ := argument_eq_ok hv
  obtain ⟨a, rfl, rfl⟩ := Option.map_eq_some_iff.mp hv
  exact ⟨a, hr, rfl⟩

lemma tidies_mapMapInsert (h : s.Tidy) (hargs : ∀ r ∈ args, s.HasRef r)
    (hapart : Apart s args[0]? args[2]?) :
    Tidies (fun r s' => s'.HasRef r) (mapMapInsert args) s := by
  refine tidies_read_bind (tidies_lift_bind fun _ _ => tidies_lift_bind fun v hv => ?_)
  refine tidies_lift_bind fun key _ => tidies_referenceAt_bind fun r hr => ?_
  refine tidies_onNull_bind fun m hm => tidies_get_bind ?_
  obtain ⟨a, ha, rfl⟩ := exists_target hv
  have hset : Tidies (fun _ _ => True) (setMap m ((s.map m).set key r)) s := by
    rintro _ _ ⟨⟩
    refine ⟨h.setMap (fun e he => ?_) fun e he y hy => ?_, ⟨le_rfl, le_rfl, by simp⟩, trivial⟩
    · rcases Map.mem_set he with rfl | he
      · exact hargs r (List.mem_of_getElem? hr)
      · exact h.map m e he
    · rcases Map.mem_set he with rfl | he
      · cases hy
        exact .inr fun z hz hshare => hapart a y ha hr z (.inr ⟨m, hm, hshare⟩) hz
      · exact .inl he
  exact hset.bind fun _ s' hs' _ _ => tidies_newPlain hs' rfl rfl

/-- A list gets new elements, one of which may be new. -/
lemma tidies_setList {a : ℕ} (h : s.Tidy) (hl : (s.cell a).list = some l)
    (ha : args[0]? = some (some a)) {i : ℕ} (hr : args[i]? = some r)
    (hargs : ∀ r ∈ args, s.HasRef r) (hapart : Apart s args[0]? args[i]?)
    (hrs : ∀ x ∈ rs, x = r ∨ x ∈ s.list l) :
    Tidies (fun _ _ => True) (setList l rs) s := by
  rintro _ _ ⟨⟩
  refine ⟨h.setList (fun x hx => ?_) fun y hy => ?_, ⟨le_rfl, by simp, le_rfl⟩, trivial⟩
  · rcases hrs x hx with rfl | hx
    · exact hargs x (List.mem_of_getElem? hr)
    · exact h.list l x hx
  · rcases hrs (some y) hy with rfl | hy
    · exact .inr fun z hz hshare => hapart a y ha hr z (.inl ⟨l, hl, hshare⟩) hz
    · exact .inl hy

lemma tidies_listAppend (h : s.Tidy) (hargs : ∀ r ∈ args, s.HasRef r)
    (hapart : Apart s args[0]? args[1]?) :
    Tidies (fun r s' => s'.HasRef r) (listAppend args) s := by
  refine tidies_read_bind (tidies_lift_bind fun _ _ => tidies_lift_bind fun v hv => ?_)
  refine tidies_referenceAt_bind fun r hr => tidies_onNull_bind fun l hl => tidies_get_bind ?_
  obtain ⟨a, ha, rfl⟩ := exists_target hv
  refine (tidies_setList h hl ha hr hargs hapart fun x hx => ?_).bind fun _ s' hs' _ _ =>
    tidies_newPlain hs' rfl rfl
  rcases List.mem_append.mp hx with hx | hx
  · exact .inr hx
  · exact .inl (List.mem_singleton.mp hx)

lemma tidies_listInsert (h : s.Tidy) (hargs : ∀ r ∈ args, s.HasRef r)
    (hapart : Apart s args[0]? args[2]?) :
    Tidies (fun r s' => s'.HasRef r) (listInsert args) s := by
  refine tidies_read_bind (tidies_lift_bind fun _ _ => tidies_lift_bind fun v hv => ?_)
  refine tidies_referenceAt_bind fun r hr => tidies_onNull_bind fun l hl => ?_
  refine tidies_lift_bind fun i _ => ?_
  obtain ⟨a, ha, rfl⟩ := exists_target hv
  cases i with
  | none => exact tidies_throw _
  | some i =>
    refine tidies_get_bind (tidies_placeIn_bind fun k _ => ?_)
    exact (tidies_setList h hl ha hr hargs hapart fun x hx =>
      List.eq_or_mem_of_mem_insertIdx hx).bind fun _ s' hs' _ _ => tidies_newPlain hs' rfl rfl

lemma tidies_listRemoveAt (h : s.Tidy) :
    Tidies (fun r s' => s'.HasRef r) (listRemoveAt args) s := by
  refine tidies_read_bind (tidies_lift_bind fun _ _ => tidies_lift_bind fun v _ => ?_)
  refine tidies_onNull_bind fun l _ => tidies_lift_bind fun i _ => ?_
  cases i with
  | none => exact tidies_throw _
  | some i =>
    refine tidies_get_bind (tidies_placeIn_bind fun k _ => ?_)
    have hset : Tidies (fun _ _ => True) (setList l ((s.list l).eraseIdx k)) s := by
      rintro _ _ ⟨⟩
      exact ⟨h.setList (fun x hx => h.list l x (List.mem_of_mem_eraseIdx hx)) fun y hy =>
        .inl (List.mem_of_mem_eraseIdx hy), ⟨le_rfl, by simp, le_rfl⟩, trivial⟩
    exact hset.bind fun _ s' hs' _ _ => tidies_newPlain hs' rfl rfl

/-! #### Requests -/

lemma tidies_headers_bind {f : Map (Option Units) (Option Units) → ScriptCall β}
    (hf : ∀ header, Tidies Q' (f header) s) : Tidies Q' (headers entries >>= f) s := by
  intro b s'' hrun
  obtain ⟨header, s', hheader, hb⟩ := Operation.bind_run_eq_ok.mp hrun
  obtain rfl : s' = s := by
    clear hb hrun
    induction entries generalizing header with
    | nil =>
      cases hheader
      rfl
    | cons e entries ih =>
      rw [headers] at hheader
      obtain ⟨v, _, hderef, hheader⟩ := Operation.bind_run_eq_ok.mp hheader
      obtain ⟨-, rfl⟩ := deref_run_eq_ok.mp hderef
      obtain ⟨_, _, htext, hheader⟩ := Operation.bind_run_eq_ok.mp hheader
      obtain ⟨-, rfl⟩ := Operation.lift_run_eq_ok.mp htext
      obtain ⟨rest, _, hrest, hret⟩ := Operation.bind_run_eq_ok.mp hheader
      cases hret
      exact ih rest hrest
  exact hf header b s'' hb

lemma tidies_request (P : ScriptPlatform) (h : s.Tidy) (address : Units)
    (header : Map (Option Units) (Option Units)) :
    Tidies (fun _ _ => True) (request P address header) s := by
  refine tidies_get_bind ?_
  cases P.get s.requests address header with
  | none => exact tidies_throw _
  | some body =>
    rintro _ _ ⟨⟩
    have hparts {v : RunVariable} (hv : s.HasParts v) :
        HasParts { s with requests := s.requests + 1 } v := ⟨hv.list, hv.map⟩
    exact ⟨⟨fun v hv => hparts (h.cells v hv), h.lists, h.maps, h.wf⟩, ⟨le_rfl, le_rfl, le_rfl⟩,
      trivial⟩

lemma tidies_httpDownload (P : ScriptPlatform) (h : s.Tidy) :
    Tidies (fun r s' => s'.HasRef r) (httpDownload P args) s := by
  have hget (header : Map (Option Units) (Option Units)) :
      Tidies (fun r s' => s'.HasRef r)
        ((liftM (textAt (args.map s.deref) 0) : ScriptCall (Option Units)) >>= fun text =>
          onNull text >>= fun address => request P address header >>= fun body =>
            newVariable (.fromString (some body))) s := by
    refine tidies_lift_bind fun text _ => tidies_onNull_bind fun address _ => ?_
    exact (tidies_request P h address header).bind fun body s' hs' _ _ =>
      tidies_newPlain hs' rfl rfl
  have hheader : Tidies (fun r s' => s'.HasRef r) (do
      let header ← if args.length = 1 then pure [] else do
        headers ((← get).map (← onNull (← (liftM (argument (args.map s.deref) 1) :
          ScriptCall _)).map))
      let body ← request P
        (← onNull (← (liftM (textAt (args.map s.deref) 0) : ScriptCall _))) header
      newVariable (.fromString (some body))) s := by
    refine tidies_ite (hget []) (tidies_get_bind (tidies_lift_bind fun v _ => ?_))
    exact tidies_onNull_bind fun m _ => tidies_headers_bind fun header => hget header
  refine tidies_read_bind (tidies_check (tidies_lift_bind fun _ _ => ?_))
  exact tidies_ite (tidies_lift_bind fun v _ => tidies_check hheader) hheader

end ScriptCall

end Violet
