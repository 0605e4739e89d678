import Violet.Search.HentaiManager
import Violet.Thread.Clients
import Violet.Transition.Run

/-!
# The search page

The search page shows the pages of its latest query that it has loaded so far. A load waits for the
page's semaphore, searches for the next page of the query that it finds, and appends the reply to
whatever the page has become by then. The rows on the page are the first pages of the query as long
as no reply comes back to a page that has moved on in the meantime. The semaphore keeps loads from
disturbing each other, so only a change of the query can.
-/

namespace Violet

open Dart Paging Thread Transition

variable {Row : Type}

/-! ### States -/

/-- Where a call of `loadNextQuery` stands. -/
inductive Load where
  | waiting
  /-- The future of `acquire` is complete. -/
  | granted
  /-- The search for this text and offset is under way. -/
  | searching (text : Str) (offset : ℤ)
  /-- The wait for the semaphore has timed out. -/
  | timedOut
  | done
  deriving DecidableEq, Repr

def Load.phase : Load → Phase
  | .waiting => .waiting
  | .granted | .searching .. => .holding
  | .timedOut => .left
  | .done => .out

/-- `latestQuery` pairs the text with the last page that has been loaded of it. -/
structure PageState (Row : Type) where
  /-- The first search of the page, without a text, is not answered yet. -/
  initialPending : Bool := true
  latestQuery : Option (Option (List Row × ℤ) × Str) := none
  queryResult : List Row := []
  queryEnd : Bool := false
  querySem : Semaphore := { maxCount := 1 }
  loads : List Load := []

def PageState.init : PageState Row := {}

inductive PageEvent where
  | initial
  /-- A query from the search bar, or from its double tap. -/
  | change (text : Str)
  /-- `loadNextQuery` is called at the end of the scroll view. -/
  | load
  | timeout (i : ℕ)
  /-- A load goes on with its permit. -/
  | resume (i : ℕ)
  | reply (i : ℕ)
  /-- The search of a load throws or times out. -/
  | fail (i : ℕ)
  deriving DecidableEq, Repr

/-! ### Steps -/

/-- The future that the load waits for is completed. -/
def Load.wake : Load → Load
  | .waiting => .granted
  | load => load

/-- The part of `loadNextQuery` up to the semaphore. -/
def PageState.loadNextQuery (s : PageState Row) : PageState Row :=
  let r := s.querySem.acquire s.loads.length
  { s with querySem := r.1, loads := s.loads ++ [if r.2 then .granted else .waiting] }

def PageState.change (s : PageState Row) (text : Str) : PageState Row :=
  loadNextQuery { s with latestQuery := some (none, text), queryResult := [], queryEnd := false }

/-- The `finally` of a load. -/
def PageState.finish (s : PageState Row) (i : ℕ) : PageState Row :=
  let r := s.querySem.release
  { s with querySem := r.1, loads := wakeUp Load.wake (s.loads.set i .done) r.2 }

/-- The offset of the page after the last one loaded. -/
def nextOffset (last : Option (List Row × ℤ)) : ℤ :=
  match last with
  | none => 0
  | some page => page.2

/-- The part of `loadNextQuery` between the semaphore and the search. Without a latest query it
throws. -/
def PageState.resume (s : PageState Row) (i : ℕ) : PageState Row :=
  if s.queryEnd then s.finish i
  else match s.latestQuery with
    | none => s.finish i
    | some (last, text) =>
      if last.any fun page => page.2 = -1 then s.finish i
      else { s with loads := s.loads.set i (.searching text (nextOffset last)) }

/-- The part of `loadNextQuery` after the search. -/
def PageState.append (s : PageState Row) (next : List Row × ℤ) : PageState Row :=
  match s.latestQuery with
  | none => s
  | some (_, text) =>
    let s := { s with latestQuery := some (some next, text) }
    if next.1.isEmpty then { s with queryEnd := true }
    else { s with queryResult := s.queryResult ++ next.1 }

variable (search : Str → ℤ → Option (List Row × ℤ))

def PageState.step (s : PageState Row) : PageEvent → Option (PageState Row)
  | .initial =>
    if s.initialPending then (search [] 0).map fun result =>
      { s with
        initialPending := false, latestQuery := some (some result, []), queryResult := result.1 }
    else none
  | .change text => some (s.change text)
  | .load => some s.loadNextQuery
  | .timeout i =>
    if s.loads[i]? = some .waiting then some { s with loads := s.loads.set i .timedOut } else none
  | .resume i => if s.loads[i]? = some .granted then some (s.resume i) else none
  | .reply i =>
    match s.loads[i]? with
    | some (.searching text offset) =>
      (search text offset).map fun next => (s.append next).finish i
    | _ => none
  | .fail i =>
    match s.loads[i]? with
    | some (.searching ..) => some (s.finish i)
    | _ => none

/-! ### What the page shows -/

/-- The rows are those of the first pages of the text, each once and in order, and `last` is the
last of these pages. -/
inductive Shows (text : Str) : Option (List Row × ℤ) → List Row → Prop where
  | start : Shows text none []
  | next {last : Option (List Row × ℤ)} {rows : List Row} {page : List Row × ℤ}
      (h : Shows text last rows) (hopen : nextOffset last ≠ -1)
      (hpage : search text (nextOffset last) = some page) :
      Shows text (some page) (rows ++ page.1)

/-- The rows on the page are the first pages of the latest query. -/
def PageState.Consistent (s : PageState Row) : Prop :=
  match s.latestQuery with
  | none => s.queryResult = []
  | some (last, text) => Shows search text last s.queryResult

/-- No load is pending. -/
def PageState.Quiet (s : PageState Row) : Prop :=
  ∀ load ∈ s.loads, load = .done ∨ load = .timedOut

/-- A reply comes back to the text and the offset that it was asked for. -/
def RepliesToLatest (s : PageState Row) : PageEvent → Prop
  | .reply i => ∀ text offset, s.loads[i]? = some (.searching text offset) →
      ∃ last, s.latestQuery = some (last, text) ∧ nextOffset last = offset
  | _ => True

/-- The query does not change while a search is under way. -/
def Undisturbed (s : PageState Row) : PageEvent → Prop
  | .initial | .change _ => ∀ text offset, .searching text offset ∉ s.loads
  | _ => True

variable {search} {s t : PageState Row} {e : PageEvent} {text : Str} {offset : ℤ}
  {last : Option (List Row × ℤ)} {rows all : List Row} {loads : List Load} {i j : ℕ}

/-- What the page shows is the beginning of all results of the text. -/
lemma Shows.exists_rest (h : Shows search text last rows) (hall : Collects (search text) 0 all) :
    ∃ rest, all = rows ++ rest ∧
      (nextOffset last ≠ -1 → Collects (search text) (nextOffset last) rest) := by
  induction h with
  | start => exact ⟨all, rfl, fun _ => hall⟩
  | next _ hopen hpage ih =>
    obtain ⟨rest, rfl, hrest⟩ := ih
    obtain ⟨fuel, hfuel⟩ := hrest hopen
    cases fuel with
    | zero => cases hfuel
    | succ fuel =>
      rw [follow, hpage, Option.bind_some] at hfuel
      split_ifs at hfuel with hend
      · cases hfuel
        exact ⟨[], by simp, fun hno => absurd hend hno⟩
      · obtain ⟨rest', hrest', rfl⟩ := Option.map_eq_some_iff.mp hfuel
        exact ⟨rest', by simp, fun _ => ⟨fuel, hrest'⟩⟩

lemma Shows.exists_offset {page : List Row × ℤ} (h : Shows search text (some page) rows) :
    ∃ offset, search text offset = some page := by
  cases h with
  | next _ _ hpage => exact ⟨_, hpage⟩

/-! ### Searches under way -/

lemma mem_of_mem_wakeUp {woken : Option ℕ}
    (h : .searching text offset ∈ wakeUp Load.wake loads woken) :
    .searching text offset ∈ loads := by
  rcases mem_wakeUp h with h | ⟨load, hload, heq⟩
  · exact h
  · cases load <;> cases heq
    exact hload

lemma mem_loads_of_finish (h : .searching text offset ∈ (s.finish i).loads) :
    .searching text offset ∈ s.loads :=
  (List.mem_or_eq_of_mem_set (mem_of_mem_wakeUp h)).resolve_right nofun

lemma mem_loads_of_loadNextQuery (h : .searching text offset ∈ s.loadNextQuery.loads) :
    .searching text offset ∈ s.loads := by
  rcases List.mem_append.mp h with h | h
  · exact h
  · rw [List.mem_singleton] at h
    split_ifs at h

/-- A load that goes on with its permit searches for the next page, when there is one. -/
lemma PageState.resume_cases (s : PageState Row) (i : ℕ) : s.resume i = s.finish i ∨
    ∃ last text, s.latestQuery = some (last, text) ∧ nextOffset last ≠ -1 ∧
      s.resume i = { s with loads := s.loads.set i (.searching text (nextOffset last)) } := by
  unfold resume
  split_ifs with hend
  · exact .inl rfl
  · split
    · exact .inl rfl
    · rename_i last text hlatest
      split_ifs with hlast
      · exact .inl rfl
      · refine .inr ⟨last, text, hlatest, ?_, rfl⟩
        cases last with
        | none => simp [nextOffset]
        | some page => simpa [nextOffset] using hlast

lemma PageState.append_eq {next : List Row × ℤ} (h : s.latestQuery = some (last, text)) :
    s.append next =
      { s with
        latestQuery := some (some next, text)
        queryEnd := next.1.isEmpty || s.queryEnd
        queryResult := s.queryResult ++ next.1 } := by
  unfold append
  rw [h]
  obtain ⟨items, offset⟩ := next
  cases items <;> simp

lemma PageState.step_reply (hs : s.step search (.reply i) = some t) :
    ∃ text offset next, s.loads[i]? = some (.searching text offset) ∧
      search text offset = some next ∧ t = (s.append next).finish i := by
  simp only [step] at hs
  split at hs
  · rename_i text offset hi
    obtain ⟨next, hnext, rfl⟩ := Option.map_eq_some_iff.mp hs
    exact ⟨text, offset, next, hi, hnext, rfl⟩
  · cases hs

lemma PageState.step_reply_eq (hi : s.loads[i]? = some (.searching text offset)) :
    s.step search (.reply i) =
      (search text offset).map fun next => (s.append next).finish i := by
  simp only [step, hi]

lemma PageState.step_fail (hs : s.step search (.fail i) = some t) :
    (∃ text offset, s.loads[i]? = some (.searching text offset)) ∧ t = s.finish i := by
  simp only [step] at hs
  split at hs
  · rename_i text offset hi
    cases hs
    exact ⟨⟨text, offset, hi⟩, rfl⟩
  · cases hs

lemma PageState.loads_append (s : PageState Row) (next : List Row × ℤ) :
    (s.append next).loads = s.loads := by
  unfold append
  split
  · rfl
  · split_ifs <;> rfl

/-- A step starts a search for the next page of the latest query only. -/
lemma PageState.step_searching (hs : s.step search e = some t)
    (h : .searching text offset ∈ t.loads) :
    .searching text offset ∈ s.loads ∨
      (∃ i, e = .resume i) ∧ t.latestQuery = s.latestQuery ∧
        ∃ last, s.latestQuery = some (last, text) ∧ nextOffset last = offset ∧ offset ≠ -1 := by
  cases e with
  | initial =>
    obtain ⟨-, hs⟩ := Option.ite_none_right_eq_some.mp hs
    obtain ⟨result, -, rfl⟩ := Option.map_eq_some_iff.mp hs
    exact .inl h
  | change text' =>
    cases hs
    exact .inl (mem_loads_of_loadNextQuery h)
  | load =>
    cases hs
    exact .inl (mem_loads_of_loadNextQuery h)
  | timeout i =>
    obtain ⟨-, hs⟩ := Option.ite_none_right_eq_some.mp hs
    cases hs
    exact .inl ((List.mem_or_eq_of_mem_set h).resolve_right nofun)
  | resume i =>
    obtain ⟨-, hs⟩ := Option.ite_none_right_eq_some.mp hs
    cases hs
    rcases s.resume_cases i with heq | ⟨last, text', hlatest, hne, heq⟩
    · exact .inl (mem_loads_of_finish (heq ▸ h))
    · rw [heq] at h ⊢
      refine (List.mem_or_eq_of_mem_set h).imp_right fun hload => ?_
      cases hload
      exact ⟨⟨i, rfl⟩, rfl, last, hlatest, rfl, hne⟩
  | reply i =>
    obtain ⟨_, _, next, -, -, rfl⟩ := step_reply hs
    exact .inl (s.loads_append next ▸ mem_loads_of_finish h)
  | fail i =>
    obtain ⟨-, rfl⟩ := step_fail hs
    exact .inl (mem_loads_of_finish h)

/-! ### Replies to the latest query -/

/-- No search for a page after the last one is under way. -/
def PageState.Issued (s : PageState Row) : Prop :=
  ∀ text offset, .searching text offset ∈ s.loads → offset ≠ -1

lemma PageState.step_issued (h : s.Issued) (hs : s.step search e = some t) : t.Issued := by
  intro text offset hmem
  rcases step_searching hs hmem with hmem | ⟨_, _, -, -, -, hne⟩
  · exact h text offset hmem
  · exact hne

lemma PageState.step_consistent (hi : s.Issued) (h : s.Consistent search)
    (hg : RepliesToLatest s e) (hs : s.step search e = some t) : t.Consistent search := by
  cases e with
  | initial =>
    obtain ⟨-, hs⟩ := Option.ite_none_right_eq_some.mp hs
    obtain ⟨result, hresult, rfl⟩ := Option.map_eq_some_iff.mp hs
    exact Shows.next (.start) (by simp [nextOffset]) hresult
  | change text =>
    cases hs
    exact Shows.start
  | load =>
    cases hs
    exact h
  | timeout i =>
    obtain ⟨-, hs⟩ := Option.ite_none_right_eq_some.mp hs
    cases hs
    exact h
  | resume i =>
    obtain ⟨-, hs⟩ := Option.ite_none_right_eq_some.mp hs
    cases hs
    rcases s.resume_cases i with heq | ⟨_, _, -, -, heq⟩ <;> rw [heq] <;> exact h
  | reply i =>
    obtain ⟨text, offset, next, hload, hnext, rfl⟩ := step_reply hs
    obtain ⟨last, hlatest, rfl⟩ := hg text offset hload
    rw [Consistent, hlatest] at h
    rw [append_eq hlatest]
    exact h.next (hi _ _ (List.mem_of_getElem? hload)) hnext
  | fail i =>
    obtain ⟨-, rfl⟩ := step_fail hs
    exact h

/-- As long as every reply comes back to the query that it was asked for, the rows on the page are
the first pages of the latest query. -/
lemma PageState.consistent_of_reaches (h : Reaches (step search) RepliesToLatest init s) :
    s.Consistent search :=
  (h.invariant (P := fun s => s.Issued ∧ s.Consistent search) ⟨nofun, rfl⟩
    fun _ _ _ ht hg hs => ⟨step_issued ht.1 hs, step_consistent ht.1 ht.2 hg hs⟩).2

/-- They are the beginning of all its results. -/
lemma PageState.prefix_of_reaches (h : Reaches (step search) RepliesToLatest init s)
    (hlatest : s.latestQuery = some (last, text)) (hall : Collects (search text) 0 all) :
    s.queryResult <+: all := by
  have hshows := consistent_of_reaches h
  rw [Consistent, hlatest] at hshows
  obtain ⟨rest, rfl, -⟩ := hshows.exists_rest hall
  exact List.prefix_append _ _

/-- The pages of the latest query are shown each once and in order in every run in which no reply
comes back to a page that has moved on. -/
theorem PageState.consistent_of_repliesToLatest {Seed : Type} (engine : Engine Seed)
    (table : Table) (settings : Settings) (s : PageState Sql.Env)
    (h : Reaches (step (Violet.search engine table settings)) RepliesToLatest init s) :
    s.Consistent (Violet.search engine table settings) ∧
      ∀ last text all, s.latestQuery = some (last, text) →
        Collects (Violet.search engine table settings text) 0 all → s.queryResult <+: all :=
  ⟨consistent_of_reaches h, fun _ _ _ hlatest hall => prefix_of_reaches h hlatest hall⟩

/-- The rows on the page are then different articles, all of which the text finds. -/
theorem PageState.nodup_of_repliesToLatest {Seed : Type} {engine : Engine Seed} {table : Table}
    {settings : Settings} {s : PageState Sql.Env} {last : Option (List Sql.Env × ℤ)}
    {p : Sql.Env → Bool}
    (h : Reaches (step (Violet.search engine table settings)) RepliesToLatest init s)
    (hlatest : s.latestQuery = some (last, text)) (hoff : settings.searchNetwork = false)
    (hn : intTryParse text = none) (hv : searchCondition engine settings text = some p)
    (hclosed : Sql.Closed (searchStatement settings text)) :
    s.queryResult.Nodup ∧ ∀ row ∈ s.queryResult, finds engine settings text row = true := by
  obtain ⟨rows, hrows, hperm⟩ := collects_search hoff hn hv hclosed table
  have hbegin := prefix_of_reaches h hlatest hrows
  have hnodup : (table.rows.filter (finds engine settings text)).Nodup :=
    table.nodup_ids.of_map.filter _
  refine ⟨(hperm.nodup_iff.mpr hnodup).sublist hbegin.sublist, fun row hrow => ?_⟩
  exact (List.mem_filter.mp (hperm.mem_iff.mp (hbegin.subset hrow))).2

/-- The articles 1 and 2. -/
def twoArticles : Table := ⟨[fun _ => .int 1, fun _ => .int 2], by decide⟩

lemma search_one (offset : ℤ) : Violet.search sampleEngine twoArticles sampleSettings "1".toList
    offset = some ([fun _ => .int 1], -1) := by
  rw [search_of_number (n := 1) (by decide) rfl]
  rfl

lemma search_two (offset : ℤ) : Violet.search sampleEngine twoArticles sampleSettings "2".toList
    offset = some ([fun _ => .int 2], -1) := by
  rw [search_of_number (n := 2) (by decide) rfl]
  rfl

theorem PageState.consistent_of_repliesToLatest_one :
    Shows (Violet.search sampleEngine twoArticles sampleSettings) "1".toList
      (some ([fun _ => .int 1], -1)) [fun _ => .int 1] := by
  let asked : PageState Sql.Env := (init.change "1".toList).resume 0
  have hasked : Reaches (step (Violet.search sampleEngine twoArticles sampleSettings))
      RepliesToLatest init asked :=
    .tail (.tail .refl (e := .change "1".toList) trivial rfl) (e := .resume 0) trivial rfl
  have hreply : asked.step (Violet.search sampleEngine twoArticles sampleSettings) (.reply 0) =
      some ((asked.append ([fun _ => .int 1], -1)).finish 0) := by
    have hload : asked.loads[0]? = some (.searching "1".toList 0) := rfl
    rw [step_reply_eq hload, search_one, Option.map_some]
  have hg : RepliesToLatest asked (.reply 0) := by
    intro text offset hi
    cases hi
    exact ⟨none, rfl, rfl⟩
  exact (consistent_of_repliesToLatest _ _ _ _ (hasked.tail hg hreply)).1

/-- The reply to the search for article 1 comes back to a page that has moved on to article 2. -/
theorem PageState.not_consistent_of_change :
    ¬ ∀ s, Reaches (step (Violet.search sampleEngine twoArticles sampleSettings)) anyEvent init s →
      s.Quiet → s.Consistent (Violet.search sampleEngine twoArticles sampleSettings) := by
  intro h
  let page : List Sql.Env × ℤ := ([fun _ => .int 1], -1)
  let asked : PageState Sql.Env := ((init.change "1".toList).resume 0).change "2".toList
  let late : PageState Sql.Env := ⟨true, some (some page, "2".toList), page.1, false,
    { maxCount := 1 }, [.done, .done]⟩
  have hasked : Reaches (step (Violet.search sampleEngine twoArticles sampleSettings)) anyEvent
      init asked :=
    .tail (.tail (.tail .refl (e := .change "1".toList) trivial rfl) (e := .resume 0) trivial rfl)
      (e := .change "2".toList) trivial rfl
  have hreply : asked.step (Violet.search sampleEngine twoArticles sampleSettings) (.reply 0) =
      some ((asked.append page).finish 0) := by
    have hload : asked.loads[0]? = some (.searching "1".toList 0) := rfl
    rw [step_reply_eq hload, search_one, Option.map_some]
  have hlate := h late (.tail (.tail hasked trivial hreply) (e := .resume 1) trivial rfl)
    (by simp [Quiet, late])
  obtain ⟨offset, hpage⟩ := Shows.exists_offset hlate
  rw [search_two] at hpage
  have hid := congrArg (fun page => page.1.map fun row => row idColumn) (Option.some.inj hpage)
  exact absurd hid (by decide)

/-! ### Loads do not disturb each other -/

lemma Load.phase_wake (load : Load) :
    load.wake.phase = if load.phase = .waiting then .holding else load.phase := by
  cases load <;> rfl

/-- The accounts of the semaphore balance. -/
def PageState.Balanced (s : PageState Row) : Prop :=
  s.querySem.maxCount = 1 ∧ ∃ lost, Accounts s.querySem (s.loads.map Load.phase) lost

lemma PageState.Balanced.loadNextQuery (h : s.Balanced) : s.loadNextQuery.Balanced := by
  obtain ⟨hmax, lost, hacc⟩ := h
  refine ⟨by simp [PageState.loadNextQuery, hmax], lost, ?_⟩
  have hacc := hacc.acquire
  rw [List.length_map] at hacc
  simp only [PageState.loadNextQuery, List.map_append, List.map_cons, List.map_nil]
  split_ifs at hacc ⊢ <;> exact hacc

lemma PageState.Balanced.finish {load : Load} (h : s.Balanced) (hi : s.loads[i]? = some load)
    (hload : load.phase = .holding) : (s.finish i).Balanced := by
  obtain ⟨hmax, lost, hacc⟩ := h
  have hi' : (s.loads.map Load.phase)[i]? = some .holding := by
    rw [List.getElem?_map, hi, Option.map_some, hload]
  refine ⟨by simp [PageState.finish, hmax], ?_⟩
  simp only [PageState.finish, map_wakeUp Load.phase_wake, List.map_set]
  rcases hacc.release hi' with ⟨-, hacc⟩ | ⟨-, hacc⟩
  · exact ⟨lost, hacc⟩
  · exact ⟨lost + 1, hacc⟩

/-- A load goes on without a word to the semaphore. -/
lemma PageState.Balanced.set {load load' : Load} (h : s.Balanced) (hi : s.loads[i]? = some load)
    (hload : load'.phase = load.phase) :
    PageState.Balanced { s with loads := s.loads.set i load' } := by
  obtain ⟨hlen, rfl⟩ := List.getElem?_eq_some_iff.mp hi
  have hmap : (s.loads.set i load').map Load.phase = s.loads.map Load.phase := by
    rw [List.map_set, hload, ← List.map_set, List.set_getElem_self]
  rw [Balanced, hmap]
  exact h

lemma PageState.Balanced.append (h : s.Balanced) (next : List Row × ℤ) :
    (s.append next).Balanced := by
  unfold PageState.append
  split
  · exact h
  · split_ifs <;> exact h

lemma PageState.step_balanced (h : s.Balanced) (hs : s.step search e = some t) : t.Balanced := by
  cases e with
  | initial =>
    obtain ⟨-, hs⟩ := Option.ite_none_right_eq_some.mp hs
    obtain ⟨result, -, rfl⟩ := Option.map_eq_some_iff.mp hs
    exact h
  | change text =>
    cases hs
    exact Balanced.loadNextQuery h
  | load =>
    cases hs
    exact h.loadNextQuery
  | timeout i =>
    obtain ⟨hi, hs⟩ := Option.ite_none_right_eq_some.mp hs
    cases hs
    obtain ⟨hmax, lost, hacc⟩ := h
    refine ⟨hmax, lost, ?_⟩
    rw [List.map_set]
    exact hacc.leave (by rw [List.getElem?_map, hi]; rfl)
  | resume i =>
    obtain ⟨hi, hs⟩ := Option.ite_none_right_eq_some.mp hs
    cases hs
    rcases s.resume_cases i with heq | ⟨_, _, -, -, heq⟩ <;> rw [heq]
    · exact h.finish hi rfl
    · exact h.set hi rfl
  | reply i =>
    obtain ⟨_, _, next, hi, -, rfl⟩ := step_reply hs
    exact (h.append next).finish (s.loads_append next ▸ hi) rfl
  | fail i =>
    obtain ⟨⟨_, _, hi⟩, rfl⟩ := step_fail hs
    exact h.finish hi rfl

/-- At most one load holds the permit of the page. -/
lemma PageState.Balanced.eq_of_holding {load load' : Load} (h : s.Balanced)
    (hi : s.loads[i]? = some load) (hload : load.phase = .holding)
    (hj : s.loads[j]? = some load') (hload' : load'.phase = .holding) : i = j := by
  obtain ⟨hmax, lost, hacc⟩ := h
  refine hacc.eq_of_holding hmax.le ?_ ?_
  · rw [List.getElem?_map, hi, Option.map_some, hload]
  · rw [List.getElem?_map, hj, Option.map_some, hload']

/-- The search under way is for the next page of the latest query. -/
def PageState.UpToDate (s : PageState Row) : Prop :=
  ∀ text offset, .searching text offset ∈ s.loads →
    ∃ last, s.latestQuery = some (last, text) ∧ nextOffset last = offset

lemma PageState.repliesToLatest (h : s.UpToDate) (e : PageEvent) : RepliesToLatest s e := by
  cases e with
  | reply i => exact fun text offset hi => h text offset (List.mem_of_getElem? hi)
  | _ => trivial

/-- After a reply, no search is under way. -/
lemma PageState.Balanced.notMem_of_reply (h : s.Balanced) (hs : s.step search (.reply i) = some t) :
    .searching text offset ∉ t.loads := by
  obtain ⟨_, _, next, hi, -, rfl⟩ := step_reply hs
  intro hmem
  have hmem' := mem_of_mem_wakeUp hmem
  rw [s.loads_append] at hmem'
  obtain ⟨j, hj⟩ := List.mem_iff_getElem?.mp hmem'
  rw [getElem?_set_iff (List.getElem?_eq_some_iff.mp hi).1] at hj
  split_ifs at hj with hji
  exact hji (h.eq_of_holding hj rfl hi rfl)

lemma PageState.step_upToDate (hb : s.Balanced) (h : s.UpToDate) (hg : Undisturbed s e)
    (hs : s.step search e = some t) : t.UpToDate := by
  intro text offset hmem
  rcases step_searching hs hmem with hold | ⟨-, heq, hlatest⟩
  · have hlatest := h text offset hold
    cases e with
    | initial => exact absurd hold (hg text offset)
    | change => exact absurd hold (hg text offset)
    | reply i => exact absurd hmem (hb.notMem_of_reply hs)
    | load =>
      cases hs
      exact hlatest
    | timeout i =>
      obtain ⟨-, hs⟩ := Option.ite_none_right_eq_some.mp hs
      cases hs
      exact hlatest
    | resume i =>
      obtain ⟨-, hs⟩ := Option.ite_none_right_eq_some.mp hs
      cases hs
      rcases s.resume_cases i with heq | ⟨_, _, -, -, heq⟩ <;> rw [heq] <;> exact hlatest
    | fail i =>
      obtain ⟨-, rfl⟩ := step_fail hs
      exact hlatest
  · obtain ⟨last, hlatest, hoffset, -⟩ := hlatest
    exact ⟨last, heq.trans hlatest, hoffset⟩

/-- When the query does not change while a search is under way, every reply comes back to the query
that it was asked for, whatever the loads do. -/
theorem PageState.reaches_of_undisturbed (h : Reaches (step search) Undisturbed init s) :
    Reaches (step search) RepliesToLatest init s := by
  have hinv : s.Balanced ∧ s.UpToDate ∧ Reaches (step search) RepliesToLatest init s := by
    induction h with
    | refl => exact ⟨⟨rfl, 0, accounts_nil 1⟩, nofun, .refl⟩
    | @tail t u e _ hg hs ih =>
      obtain ⟨hb, hup, hreach⟩ := ih
      exact ⟨step_balanced hb hs, step_upToDate hb hup hg hs,
        hreach.tail (repliesToLatest hup e) hs⟩
  exact hinv.2.2

end Violet
