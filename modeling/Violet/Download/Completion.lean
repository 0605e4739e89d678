import Mathlib.Data.List.Range
import Mathlib.Data.List.Nodup
import Mathlib.Data.List.Perm.Subperm
import Violet.Download.DownloadRoutine

/-!
# Complete downloads

The routines of a widget count the reports of their tasks together. As long as only one of them has
ever got tasks, the count is the number of its reports, so the item is complete only when all its
tasks have been reported.
-/

open Dart Transition

namespace DownloadRoutine

/-- The order of the steps. -/
def Point.rank : Point → ℕ
  | .checkValidState => 0
  | .checkValidUrl => 1
  | .selectExtractor => 2
  | .setToStop => 3
  | .checkLoginRequire => 4
  | .createTasks => 5
  | .checkNothingToDownload => 6
  | .extractFilePath => 7
  | .appendDownloadTasks => 8
  | .setDownloading => 9
  | .waitForComplete => 10
  | .finished => 11

namespace Run

variable {run run' : Run} {xs : Extractors} {itemState total total' downloaded : ℕ}
  {download : Bool}

def taskCount (run : Run) : ℕ := (run.tasks.getD []).length

/-- The routine has got a list of tasks that is not empty. -/
def HasTasks (run : Run) : Prop := 0 < run.taskCount

/-- All tasks of the routine have been completed or have failed. -/
def AllReported (run : Run) : Prop := ∀ i < run.taskCount, i ∈ run.reported

/-- What holds of a routine at all times. -/
structure Ok (run : Run) : Prop where
  nodup : run.reported.Nodup
  lt : ∀ i ∈ run.reported, i < run.taskCount
  early : run.point.rank ≤ 5 → run.tasks = none
  appended : run.appended = true → 9 ≤ run.point.rank
  stocked : run.appended = true → run.HasTasks
  reported : run.reported ≠ [] → run.appended = true
  passed : 7 ≤ run.point.rank → run.point.rank ≤ 10 → run.HasTasks
  state : 3 ≤ run.point.rank → run.point.rank ≤ 10 → run.result.state ≠ 0
  saving : run.saving = true → run.result.state = 0 → run.HasTasks ∧ run.AllReported

/-- A routine that has failed, or has nothing to download. -/
def Idle (run : Run) : Prop :=
  run.result.state ≠ 0 ∧
    (run.point = .checkNothingToDownload ∧ run.tasks = none ∨ run.point = .finished)

/-- As many different reports as tasks are reports of all tasks. -/
lemma allReported_of_length (h : run.Ok) (hlen : run.reported.length = run.taskCount) :
    run.AllReported := by
  intro i hi
  have hsub : run.reported ⊆ List.range run.taskCount := fun j hj =>
    List.mem_range.mpr (h.lt j hj)
  have hperm : run.reported.Perm (List.range run.taskCount) :=
    (h.nodup.subperm hsub).perm_of_length_le (by rw [List.length_range, hlen])
  exact hperm.mem_iff.mpr (List.mem_range.mpr hi)

lemma length_le (h : run.Ok) : run.reported.length ≤ run.taskCount := by
  have hsub : run.reported ⊆ List.range run.taskCount := fun j hj =>
    List.mem_range.mpr (h.lt j hj)
  simpa using (h.nodup.subperm hsub).length_le

/-- A routine goes on to a later step, with the same tasks and reports. -/
structure Advances (run run' : Run) : Prop where
  ok : run'.Ok
  taskCount : run'.taskCount = run.taskCount
  reported : run'.reported = run.reported
  rank : run'.HasTasks → 7 ≤ run'.point.rank → 7 ≤ run.point.rank
  idle : run.Idle → run'.Idle

lemma taskCount_eq (h : run'.tasks = run.tasks) : run'.taskCount = run.taskCount := by
  rw [taskCount, taskCount, h]

/-- A step that keeps tasks, reports and what has been appended. -/
lemma Ok.move (h : run.Ok) (htasks : run'.tasks = run.tasks)
    (hreported : run'.reported = run.reported) (happended : run'.appended = run.appended)
    (hrank : run.point.rank ≤ run'.point.rank)
    (hpassed : 7 ≤ run'.point.rank → run'.point.rank ≤ 10 → run.HasTasks)
    (hstate : 3 ≤ run'.point.rank → run'.point.rank ≤ 10 → run'.result.state ≠ 0)
    (hsaving : run'.saving = true → run'.result.state = 0 → run.HasTasks ∧ run.AllReported) :
    run'.Ok := by
  have hcount := taskCount_eq htasks
  constructor
  · exact hreported ▸ h.nodup
  · rw [hreported, hcount]
    exact h.lt
  · intro hle
    rw [htasks]
    exact h.early (by omega)
  · intro happ
    have hle := h.appended (happended ▸ happ)
    omega
  · rw [HasTasks, hcount, happended]
    exact h.stocked
  · rw [hreported, happended]
    exact h.reported
  · rw [HasTasks, hcount]
    exact hpassed
  · exact hstate
  · rw [HasTasks, AllReported, hcount, hreported]
    exact hsaving

/-- The routine goes on to a step that it takes with the same tasks. -/
lemma Ok.advance (h : run.Ok) (next : Point) (hnext : run'.point = next)
    (htasks : run'.tasks = run.tasks) (hreported : run'.reported = run.reported)
    (happended : run'.appended = run.appended) (hrank : run.point.rank ≤ next.rank)
    (hpassed : 7 ≤ next.rank → run.HasTasks → 7 ≤ run.point.rank)
    (hhas : 7 ≤ next.rank → next.rank ≤ 10 → run.HasTasks)
    (hstate : 3 ≤ next.rank → next.rank ≤ 10 → run'.result.state ≠ 0)
    (hsaving : run'.saving = true → run'.result.state = 0 → run.HasTasks ∧ run.AllReported)
    (hidle : run.Idle → run'.Idle) : Advances run run' := by
  subst hnext
  have hcount := taskCount_eq htasks
  refine ⟨h.move htasks hreported happended hrank hhas hstate hsaving, hcount, hreported, ?_, hidle⟩
  intro hhas' hle
  exact hpassed hle (by rwa [HasTasks, hcount] at hhas')

lemma not_hasTasks_of_early (h : run.Ok) (hrank : run.point.rank ≤ 5) : ¬ run.HasTasks := by
  rw [HasTasks, taskCount, h.early hrank]
  exact Nat.not_lt_zero 0

lemma not_idle (h : run.point ≠ .checkNothingToDownload) (h' : run.point ≠ .finished) :
    ¬ run.Idle := by
  rintro ⟨-, ⟨hpoint, -⟩ | hpoint⟩
  · exact h hpoint
  · exact h' hpoint

/-- Before the tasks are created a routine goes on, or ends with an error. -/
lemma advance_early (h : run.Ok) (hearly : run.point.rank ≤ 5) (next : Point)
    (hnext : run'.point = next) (htasks : run'.tasks = run.tasks)
    (hreported : run'.reported = run.reported) (happended : run'.appended = run.appended)
    (hrank : run.point.rank ≤ next.rank ∧ next.rank ≤ 5 ∨ next = .finished)
    (hstate : 3 ≤ next.rank → next.rank ≤ 10 → run'.result.state ≠ 0)
    (hsaving : run'.saving = true → run'.result.state ≠ 0) : Advances run run' := by
  have hno := not_hasTasks_of_early h hearly
  have hidle : ¬ run.Idle := by
    refine not_idle ?_ ?_ <;> intro hpoint <;> rw [hpoint] at hearly <;>
      exact absurd hearly (by decide)
  have hle : run.point.rank ≤ next.rank := by
    rcases hrank with hle | rfl
    · exact hle.1
    · exact hearly.trans (by decide)
  have hlate : 7 ≤ next.rank → next.rank ≤ 10 → False := by
    intro hge hle
    rcases hrank with hle' | rfl
    · omega
    · exact absurd hle (by decide)
  exact h.advance next hnext htasks hreported happended hle (fun _ hhas => absurd hhas hno)
    (fun hge hle => (hlate hge hle).elim) hstate (fun hs h0 => absurd h0 (hsaving hs))
    fun hi => absurd hi hidle

lemma goTo_early (h : run.Ok) (hearly : run.point.rank ≤ 5) (hsaving : run.saving = false)
    {next : Point}
    (hnext : run.point.rank ≤ next.rank ∧ next.rank ≤ 5 ∨ next = .finished)
    (hstate : 3 ≤ next.rank → next.rank ≤ 10 → 3 ≤ run.point.rank) :
    Advances run (run.goTo next) := by
  refine advance_early h hearly next rfl rfl rfl rfl hnext (fun hge hle => ?_) fun hs => ?_
  · exact h.state (hstate hge hle) (by omega)
  · exact absurd (hsaving.symm.trans hs) Bool.false_ne_true

lemma setState_early (h : run.Ok) (hearly : run.point.rank ≤ 5) {state : ℕ} (hstate : state ≠ 0)
    {next : Point} (hnext : run.point.rank ≤ next.rank ∧ next.rank ≤ 5 ∨ next = .finished) :
    Advances run (run.setState state next) :=
  advance_early h hearly next rfl rfl rfl rfl hnext (fun _ _ => hstate) fun _ => hstate

/-- Up to the login. -/
lemma proceed_early (h : run.Ok) (hearly : run.point.rank ≤ 4) (hsaving : run.saving = false)
    (hstep : run.proceed xs itemState download total downloaded = some (run', total')) :
    Advances run run' ∧ total' = total := by
  have hle : run.point.rank ≤ 5 := hearly.trans (by decide)
  rw [proceed] at hstep
  cases hpoint : run.point with
  | checkValidState =>
    simp only [hpoint] at hstep
    split_ifs at hstep <;> cases hstep
    · exact ⟨setState_early h hle (by decide) (.inr rfl), rfl⟩
    · exact ⟨goTo_early h hle hsaving (.inr rfl) (fun _ h => absurd h (by decide)), rfl⟩
    · refine ⟨goTo_early h hle hsaving (.inl ?_) (fun h _ => absurd h (by decide)), rfl⟩
      rw [hpoint]
      decide
  | checkValidUrl =>
    simp only [hpoint] at hstep
    split_ifs at hstep <;> cases hstep
    · exact ⟨setState_early h hle (by decide) (.inr rfl), rfl⟩
    · refine ⟨goTo_early h hle hsaving (.inl ?_) (fun h _ => absurd h (by decide)), rfl⟩
      rw [hpoint]
      decide
  | selectExtractor =>
    simp only [hpoint] at hstep
    obtain ⟨extractor, -, hrun⟩ := Option.map_eq_some_iff.mp hstep
    cases hrun
    refine ⟨advance_early h hle .setToStop rfl rfl rfl rfl (.inl ?_)
      (fun _ _ => Nat.succ_ne_zero 1) fun _ => Nat.succ_ne_zero 1, rfl⟩
    rw [hpoint]
    decide
  | setToStop =>
    simp only [hpoint] at hstep
    split_ifs at hstep <;> cases hstep
    · refine ⟨goTo_early h hle hsaving (.inl ?_) (fun _ _ => ?_), rfl⟩ <;> rw [hpoint] <;> decide
    · exact ⟨setState_early h hle (by decide) (.inr rfl), rfl⟩
  | checkLoginRequire =>
    simp only [hpoint] at hstep
    cases hstep
  | createTasks | checkNothingToDownload | extractFilePath | appendDownloadTasks | setDownloading
    | waitForComplete | finished =>
    rw [hpoint] at hearly
    exact absurd hearly (by decide)

lemma login_advances (h : run.Ok) (hsaving : run.saving = false) {logined tryLogin : Bool}
    (hstep : run.login xs logined tryLogin = some run') : Advances run run' := by
  rw [login] at hstep
  cases hpoint : run.point <;> simp only [hpoint] at hstep <;> try cases hstep
  have hle : run.point.rank ≤ 5 := by rw [hpoint]; decide
  obtain ⟨extractor, -, rfl⟩ := Option.map_eq_some_iff.mp hstep
  split_ifs
  · exact setState_early h hle (by decide) (.inr rfl)
  · refine goTo_early h hle hsaving (.inl ?_) (fun _ _ => ?_) <;> rw [hpoint] <;> decide

/-- With its tasks a routine goes on until they have all been reported. -/
lemma advance_late (h : run.Ok) (hge : 7 ≤ run.point.rank) (hle : run.point.rank ≤ 10)
    (next : Point) (hnext : run'.point = next) (htasks : run'.tasks = run.tasks)
    (hreported : run'.reported = run.reported) (happended : run'.appended = run.appended)
    (hrank : run.point.rank ≤ next.rank) (hstate : next.rank ≤ 10 → run'.result.state ≠ 0)
    (hsaving : run'.saving = true → run'.result.state = 0 → run.AllReported) :
    Advances run run' := by
  have hhas := h.passed hge hle
  have hidle : ¬ run.Idle := by
    refine not_idle ?_ ?_ <;> intro hpoint <;> rw [hpoint] at hge hle
    · exact absurd hge (by decide)
    · exact absurd hle (by decide)
  exact h.advance next hnext htasks hreported happended hrank (fun _ _ => hge) (fun _ _ => hhas)
    (fun _ => hstate) (fun hs h0 => ⟨hhas, hsaving hs h0⟩) fun hi => absurd hi hidle

/-- Behind the tasks, the total count is the number of the tasks, and the reports are counted. -/
lemma proceed_late (h : run.Ok) (hlate : 5 ≤ run.point.rank) (hsaving : run.saving = false)
    (htotal : run.HasTasks → 7 ≤ run.point.rank → total = run.taskCount)
    (hcount : run.HasTasks → downloaded = run.reported.length)
    (hstep : run.proceed xs itemState download total downloaded = some (run', total')) :
    Advances run run' ∧ total' = total ∨
      run.point = .checkNothingToDownload ∧ run.HasTasks ∧ run' = run.goTo .extractFilePath ∧
        total' = run.taskCount := by
  rw [proceed] at hstep
  cases hpoint : run.point with
  | checkNothingToDownload =>
    simp only [hpoint] at hstep
    have hnothing : run.tasks.getD [] = [] → Advances run (run.setState 11 .finished) := by
      intro hnil
      refine h.advance .finished rfl rfl rfl rfl (by rw [hpoint]; decide) (fun _ hhas => ?_)
        (fun _ hle => absurd hle (by decide)) (fun _ _ => Nat.succ_ne_zero 10)
        (fun _ h0 => absurd h0 (Nat.succ_ne_zero 10)) fun _ => ⟨Nat.succ_ne_zero 10, .inr rfl⟩
      rw [HasTasks, taskCount, hnil] at hhas
      exact absurd hhas (Nat.not_lt_zero 0)
    split at hstep
    · rename_i task tasks htasks
      cases hstep
      have hcountTasks : run.taskCount = (task :: tasks).length := by rw [taskCount, htasks]; rfl
      refine .inr ⟨rfl, ?_, rfl, hcountTasks.symm⟩
      rw [HasTasks, hcountTasks]
      exact Nat.succ_pos _
    · rename_i hcases
      cases hstep
      refine .inl ⟨hnothing ?_, rfl⟩
      cases htasks : run.tasks with
      | none => rfl
      | some tasks =>
        cases tasks with
        | nil => rfl
        | cons task tasks => exact absurd htasks (hcases task tasks)
  | extractFilePath =>
    have hge : 7 ≤ run.point.rank := by rw [hpoint]; decide
    have hle : run.point.rank ≤ 10 := by rw [hpoint]; decide
    have hne : run.result.state ≠ 0 := h.state (by omega) hle
    simp only [hpoint] at hstep
    split at hstep <;> cases hstep
    · refine .inl ⟨advance_late h hge hle .finished rfl rfl rfl rfl (by rw [hpoint]; decide)
        (fun hle => absurd hle (by decide)) fun hs => ?_, rfl⟩
      exact absurd (hsaving.symm.trans hs) Bool.false_ne_true
    · exact .inl ⟨advance_late h hge hle .appendDownloadTasks rfl rfl rfl rfl
        (by rw [hpoint]; decide) (fun _ => hne) fun _ h0 => absurd h0 hne, rfl⟩
  | appendDownloadTasks =>
    have hhas : run.HasTasks := h.passed (by rw [hpoint]; decide) (by rw [hpoint]; decide)
    have hne : run.result.state ≠ 0 := h.state (by rw [hpoint]; decide) (by rw [hpoint]; decide)
    simp only [hpoint] at hstep
    cases hstep
    refine .inl ⟨⟨?_, rfl, rfl, fun _ _ => by rw [hpoint]; decide, fun hi => ?_⟩, rfl⟩
    · have hlate : ¬ Point.setDownloading.rank ≤ 5 := by decide
      refine ⟨h.nodup, h.lt, fun hle => absurd hle hlate, fun _ => le_rfl, fun _ => hhas,
        fun _ => rfl, fun _ _ => hhas, fun _ _ => hne, fun hs => ?_⟩
      exact absurd (hsaving.symm.trans hs) Bool.false_ne_true
    · exact absurd hi (not_idle (by simp [hpoint]) (by simp [hpoint]))
  | setDownloading =>
    have hge : 7 ≤ run.point.rank := by rw [hpoint]; decide
    have hle : run.point.rank ≤ 10 := by rw [hpoint]; decide
    simp only [hpoint] at hstep
    cases hstep
    exact .inl ⟨advance_late h hge hle .waitForComplete rfl rfl rfl rfl (by rw [hpoint]; decide)
      (fun _ => Nat.succ_ne_zero 2) fun _ h0 => absurd h0 (Nat.succ_ne_zero 2), rfl⟩
  | waitForComplete =>
    have hge : 7 ≤ run.point.rank := by rw [hpoint]; decide
    have hle : run.point.rank ≤ 10 := by rw [hpoint]; decide
    have hhas := h.passed hge hle
    simp only [hpoint] at hstep
    split_ifs at hstep with hwait <;> cases hstep
    · exact .inl ⟨⟨h, rfl, rfl, fun _ hle => hle, id⟩, rfl⟩
    · -- the counts agree, so all tasks have been reported
      have hall : run.AllReported := allReported_of_length h (by
        rw [← hcount hhas, ← htotal hhas hge]
        exact (not_not.mp hwait).symm)
      exact .inl ⟨advance_late h hge hle .finished rfl rfl rfl rfl (by rw [hpoint]; decide)
        (fun hle => absurd hle (by decide)) fun _ _ => hall, rfl⟩
  | createTasks | finished =>
    simp only [hpoint] at hstep
    cases hstep
  | checkValidState | checkValidUrl | selectExtractor | setToStop | checkLoginRequire =>
    rw [hpoint] at hlate
    exact absurd hlate (by decide)

end Run

end DownloadRoutine

open DownloadRoutine

namespace DownloadItemWidget

variable {xs : Extractors} {w w' : DownloadItemWidget} {e : Event} {run run' : Run} {k : ℕ}

/-- What holds in all states of a widget whose routines get tasks only once. -/
structure Inv (w : DownloadItemWidget) : Prop where
  ok : ∀ (k : ℕ) (run : Run), w.runs[k]? = some run → run.Ok
  unique : ∀ (j k : ℕ) (run run' : Run), w.runs[j]? = some run → w.runs[k]? = some run' →
    run.HasTasks → run'.HasTasks → j = k
  total : ∀ (k : ℕ) (run : Run), w.runs[k]? = some run → run.HasTasks → 7 ≤ run.point.rank →
    w.downloadTotalFileCount = run.taskCount
  count : ∀ (k : ℕ) (run : Run), w.runs[k]? = some run → run.HasTasks →
    w.downloadedFileCount = run.reported.length
  none : (∀ (k : ℕ) (run : Run), w.runs[k]? = some run → ¬ run.HasTasks) → w.downloadedFileCount = 0
  pending : ∀ k ∈ w.pending, ∃ run : Run, w.runs[k]? = some run ∧ run.Idle

/-- A routine gets tasks only while no routine of the widget has any. -/
def TasksOnce (w : DownloadItemWidget) : Event → Prop
  | .returned _ (some (_ :: _)) => ∀ run ∈ w.runs, run.tasks.getD [] = []
  | _ => True

/-- The routine that has been started last. -/
def current (w : DownloadItemWidget) : Option Run := w.runs.getLast?

/-- The item is persisted as complete only when all tasks of the current run have been reported, and
no more reports are counted than the current run has tasks, once they are appended. -/
def CompletesOnTime (w : DownloadItemWidget) : Prop :=
  (∀ e row, w.persists e = some row → row.state = 0 →
      ∀ run : Run, w.current = some run → run.AllReported) ∧
    ∀ run : Run, w.current = some run → run.appended = true →
      w.downloadedFileCount ≤ w.downloadTotalFileCount

lemma getElem?_set_run (hk : w.runs[k]? = some run) {j : ℕ} {run'' : Run}
    (h : (w.runs.set k run')[j]? = some run'') :
    j = k ∧ run'' = run' ∨ j ≠ k ∧ w.runs[j]? = some run'' := by
  rw [List.getElem?_set] at h
  by_cases hj : k = j
  · subst hj
    rw [if_pos rfl, if_pos (List.getElem?_eq_some_iff.mp hk).1] at h
    exact .inl ⟨rfl, (Option.some.inj h).symm⟩
  · rw [if_neg hj] at h
    exact .inr ⟨Ne.symm hj, h⟩

/-- One routine goes on. -/
lemma Inv.advance (h : w.Inv) (hk : w.runs[k]? = some run) (hadv : run.Advances run')
    (hruns : w'.runs = w.runs.set k run')
    (htotal : w'.downloadTotalFileCount = w.downloadTotalFileCount)
    (hcount : w'.downloadedFileCount = w.downloadedFileCount)
    (hpending : ∀ j ∈ w'.pending, j ∈ w.pending ∨ j = k ∧ run'.Idle) : w'.Inv := by
  have htasks := hadv.taskCount
  have hhas : run'.HasTasks → run.HasTasks := fun hh => by rwa [Run.HasTasks, htasks] at hh
  have hget {j : ℕ} {run'' : Run} (hj : w'.runs[j]? = some run'') :
      j = k ∧ run'' = run' ∨ j ≠ k ∧ w.runs[j]? = some run'' :=
    getElem?_set_run hk (hruns ▸ hj)
  constructor
  · intro j run'' hj
    rcases hget hj with ⟨rfl, rfl⟩ | ⟨-, hj⟩
    · exact hadv.ok
    · exact h.ok j run'' hj
  · intro i j run₁ run₂ hi hj h₁ h₂
    rcases hget hi with ⟨rfl, rfl⟩ | ⟨-, hi⟩ <;> rcases hget hj with ⟨rfl, rfl⟩ | ⟨-, hj⟩
    · rfl
    · exact h.unique _ _ _ _ hk hj (hhas h₁) h₂
    · exact h.unique _ _ _ _ hi hk h₁ (hhas h₂)
    · exact h.unique _ _ _ _ hi hj h₁ h₂
  · intro j run'' hj hh hrank
    rw [htotal]
    rcases hget hj with ⟨rfl, rfl⟩ | ⟨-, hj⟩
    · rw [htasks]
      exact h.total _ run hk (hhas hh) (hadv.rank hh hrank)
    · exact h.total j run'' hj hh hrank
  · intro j run'' hj hh
    rw [hcount]
    rcases hget hj with ⟨rfl, rfl⟩ | ⟨-, hj⟩
    · rw [hadv.reported]
      exact h.count _ run hk (hhas hh)
    · exact h.count j run'' hj hh
  · intro hno
    rw [hcount]
    refine h.none fun j run'' hj hh => ?_
    by_cases hjk : j = k
    · subst hjk
      obtain rfl := Option.some.inj (hk.symm.trans hj)
      have hlt := (List.getElem?_eq_some_iff.mp hk).1
      refine hno j run' ?_ (by rwa [Run.HasTasks, htasks])
      rw [hruns, List.getElem?_set_self hlt]
    · refine hno j run'' ?_ hh
      rw [hruns, List.getElem?_set_ne (Ne.symm hjk), hj]
  · intro j hj
    have hlt := (List.getElem?_eq_some_iff.mp hk).1
    by_cases hjk : j = k
    · subst hjk
      refine ⟨run', by rw [hruns, List.getElem?_set_self hlt], ?_⟩
      rcases hpending j hj with hj | ⟨-, hidle⟩
      · obtain ⟨run'', hj, hidle⟩ := h.pending j hj
        obtain rfl := Option.some.inj (hk.symm.trans hj)
        exact hadv.idle hidle
      · exact hidle
    · obtain ⟨run'', hj, hidle⟩ := h.pending j ((hpending j hj).resolve_right fun h => hjk h.1)
      exact ⟨run'', by rw [hruns, List.getElem?_set_ne (Ne.symm hjk), hj], hidle⟩

/-- The only routine with tasks goes on. -/
lemma Inv.only (h : w.Inv) (hk : w.runs[k]? = some run) (hok : run'.Ok)
    (hruns : w'.runs = w.runs.set k run') (hhas : run'.HasTasks)
    (hno : ∀ j run'', j ≠ k → w.runs[j]? = some run'' → ¬ run''.HasTasks)
    (htotal : 7 ≤ run'.point.rank → w'.downloadTotalFileCount = run'.taskCount)
    (hcount : w'.downloadedFileCount = run'.reported.length) (hidle : run.Idle → run'.Idle)
    (hpending : w'.pending = w.pending) : w'.Inv := by
  have hget {j : ℕ} {run'' : Run} (hj : w'.runs[j]? = some run'') :
      j = k ∧ run'' = run' ∨ j ≠ k ∧ w.runs[j]? = some run'' :=
    getElem?_set_run hk (hruns ▸ hj)
  constructor
  · intro j run'' hj
    rcases hget hj with ⟨rfl, rfl⟩ | ⟨-, hj⟩
    · exact hok
    · exact h.ok j run'' hj
  · intro i j run₁ run₂ hi hj h₁ h₂
    rcases hget hi with ⟨rfl, rfl⟩ | ⟨hne, hi⟩
    · rcases hget hj with ⟨rfl, rfl⟩ | ⟨hne, hj⟩
      · rfl
      · exact absurd h₂ (hno j run₂ hne hj)
    · exact absurd h₁ (hno i run₁ hne hi)
  · intro j run'' hj hh hrank
    rcases hget hj with ⟨rfl, rfl⟩ | ⟨hne, hj⟩
    · exact htotal hrank
    · exact absurd hh (hno j run'' hne hj)
  · intro j run'' hj hh
    rcases hget hj with ⟨rfl, rfl⟩ | ⟨hne, hj⟩
    · exact hcount
    · exact absurd hh (hno j run'' hne hj)
  · intro hnone
    have hlt := (List.getElem?_eq_some_iff.mp hk).1
    exact absurd hhas (hnone k run' (by rw [hruns, List.getElem?_set_self hlt]))
  · intro j hj
    rw [hpending] at hj
    obtain ⟨run'', hrun'', hidle'⟩ := h.pending j hj
    have hlt := (List.getElem?_eq_some_iff.mp hk).1
    by_cases hjk : j = k
    · subst hjk
      obtain rfl := Option.some.inj (hk.symm.trans hrun'')
      exact ⟨run', by rw [hruns, List.getElem?_set_self hlt], hidle hidle'⟩
    · exact ⟨run'', by rw [hruns, List.getElem?_set_ne (Ne.symm hjk), hrun''], hidle'⟩

/-- Where one routine has tasks no other one has. -/
lemma Inv.others (h : w.Inv) (hk : w.runs[k]? = some run) (hhas : run.HasTasks) :
    ∀ j run'', j ≠ k → w.runs[j]? = some run'' → ¬ run''.HasTasks :=
  fun j run'' hne hj hh => hne (h.unique j k run'' run hj hk hh hhas)

lemma creating_eq_some (h : w.creating k = some run) :
    w.runs[k]? = some run ∧ run.saving = false ∧ run.point = .createTasks := by
  obtain ⟨hk, hrun⟩ := Option.filter_eq_some_iff.mp h
  simpa using And.intro hk hrun

/-- A routine that creates its tasks has none, and nothing has been reported. -/
lemma creating_ok (h : run.Ok) (hpoint : run.point = .createTasks) :
    run.tasks = none ∧ run.appended = false ∧ run.reported = [] ∧ run.result.state ≠ 0 := by
  have happended : run.appended = false := by
    by_contra happ
    have hle := h.appended (Bool.of_not_eq_false happ)
    rw [hpoint] at hle
    exact absurd hle (by decide)
  refine ⟨h.early (by rw [hpoint]; decide), happended, ?_,
    h.state (by rw [hpoint]; decide) (by rw [hpoint]; decide)⟩
  by_contra hne
  rw [h.reported hne] at happended
  cases happended

lemma inv_init (result : ItemResult) (download : Bool) : (init result download).Inv := by
  constructor <;> simp [init]

/-- Before the tasks are there, what is told about the item is put into the map. -/
lemma creating_advance (h : run.Ok) (hsaving : run.saving = false)
    (hpoint : run.point = .createTasks) (result : ItemResult)
    (hstate : result.state = run.result.state) : run.Advances { run with result } := by
  obtain ⟨-, -, -, hne⟩ := creating_ok h hpoint
  refine Run.advance_early h (by rw [hpoint]; decide) run.point rfl rfl rfl rfl (.inl ⟨le_rfl, ?_⟩)
    (fun _ _ => ?_) fun hs => ?_
  · rw [hpoint]
    decide
  · exact hstate ▸ hne
  · exact absurd (hsaving.symm.trans hs) Bool.false_ne_true

/-- The routine is through with its extractor. -/
lemma created_ok (h : run.Ok) (hsaving : run.saving = false)
    (hpoint : run.point = .createTasks)
    {tasks : Option (List DownloadTask)} {result : ItemResult} (hstate : result.state ≠ 0) :
    Run.Ok { run with result, tasks, point := .checkNothingToDownload } := by
  obtain ⟨-, happended, hreported, -⟩ := creating_ok h hpoint
  have hrank : Point.checkNothingToDownload.rank = 6 := rfl
  constructor
  · exact h.nodup
  · rw [hreported]
    exact fun i hi => absurd hi (List.not_mem_nil)
  · exact fun hle => absurd (hrank.symm.trans_le hle) (by decide)
  · exact fun happ => absurd (happended.symm.trans happ) Bool.false_ne_true
  · exact fun happ => absurd (happended.symm.trans happ) Bool.false_ne_true
  · exact fun hne => absurd hreported hne
  · exact fun hle => absurd (hle.trans_eq hrank) (by decide)
  · exact fun _ _ => hstate
  · exact fun hs => absurd (hsaving.symm.trans hs) Bool.false_ne_true

/-- Nothing about the routines changes. -/
lemma Inv.congr (h : w.Inv) (hruns : w'.runs = w.runs)
    (htotal : w'.downloadTotalFileCount = w.downloadTotalFileCount)
    (hcount : w'.downloadedFileCount = w.downloadedFileCount) (hpending : w'.pending ⊆ w.pending) :
    w'.Inv := by
  constructor
  · exact hruns ▸ h.ok
  · exact hruns ▸ h.unique
  · rw [hruns, htotal]
    exact h.total
  · rw [hruns, hcount]
    exact h.count
  · rw [hruns, hcount]
    exact h.none
  · rw [hruns]
    exact fun k hk => h.pending k (hpending hk)

/-- A routine starts. -/
lemma Inv.start (h : w.Inv) {result : ItemResult}
    (hruns : w'.runs = w.runs ++ [({ result } : Run)])
    (htotal : w'.downloadTotalFileCount = w.downloadTotalFileCount)
    (hcount : w'.downloadedFileCount = w.downloadedFileCount) (hpending : w'.pending = w.pending) :
    w'.Inv := by
  have hnew : ¬ Run.HasTasks { result } := Nat.not_lt_zero 0
  have hget {j : ℕ} {run : Run} (hj : w'.runs[j]? = some run) :
      w.runs[j]? = some run ∨ run = { result } := by
    rw [hruns, List.getElem?_append] at hj
    split_ifs at hj
    · exact .inl hj
    · exact .inr (List.mem_singleton.mp (List.mem_of_getElem? hj))
  have hold {j : ℕ} {run : Run} (hj : w.runs[j]? = some run) : w'.runs[j]? = some run := by
    rw [hruns, List.getElem?_append_left (List.getElem?_eq_some_iff.mp hj).1, hj]
  constructor
  · intro j run hj
    rcases hget hj with hj | rfl
    · exact h.ok j run hj
    · constructor <;> simp [Point.rank]
  · intro i j run run' hi hj hh hh'
    refine h.unique i j run run' ((hget hi).resolve_right ?_) ((hget hj).resolve_right ?_) hh hh'
    · exact fun heq => hnew (heq ▸ hh)
    · exact fun heq => hnew (heq ▸ hh')
  · intro j run hj hh
    rw [htotal]
    exact h.total j run ((hget hj).resolve_right fun heq => hnew (heq ▸ hh)) hh
  · intro j run hj hh
    rw [hcount]
    exact h.count j run ((hget hj).resolve_right fun heq => hnew (heq ▸ hh)) hh
  · intro hno
    rw [hcount]
    exact h.none fun j run hj => hno j run (hold hj)
  · intro j hj
    rw [hpending] at hj
    obtain ⟨run, hrun, hidle⟩ := h.pending j hj
    exact ⟨run, hold hrun, hidle⟩

theorem inv_step (h : w.Inv) (hg : w.TasksOnce e) (hstep : w.step xs e = some w') : w'.Inv := by
  cases e with
  | start =>
    simp only [step] at hstep
    split_ifs at hstep
    · cases hstep
      exact h.congr rfl rfl rfl (List.Subset.refl _)
    · obtain ⟨result, -, hw⟩ := Option.bind_eq_some_iff.mp hstep
      cases hw
      exact h.start rfl rfl rfl rfl
  | retry =>
    obtain ⟨result, -, hw⟩ := Option.bind_eq_some_iff.mp hstep
    cases hw
    exact h.congr rfl rfl rfl (List.Subset.refl _)
  | proceed k =>
    obtain ⟨run, hk, hstep⟩ := Option.bind_eq_some_iff.mp hstep
    obtain ⟨result, -, hstep⟩ := Option.bind_eq_some_iff.mp hstep
    split_ifs at hstep with hsaving
    rw [Bool.not_eq_true] at hsaving
    obtain ⟨⟨run', total⟩, hproceed, hw⟩ := Option.bind_eq_some_iff.mp hstep
    cases hw
    have hok := h.ok k run hk
    have hadvance (hadv : run.Advances run') (htotal : total = w.downloadTotalFileCount) :
        Inv { w.put k run' with downloadTotalFileCount := total } :=
      h.advance hk hadv rfl htotal rfl fun j hj => .inl hj
    by_cases hearly : run.point.rank ≤ 4
    · obtain ⟨hadv, htotal⟩ := Run.proceed_early hok hearly hsaving hproceed
      exact hadvance hadv htotal
    · rcases Run.proceed_late hok (by omega) hsaving (h.total k run hk) (h.count k run hk) hproceed
        with ⟨hadv, htotal⟩ | ⟨hpoint, hhas, rfl, htotal⟩
      · exact hadvance hadv htotal
      · have hok' : (run.goTo .extractFilePath).Ok := by
          refine hok.move rfl rfl rfl ?_ (fun _ _ => hhas) (fun _ _ => ?_)
            fun hs => absurd (hsaving.symm.trans hs) Bool.false_ne_true
          · rw [hpoint]
            exact Nat.le_succ 6
          · exact hok.state (by rw [hpoint]; decide) (by rw [hpoint]; decide)
        refine h.only hk hok' rfl hhas (h.others hk hhas) (fun _ => htotal) (h.count k run hk hhas)
          (fun hidle => ?_) rfl
        rcases hidle.2 with ⟨-, hnone⟩ | hfin
        · rw [Run.HasTasks, Run.taskCount, hnone] at hhas
          exact absurd hhas (Nat.not_lt_zero 0)
        · rw [hpoint] at hfin
          cases hfin
  | login k logined tryLogin =>
    obtain ⟨run, hk, hstep⟩ := Option.bind_eq_some_iff.mp hstep
    split_ifs at hstep with hsaving
    rw [Bool.not_eq_true] at hsaving
    obtain ⟨run', hlogin, hw⟩ := Option.bind_eq_some_iff.mp hstep
    cases hw
    exact h.advance hk (Run.login_advances (h.ok k run hk) hsaving hlogin) rfl rfl rfl
      fun j hj => .inl hj
  | info k info =>
    obtain ⟨run, hcreating, hw⟩ := Option.bind_eq_some_iff.mp hstep
    cases hw
    obtain ⟨hk, hsaving, hpoint⟩ := creating_eq_some hcreating
    have hadv := creating_advance (h.ok k run hk) hsaving hpoint
      { run.result with info := some info } rfl
    exact h.advance hk hadv rfl rfl rfl fun j hj => .inl hj
  | thumbnail k url header =>
    obtain ⟨run, hcreating, hw⟩ := Option.bind_eq_some_iff.mp hstep
    cases hw
    obtain ⟨hk, hsaving, hpoint⟩ := creating_eq_some hcreating
    have hadv := creating_advance (h.ok k run hk) hsaving hpoint
      { run.result with thumbnail := some url, thumbnailHeader := some header } rfl
    exact h.advance hk hadv rfl rfl rfl fun j hj => .inl hj
  | returned k tasks =>
    obtain ⟨run, hcreating, hw⟩ := Option.bind_eq_some_iff.mp hstep
    cases hw
    obtain ⟨hk, hsaving, hpoint⟩ := creating_eq_some hcreating
    obtain ⟨htasks, -, hreported, hne⟩ := creating_ok (h.ok k run hk) hpoint
    have hok := @created_ok run (h.ok k run hk) hsaving hpoint tasks run.result hne
    have hidle : ¬ run.Idle := Run.not_idle (by simp [hpoint]) (by simp [hpoint])
    by_cases hnil : tasks.getD [] = []
    · have hcount : (Run.taskCount { run with tasks, point := .checkNothingToDownload }) =
          run.taskCount := by
        rw [Run.taskCount, Run.taskCount, htasks, hnil]
        rfl
      refine h.advance hk ⟨hok, hcount, rfl, fun hhas => ?_, fun hi => absurd hi hidle⟩ rfl rfl rfl
        fun j hj => .inl hj
      rw [Run.HasTasks, Run.taskCount, hnil] at hhas
      exact absurd hhas (Nat.not_lt_zero 0)
    · -- no other routine has tasks
      obtain ⟨task, rest, rfl⟩ : ∃ task rest, tasks = some (task :: rest) := by
        cases tasks with
        | none => exact absurd rfl hnil
        | some tasks =>
          cases tasks with
          | nil => exact absurd rfl hnil
          | cons task rest => exact ⟨task, rest, rfl⟩
      have hno (j : ℕ) (run'' : Run) (hj : w.runs[j]? = some run'') : ¬ run''.HasTasks := by
        rw [Run.HasTasks, Run.taskCount, hg run'' (List.mem_of_getElem? hj)]
        exact Nat.not_lt_zero 0
      refine h.only hk hok rfl (Nat.succ_pos _) (fun j run'' _ => hno j run'')
        (fun hle => absurd (show 7 ≤ 6 from hle) (by decide)) ?_ (fun hi => absurd hi hidle) rfl
      show w.downloadedFileCount = run.reported.length
      rw [hreported]
      exact h.none hno
  | threw k =>
    obtain ⟨run, hcreating, hw⟩ := Option.bind_eq_some_iff.mp hstep
    cases hw
    obtain ⟨hk, hsaving, hpoint⟩ := creating_eq_some hcreating
    obtain ⟨htasks, -, -, -⟩ := creating_ok (h.ok k run hk) hpoint
    have hidle : ¬ run.Idle := Run.not_idle (by simp [hpoint]) (by simp [hpoint])
    have hseven : (7 : ℕ) ≠ 0 := by decide
    refine h.advance hk ⟨created_ok (h.ok k run hk) hsaving hpoint hseven, rfl, rfl,
      fun _ hle => ?_, fun hi => absurd hi hidle⟩ rfl rfl rfl fun j hj => ?_
    · exact absurd (show 7 ≤ 6 from hle) (by decide)
    · refine (List.mem_append.mp hj).imp_right fun hj => ⟨List.mem_singleton.mp hj, hseven, ?_⟩
      exact .inl ⟨rfl, htasks⟩
  | saved k =>
    obtain ⟨row, -, hstep⟩ := Option.bind_eq_some_iff.mp hstep
    obtain ⟨run, hk, hw⟩ := Option.bind_eq_some_iff.mp hstep
    cases hw
    have hok := h.ok k run hk
    have hok' : Run.Ok { run with saving := false } :=
      hok.move rfl rfl rfl le_rfl hok.passed hok.state fun hs => absurd hs Bool.false_ne_true
    exact h.advance hk ⟨hok', rfl, rfl, fun _ hle => hle, id⟩ rfl rfl rfl fun j hj => .inl hj
  | flushed i =>
    obtain ⟨row, -, hw⟩ := Option.bind_eq_some_iff.mp hstep
    cases hw
    exact h.congr rfl rfl rfl (List.eraseIdx_subset)
  | reported k i error =>
    obtain ⟨run, hk, hstep⟩ := Option.bind_eq_some_iff.mp hstep
    obtain ⟨tasks, htasks, hstep⟩ := Option.bind_eq_some_iff.mp hstep
    obtain ⟨⟨happended, hlt, hnew⟩, hw⟩ := Option.ite_none_right_eq_some.mp hstep
    cases hw
    have hok := h.ok k run hk
    have hcount : run.taskCount = tasks.length := by rw [Run.taskCount, htasks]; rfl
    have hhas : run.HasTasks := by rw [Run.HasTasks, hcount]; omega
    have hlate : 9 ≤ run.point.rank := hok.appended happended
    have hok' : Run.Ok { run with reported := run.reported ++ [i] } := by
      constructor
      · rw [List.nodup_append]
        exact ⟨hok.nodup, List.nodup_singleton i, fun a ha b hb heq =>
          hnew (List.mem_singleton.mp hb ▸ heq ▸ ha)⟩
      · intro j hj
        rcases List.mem_append.mp hj with hj | hj
        · exact hok.lt j hj
        · exact (List.mem_singleton.mp hj).trans_lt (hcount ▸ hlt)
      · exact hok.early
      · exact hok.appended
      · exact fun _ => hhas
      · exact fun _ => happended
      · exact hok.passed
      · exact hok.state
      · exact fun hs h0 => ⟨hhas, fun j hj => List.mem_append_left _ ((hok.saving hs h0).2 j hj)⟩
    refine h.only hk hok' rfl hhas (h.others hk hhas) (fun _ => h.total k run hk hhas (by omega)) ?_
      (fun hidle => ?_) rfl
    · show w.downloadedFileCount + 1 = (run.reported ++ [i]).length
      rw [h.count k run hk hhas, List.length_append]
      rfl
    · refine ⟨hidle.1, hidle.2⟩

/-- The invariant holds in all states of a widget whose routines get tasks only once. -/
theorem inv_of_reaches {result : ItemResult} {download : Bool}
    (h : Reaches (step xs) TasksOnce (init result download) w) : w.Inv :=
  h.invariant (inv_init result download) fun _ _ _ hi hg hs => inv_step hi hg hs

/-- The item is complete only when all tasks of the current run have been reported. -/
theorem completesOnTime_of_tasksOnce {result : ItemResult} {download : Bool}
    (h : Reaches (step xs) TasksOnce (init result download) w) : w.CompletesOnTime := by
  have hinv := inv_of_reaches h
  have hcurrent {run : Run} (hrun : w.current = some run) : ∃ k : ℕ, w.runs[k]? = some run := by
    rw [current, List.getLast?_eq_getElem?] at hrun
    exact ⟨_, hrun⟩
  constructor
  · intro e row hrow h0 run hrun
    obtain ⟨j, hj⟩ := hcurrent hrun
    cases e with
    | saved k =>
      obtain ⟨run', hk, hrow⟩ := Option.bind_eq_some_iff.mp hrow
      obtain ⟨hsaving, hrow⟩ := Option.ite_none_right_eq_some.mp hrow
      cases hrow
      obtain ⟨hhas, hall⟩ := (hinv.ok k run' hk).saving hsaving h0
      by_cases hjk : j = k
      · subst hjk
        obtain rfl := Option.some.inj (hk.symm.trans hj)
        exact hall
      · exact fun i hi => absurd (Nat.zero_lt_of_lt hi) (hinv.others hk hhas j run hjk hj)
    | flushed i =>
      obtain ⟨k, hi, hrow⟩ := Option.bind_eq_some_iff.mp hrow
      obtain ⟨run', hk, hrow⟩ := Option.bind_eq_some_iff.mp hrow
      cases hrow
      obtain ⟨run'', hk', hidle⟩ := hinv.pending k (List.mem_of_getElem? hi)
      obtain rfl := Option.some.inj (hk.symm.trans hk')
      exact absurd h0 hidle.1
    | start | retry | proceed | login | info | thumbnail | returned | threw | reported =>
      cases hrow
  · intro run hrun happended
    obtain ⟨j, hj⟩ := hcurrent hrun
    have hok := hinv.ok j run hj
    have hhas := hok.stocked happended
    have hlate : 9 ≤ run.point.rank := hok.appended happended
    rw [hinv.count j run hj hhas, hinv.total j run hj hhas (by omega)]
    exact Run.length_le hok

/-! ### A download and another one -/

instance (w : DownloadItemWidget) : (e : Event) → Decidable (TasksOnce w e)
  | .returned _ (some (_ :: _)) =>
    inferInstanceAs (Decidable (∀ run ∈ w.runs, run.tasks.getD [] = []))
  | .returned _ (some []) | .returned _ none | .start | .retry | .proceed _ | .login _ _ _
  | .info _ _ | .thumbnail _ _ _ | .threw _ | .saved _ | .flushed _ | .reported _ _ _ =>
    .isTrue trivial

/-- An extractor that needs no login. -/
def openExtractors : Extractors where
  getExtractor := fun _ => some ⟨units "hitomi", false⟩
  filePaths := fun _ => some (units "[]", units "hitomi")

/-- The routine `k` starts and appends one task. -/
def appendOne (k : ℕ) : List Event :=
  [.start, .proceed k, .proceed k, .proceed k, .saved k, .proceed k, .login k false true,
    .returned k (some [{}]), .proceed k, .proceed k, .saved k, .proceed k, .proceed k, .saved k]

theorem completesOnTime_appendOne : ∃ w : DownloadItemWidget,
    Transition.run (step openExtractors) TasksOnce (init { state := 1 } true)
      (appendOne 0 ++ [.reported 0 0 false, .proceed 0, .saved 0]) = some w ∧
      w.row.state = 0 ∧ w.CompletesOnTime := by
  obtain ⟨w, hw, h0⟩ : ∃ w : DownloadItemWidget,
      Transition.run (step openExtractors) TasksOnce (init { state := 1 } true)
        (appendOne 0 ++ [.reported 0 0 false, .proceed 0, .saved 0]) = some w ∧ w.row.state = 0 :=
    ⟨_, rfl, rfl⟩
  exact ⟨w, hw, h0, completesOnTime_of_tasksOnce (reaches_of_run hw)⟩

/-- After a download with one task, a retry with one task is complete at once. -/
theorem not_completesOnTime_retry :
    ¬ ∀ (xs : Extractors) (result : ItemResult) (download : Bool) (w : DownloadItemWidget),
      Reaches (step xs) anyEvent (init result download) w → w.CompletesOnTime := by
  intro h
  obtain ⟨w, hw, row, hrow, h0, r, hcurrent, hcount, hreported⟩ :
      ∃ w : DownloadItemWidget, Transition.run (step openExtractors) anyEvent
          (init { state := 1 } true)
          (appendOne 0 ++ [.reported 0 0 false, .proceed 0, .saved 0, .retry] ++ appendOne 1 ++
            [.proceed 1]) = some w ∧
        ∃ row : ItemResult, w.persists (.saved 1) = some row ∧ row.state = 0 ∧
          ∃ r : Run, w.current = some r ∧ r.taskCount = 1 ∧ r.reported = [] :=
    ⟨_, rfl, _, rfl, rfl, _, rfl, rfl, rfl⟩
  have hall := (h _ _ _ w (reaches_of_run hw)).1 _ row hrow h0 r hcurrent 0
    (by rw [hcount]; exact Nat.zero_lt_one)
  rw [hreported] at hall
  cases hall

end DownloadItemWidget
