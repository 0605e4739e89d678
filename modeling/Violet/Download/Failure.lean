import Violet.Download.Completion

/-!
# Failed downloads

When an extractor throws, the routine puts the error state into its map and goes on without waiting
for the write. It then finds no tasks, and puts the state of an item with nothing to download into
the same map. Whatever the order of the writes, the error state is not the one that remains.
-/

open Dart Transition

namespace DownloadRoutine.Run

variable {run run' : Run} {xs : Extractors} {itemState total total' downloaded : ℕ}
  {download : Bool}

/-- The extractor has thrown. The routine is about to find no tasks, or has found none. -/
structure Failed (run : Run) : Prop where
  tasks : run.tasks = none
  appended : run.appended = false
  point : run.point = .checkNothingToDownload ∧ run.saving = false ∨
    run.point = .finished ∧ run.result.state = 11

/-- A routine that has failed and has yet to write that there is nothing to download. -/
def Unsettled (run : Run) : Prop :=
  run.Failed ∧ (run.point = .checkNothingToDownload ∨ run.saving = true)

/-- Where the tasks and the error state of a routine come from. -/
structure Sound (run : Run) : Prop where
  early : run.point.rank ≤ 5 → run.tasks = none ∧ run.appended = false
  error : run.result.state = 7 → run.saving = false ∧
    (run.point.rank ≤ 2 ∨ run.point = .finished ∨ run.Failed)

lemma Sound.ne_error (h : run.Sound) (hsaving : run.saving = true) : run.result.state ≠ 7 := by
  intro h7
  exact Bool.false_ne_true ((h.error h7).1.symm.trans hsaving)

/-- Between the choice of the extractor and the end, only a routine that has failed is in the error
state. -/
lemma Sound.ne_error_of_rank (h : run.Sound) (hrank : 3 ≤ run.point.rank)
    (hfinished : run.point ≠ .finished) (hfailed : ¬ run.Failed) : run.result.state ≠ 7 := by
  intro h7
  rcases (h.error h7).2 with hle | hfin | hfail
  · exact absurd hrank (by omega)
  · exact hfinished hfin
  · exact hfailed hfail

lemma not_failed (h : run.point ≠ .checkNothingToDownload) (h' : run.point ≠ .finished) :
    ¬ run.Failed := by
  intro hfailed
  rcases hfailed.point with ⟨hpoint, -⟩ | ⟨hpoint, -⟩
  · exact h hpoint
  · exact h' hpoint

/-- A step after which the routine is not in the error state. -/
lemma sound_of_ne (hne : run'.result.state ≠ 7)
    (hearly : run'.point.rank ≤ 5 → run'.tasks = none ∧ run'.appended = false) : run'.Sound :=
  ⟨hearly, fun h7 => absurd h7 hne⟩

lemma sound_late (next : Point) (hpoint : run'.point = next) (hlate : 5 < next.rank)
    (hne : run'.result.state ≠ 7) : run'.Sound :=
  sound_of_ne hne fun hle => absurd hlate (by rw [← hpoint]; omega)

lemma sound_setState {state : ℕ} {next : Point} (hstate : state ≠ 7)
    (hearly : next.rank ≤ 5 → run.tasks = none ∧ run.appended = false) :
    (run.setState state next).Sound :=
  sound_of_ne hstate hearly

lemma sound_goTo {next : Point} (hearly : next.rank ≤ 5 → run.tasks = none ∧ run.appended = false)
    (herror : run.result.state = 7 → next.rank ≤ 2 ∨ next = .finished)
    (hsaving : run.saving = false) : (run.goTo next).Sound :=
  ⟨hearly, fun h7 => ⟨hsaving, (herror h7).imp_right .inl⟩⟩

/-- Steps keep where tasks and the error state come from. -/
lemma sound_proceed (h : run.Sound) (hsaving : run.saving = false)
    (hstep : run.proceed xs itemState download total downloaded = some (run', total')) :
    run'.Sound := by
  have hlate {next : Point} (hnext : 5 < next.rank) :
      next.rank ≤ 5 → run.tasks = none ∧ run.appended = false := by
    intro hle
    exact absurd hnext (by omega)
  rw [proceed] at hstep
  cases hpoint : run.point with
  | checkValidState =>
    simp only [hpoint] at hstep
    split_ifs at hstep <;> cases hstep
    · exact sound_setState (by decide) (hlate (by decide))
    · exact sound_goTo (hlate (by decide)) (fun _ => .inr rfl) hsaving
    · refine sound_goTo (fun _ => h.early ?_) (fun _ => .inl (by decide)) hsaving
      rw [hpoint]
      decide
  | checkValidUrl =>
    simp only [hpoint] at hstep
    split_ifs at hstep <;> cases hstep
    · exact sound_setState (by decide) (hlate (by decide))
    · refine sound_goTo (fun _ => h.early ?_) (fun _ => .inl (by decide)) hsaving
      rw [hpoint]
      decide
  | selectExtractor =>
    simp only [hpoint] at hstep
    obtain ⟨extractor, -, hrun⟩ := Option.map_eq_some_iff.mp hstep
    cases hrun
    exact sound_setState (by decide) fun _ => h.early (by rw [hpoint]; decide)
  | setToStop =>
    have hne : run.result.state ≠ 7 := by
      refine h.ne_error_of_rank ?_ ?_ (not_failed ?_ ?_) <;> rw [hpoint] <;> decide
    simp only [hpoint] at hstep
    split_ifs at hstep <;> cases hstep
    · exact sound_of_ne hne fun _ => h.early (by rw [hpoint]; decide)
    · exact sound_setState (by decide) (hlate (by decide))
  | checkNothingToDownload =>
    simp only [hpoint] at hstep
    split at hstep
    · rename_i task tasks htasks
      cases hstep
      refine sound_late .extractFilePath rfl (by decide)
        (h.ne_error_of_rank ?_ ?_ fun hfailed => ?_)
      · rw [hpoint]
        decide
      · rw [hpoint]
        decide
      · rw [hfailed.tasks] at htasks
        cases htasks
    · cases hstep
      exact sound_setState (by decide) (hlate (by decide))
  | extractFilePath =>
    have hne : run.result.state ≠ 7 := by
      refine h.ne_error_of_rank ?_ ?_ (not_failed ?_ ?_) <;> rw [hpoint] <;> decide
    simp only [hpoint] at hstep
    split at hstep <;> cases hstep
    · exact sound_late .finished rfl (by decide) hne
    · exact sound_late .appendDownloadTasks rfl (by decide) hne
  | appendDownloadTasks =>
    have hne : run.result.state ≠ 7 := by
      refine h.ne_error_of_rank ?_ ?_ (not_failed ?_ ?_) <;> rw [hpoint] <;> decide
    simp only [hpoint] at hstep
    cases hstep
    exact sound_late .setDownloading rfl (by decide) hne
  | setDownloading =>
    simp only [hpoint] at hstep
    cases hstep
    exact sound_setState (by decide) (hlate (by decide))
  | waitForComplete =>
    simp only [hpoint] at hstep
    split_ifs at hstep <;> cases hstep
    · exact h
    · exact sound_setState (by decide) (hlate (by decide))
  | checkLoginRequire | createTasks | finished =>
    simp only [hpoint] at hstep
    cases hstep

lemma sound_login (h : run.Sound) {logined tryLogin : Bool}
    (hstep : run.login xs logined tryLogin = some run') : run'.Sound := by
  rw [login] at hstep
  cases hpoint : run.point <;> simp only [hpoint] at hstep <;> try cases hstep
  obtain ⟨extractor, -, rfl⟩ := Option.map_eq_some_iff.mp hstep
  split_ifs
  · exact sound_setState (by decide) fun hle => absurd hle (by decide)
  · refine sound_of_ne ?_ fun _ => h.early (by rw [hpoint]; decide)
    refine h.ne_error_of_rank ?_ ?_ (not_failed ?_ ?_) <;> rw [hpoint] <;> decide

/-- The only step of a routine that has failed is the one that finds no tasks. -/
lemma Failed.proceed_eq (h : run.Failed)
    (hstep : run.proceed xs itemState download total downloaded = some (run', total')) :
    run' = run.setState 11 .finished := by
  rw [proceed] at hstep
  rcases h.point with ⟨hpoint, -⟩ | ⟨hpoint, -⟩
  · simp only [hpoint, h.tasks] at hstep
    cases hstep
    rfl
  · simp only [hpoint] at hstep
    cases hstep

lemma Failed.setState (h : run.Failed) : (run.setState 11 .finished).Failed :=
  ⟨h.tasks, h.appended, .inr ⟨rfl, rfl⟩⟩

end DownloadRoutine.Run

open DownloadRoutine

namespace DownloadItemWidget

variable {xs : Extractors} {w w' : DownloadItemWidget} {e : Event} {run run' : Run} {k : ℕ}

/-- What holds of the routines of a widget in all its states. -/
structure Sound (w : DownloadItemWidget) : Prop where
  item : ∃ result, w.itemResult = some result
  runs : ∀ (k : ℕ) (run : Run), w.runs[k]? = some run → run.Sound
  pending : ∀ k ∈ w.pending, ∃ run : Run, w.runs[k]? = some run ∧ run.Failed

/-- As long as the error state is in the row, a routine has yet to write another one. -/
def Replaced (w : DownloadItemWidget) : Prop :=
  w.row.state = 7 → ∃ (k : ℕ) (run : Run), w.runs[k]? = some run ∧ run.Unsettled

/-- A routine that has failed stays failed, and its last write is still to come. -/
structure Follows (w w' : DownloadItemWidget) : Prop where
  sound : w'.Sound
  failed : ∀ (k : ℕ) (run : Run), w.runs[k]? = some run → run.Failed →
    ∃ run' : Run, w'.runs[k]? = some run' ∧ run'.Failed
  replaced : w.Replaced → w'.Replaced

lemma itemResult_eq_some {j : ℕ} (hitem : w.item = .run j) (hj : j < w.runs.length) :
    ∃ result, w.itemResult = some result := by
  refine ⟨(w.runs.get ⟨j, hj⟩).result, ?_⟩
  rw [itemResult, hitem]
  show w.runs[j]?.map Run.result = _
  rw [List.getElem?_eq_getElem hj]
  rfl

/-- The item keeps a map when routines are changed or added. -/
lemma itemResult_of_length {result : ItemResult} (h : w.itemResult = some result)
    (hitem : w'.item = w.item) (hlen : w.runs.length ≤ w'.runs.length) :
    ∃ result', w'.itemResult = some result' := by
  cases hw : w.item with
  | own result' => exact ⟨result', by rw [itemResult, hitem, hw]⟩
  | run j =>
    rw [itemResult, hw] at h
    obtain ⟨run, hj, -⟩ := Option.map_eq_some_iff.mp h
    have hlt := (List.getElem?_eq_some_iff.mp hj).1
    exact itemResult_eq_some (hitem.trans hw) (hlt.trans_le hlen)

/-- A routine goes on. -/
lemma Sound.follows_set (h : w.Sound) (hk : w.runs[k]? = some run) (hsound : run'.Sound)
    (hfailed : run.Failed → run'.Failed) (hruns : w'.runs = w.runs.set k run')
    (hitem : w'.item = w.item ∨ w'.item = .run k)
    (hrow : w'.row.state = 7 → w.row.state = 7 ∧ (run.Unsettled → run'.Unsettled))
    (hpending : ∀ j ∈ w'.pending, j ∈ w.pending ∨ j = k ∧ run'.Failed) : w.Follows w' := by
  have hlt : k < w.runs.length := (List.getElem?_eq_some_iff.mp hk).1
  have hlen : w'.runs.length = w.runs.length := by rw [hruns, List.length_set]
  have hself : w'.runs[k]? = some run' := by rw [hruns, List.getElem?_set_self hlt]
  have hother {j : ℕ} (hj : j ≠ k) : w'.runs[j]? = w.runs[j]? := by
    rw [hruns, List.getElem?_set_ne (Ne.symm hj)]
  have hkeep {P : Run → Prop} (hP : P run → P run') {j : ℕ} {r : Run} (hj : w.runs[j]? = some r)
      (hr : P r) : ∃ r' : Run, w'.runs[j]? = some r' ∧ P r' := by
    by_cases hjk : j = k
    · subst hjk
      obtain rfl := Option.some.inj (hk.symm.trans hj)
      exact ⟨run', hself, hP hr⟩
    · exact ⟨r, (hother hjk).trans hj, hr⟩
  refine ⟨⟨?_, fun j r hj => ?_, fun j hj => ?_⟩, fun j r hj hr => hkeep hfailed hj hr,
    fun hreplaced h7 => ?_⟩
  · obtain ⟨result, hresult⟩ := h.item
    rcases hitem with hitem | hitem
    · exact itemResult_of_length hresult hitem hlen.ge
    · exact itemResult_eq_some hitem (hlen ▸ hlt)
  · rcases getElem?_set_run hk (hruns ▸ hj) with ⟨-, rfl⟩ | ⟨-, hj⟩
    · exact hsound
    · exact h.runs j r hj
  · rcases hpending j hj with hj | ⟨rfl, hr⟩
    · obtain ⟨r, hrun, hr⟩ := h.pending j hj
      exact hkeep hfailed hrun hr
    · exact ⟨run', hself, hr⟩
  · obtain ⟨h7, hunsettled⟩ := hrow h7
    obtain ⟨j, r, hj, hr⟩ := hreplaced h7
    exact ⟨j, hkeep hunsettled hj hr⟩

/-- A routine that has not failed goes on, and the row stays. -/
lemma Sound.follows_put (h : w.Sound) (hk : w.runs[k]? = some run) (hsound : run'.Sound)
    (hfailed : ¬ run.Failed) : w.Follows (w.put k run') := by
  refine h.follows_set hk hsound (fun hf => absurd hf hfailed) rfl ?_ (fun h7 => ?_) fun j hj => ?_
  · show (if run'.saving then _ else _) = _ ∨ (if run'.saving then _ else _) = _
    split_ifs
    · exact .inr rfl
    · exact .inl rfl
  · exact ⟨h7, fun hu => absurd hu.1 hfailed⟩
  · exact .inl hj

/-- Nothing about the routines, the writes and the row changes. -/
lemma Sound.follows_congr (h : w.Sound) (hitem : ∃ result, w'.itemResult = some result)
    (hruns : w'.runs = w.runs) (hrow : w'.row.state = 7 → w.row.state = 7 ∨ ∃ (k : ℕ) (run : Run),
      w.runs[k]? = some run ∧ run.Unsettled) (hpending : w'.pending ⊆ w.pending) :
    w.Follows w' := by
  refine ⟨⟨hitem, hruns ▸ h.runs, fun j hj => ?_⟩, fun j r hj hr => ⟨r, hruns ▸ hj, hr⟩,
    fun hreplaced h7 => ?_⟩
  · rw [hruns]
    exact h.pending j (hpending hj)
  · rw [hruns]
    exact (hrow h7).elim hreplaced id

/-- A routine starts. -/
lemma Sound.follows_start (h : w.Sound) {result : ItemResult} (hresult : w.itemResult = some result)
    (hitem : w'.item = w.item) (hruns : w'.runs = w.runs ++ [({ result } : Run)])
    (hrow : w'.row = w.row) (hpending : w'.pending = w.pending) : w.Follows w' := by
  have hold {j : ℕ} {r : Run} (hj : w.runs[j]? = some r) : w'.runs[j]? = some r := by
    rw [hruns, List.getElem?_append_left (List.getElem?_eq_some_iff.mp hj).1, hj]
  refine ⟨⟨?_, fun j r hj => ?_, fun j hj => ?_⟩, fun j r hj hr => ⟨r, hold hj, hr⟩,
    fun hreplaced h7 => ?_⟩
  · refine itemResult_of_length hresult hitem ?_
    rw [hruns, List.length_append]
    exact Nat.le_add_right _ _
  · rw [hruns, List.getElem?_append] at hj
    split_ifs at hj
    · exact h.runs j r hj
    · obtain rfl := List.mem_singleton.mp (List.mem_of_getElem? hj)
      exact ⟨fun _ => ⟨rfl, rfl⟩, fun _ => ⟨rfl, .inl (Nat.zero_le 2)⟩⟩
  · rw [hpending] at hj
    obtain ⟨r, hrun, hr⟩ := h.pending j hj
    exact ⟨r, hold hrun, hr⟩
  · rw [hrow] at h7
    obtain ⟨j, r, hj, hr⟩ := hreplaced h7
    exact ⟨j, r, hold hj, hr⟩

lemma creating_sound (h : run.Sound) (hpoint : run.point = .createTasks) :
    ¬ run.Failed ∧ run.tasks = none ∧ run.appended = false ∧ run.result.state ≠ 7 := by
  have hfailed : ¬ run.Failed := by
    refine Run.not_failed ?_ ?_ <;> rw [hpoint] <;> decide
  obtain ⟨htasks, happended⟩ := h.early (by rw [hpoint]; decide)
  refine ⟨hfailed, htasks, happended, h.ne_error_of_rank ?_ ?_ hfailed⟩ <;> rw [hpoint] <;> decide

theorem follows_step (h : w.Sound) (hstep : w.step xs e = some w') : w.Follows w' := by
  cases e with
  | start =>
    simp only [step] at hstep
    split_ifs at hstep
    · cases hstep
      exact h.follows_congr h.item rfl .inl (List.Subset.refl _)
    · obtain ⟨result, hresult, hw⟩ := Option.bind_eq_some_iff.mp hstep
      cases hw
      exact h.follows_start hresult rfl rfl rfl rfl
  | retry =>
    obtain ⟨result, -, hw⟩ := Option.bind_eq_some_iff.mp hstep
    cases hw
    exact h.follows_congr ⟨_, rfl⟩ rfl .inl (List.Subset.refl _)
  | proceed k =>
    obtain ⟨run, hk, hstep⟩ := Option.bind_eq_some_iff.mp hstep
    obtain ⟨result, -, hstep⟩ := Option.bind_eq_some_iff.mp hstep
    split_ifs at hstep with hsaving
    rw [Bool.not_eq_true] at hsaving
    obtain ⟨⟨run', total⟩, hproceed, hw⟩ := Option.bind_eq_some_iff.mp hstep
    cases hw
    have hsound := Run.sound_proceed (h.runs k run hk) hsaving hproceed
    refine h.follows_set hk hsound (fun hf => ?_) rfl ?_ (fun h7 => ⟨h7, fun hu => ?_⟩)
      fun j hj => .inl hj
    · rw [hf.proceed_eq hproceed]
      exact hf.setState
    · show (if run'.saving then _ else _) = _ ∨ (if run'.saving then _ else _) = _
      split_ifs
      · exact .inr rfl
      · exact .inl rfl
    · rw [hu.1.proceed_eq hproceed]
      exact ⟨hu.1.setState, .inr rfl⟩
  | login k logined tryLogin =>
    obtain ⟨run, hk, hstep⟩ := Option.bind_eq_some_iff.mp hstep
    split_ifs at hstep
    obtain ⟨run', hlogin, hw⟩ := Option.bind_eq_some_iff.mp hstep
    cases hw
    refine h.follows_put hk (Run.sound_login (h.runs k run hk) hlogin) fun hfailed => ?_
    rw [Run.login] at hlogin
    rcases hfailed.point with ⟨hpoint, -⟩ | ⟨hpoint, -⟩ <;> rw [hpoint] at hlogin <;> cases hlogin
  | info k info =>
    obtain ⟨run, hcreating, hw⟩ := Option.bind_eq_some_iff.mp hstep
    cases hw
    obtain ⟨hk, -, hpoint⟩ := creating_eq_some hcreating
    obtain ⟨hfailed, htasks, happended, hne⟩ := creating_sound (h.runs k run hk) hpoint
    exact h.follows_put hk (Run.sound_of_ne hne fun _ => ⟨htasks, happended⟩) hfailed
  | thumbnail k url header =>
    obtain ⟨run, hcreating, hw⟩ := Option.bind_eq_some_iff.mp hstep
    cases hw
    obtain ⟨hk, -, hpoint⟩ := creating_eq_some hcreating
    obtain ⟨hfailed, htasks, happended, hne⟩ := creating_sound (h.runs k run hk) hpoint
    exact h.follows_put hk (Run.sound_of_ne hne fun _ => ⟨htasks, happended⟩) hfailed
  | returned k tasks =>
    obtain ⟨run, hcreating, hw⟩ := Option.bind_eq_some_iff.mp hstep
    cases hw
    obtain ⟨hk, -, hpoint⟩ := creating_eq_some hcreating
    obtain ⟨hfailed, -, -, hne⟩ := creating_sound (h.runs k run hk) hpoint
    exact h.follows_put hk (Run.sound_late .checkNothingToDownload rfl (by decide) hne) hfailed
  | threw k =>
    obtain ⟨run, hcreating, hw⟩ := Option.bind_eq_some_iff.mp hstep
    cases hw
    obtain ⟨hk, hsaving, hpoint⟩ := creating_eq_some hcreating
    obtain ⟨hfailed, htasks, happended, -⟩ := creating_sound (h.runs k run hk) hpoint
    have hfailed' : Run.Failed { run with
        result := { run.result with state := 7 }, point := .checkNothingToDownload } :=
      ⟨htasks, happended, .inl ⟨rfl, hsaving⟩⟩
    have hsound' : Run.Sound { run with
        result := { run.result with state := 7 }, point := .checkNothingToDownload } :=
      ⟨fun _ => ⟨htasks, happended⟩, fun _ => ⟨hsaving, .inr (.inr hfailed')⟩⟩
    refine h.follows_set hk hsound' (fun _ => hfailed') rfl (.inr rfl)
      (fun h7 => ⟨h7, fun hu => absurd hu.1 hfailed⟩) fun j hj => ?_
    exact (List.mem_append.mp hj).imp_right fun hj => ⟨List.mem_singleton.mp hj, hfailed'⟩
  | saved k =>
    obtain ⟨row, hrow, hstep⟩ := Option.bind_eq_some_iff.mp hstep
    obtain ⟨run, hk, hw⟩ := Option.bind_eq_some_iff.mp hstep
    rw [persists, hk] at hrow
    obtain ⟨hsaving, hrow⟩ := Option.ite_none_right_eq_some.mp hrow
    cases hrow
    cases hw
    have hsound := h.runs k run hk
    have hne := hsound.ne_error hsaving
    have hsound' : Run.Sound { run with saving := false } := Run.sound_of_ne hne hsound.early
    refine h.follows_set hk hsound' (fun hf => ?_) rfl (.inl rfl) (fun h7 => absurd h7 hne)
      fun j hj => .inl hj
    exact ⟨hf.tasks, hf.appended, hf.point.imp_left fun hpoint => ⟨hpoint.1, rfl⟩⟩
  | flushed i =>
    obtain ⟨row, hrow, hw⟩ := Option.bind_eq_some_iff.mp hstep
    obtain ⟨k, hi, hrow⟩ := Option.bind_eq_some_iff.mp hrow
    obtain ⟨run, hk, hrow⟩ := Option.bind_eq_some_iff.mp hrow
    cases hrow
    cases hw
    obtain ⟨r, hr, hfailed⟩ := h.pending k (List.mem_of_getElem? hi)
    obtain rfl := Option.some.inj (hk.symm.trans hr)
    refine h.follows_congr h.item rfl (fun h7 => .inr ⟨k, run, hk, hfailed, ?_⟩)
      (List.eraseIdx_subset)
    rcases hfailed.point with ⟨hpoint, -⟩ | ⟨-, h11⟩
    · exact .inl hpoint
    · have h7 : run.result.state = 7 := h7
      rw [h11] at h7
      exact absurd h7 (by decide)
  | reported k i error =>
    obtain ⟨run, hk, hstep⟩ := Option.bind_eq_some_iff.mp hstep
    obtain ⟨tasks, htasks, hstep⟩ := Option.bind_eq_some_iff.mp hstep
    obtain ⟨⟨happended, -, -⟩, hw⟩ := Option.ite_none_right_eq_some.mp hstep
    cases hw
    have hsound := h.runs k run hk
    have hfailed : ¬ run.Failed := by
      intro hf
      rw [hf.tasks] at htasks
      cases htasks
    have hsound' : Run.Sound { run with reported := run.reported ++ [i] } := by
      refine ⟨hsound.early, fun h7 => ?_⟩
      obtain ⟨hsaving, herror⟩ := hsound.error h7
      exact ⟨hsaving, herror.imp_right fun h => .inl (h.resolve_right hfailed)⟩
    exact h.follows_set hk hsound' (fun hf => absurd hf hfailed) rfl (.inl rfl)
      (fun h7 => ⟨h7, fun hu => absurd hu.1 hfailed⟩) fun j hj => .inl hj

/-! ### What remains -/

lemma sound_of_reaches {result : ItemResult} {download : Bool}
    (h : Reaches (step xs) anyEvent (init result download) w) : w.Sound := by
  refine h.invariant ⟨⟨result, rfl⟩, fun k run hk => ?_, fun k hk => ?_⟩ fun _ _ _ hs _ hstep =>
    (follows_step hs hstep).sound
  · cases hk
  · cases hk

lemma follows_of_reaches (h : w.Sound) (hreaches : Reaches (step xs) anyEvent w w') :
    w.Follows w' := by
  refine hreaches.invariant ⟨h, fun _ run hk hr => ⟨run, hk, hr⟩, id⟩ fun t e u ht _ hstep => ?_
  have hu := follows_step ht.sound hstep
  refine ⟨hu.sound, fun k run hk hr => ?_, hu.replaced ∘ ht.replaced⟩
  obtain ⟨run', hk', hr'⟩ := ht.failed k run hk hr
  exact hu.failed k run' hk' hr'

/-- A step of the routine `k`, or one of its writes. -/
def Of (k : ℕ) (w : DownloadItemWidget) : Event → Prop
  | .proceed j | .saved j => j = k
  | .flushed i => w.pending[i]? = some k
  | _ => False

/-- The routine has nothing left to do, and its writes have been carried out. -/
def SettledAt (w : DownloadItemWidget) (k : ℕ) : Prop :=
  k ∉ w.pending ∧ ∃ run : Run, w.runs[k]? = some run ∧ run.point = .finished ∧ run.saving = false

/-- No routine has anything left to do, and all writes have been carried out. -/
def Settled (w : DownloadItemWidget) : Prop :=
  w.pending = [] ∧ ∀ run ∈ w.runs, run.point = .finished ∧ run.saving = false

/-- The error state remains in the row, and no tasks of the routine have been appended. -/
def EndsAsFailed (w : DownloadItemWidget) (k : ℕ) : Prop :=
  w.row.state = 7 ∧ ∃ run : Run, w.runs[k]? = some run ∧ run.appended = false

/-- The writes that nobody waits for write what the map has become. -/
lemma exists_flushed (hk : w.runs[k]? = some run) (h11 : run.result.state = 11)
    (hrow : w.row.state = 11) : ∃ w' : DownloadItemWidget, Reaches (step xs) (Of k) w w' ∧
      k ∉ w'.pending ∧ w'.runs = w.runs ∧ w'.row.state = 11 := by
  induction hn : w.pending.length generalizing w with
  | zero =>
    refine ⟨w, .refl, ?_, rfl, hrow⟩
    rw [List.length_eq_zero_iff.mp hn]
    exact List.not_mem_nil
  | succ n ih =>
    by_cases hmem : k ∈ w.pending
    · obtain ⟨i, hi⟩ := List.mem_iff_getElem?.mp hmem
      have hlt := (List.getElem?_eq_some_iff.mp hi).1
      have hof : w.Of k (.flushed i) := hi
      have hstep : w.step xs (.flushed i) =
          some { w with row := run.result, pending := w.pending.eraseIdx i } := by
        simp [step, persists, hi, hk]
      obtain ⟨w', hreaches, hno, hruns, hrow'⟩ :=
        ih (w := { w with row := run.result, pending := w.pending.eraseIdx i }) hk h11
          (by rw [List.length_eraseIdx_of_lt hlt, hn, Nat.add_sub_cancel])
      exact ⟨w', (Reaches.tail .refl hof hstep).trans hreaches, hno, hruns, hrow'⟩
    · exact ⟨w, .refl, hmem, rfl, hrow⟩

/-- The routine that has failed writes that there is nothing to download. -/
lemma exists_settledAt (h : w.Sound) (hk : w.runs[k]? = some run) (htasks : run.tasks = none)
    (hpoint : run.point = .checkNothingToDownload) (hsaving : run.saving = false) :
    ∃ w' : DownloadItemWidget, Reaches (step xs) (Of k) w w' ∧ w'.SettledAt k ∧
      w'.row.state = 11 := by
  have hlt := (List.getElem?_eq_some_iff.mp hk).1
  obtain ⟨result, hresult⟩ := h.item
  have hproceed : w.step xs (.proceed k) = some (w.put k (run.setState 11 .finished)) := by
    simp [step, hk, hresult, hsaving, Run.proceed, hpoint, htasks, put]
  set w₁ := w.put k (run.setState 11 .finished) with hw₁
  have hk₁ : w₁.runs[k]? = some (run.setState 11 .finished) := List.getElem?_set_self hlt
  have hlt₁ : k < w₁.runs.length := (List.getElem?_eq_some_iff.mp hk₁).1
  set run' : Run := { run.setState 11 .finished with saving := false } with hrun'
  set w₂ : DownloadItemWidget := { w₁ with row := run'.result, runs := w₁.runs.set k run' } with hw₂
  have hk₂ : w₂.runs[k]? = some run' := List.getElem?_set_self hlt₁
  have hsaved : w₁.step xs (.saved k) = some w₂ := by
    simp only [step, persists, hk₁]
    rfl
  have hof : w.Of k (.proceed k) := rfl
  have hof₁ : w₁.Of k (.saved k) := rfl
  obtain ⟨w', hreaches, hno, hruns, hrow⟩ : ∃ w' : DownloadItemWidget,
      Reaches (step xs) (Of k) w₂ w' ∧ k ∉ w'.pending ∧ w'.runs = w₂.runs ∧ w'.row.state = 11 :=
    exists_flushed hk₂ rfl rfl
  exact ⟨w', (Reaches.tail (.tail .refl hof hproceed) hof₁ hsaved).trans hreaches,
    ⟨hno, run', hruns ▸ hk₂, rfl, rfl⟩, hrow⟩

/-- When the extractor of a routine throws, the routine goes on to the state of an item with nothing
to download, and the error state is not in the row when all is done. -/
theorem not_endsAsFailed_of_threw {result : ItemResult} {download : Bool}
    (h : Reaches (step xs) anyEvent (init result download) w)
    (hthrew : w.step xs (.threw k) = some w') :
    (∃ w'' : DownloadItemWidget, Reaches (step xs) (Of k) w' w'' ∧ w''.SettledAt k ∧
        w''.row.state = 11) ∧
      ∀ w'' : DownloadItemWidget, Reaches (step xs) anyEvent w' w'' →
        (∃ run : Run, w''.runs[k]? = some run ∧ run.appended = false) ∧
          (w''.Settled → ¬ w''.EndsAsFailed k) := by
  have hsound := sound_of_reaches h
  have hsound' := (follows_step hsound hthrew).sound
  obtain ⟨run, hcreating, hw⟩ := Option.bind_eq_some_iff.mp hthrew
  cases hw
  obtain ⟨hk, hsaving, hpoint⟩ := creating_eq_some hcreating
  obtain ⟨-, htasks, happended, -⟩ := creating_sound (hsound.runs k run hk) hpoint
  have hlt := (List.getElem?_eq_some_iff.mp hk).1
  refine ⟨exists_settledAt hsound' (List.getElem?_set_self hlt) htasks rfl hsaving, ?_⟩
  intro w'' hreaches
  have hfollows := follows_of_reaches hsound' hreaches
  have hfailed : Run.Failed { run with
      result := { run.result with state := 7 }, point := .checkNothingToDownload } :=
    ⟨htasks, happended, .inl ⟨rfl, hsaving⟩⟩
  constructor
  · obtain ⟨run'', hk'', hfailed''⟩ := hfollows.failed k _ (List.getElem?_set_self hlt) hfailed
    exact ⟨run'', hk'', hfailed''.appended⟩
  · rintro ⟨-, hruns⟩ ⟨h7, -⟩
    obtain ⟨j, r, hj, -, hr⟩ := hfollows.replaced
      (fun _ => ⟨k, _, List.getElem?_set_self hlt, hfailed, .inl rfl⟩) h7
    obtain ⟨hfinished, hnot⟩ := hruns r (List.mem_of_getElem? hj)
    rcases hr with hr | hr
    · rw [hfinished] at hr
      cases hr
    · rw [hnot] at hr
      cases hr

/-- The item of one task whose extractor throws at once. -/
def throwOnce : List Event :=
  [.start, .proceed 0, .proceed 0, .proceed 0, .saved 0, .proceed 0, .login 0 false true]

theorem not_endsAsFailed_throwOnce : ∃ w w' : DownloadItemWidget,
    Transition.run (step openExtractors) anyEvent (init { state := 1 } true) throwOnce = some w ∧
      w.step openExtractors (.threw 0) = some w' ∧
      ∃ w'' : DownloadItemWidget, Reaches (step openExtractors) (Of 0) w' w'' ∧ w''.SettledAt 0 ∧
        w''.row.state = 11 := by
  obtain ⟨w, hw, w', hw'⟩ : ∃ w : DownloadItemWidget,
      Transition.run (step openExtractors) anyEvent (init { state := 1 } true) throwOnce = some w ∧
        ∃ w', w.step openExtractors (.threw 0) = some w' :=
    ⟨_, rfl, _, rfl⟩
  exact ⟨w, w', hw, hw', (not_endsAsFailed_of_threw (reaches_of_run hw) hw').1⟩

/-- The write of the error state is carried out, and then the one that there is nothing to download.
-/
theorem not_endsAsFailed_nothing :
    ¬ ∀ (xs : Extractors) (result : ItemResult) (download : Bool) (w w' w'' : DownloadItemWidget)
      (k : ℕ), Reaches (step xs) anyEvent (init result download) w →
        w.step xs (.threw k) = some w' → Reaches (step xs) anyEvent w' w'' → w''.Settled →
        w''.EndsAsFailed k := by
  intro h
  obtain ⟨w, hw, w', hw', w'', hw'', hsettled, h11⟩ : ∃ w : DownloadItemWidget,
      Transition.run (step openExtractors) anyEvent (init { state := 1 } true) throwOnce = some w ∧
        ∃ w', w.step openExtractors (.threw 0) = some w' ∧ ∃ w'' : DownloadItemWidget,
          Transition.run (step openExtractors) anyEvent w' [.flushed 0, .proceed 0, .saved 0] =
            some w'' ∧ w''.Settled ∧ w''.row.state = 11 := by
    refine ⟨_, rfl, _, rfl, _, rfl, ⟨rfl, ?_⟩, rfl⟩
    intro run hrun
    obtain rfl := List.mem_singleton.mp hrun
    exact ⟨rfl, rfl⟩
  have h7 := (h _ _ _ w w' w'' 0 (reaches_of_run hw) hw' (reaches_of_run hw'') hsettled).1
  rw [h11] at h7
  exact absurd h7 (by decide)

end DownloadItemWidget
