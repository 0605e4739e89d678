import Violet.Sync.SyncManager

/-!
# Interrupted synchronisations

Chunks may be applied twice, so what is still to be done leads to the same table as what was to be
done in the beginning. The deletion in the end is not made up for when it fails.
-/

namespace Violet

open Dart Transition

namespace SyncSource

variable {α : Type} {src : SyncSource α} {d d' d0 : Device α} {rows : List α}
  {table : ℤ → Option α} {stop e : Option SyncStop} {latest : ℤ}

/-! ### Chunks -/

lemma replace_apply (src : SyncSource α) (table : ℤ → Option α) (rows : List α) (id : ℤ) :
    src.replace table rows id = (rows.reverse.find? fun row => src.id row = id).or (table id) := by
  induction rows generalizing table with
  | nil => rfl
  | cons row rest ih =>
    have hstep : src.replace table (row :: rest) =
      src.replace (Function.update table (src.id row) (some row)) rest := rfl
    rw [hstep, ih, List.reverse_cons, List.find?_append, Option.or_assoc]
    congr 1
    by_cases hid : src.id row = id
    · subst hid
      simp
    · rw [Function.update_of_ne (Ne.symm hid)]
      simp [hid]

/-- A chunk that is applied twice. -/
lemma replace_replace (src : SyncSource α) (table : ℤ → Option α) (rows : List α) :
    src.replace (src.replace table rows) rows = src.replace table rows := by
  funext id
  rw [replace_apply, replace_apply, ← Option.or_assoc, Option.or_self]

/-- The table after some chunks, the oldest one first. -/
def chunkTable (src : SyncSource α) (chunks : List SyncInfoRecord) (table : ℤ → Option α) :
    Option (ℤ → Option α) :=
  chunks.foldlM (fun table r => (src.chunkRows r).map (src.replace table)) table

lemma chunkTable_cons {r : SyncInfoRecord} (hrows : src.chunkRows r = some rows)
    (rest : List SyncInfoRecord) (table : ℤ → Option α) :
    src.chunkTable (r :: rest) table = src.chunkTable rest (src.replace table rows) := by
  simp [chunkTable, hrows]

lemma chunkTable_replace {r : SyncInfoRecord} (hrows : src.chunkRows r = some rows)
    (rest : List SyncInfoRecord) (table : ℤ → Option α) :
    src.chunkTable (r :: rest) (src.replace table rows) = src.chunkTable (r :: rest) table := by
  rw [chunkTable_cons hrows, replace_replace, chunkTable_cons hrows]

/-- The chunks of the server, the oldest one first. -/
def history (src : SyncSource α) : List SyncInfoRecord :=
  ((readLines src.lines).getD []).reverse.filter fun r =>
    r.isChunk && ".json".toList.isSuffixOf r.url

/-- The timestamps of the chunks are strictly increasing. -/
def Increasing (src : SyncSource α) : Prop :=
  src.history.Pairwise fun r r' => r.timestamp < r'.timestamp

/-- The chunks that are still to be applied. -/
def pending (src : SyncSource α) (d : Device α) : List SyncInfoRecord :=
  match d.synclatest with
  | none => []
  | some latest => src.history.filter fun r => latest < r.timestamp

lemma chunks_required {records : List SyncInfoRecord} (h : readLines src.lines = some records)
    (hlatest : d.synclatest = some latest) :
    chunks (records.filter (SyncInfoRecord.required latest)) = src.pending d := by
  simp only [chunks, pending, hlatest, history, h, Option.getD_some, ← List.filter_reverse,
    List.filter_filter]
  refine List.filter_congr fun r _ => ?_
  rw [SyncInfoRecord.required]
  generalize ".json".toList.isSuffixOf r.url = json
  by_cases hts : latest < r.timestamp
  · cases r.isChunk <;> cases json <;> simp [hts]
  · cases r.isChunk <;> cases json <;> simp [hts, Int.not_lt.mp hts]

/-- A chunk whose timestamp is recorded is no longer pending. -/
lemma pending_record (hsrc : src.Increasing) {r : SyncInfoRecord} {rest : List SyncInfoRecord}
    (h : src.pending d = r :: rest) (table : ℤ → Option α) :
    src.pending { table := table, synclatest := some r.timestamp } = rest := by
  rw [pending] at h ⊢
  cases hlatest : d.synclatest with
  | none => simp [hlatest] at h
  | some latest =>
    simp only [hlatest] at h ⊢
    have hr : latest < r.timestamp := by
      have hmem : r ∈ src.history.filter fun r => latest < r.timestamp := by simp [h]
      simpa using (List.mem_filter.mp hmem).2
    have hpair : (r :: rest).Pairwise fun r r' => r.timestamp < r'.timestamp :=
      h ▸ hsrc.filter _
    calc src.history.filter (fun r' => r.timestamp < r'.timestamp)
        = (src.history.filter fun r => latest < r.timestamp).filter
            (fun r' => r.timestamp < r'.timestamp) := by
          rw [List.filter_filter]
          refine List.filter_congr fun r' _ => ?_
          rw [Bool.eq_iff_iff]
          simp only [decide_eq_true_eq, Bool.and_eq_true]
          omega
      _ = rest := by
          rw [h, List.filter_cons_of_neg (by simp)]
          exact List.filter_eq_self.mpr fun r' hr' =>
            decide_eq_true (List.rel_of_pairwise_cons hpair hr')

/-! ### One attempt -/

/-- The loop over the pending chunks. -/
lemma applyChunks_pending (hsrc : src.Increasing) (i : ℕ) {chunks : List SyncInfoRecord}
    (hchunks : src.pending d = chunks) (h : src.applyChunks stop i chunks d = (d', e)) :
    src.chunkTable (src.pending d') d'.table = src.chunkTable chunks d.table ∧
      (d'.synclatest = none ↔ d.synclatest = none) ∧
      (e = none → src.pending d' = []) ∧
      (e ≠ none → src.pending d' ≠ [] ∧ e ≠ some .filtering) := by
  induction chunks generalizing i d with
  | nil =>
    cases h
    exact ⟨by rw [hchunks], Iff.rfl, fun _ => hchunks, fun h => absurd rfl h⟩
  | cons r rest ih =>
    have hlatest : d.synclatest ≠ none := by
      intro hnone
      simp [pending, hnone] at hchunks
    rw [applyChunks] at h
    by_cases happly : stop = some (.applying i)
    · rw [if_pos happly] at h
      cases h
      exact ⟨by rw [hchunks], Iff.rfl, nofun, fun _ => ⟨by simp [hchunks], by simp⟩⟩
    · rw [if_neg happly] at h
      cases hrows : src.chunkRows r with
      | none =>
        simp only [hrows] at h
        cases h
        exact ⟨by rw [hchunks], Iff.rfl, nofun, fun _ => ⟨by simp [hchunks], by simp⟩⟩
      | some rows =>
        simp only [hrows] at h
        by_cases hrecord : stop = some (.recording i)
        · rw [if_pos hrecord] at h
          cases h
          have hpending : src.pending { d with table := src.replace d.table rows } = r :: rest :=
            hchunks
          refine ⟨?_, Iff.rfl, nofun, fun _ => ⟨by simp [hpending], by simp⟩⟩
          rw [hpending]
          exact chunkTable_replace hrows rest d.table
        · rw [if_neg hrecord] at h
          obtain ⟨htable, hsync, hnone, hsome⟩ := ih (i + 1) (pending_record hsrc hchunks _) h
          refine ⟨?_, ?_, hnone, hsome⟩
          · rw [htable, chunkTable_cons hrows]
          · simpa [hlatest] using hsync

/-- The list of the server is read, or not needed. -/
def Readable (src : SyncSource α) (d : Device α) : Prop :=
  d.synclatest = none ∨ (readLines src.lines).isSome

/-- An attempt changes nothing, or works on the pending chunks. -/
lemma attempt_cases (src : SyncSource α) (stop : Option SyncStop) (d : Device α) :
    (d.synclatest = none ∧ src.attempt stop d = (d, none)) ∨
      ((stop = some .fetching ∨ ¬ src.Readable d) ∧ src.attempt stop d = (d, some .fetching)) ∨
      (src.Readable d ∧ src.attempt stop d = src.doChunkSync stop (src.pending d) d) := by
  cases hlatest : d.synclatest with
  | none => exact .inl ⟨rfl, by rw [attempt, hlatest]⟩
  | some latest =>
    refine .inr ?_
    rw [attempt, hlatest]
    by_cases hfetch : stop = some .fetching
    · exact .inl ⟨.inl hfetch, if_pos hfetch⟩
    · simp only [hfetch, if_false, checkSync]
      cases hlines : readLines src.lines with
      | none => exact .inl ⟨.inr (by simp [Readable, hlatest, hlines]), rfl⟩
      | some records =>
        refine .inr ⟨.inr (by simp [hlines]), ?_⟩
        rw [Option.map_some, ← chunks_required hlines hlatest]

/-- The table after an attempt that is not interrupted. -/
def target (src : SyncSource α) (d0 : Device α) : Option (ℤ → Option α) :=
  if src.pending d0 = [] then some d0.table
  else (src.chunkTable (src.pending d0) d0.table).map src.clean

/-- Chunks are pending, and they lead to the same table as in the beginning. -/
def Working (src : SyncSource α) (d0 d : Device α) : Prop :=
  src.pending d ≠ [] ∧
    src.chunkTable (src.pending d) d.table = src.chunkTable (src.pending d0) d0.table

/-- No chunks are pending, and the deletion has failed. -/
def Unfiltered (src : SyncSource α) (d0 d : Device α) : Prop :=
  src.pending d = [] ∧ some d.table = src.chunkTable (src.pending d0) d0.table

/-- No chunks are pending, and the table is that of an attempt that is not interrupted. -/
def Done (src : SyncSource α) (d0 d : Device α) : Prop :=
  src.pending d = [] ∧ some d.table = src.target d0

/-- What holds after some attempts, one of which has failed at the deletion, or none. -/
def After (src : SyncSource α) (d0 : Device α) (unfiltered : Bool) (d : Device α) : Prop :=
  src.pending d0 ≠ [] ∧ (if unfiltered then Unfiltered src d0 d else Working src d0 d) ∨
    unfiltered = false ∧ Done src d0 d

/-- An attempt that completes or fails at a step, from the end of its loop on. -/
lemma doChunkSync_after {unfiltered : Bool} (hsrc : src.Increasing)
    (h : src.After d0 unfiltered d) (hs : src.doChunkSync stop (src.pending d) d = (d', e)) :
    src.After d0 (unfiltered || e = some .filtering) d' ∧
      (d'.synclatest = none ↔ d.synclatest = none) ∧ (e = none → src.pending d' = []) := by
  rw [doChunkSync] at hs
  rcases hloop : src.applyChunks stop 0 (src.pending d) d with ⟨u, _ | i⟩
  · obtain ⟨htable, hsync, hnone, -⟩ := applyChunks_pending hsrc 0 rfl hloop
    simp only [hloop] at hs
    by_cases hpending : src.pending d = []
    · rw [if_pos hpending] at hs
      cases hs
      have hd : d' = d := by
        rw [hpending] at hloop
        exact (congrArg Prod.fst hloop).symm
      subst hd
      exact ⟨by simpa using h, Iff.rfl, fun _ => hpending⟩
    · rw [if_neg hpending] at hs
      -- Only a device with pending chunks comes to the deletion.
      have hworking : src.pending d0 ≠ [] ∧ unfiltered = false ∧ src.Working d0 d := by
        rcases h with ⟨hne, h⟩ | ⟨-, hdone⟩
        · split_ifs at h with hunfiltered
          · exact absurd h.1 hpending
          · exact ⟨hne, by simpa using hunfiltered, h⟩
        · exact absurd hdone.1 hpending
      obtain ⟨hne, rfl, -, hsame⟩ := hworking
      have hu : some u.table = src.chunkTable (src.pending d0) d0.table := by
        rw [← hsame, ← htable, hnone rfl]
        rfl
      by_cases hfilter : stop = some .filtering
      · rw [if_pos hfilter] at hs
        cases hs
        exact ⟨.inl ⟨hne, hnone rfl, hu⟩, hsync, nofun⟩
      · rw [if_neg hfilter] at hs
        cases hs
        refine ⟨.inr ⟨by simp, hnone rfl, ?_⟩, hsync, fun _ => hnone rfl⟩
        rw [target, if_neg hne, ← hu, Option.map_some]
  · obtain ⟨htable, hsync, -, hsome⟩ := applyChunks_pending hsrc 0 rfl hloop
    simp only [hloop] at hs
    cases hs
    obtain ⟨hpending', hnot⟩ := hsome (by simp)
    have hpending : src.pending d ≠ [] := by
      intro hnil
      rw [hnil] at hloop
      cases hloop
    refine ⟨?_, hsync, nofun⟩
    rw [decide_eq_false hnot, Bool.or_false]
    rcases h with ⟨hne, h⟩ | ⟨-, hdone⟩
    · split_ifs at h with hunfiltered
      · exact absurd h.1 hpending
      · refine .inl ⟨hne, ?_⟩
        rw [if_neg hunfiltered]
        exact ⟨hpending', htable.trans h.2⟩
    · exact absurd hdone.1 hpending

lemma step_after {unfiltered : Bool} (hsrc : src.Increasing) (h : src.After d0 unfiltered d)
    (hs : src.step d e = some d') :
    src.After d0 (unfiltered || e = some .filtering) d' ∧
      (d'.synclatest = none ↔ d.synclatest = none) ∧
      (e = none → src.Readable d ∧ src.pending d' = []) := by
  obtain ⟨he, hd⟩ := Option.ite_none_right_eq_some.mp hs
  rcases src.attempt_cases e d with ⟨hnone, hattempt⟩ | ⟨-, hattempt⟩ |
    ⟨hread, hattempt⟩
  · rw [hattempt] at he hd
    cases he
    cases hd
    exact ⟨by simpa using h, Iff.rfl, fun _ => ⟨.inl hnone, by rw [pending, hnone]⟩⟩
  · rw [hattempt] at he hd
    cases he
    cases hd
    exact ⟨by simpa using h, Iff.rfl, nofun⟩
  · rw [hattempt] at he hd
    have hs' : src.doChunkSync e (src.pending d) d = (d', e) := Prod.ext (Option.some.inj hd) he
    obtain ⟨hafter, hsync, hnone⟩ := doChunkSync_after hsrc h hs'
    exact ⟨hafter, hsync, fun he => ⟨hread, hnone he⟩⟩

/-! ### Sequences of attempts -/

lemma run_after (hsrc : src.Increasing) {stops : List (Option SyncStop)} {unfiltered : Bool}
    (h : src.After d0 unfiltered d) (hrun : run src.step anyEvent d stops = some d') :
    src.After d0 (unfiltered || some .filtering ∈ stops) d' ∧
      (d'.synclatest = none ↔ d.synclatest = none) := by
  induction stops generalizing d unfiltered with
  | nil =>
    cases hrun
    exact ⟨by simpa using h, Iff.rfl⟩
  | cons e stops ih =>
    obtain ⟨u, hu, hrest⟩ := Option.bind_eq_some_iff.mp hrun
    obtain ⟨-, hs⟩ := Option.ite_none_right_eq_some.mp hu
    obtain ⟨hafter, hsync, -⟩ := step_after hsrc h hs
    obtain ⟨hafter', hsync'⟩ := ih hafter hrest
    refine ⟨?_, hsync'.trans hsync⟩
    rw [Bool.or_assoc] at hafter'
    simpa [eq_comm] using hafter'

lemma after_self (src : SyncSource α) (d0 : Device α) : src.After d0 false d0 := by
  by_cases hpending : src.pending d0 = []
  · refine .inr ⟨rfl, hpending, ?_⟩
    rw [target, if_pos hpending]
  · exact .inl ⟨hpending, hpending, rfl⟩

/-! ### An attempt that is not interrupted -/

lemma applyChunks_none (i : ℕ) {chunks : List SyncInfoRecord}
    (h : src.chunkTable chunks d.table = some table) :
    ∃ synclatest, src.applyChunks none i chunks d = (⟨table, synclatest⟩, none) := by
  induction chunks generalizing i d with
  | nil =>
    cases h
    exact ⟨d.synclatest, rfl⟩
  | cons r rest ih =>
    cases hrows : src.chunkRows r with
    | none => simp [chunkTable, hrows] at h
    | some rows =>
      rw [chunkTable_cons hrows] at h
      obtain ⟨synclatest, hrest⟩ :=
        ih (d := ⟨src.replace d.table rows, some r.timestamp⟩) (i + 1) h
      exact ⟨synclatest, by simpa [applyChunks, hrows] using hrest⟩

lemma exists_step_none (hread : src.Readable d0) (htarget : src.target d0 = some table) :
    ∃ t, src.step d0 none = some t ∧ t.table = table := by
  suffices hattempt : ∃ t, src.attempt none d0 = (t, none) ∧ t.table = table by
    obtain ⟨t, ht, htable⟩ := hattempt
    exact ⟨t, by simp [step, ht], htable⟩
  rcases src.attempt_cases none d0 with ⟨hnone, hattempt⟩ | ⟨hstop, -⟩ | ⟨-, hattempt⟩
  · refine ⟨d0, hattempt, ?_⟩
    have hpending : src.pending d0 = [] := by rw [pending, hnone]
    rw [target, if_pos hpending] at htarget
    exact Option.some.inj htarget
  · exact absurd hread (hstop.resolve_left nofun)
  · rw [hattempt, doChunkSync]
    by_cases hpending : src.pending d0 = []
    · rw [target, if_pos hpending] at htarget
      refine ⟨d0, ?_, Option.some.inj htarget⟩
      simp [hpending, applyChunks]
    · rw [target, if_neg hpending] at htarget
      obtain ⟨u, hu, rfl⟩ := Option.map_eq_some_iff.mp htarget
      obtain ⟨synclatest, hloop⟩ := applyChunks_none 0 hu
      exact ⟨⟨src.clean u, synclatest⟩, by simp [hloop, hpending], rfl⟩

lemma clean_eq_self_iff : src.clean table = table ↔
    ∀ id, ∀ row ∈ table id, src.excluded row = false := by
  rw [funext_iff]
  refine forall_congr' fun id => ?_
  rw [clean]
  cases table id with
  | none => simp
  | some row => cases hrow : src.excluded row <;> simp [Option.filter, hrow]

/-- When the last of some attempts completes, the table is that of one attempt that is not
interrupted, if and only if no attempt has failed at the deletion in the end, or there is nothing
to delete. -/
theorem table_eq_iff_of_run (src : SyncSource α) (hsrc : src.Increasing) (d0 d1 d : Device α)
    (stops : List (Option SyncStop)) (hrun : run src.step anyEvent d0 stops = some d1)
    (hlast : src.step d1 none = some d) :
    ∃ t, src.step d0 none = some t ∧ (d.table = t.table ↔
      some .filtering ∉ stops ∨ ∀ table ∈ src.chunkTable (src.pending d0) d0.table,
        ∀ id, ∀ row ∈ table id, src.excluded row = false) := by
  obtain ⟨hafter, hsync⟩ := run_after hsrc (src.after_self d0) hrun
  obtain ⟨hafter, -, hread⟩ := step_after hsrc hafter hlast
  obtain ⟨hread, hpending⟩ := hread rfl
  have hread0 : src.Readable d0 := by rwa [Readable, ← hsync]
  rw [Bool.false_or, decide_eq_false (by simp : ¬ (none : Option SyncStop) = some .filtering),
    Bool.or_false] at hafter
  by_cases hstops : some SyncStop.filtering ∈ stops
  · rw [decide_eq_true hstops] at hafter
    rcases hafter with ⟨hne, -, htable⟩ | ⟨hfalse, -⟩
    · have htarget : src.target d0 = some (src.clean d.table) := by
        rw [target, if_neg hne, ← htable, Option.map_some]
      obtain ⟨t, ht, hclean⟩ := exists_step_none hread0 htarget
      refine ⟨t, ht, ?_⟩
      rw [hclean, eq_comm, clean_eq_self_iff, ← htable]
      simp [hstops]
    · cases hfalse
  · rw [decide_eq_false hstops] at hafter
    rcases hafter with ⟨-, hworking⟩ | ⟨-, -, htable⟩
    · exact absurd hpending hworking.1
    · obtain ⟨t, ht, htarget⟩ := exists_step_none hread0 htable.symm
      exact ⟨t, ht, by simp [htarget, hstops]⟩

/-! ### Two sequences -/

/-- A server with one chunk of one article, which the settings exclude. -/
def oneChunk : SyncSource ℤ where
  lines := ["chunk 2 a.json 1".toList]
  body _ := some [7]
  id row := row
  language _ := none
  databaseType := "global".toList
  excluded _ := true

/-- A device that has been synchronised before that chunk. -/
def emptyDevice : Device ℤ where
  table _ := none
  synclatest := some 1

lemma increasing_oneChunk : oneChunk.Increasing := by
  have hhistory : oneChunk.history.length ≤ 1 := by decide +kernel
  rw [Increasing]
  match oneChunk.history, hhistory with
  | [], _ => exact .nil
  | [r], _ => exact List.pairwise_singleton _ r

/-- The timestamp is not recorded at first, and the chunk is applied twice. -/
theorem table_eq_iff_of_run_oneChunk :
    ∃ d1 d t, run oneChunk.step anyEvent emptyDevice [some (.recording 0)] = some d1 ∧
      oneChunk.step d1 none = some d ∧ oneChunk.step emptyDevice none = some t ∧
        (d.table = t.table ↔ some .filtering ∉ [some (SyncStop.recording 0)] ∨
          ∀ table ∈ oneChunk.chunkTable (oneChunk.pending emptyDevice) emptyDevice.table,
            ∀ id, ∀ row ∈ table id, oneChunk.excluded row = false) := by
  have hrun : ((run oneChunk.step anyEvent emptyDevice [some (.recording 0)]).bind
      fun d => oneChunk.step d none).isSome := by
    decide +kernel
  obtain ⟨d, hd⟩ := Option.isSome_iff_exists.mp hrun
  obtain ⟨d1, hd1, hd⟩ := Option.bind_eq_some_iff.mp hd
  obtain ⟨t, ht, htable⟩ := table_eq_iff_of_run oneChunk increasing_oneChunk emptyDevice d1 d
    [some (.recording 0)] hd1 hd
  exact ⟨d1, d, t, hd1, hd, ht, htable⟩

/-- The deletion fails, and the next attempt finds no chunk and completes without it. -/
theorem not_table_eq_of_filtering :
    ¬ ∀ src : SyncSource ℤ, src.Increasing → ∀ d0 d1 d t stops,
      run src.step anyEvent d0 stops = some d1 → src.step d1 none = some d →
        src.step d0 none = some t → d.table = t.table := by
  intro h
  have hrun : ((run oneChunk.step anyEvent emptyDevice [some .filtering]).bind
      fun d => oneChunk.step d none).map (fun d => d.table 7) = some (some 7) := by
    decide +kernel
  have hsingle : (oneChunk.step emptyDevice none).map (fun t => t.table 7) = some none := by
    decide +kernel
  obtain ⟨d, hd, hseven⟩ := Option.map_eq_some_iff.mp hrun
  obtain ⟨d1, hd1, hd⟩ := Option.bind_eq_some_iff.mp hd
  obtain ⟨t, ht, hnone⟩ := Option.map_eq_some_iff.mp hsingle
  have htable := h oneChunk increasing_oneChunk emptyDevice d1 d t [some .filtering] hd1 hd ht
  rw [htable, hnone] at hseven
  cases hseven

end SyncSource

end Violet
