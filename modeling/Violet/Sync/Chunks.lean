import Violet.Sync.Attempts

/-!
# The chunks of a synchronisation

A synchronisation requests its chunks in batches of sixteen, the latest chunk first. The responses
to a batch arrive in any order, and its results are in the order of the requests. When all batches
are there, the chunks are applied from the oldest to the latest one.
-/

namespace Violet

open Dart Transition

/-! ### The loops -/

/-- Where the synchronisation is. -/
inductive SyncPhase (β : Type) where
  /-- Before the batch with this number. -/
  | sending (i : ℕ)
  /-- A batch has been requested, and some of its responses have arrived. -/
  | waiting (i : ℕ) (futures : List (Option β))
  /-- Before the turn with this number of the loop that applies the chunks. -/
  | updating (i : ℕ)
  deriving DecidableEq, Repr

/-- A synchronisation on its way: what it has requested, received and applied so far. -/
structure ChunkSync (β α : Type) where
  phase : SyncPhase β := .sending 0
  requests : List Str := []
  res : List β := []
  applied : List (SyncInfoRecord × List α) := []
  device : Device α

inductive SyncEvent where
  /-- The program goes on. -/
  | next
  /-- The response to the request with this number in the batch arrives. -/
  | arrive (k : ℕ)
  deriving DecidableEq, Repr

/-- The chunks among the records, the latest one first. -/
def filteredIter (rows : List SyncInfoRecord) : List SyncInfoRecord :=
  rows.filter SyncInfoRecord.isChunk

/-- The articles of a chunk in the language of the settings. -/
def SyncSource.inLanguage {α : Type} (src : SyncSource α) (quries : List α) : Option (List α) := do
  let lang ← translateToLanguage src.databaseType
  if lang = [] then some quries
  else some (quries.filter fun element =>
    src.language element = some lang ∨ src.language element = some "n/a".toList)

namespace ChunkSync

variable {α β : Type} (src : SyncSource α) (decode : β → Option (List α)) (answer : ℕ → β)
  (rows : List SyncInfoRecord)

/-- Before the first request. -/
def begin (d : Device α) : ChunkSync β α := { device := d }

/-- `sublist`, from `starts` on and before `ends`. -/
def sublist {γ : Type} (l : List γ) (starts ends : ℕ) : List γ := (l.take ends).drop starts

/-- The batch with a number. -/
def batch (i : ℕ) : List SyncInfoRecord :=
  sublist (filteredIter rows) (i * 16) (min ((i + 1) * 16) (filteredIter rows).length)

/-- The batch is requested, or the downloads are over. -/
def send (i : ℕ) (s : ChunkSync β α) : ChunkSync β α :=
  if i * 16 < (filteredIter rows).length then
    { s with
      phase := .waiting i ((batch rows i).map fun _ => none)
      requests := s.requests ++ (batch rows i).map SyncInfoRecord.url }
  else { s with phase := .updating 0 }

/-- The response to a request of the batch, whose requests are the last ones. -/
def response (s : ChunkSync β α) (futures : List (Option β)) (k : ℕ) : β :=
  answer (s.requests.length - futures.length + k)

/-- The response arrives if it is still awaited. -/
def arrive (i : ℕ) (futures : List (Option β)) (k : ℕ) (s : ChunkSync β α) :
    Option (ChunkSync β α) :=
  match futures[k]? with
  | some none =>
    some { s with phase := .waiting i (futures.set k (some (response answer s futures k))) }
  | _ => none

/-- All responses to the batch are there. -/
def join (i : ℕ) (futures : List (Option β)) (s : ChunkSync β α) : Option (ChunkSync β α) :=
  (futures.mapM id).map fun resi => { s with phase := .sending (i + 1), res := s.res ++ resi }

/-- A turn of the loop that applies the chunks. It throws when the response cannot be decoded. -/
def update (i : ℕ) (s : ChunkSync β α) : Option (ChunkSync β α) := do
  let row ← (filteredIter rows)[(filteredIter rows).length - i - 1]?
  if !row.isChunk then some { s with phase := .updating (i + 1) }
  else
    let json ← s.res[(filteredIter rows).length - i - 1]?
    let qlist ← decode json
    let quries ← src.inLanguage qlist
    some { s with
      phase := .updating (i + 1)
      applied := s.applied ++ [(row, quries)]
      device := { table := src.replace s.device.table quries, synclatest := some row.timestamp } }

/-- A step of the downloads and of the update. -/
def step (s : ChunkSync β α) : SyncEvent → Option (ChunkSync β α)
  | .next =>
    match s.phase with
    | .sending i => some (send rows i s)
    | .waiting i futures => join i futures s
    | .updating i =>
      if i < (filteredIter rows).length then update src decode rows i s else none
  | .arrive k =>
    match s.phase with
    | .waiting i futures => arrive answer i futures k s
    | _ => none

/-- All chunks are applied. -/
def Applied (s : ChunkSync β α) : Prop := s.phase = .updating (filteredIter rows).length

end ChunkSync

/-! ### What is asked of it -/

/-- The row of an article in the first part of a list that has one, and the last one in the part. -/
def IsLatest {α : Type} (id : α → ℤ) (parts : List (List α)) (n : ℤ) (row : α) : Prop :=
  ∃ newer part part' older, parts = newer ++ (part ++ row :: part') :: older ∧ id row = n ∧
    ∀ x ∈ newer.flatten ++ part', id x ≠ n

/-- The table has the latest row of each article in the parts, the latest part being the first one,
and is as before for the others. -/
structure LatestRows {α : Type} (id : α → ℤ) (parts : List (List α))
    (before after : ℤ → Option α) : Prop where
  latest : ∀ x ∈ parts.flatten, ∃ row, IsLatest id parts (id x) row ∧ after (id x) = some row
  others : ∀ n, (∀ x ∈ parts.flatten, id x ≠ n) → after n = before n

/-- Each chunk has been requested once, the rows of the chunk with a number have been applied in the
turn of that chunk, and the timestamp of the latest chunk is recorded. -/
structure Synced {α β : Type} (id : α → ℤ) (content : ℕ → Option (List α))
    (chunks : List SyncInfoRecord) (d : Device α) (s : ChunkSync β α) : Prop where
  requests : s.requests = chunks.map SyncInfoRecord.url
  applied : s.applied.reverse.map some = chunks.zipIdx.map fun p => (content p.2).map (Prod.mk p.1)
  rows : ∃ parts, (List.range chunks.length).mapM content = some parts ∧
    LatestRows id parts d.table s.device.table
  synclatest : s.device.synclatest = (chunks.head?.map SyncInfoRecord.timestamp).or d.synclatest
  newest : chunks.Pairwise (fun r r' => r'.timestamp ≤ r.timestamp) →
    ∀ r ∈ chunks, ∃ t ∈ s.device.synclatest, r.timestamp ≤ t

/-! ### The latest rows -/

section

variable {α : Type} {src : SyncSource α} {part : List α} {parts : List (List α)}

lemma IsLatest.cons {id : α → ℤ} {n : ℤ} {row : α} (h : IsLatest id parts n row)
    (hpart : ∀ x ∈ part, id x ≠ n) : IsLatest id (part :: parts) n row := by
  obtain ⟨newer, before, after, older, rfl, hrow, hafter⟩ := h
  refine ⟨part :: newer, before, after, older, rfl, hrow, fun x hx => ?_⟩
  rw [List.flatten_cons, List.append_assoc] at hx
  rcases List.mem_append.mp hx with hx | hx
  · exact hpart x hx
  · exact hafter x hx

/-- The row that a search finds, in each part from the last row on. -/
lemma exists_isLatest {id : α → ℤ} {n : ℤ} {x : α} (hx : x ∈ parts.flatten) (hid : id x = n) :
    ∃ row, IsLatest id parts n row ∧
      (parts.map List.reverse).flatten.find? (fun row => id row = n) = some row := by
  induction parts with
  | nil => cases hx
  | cons part parts ih =>
    rw [List.map_cons, List.flatten_cons, List.find?_append]
    cases hpart : part.reverse.find? fun row => id row = n with
    | some row =>
      obtain ⟨hrow, front, back, heq, hfront⟩ := List.find?_eq_some_iff_append.mp hpart
      refine ⟨row, ⟨[], back.reverse, front.reverse, parts, ?_, of_decide_eq_true hrow, ?_⟩, rfl⟩
      · rw [← List.reverse_reverse part, heq, List.reverse_append, List.reverse_cons,
          List.append_assoc]
        rfl
      · intro y hy
        simpa using hfront y (List.mem_reverse.mp hy)
    | none =>
      have hnone : ∀ y ∈ part, id y ≠ n := fun y hy => by
        simpa using List.find?_eq_none.mp hpart y (List.mem_reverse.mpr hy)
      have hlater : x ∈ parts.flatten := by
        rcases List.mem_append.mp (List.flatten_cons ▸ hx) with h | h
        · exact absurd hid (hnone x h)
        · exact h
      obtain ⟨row, hrow, hfind⟩ := ih hlater
      exact ⟨row, hrow.cons hnone, hfind⟩

/-- Parts that are applied from the last one to the first. -/
lemma latestRows_replace (src : SyncSource α) (parts : List (List α)) (table : ℤ → Option α) :
    LatestRows src.id parts table (src.replace table parts.reverse.flatten) := by
  have hreverse : parts.reverse.flatten.reverse = (parts.map List.reverse).flatten := by
    rw [List.reverse_flatten, List.map_reverse, List.reverse_reverse]
  constructor
  · intro x hx
    obtain ⟨row, hrow, hfind⟩ := exists_isLatest hx rfl
    refine ⟨row, hrow, ?_⟩
    rw [SyncSource.replace_apply, hreverse, hfind]
    rfl
  · intro n hn
    have hnone : (parts.map List.reverse).flatten.find? (fun row => src.id row = n) = none := by
      refine List.find?_eq_none.mpr fun x hx => ?_
      rw [← hreverse, List.mem_reverse, List.mem_flatten] at hx
      obtain ⟨part, hpart, hx⟩ := hx
      simpa using hn x (List.mem_flatten.mpr ⟨part, List.mem_reverse.mp hpart, hx⟩)
    rw [SyncSource.replace_apply, hreverse, hnone]
    rfl

end

namespace ChunkSync

variable {α β : Type} {src : SyncSource α} {decode : β → Option (List α)} {answer : ℕ → β}
  {rows : List SyncInfoRecord} {d : Device α} {s t : ChunkSync β α} {e : SyncEvent} {i : ℕ}
  {futures : List (Option β)}

/-! ### The invariant -/

/-- What the chunk with a number brings, when its response can be decoded. -/
def content (src : SyncSource α) (decode : β → Option (List α)) (answer : ℕ → β) (k : ℕ) :
    Option (List α) :=
  (decode (answer k)).bind src.inLanguage

/-- The chunks with their own rows, the latest one first. -/
def ownRows (src : SyncSource α) (decode : β → Option (List α)) (answer : ℕ → β)
    (rows : List SyncInfoRecord) : List (Option (SyncInfoRecord × List α)) :=
  (filteredIter rows).zipIdx.map fun p => (content src decode answer p.2).map (Prod.mk p.1)

/-- A chunk is applied, and its timestamp is recorded. -/
def record (src : SyncSource α) (d : Device α) (p : SyncInfoRecord × List α) : Device α :=
  { table := src.replace d.table p.2, synclatest := some p.1.timestamp }

/-- The batches before the current one are complete, and nothing is applied before the last one. -/
def Progress (src : SyncSource α) (decode : β → Option (List α)) (answer : ℕ → β)
    (rows : List SyncInfoRecord) (d : Device α) (s : ChunkSync β α) : Prop :=
  match s.phase with
  | .sending i =>
    s.requests = ((filteredIter rows).take (i * 16)).map SyncInfoRecord.url ∧
      s.res = (List.range (min (i * 16) (filteredIter rows).length)).map answer ∧
      s.applied = [] ∧ s.device = d
  | .waiting i futures =>
    s.requests = ((filteredIter rows).take ((i + 1) * 16)).map SyncInfoRecord.url ∧
      s.res = (List.range (i * 16)).map answer ∧
      i * 16 + futures.length = min ((i + 1) * 16) (filteredIter rows).length ∧
      (∀ k b, futures[k]? = some (some b) → b = answer (i * 16 + k)) ∧
      s.applied = [] ∧ s.device = d
  | .updating i =>
    s.requests = (filteredIter rows).map SyncInfoRecord.url ∧
      s.res = (List.range (filteredIter rows).length).map answer ∧
      i ≤ (filteredIter rows).length ∧
      s.applied.map some = (ownRows src decode answer rows).reverse.take i ∧
      s.device = s.applied.foldl (record src) d

lemma batch_eq (rows : List SyncInfoRecord) (i : ℕ) :
    (filteredIter rows).take (i * 16) ++ batch rows i =
      (filteredIter rows).take ((i + 1) * 16) := by
  have htake : (filteredIter rows).take (min ((i + 1) * 16) (filteredIter rows).length) =
      (filteredIter rows).take ((i + 1) * 16) := by
    rw [← List.take_take, List.take_length]
  have hmin : min (i * 16) ((i + 1) * 16) = i * 16 := by omega
  rw [batch, sublist, htake]
  nth_rewrite 1 [← hmin]
  rw [← List.take_take, List.take_append_drop]

lemma length_batch (rows : List SyncInfoRecord) (i : ℕ) :
    (batch rows i).length = min ((i + 1) * 16) (filteredIter rows).length - i * 16 := by
  rw [batch, sublist, List.length_drop, List.length_take]
  omega

lemma progress_send (h : Progress src decode answer rows d s) (hs : s.phase = .sending i) :
    Progress src decode answer rows d (send rows i s) := by
  simp only [Progress, hs] at h
  obtain ⟨hrequests, hres, happlied, hdevice⟩ := h
  rw [send]
  split_ifs with hi
  · refine ⟨?_, ?_, ?_, ?_, happlied, hdevice⟩
    · rw [hrequests, ← List.map_append, batch_eq]
    · rw [hres, min_eq_left hi.le]
    · rw [List.length_map, length_batch]
      omega
    · intro k b hk
      rw [List.getElem?_map] at hk
      cases hb : (batch rows i)[k]? <;> simp [hb] at hk
  · have hle : (filteredIter rows).length ≤ i * 16 := Nat.not_lt.mp hi
    refine ⟨?_, ?_, Nat.zero_le _, ?_, ?_⟩
    · rw [hrequests, List.take_of_length_le hle]
    · rw [hres, min_eq_right hle]
    · rw [happlied]
      rfl
    · rw [happlied, hdevice]
      rfl

/-- A response goes to the place of its request. -/
lemma progress_arrive {k : ℕ} (h : Progress src decode answer rows d s)
    (hs : s.phase = .waiting i futures) (ht : arrive answer i futures k s = some t) :
    Progress src decode answer rows d t := by
  simp only [Progress, hs] at h
  obtain ⟨hrequests, hres, hlength, hfutures, happlied, hdevice⟩ := h
  have ht : { s with phase := .waiting i (futures.set k (some (response answer s futures k))) } =
      t := by
    rw [arrive] at ht
    split at ht
    · exact Option.some.inj ht
    · cases ht
  subst ht
  have hresponse : response answer s futures k = answer (i * 16 + k) := by
    rw [response, hrequests, List.length_map, List.length_take, ← hlength]
    congr 1
    omega
  refine ⟨hrequests, hres, by rw [List.length_set]; exact hlength, ?_, happlied, hdevice⟩
  intro k' b hk'
  rw [List.getElem?_set] at hk'
  split_ifs at hk' with heq hlt
  · subst heq
    rw [← hresponse]
    exact (Option.some.inj (Option.some.inj hk')).symm
  · exact hfutures k' b hk'

lemma eq_map_some_of_mapM {resi : List β} (h : futures.mapM id = some resi) :
    futures = resi.map some := by
  induction futures generalizing resi with
  | nil =>
    cases h
    rfl
  | cons b futures ih =>
    rw [List.mapM_cons] at h
    obtain ⟨b', hb, h⟩ := Option.bind_eq_some_iff.mp h
    obtain ⟨rest, hrest, h⟩ := Option.bind_eq_some_iff.mp h
    cases h
    rw [List.map_cons, ← ih hrest]
    exact congrArg (· :: futures) hb

/-- The results of a batch are in the order of its requests. -/
lemma progress_join (h : Progress src decode answer rows d s) (hs : s.phase = .waiting i futures)
    (ht : join i futures s = some t) : Progress src decode answer rows d t := by
  simp only [Progress, hs] at h
  obtain ⟨hrequests, hres, hlength, hfutures, happlied, hdevice⟩ := h
  obtain ⟨resi, hresi, rfl⟩ := Option.map_eq_some_iff.mp ht
  have hfutures' := eq_map_some_of_mapM hresi
  have hresults : resi = (List.range futures.length).map fun k => answer (i * 16 + k) := by
    refine List.ext_getElem (by simp [hfutures']) fun k hk _ => ?_
    rw [List.getElem_map, List.getElem_range]
    apply hfutures
    rw [hfutures', List.getElem?_map, List.getElem?_eq_getElem hk]
    rfl
  refine ⟨hrequests, ?_, happlied, hdevice⟩
  rw [hres, hresults, ← hlength, List.range_add, List.map_append, List.map_map]
  rfl

/-- The chunk of a turn, which has its number from the end, and its own rows. -/
lemma update_eq (h : Progress src decode answer rows d s) (hs : s.phase = .updating i) {j : ℕ}
    (hj : (filteredIter rows).length - i - 1 = j) {row : SyncInfoRecord}
    (hrow : (filteredIter rows)[j]? = some row) :
    update src decode rows i s = (content src decode answer j).map fun quries =>
      { s with
        phase := .updating (i + 1)
        applied := s.applied ++ [(row, quries)]
        device := record src s.device (row, quries) } := by
  simp only [Progress, hs] at h
  obtain ⟨-, hres, -⟩ := h
  obtain ⟨hlt, hget⟩ := List.getElem?_eq_some_iff.mp hrow
  have hchunk : row.isChunk = true := hget ▸ (List.mem_filter.mp (List.getElem_mem hlt)).2
  have hjson : s.res[j]? = some (answer j) := by
    rw [hres, List.getElem?_map, List.getElem?_range hlt]
    rfl
  rw [update, hj, hrow, content]
  simp only [Option.bind_eq_bind, Option.bind_some, hchunk, Bool.not_true, Bool.false_eq_true,
    if_false, hjson]
  cases hdecode : decode (answer j) with
  | none => rfl
  | some qlist =>
    simp only [Option.bind_some]
    cases src.inLanguage qlist <;> rfl

lemma progress_update (h : Progress src decode answer rows d s) (hs : s.phase = .updating i)
    (hi : i < (filteredIter rows).length) (ht : update src decode rows i s = some t) :
    Progress src decode answer rows d t := by
  have hj : (filteredIter rows).length - i - 1 < (filteredIter rows).length := by omega
  generalize hjdef : (filteredIter rows).length - i - 1 = j at hj
  rw [update_eq h hs hjdef (List.getElem?_eq_getElem hj)] at ht
  obtain ⟨quries, hcontent, rfl⟩ := Option.map_eq_some_iff.mp ht
  simp only [Progress, hs] at h
  obtain ⟨hrequests, hres, -, happlied, hdevice⟩ := h
  have hnext : (ownRows src decode answer rows).reverse[i]? =
      some (some ((filteredIter rows)[j], quries)) := by
    have hlength : (ownRows src decode answer rows).length = (filteredIter rows).length := by
      rw [ownRows, List.length_map, List.length_zipIdx]
    rw [List.getElem?_reverse (by omega), hlength, Nat.sub_right_comm, hjdef, ownRows,
      List.getElem?_map, List.getElem?_zipIdx, List.getElem?_eq_getElem hj]
    simp [hcontent]
  refine ⟨hrequests, hres, hi, ?_, ?_⟩
  · rw [List.map_append, happlied, List.take_add_one, hnext]
    rfl
  · rw [hdevice, List.foldl_append]
    rfl

lemma step_progress (h : Progress src decode answer rows d s)
    (hs : step src decode answer rows s e = some t) : Progress src decode answer rows d t := by
  cases e with
  | next =>
    rw [step] at hs
    cases hphase : s.phase with
    | sending i =>
      simp only [hphase] at hs
      cases hs
      exact progress_send h hphase
    | waiting i futures =>
      simp only [hphase] at hs
      exact progress_join h hphase hs
    | updating i =>
      simp only [hphase] at hs
      obtain ⟨hi, hs⟩ := Option.ite_none_right_eq_some.mp hs
      exact progress_update h hphase hi hs
  | arrive k =>
    rw [step] at hs
    split at hs
    · exact progress_arrive h ‹_› hs
    · cases hs

lemma progress_begin (src : SyncSource α) (decode : β → Option (List α)) (answer : ℕ → β)
    (rows : List SyncInfoRecord) (d : Device α) :
    Progress src decode answer rows d (begin d) := by
  refine ⟨?_, ?_, rfl, rfl⟩
  · simp [begin]
  · simp [begin]

/-- What holds in every state of a run. -/
lemma progress_of_reaches (h : Reaches (step src decode answer rows) anyEvent (begin d) s) :
    Progress src decode answer rows d s :=
  h.invariant (P := Progress src decode answer rows d) (progress_begin src decode answer rows d)
    fun _ _ _ ht _ hs => step_progress ht hs

/-! ### All chunks are applied -/

lemma foldl_record (applied : List (SyncInfoRecord × List α)) (d : Device α) :
    applied.foldl (record src) d =
      { table := src.replace d.table (applied.map Prod.snd).flatten
        synclatest := (applied.getLast?.map fun p => p.1.timestamp).or d.synclatest } := by
  induction applied using List.reverseRecOn with
  | nil => rfl
  | append_singleton applied p ih =>
    rw [List.foldl_append, ih]
    simp [record, SyncSource.replace, List.foldl_append]

/-- The records and the rows of the chunks that have been applied. -/
lemma map_of_map_some {chunks : List SyncInfoRecord} {f : ℕ → Option (List α)}
    {applied : List (SyncInfoRecord × List α)} {start : ℕ}
    (h : applied.map some = (chunks.zipIdx start).map fun p => (f p.2).map (Prod.mk p.1)) :
    applied.map Prod.fst = chunks ∧
      (List.range' start chunks.length).mapM f = some (applied.map Prod.snd) := by
  induction chunks generalizing applied start with
  | nil =>
    obtain rfl := List.map_eq_nil_iff.mp h
    exact ⟨rfl, rfl⟩
  | cons r chunks ih =>
    rw [List.zipIdx_cons, List.map_cons] at h
    obtain ⟨p, applied, rfl, hp, happlied⟩ := List.map_eq_cons_iff.mp h
    obtain ⟨rows, hrows, rfl⟩ := Option.map_eq_some_iff.mp hp.symm
    obtain ⟨hfst, hsnd⟩ := ih happlied
    refine ⟨by rw [List.map_cons, hfst], ?_⟩
    rw [List.length_cons, List.range'_succ, List.mapM_cons, hrows, hsnd]
    rfl

/-- All chunks are applied with their own rows, from the oldest one on. -/
lemma own_of_progress (h : Progress src decode answer rows d s) (hs : Applied rows s) :
    s.applied.reverse.map some = ownRows src decode answer rows ∧
      s.device = s.applied.foldl (record src) d := by
  rw [Applied] at hs
  simp only [Progress, hs] at h
  obtain ⟨-, -, -, happlied, hdevice⟩ := h
  have hlength : (ownRows src decode answer rows).reverse.length ≤ (filteredIter rows).length := by
    rw [List.length_reverse, ownRows, List.length_map, List.length_zipIdx]
  refine ⟨?_, hdevice⟩
  rw [List.map_reverse, happlied, List.take_of_length_le hlength, List.reverse_reverse]

lemma synced_of_progress (h : Progress src decode answer rows d s) (hs : Applied rows s) :
    Synced src.id (content src decode answer) (filteredIter rows) d s := by
  obtain ⟨hown, hdevice⟩ := own_of_progress h hs
  have hrequests : s.requests = (filteredIter rows).map SyncInfoRecord.url := by
    rw [Applied] at hs
    simp only [Progress, hs] at h
    exact h.1
  obtain ⟨hrecords, hparts⟩ := map_of_map_some hown
  rw [← List.range_eq_range'] at hparts
  rw [foldl_record] at hdevice
  have hlatest : s.device.synclatest =
      ((filteredIter rows).head?.map SyncInfoRecord.timestamp).or d.synclatest := by
    rw [hdevice, ← hrecords, List.head?_map, List.head?_reverse, Option.map_map]
    rfl
  refine ⟨hrequests, hown, ⟨_, hparts, ?_⟩, hlatest, ?_⟩
  · have hrows := latestRows_replace src (s.applied.reverse.map Prod.snd) d.table
    rw [← List.map_reverse, List.reverse_reverse] at hrows
    rwa [hdevice]
  · intro hsorted r hr
    rw [hlatest]
    generalize filteredIter rows = chunks at hsorted hr
    cases hr with
    | head rest => exact ⟨r.timestamp, rfl, Int.le_refl _⟩
    | tail first hr => exact ⟨first.timestamp, rfl, List.rel_of_pairwise_cons hsorted hr⟩

/-- The steps that are still to be made, at most. -/
def remaining (rows : List SyncInfoRecord) (s : ChunkSync β α) : ℕ :=
  match s.phase with
  | .sending i => 3 * ((filteredIter rows).length - i * 16) + (filteredIter rows).length + 2
  | .waiting i futures => futures.countP Option.isNone +
      3 * ((filteredIter rows).length - (i + 1) * 16) + (filteredIter rows).length + 3
  | .updating i => (filteredIter rows).length - i

/-- While a response is missing it can arrive, and then the batch is complete. -/
lemma exists_arrive_or_join (answer : ℕ → β) (i : ℕ) (futures : List (Option β))
    (s : ChunkSync β α) :
    (∃ k t, arrive answer i futures k s = some t ∧ ∃ futures', t.phase = .waiting i futures' ∧
      futures'.countP Option.isNone < futures.countP Option.isNone) ∨
      ∃ t, join i futures s = some t ∧ t.phase = .sending (i + 1) := by
  by_cases hmissing : none ∈ futures
  · obtain ⟨k, hk⟩ := List.mem_iff_getElem?.mp hmissing
    obtain ⟨hlt, hget⟩ := List.getElem?_eq_some_iff.mp hk
    refine .inl ⟨k, _, by rw [arrive, hk], _, rfl, ?_⟩
    rw [List.countP_set hlt, hget]
    have hpos : 0 < futures.countP Option.isNone :=
      List.countP_pos_iff.mpr ⟨none, hmissing, rfl⟩
    simp only [Option.isNone_none, Option.isNone_some, if_true, Bool.false_eq_true, if_false]
    omega
  · have hall : ∃ resi, futures.mapM id = some resi := by
      induction futures with
      | nil => exact ⟨[], rfl⟩
      | cons b futures ih =>
        obtain ⟨resi, hresi⟩ := ih fun h => hmissing (List.mem_cons_of_mem _ h)
        cases b with
        | none => exact absurd (List.mem_cons_self) hmissing
        | some b => exact ⟨b :: resi, by rw [List.mapM_cons, hresi]; rfl⟩
    obtain ⟨resi, hresi⟩ := hall
    exact .inr ⟨_, by rw [join, hresi]; rfl, rfl⟩

/-- A run that has not come to its end goes on, as long as the responses can be decoded. -/
lemma exists_step (hcontent : ∀ k < (filteredIter rows).length,
    (content src decode answer k).isSome) (h : Progress src decode answer rows d s) :
    Applied rows s ∨ ∃ e t, anyEvent s e ∧ step src decode answer rows s e = some t ∧
      Progress src decode answer rows d t ∧ remaining rows t < remaining rows s := by
  suffices hstep : Applied rows s ∨ ∃ e t, step src decode answer rows s e = some t ∧
      remaining rows t < remaining rows s by
    rcases hstep with happlied | ⟨e, t, hs, hlt⟩
    · exact .inl happlied
    · exact .inr ⟨e, t, trivial, hs, step_progress h hs, hlt⟩
  cases hphase : s.phase with
  | sending i =>
    refine .inr ⟨.next, send rows i s, by simp only [step, hphase], ?_⟩
    rw [remaining, remaining, hphase, send]
    split_ifs with hi
    · have hnone : ((batch rows i).map fun _ => (none : Option β)).countP Option.isNone =
          min ((i + 1) * 16) (filteredIter rows).length - i * 16 := by
        rw [List.countP_map, ← length_batch]
        exact List.countP_eq_length.mpr fun _ _ => rfl
      simp only [hnone]
      omega
    · simp only [Nat.sub_zero]
      omega
  | waiting i futures =>
    rcases exists_arrive_or_join answer i futures s with ⟨k, t, ht, futures', hphase', hlt⟩ |
      ⟨t, ht, hphase'⟩
    · refine .inr ⟨.arrive k, t, by simpa only [step, hphase] using ht, ?_⟩
      simp only [remaining, hphase, hphase']
      omega
    · refine .inr ⟨.next, t, by simpa only [step, hphase] using ht, ?_⟩
      simp only [remaining, hphase, hphase']
      omega
  | updating i =>
    by_cases hi : i < (filteredIter rows).length
    · have hj : (filteredIter rows).length - i - 1 < (filteredIter rows).length := by omega
      obtain ⟨quries, hquries⟩ := Option.isSome_iff_exists.mp (hcontent _ hj)
      have hupdate := update_eq h hphase rfl (List.getElem?_eq_getElem hj)
      rw [hquries] at hupdate
      refine .inr ⟨.next, _, by simp only [step, hphase, hi, if_true]; exact hupdate, ?_⟩
      simp only [remaining, hphase]
      omega
    · left
      simp only [Progress, hphase] at h
      rw [Applied, hphase, Nat.le_antisymm h.2.2.1 (Nat.not_lt.mp hi)]

/-- Whatever the order in which the responses arrive, a synchronisation that is not interrupted
requests each chunk once and applies each with its own rows in the language of the settings, and
nothing but a response that cannot be decoded keeps it from its end. -/
theorem synced_of_applied (src : SyncSource α) (decode : β → Option (List α)) (answer : ℕ → β)
    (rows : List SyncInfoRecord) (d : Device α) :
    (∀ s, Reaches (step src decode answer rows) anyEvent (begin d) s → Applied rows s →
        Synced src.id (content src decode answer) (filteredIter rows) d s) ∧
      ((∀ k < (filteredIter rows).length, (content src decode answer k).isSome) →
        ∀ s, Reaches (step src decode answer rows) anyEvent (begin d) s →
          ∃ t, Reaches (step src decode answer rows) anyEvent s t ∧ Applied rows t) := by
  constructor
  · intro s h happlied
    exact synced_of_progress (progress_of_reaches h) happlied
  · intro hcontent s h
    exact Reaches.exists_of_measure (P := Progress src decode answer rows d) (remaining rows)
      (fun _ ht => exists_step hcontent ht) (progress_of_reaches h)

/-- A chunk of one article in English. -/
def englishChunk : SyncInfoRecord :=
  { type := "chunk".toList, timestamp := 2, url := "a.json".toList }

/-- Settings for articles in Korean. -/
def koreanSettings : SyncSource ℤ where
  lines := []
  body _ := none
  id row := row
  language _ := some "english".toList
  databaseType := "ko".toList
  excluded _ := false

/-- A chunk may have articles in other languages, and these are not applied. -/
theorem not_synced_language :
    ¬ ∀ (src : SyncSource ℤ) (decode : List ℤ → Option (List ℤ)) (answer : ℕ → List ℤ)
      (rows : List SyncInfoRecord) (d : Device ℤ) (s : ChunkSync (List ℤ) ℤ),
        Reaches (step src decode answer rows) anyEvent (begin d) s → Applied rows s →
          Synced src.id (fun k => decode (answer k)) (filteredIter rows) d s := by
  intro h
  have hrun : (run (step koreanSettings some (fun _ => [7]) [englishChunk]) anyEvent
      (begin SyncSource.emptyDevice) [.next, .arrive 0, .next, .next, .next]).map
        (fun s => (s.phase, s.device.table 7)) = some (.updating 1, none) := by decide +kernel
  obtain ⟨s, hs, hend⟩ := Option.map_eq_some_iff.mp hrun
  obtain ⟨hphase, htable⟩ := Prod.mk.inj hend
  have hsynced := h koreanSettings some (fun _ => [7]) [englishChunk] SyncSource.emptyDevice s
    (reaches_of_run hs) hphase
  obtain ⟨parts, hparts, hrows⟩ := hsynced.rows
  obtain rfl : [[7]] = parts := Option.some.inj hparts
  obtain ⟨row, -, hrow⟩ := hrows.latest 7 (List.mem_singleton.mpr rfl)
  exact absurd (htable.symm.trans hrow) nofun

/-! ### Files that do not change -/

lemma applyChunks_of_applied {applied : List (SyncInfoRecord × List α)} (i : ℕ)
    (h : ∀ p ∈ applied, src.chunkRows p.1 = some p.2) (d : Device α) :
    src.applyChunks none i (applied.map Prod.fst) d = (applied.foldl (record src) d, none) := by
  induction applied generalizing i d with
  | nil => rfl
  | cons p applied ih =>
    rw [List.map_cons, SyncSource.applyChunks, if_neg (by simp), h p (List.mem_cons_self)]
    simp only [reduceCtorEq, if_false]
    exact ih (i + 1) (fun q hq => h q (List.mem_cons_of_mem p hq)) _

/-- When each response is what the file of its chunk holds, the batches come to the same as taking
the chunks one after the other. -/
theorem applyChunks_eq_of_applied
    (hfiles : ∀ k r, (filteredIter rows)[k]? = some r → decode (answer k) = src.body r.url)
    (h : Reaches (step src decode answer rows) anyEvent (begin d) s) (hs : Applied rows s) :
    src.applyChunks none 0 (SyncSource.chunks rows) d = (s.device, none) := by
  obtain ⟨hown, hdevice⟩ := own_of_progress (progress_of_reaches h) hs
  have hrecords : s.applied.map Prod.fst = SyncSource.chunks rows := by
    rw [SyncSource.chunks, ← filteredIter, ← (map_of_map_some hown).1, ← List.map_reverse,
      List.reverse_reverse]
  have hrows : ∀ p ∈ s.applied, src.chunkRows p.1 = some p.2 := by
    intro p hp
    have hmem : some p ∈ ownRows src decode answer rows := by
      rw [← hown]
      exact List.mem_map_of_mem (List.mem_reverse.mpr hp)
    obtain ⟨⟨r, k⟩, hr, hcontent⟩ := List.mem_map.mp hmem
    obtain ⟨quries, hquries, rfl⟩ := Option.map_eq_some_iff.mp hcontent
    rw [content, hfiles k r (List.mk_mem_zipIdx_iff_getElem?.mp hr)] at hquries
    exact hquries
  rw [← hrecords, hdevice]
  exact applyChunks_of_applied 0 hrows d

end ChunkSync

end Violet
