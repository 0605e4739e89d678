import Mathlib.Data.List.Nodup
import Violet.Download.Downloadable

/-!
# The native downloader

The downloads are carried out by a library that knows a task by a number. When it reports numbers,
the tasks of the table that have these numbers are told that they are complete. `addTasks` numbers
a task by its place in the table; `addTask` numbers it one too high.
-/

open Dart

/-- What the library gets to know of a task. -/
structure NativeDownloadTask where
  id : ℕ
  url : Option Units
  fullpath : Option Units
  header : List (Units × Units)

namespace NativeDownloadTask

/-- `header[key] = value`, at the old place of the key if it has one. -/
def setHeader (header : List (Units × Units)) (key value : Units) : List (Units × Units) :=
  if header.any fun e => e.1 == key then
    header.map fun e => if e.1 = key then (key, value) else e
  else header ++ [(key, value)]

def fromDownloadTask (taskId : ℕ) (task : DownloadTask) : NativeDownloadTask :=
  let header := []
  let header := task.referer.elim header (setHeader header (units "referer"))
  let header := task.accept.elim header (setHeader header (units "accept"))
  let header := task.userAgent.elim header (setHeader header (units "user-agent"))
  let header := (task.headers.getD []).foldl
    (fun header element => setHeader header (Units.toLowerCase element.1) element.2) header
  { id := taskId, url := task.url, fullpath := task.downloadPath, header }

end NativeDownloadTask

structure NativeDownloader where
  downloadTasks : List DownloadTask
  /-- What `downloaderAppend` has been called with, beside the task it was made from. -/
  appended : List (NativeDownloadTask × DownloadTask)

/-- A call of the downloader. The calls exclude each other by its lock. -/
inductive NativeDownloader.Call where
  | addTask (task : DownloadTask)
  | addTasks (tasks : List DownloadTask)

namespace NativeDownloader

def init : NativeDownloader := ⟨[], []⟩

/-- `downloaderAppend` of a task under a number. -/
def downloaderAppend (d : NativeDownloader) (taskId : ℕ) (task : DownloadTask) : NativeDownloader :=
  { d with appended := d.appended ++ [(.fromDownloadTask taskId task, task)] }

def addTask (d : NativeDownloader) (task : DownloadTask) : NativeDownloader :=
  let d := { d with downloadTasks := d.downloadTasks ++ [task] }
  d.downloaderAppend d.downloadTasks.length task

def addTasks (d : NativeDownloader) (tasks : List DownloadTask) : NativeDownloader :=
  tasks.foldl (fun d task =>
    let d := { d with downloadTasks := d.downloadTasks ++ [task] }
    d.downloaderAppend (d.downloadTasks.length - 1) task) d

def call (d : NativeDownloader) : Call → NativeDownloader
  | .addTask task => d.addTask task
  | .addTasks tasks => d.addTasks tasks

/-- The downloader after some calls. -/
def after (calls : List Call) : NativeDownloader := calls.foldl call init

/-- The numbers that a status text reports as complete. -/
def complete (x : Str) : List ℤ :=
  let ll := x.splitOn '|'
  if ll.length = 5 then ((ll.getLastD []).splitOn ',').filterMap intTryParse else []

/-- The tasks whose `completeCallback` is called for the numbers, and whether the call of one fails
by a number that is not in the table. -/
def dispatch (d : NativeDownloader) : List ℤ → List DownloadTask × Bool
  | [] => ([], false)
  | v :: vs =>
    match if 0 ≤ v then d.downloadTasks[v.toNat]? else none with
    | none => ([], true)
    | some task =>
      let (tasks, failed) := d.dispatch vs
      (task :: tasks, failed)

/-- What the downloader does with a status text. -/
def onStatus (d : NativeDownloader) (x : Str) : List DownloadTask × Bool := d.dispatch (complete x)

example (task : DownloadTask) :
    ((init.addTasks [task, task]).onStatus "1|2|3|4|1,x,0".toList).1.length = 2 := rfl

/-! ### The table -/

/-- The number of the task at a place of the table, which may have been added by a call of
`addTask`. -/
def number (i : ℕ) (single : Bool) : ℕ := if single then i + 1 else i

/-- The tasks of a call, and whether the call is one of `addTask`. -/
def entries : Call → List (Bool × DownloadTask)
  | .addTask task => [(true, task)]
  | .addTasks tasks => tasks.map (false, ·)

/-- The downloader to which the tasks have been added. -/
def table (es : List (Bool × DownloadTask)) : NativeDownloader where
  downloadTasks := es.map Prod.snd
  appended := es.mapIdx fun i e => (.fromDownloadTask (number i e.1) e.2, e.2)

lemma addTask_table (es : List (Bool × DownloadTask)) (task : DownloadTask) :
    (table es).addTask task = table (es ++ [(true, task)]) := by
  simp [addTask, table, downloaderAppend, number, List.mapIdx_append]

lemma addTasks_table (es : List (Bool × DownloadTask)) (tasks : List DownloadTask) :
    (table es).addTasks tasks = table (es ++ tasks.map (false, ·)) := by
  induction tasks generalizing es with
  | nil => rw [List.map_nil, List.append_nil, addTasks, List.foldl_nil]
  | cons task tasks ih =>
    have hstep : (table es).addTasks (task :: tasks) =
        (table (es ++ [(false, task)])).addTasks tasks := by
      simp [addTasks, table, downloaderAppend, number, List.mapIdx_append]
    rw [hstep, ih, List.append_assoc]
    rfl

lemma call_table (es : List (Bool × DownloadTask)) (c : Call) :
    (table es).call c = table (es ++ entries c) := by
  cases c with
  | addTask task => exact addTask_table es task
  | addTasks tasks => exact addTasks_table es tasks

/-- After some calls the table holds their tasks. -/
theorem after_eq (calls : List Call) : after calls = table (calls.flatMap entries) := by
  have hcalls (es : List (Bool × DownloadTask)) :
      calls.foldl call (table es) = table (es ++ calls.flatMap entries) := by
    induction calls generalizing es with
    | nil => rw [List.flatMap_nil, List.append_nil, List.foldl_nil]
    | cons c calls ih => rw [List.foldl_cons, call_table, ih, List.flatMap_cons, List.append_assoc]
  exact hcalls []

/-! ### Routing -/

/-- Reports reach the tasks they are about, the tasks have numbers of their own, and no number is
past the end of the table. -/
structure Routes (d : NativeDownloader) : Prop where
  dispatched : ∀ (x : Str) (rs : List (NativeDownloadTask × DownloadTask)),
    (∀ r ∈ rs, r ∈ d.appended) → complete x = rs.map (fun r => (r.1.id : ℤ)) →
      d.onStatus x = (rs.map Prod.snd, false)
  nodup : (d.appended.map fun r => r.1.id).Nodup
  lt : ∀ r ∈ d.appended, r.1.id < d.downloadTasks.length

variable {es : List (Bool × DownloadTask)}

lemma ids_table (es : List (Bool × DownloadTask)) :
    (table es).appended.map (fun r => r.1.id) = es.mapIdx fun i e => number i e.1 := by
  refine List.ext_getElem (by simp [table]) fun i hi hi' => ?_
  simp [table, NativeDownloadTask.fromDownloadTask]

/-- If a task has the number of its successor, so has the next one, for they differ. -/
lemma single_succ (hnodup : (es.mapIdx fun i e => number i e.1).Nodup) {i : ℕ}
    (hi : i + 1 < es.length) (h : (es[i]).1 = true) : (es[i + 1]).1 = true := by
  by_contra hnext
  rw [Bool.not_eq_true] at hnext
  have hne := List.pairwise_iff_getElem.mp hnodup i (i + 1) (by simp; omega) (by simpa using hi)
    (Nat.lt_succ_self i)
  simp [number, h, hnext] at hne

lemma not_single (hnodup : (es.mapIdx fun i e => number i e.1).Nodup)
    (hlt : ∀ n ∈ es.mapIdx fun i e => number i e.1, n < es.length) :
    ∀ e ∈ es, e.1 = false := by
  intro e he
  by_contra hsingle
  obtain ⟨i, hi, rfl⟩ := List.getElem_of_mem he
  have hrest (k : ℕ) (hk : i + k < es.length) : (es[i + k]).1 = true := by
    induction k with
    | zero => exact Bool.not_eq_false _ ▸ hsingle
    | succ k ih => exact single_succ hnodup hk (ih (by omega))
  have hlast : i + (es.length - 1 - i) < es.length := by omega
  have hnumber := hlt (number (i + (es.length - 1 - i)) true) (by
    rw [← hrest _ hlast]
    exact List.mem_mapIdx.mpr ⟨_, hlast, rfl⟩)
  rw [number, if_pos rfl] at hnumber
  omega

lemma dispatch_table (hes : ∀ e ∈ es, e.1 = false)
    {rs : List (NativeDownloadTask × DownloadTask)} (hrs : ∀ r ∈ rs, r ∈ (table es).appended) :
    (table es).dispatch (rs.map fun r => (r.1.id : ℤ)) = (rs.map Prod.snd, false) := by
  induction rs with
  | nil => rfl
  | cons r rs ih =>
    obtain ⟨i, hi, rfl⟩ := List.mem_mapIdx.mp (hrs r List.mem_cons_self)
    have htask : (table es).downloadTasks[i]? = some (es[i]).2 := by
      simp [table, List.getElem?_eq_getElem hi]
    have hid : number i (es[i]).1 = i := by
      rw [hes _ (List.getElem_mem hi), number, if_neg Bool.false_ne_true]
    rw [List.map_cons, dispatch, ih fun r hr => hrs r (List.mem_cons_of_mem _ hr)]
    simp only [NativeDownloadTask.fromDownloadTask, hid, Int.natCast_nonneg, if_true,
      Int.toNat_natCast, htask]
    rfl

lemma routes_table_iff : (table es).Routes ↔ ∀ e ∈ es, e.1 = false := by
  constructor
  · intro h
    have hlen : (table es).downloadTasks.length = es.length := List.length_map _
    refine not_single (ids_table es ▸ h.nodup) fun n hn => ?_
    rw [← ids_table] at hn
    obtain ⟨r, hr, rfl⟩ := List.mem_map.mp hn
    exact hlen ▸ h.lt r hr
  · intro hes
    have hids : (table es).appended.map (fun r => r.1.id) = List.range es.length := by
      rw [ids_table]
      refine List.ext_getElem (by simp) fun i hi _ => ?_
      have hi' : i < es.length := by simpa using hi
      rw [List.getElem_mapIdx, List.getElem_range, hes _ (List.getElem_mem hi'), number,
        if_neg Bool.false_ne_true]
    refine ⟨fun x rs hrs hx => ?_, hids ▸ List.nodup_range, fun r hr => ?_⟩
    · rw [onStatus, hx, dispatch_table hes hrs]
    · have hid : r.1.id ∈ List.range es.length := hids ▸ List.mem_map_of_mem hr
      rw [table, List.length_map]
      exact List.mem_range.mp hid

/-- Reports are routed as long as no task is added by `addTask`, and not any more afterwards. -/
theorem routes_after_iff (calls : List Call) :
    (after calls).Routes ↔ ∀ c ∈ calls, ∃ tasks, c = .addTasks tasks := by
  rw [after_eq, routes_table_iff]
  constructor
  · intro h c hc
    cases c with
    | addTask task =>
      have hentry := h (true, task) (List.mem_flatMap.mpr ⟨_, hc, List.mem_singleton_self _⟩)
      cases hentry
    | addTasks tasks => exact ⟨tasks, rfl⟩
  · intro h e he
    obtain ⟨c, hc, hentry⟩ := List.mem_flatMap.mp he
    obtain ⟨tasks, rfl⟩ := h c hc
    obtain ⟨task, -, rfl⟩ := List.mem_map.mp hentry
    rfl

/-- The first task is numbered past the end of the table. -/
theorem not_routes_addTask : ¬ (after [.addTask {}]).Routes := by
  intro h
  have hlt := h.lt (.fromDownloadTask 1 {}, {}) (List.mem_singleton_self _)
  exact absurd hlt (by decide)

end NativeDownloader
