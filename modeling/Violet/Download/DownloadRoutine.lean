import Violet.Download.Downloadable
import Violet.Transition.Run

/-!
# Runs of a download item

The widget of an item runs a download routine when it is created and whenever the user retries. The
routines share the counters of the widget, and those that have started go on beside each other. A
routine writes the row of its item to the database: it waits for most of its writes, but not for the
one after a failure. A write reads the map of the routine when it is carried out, so it may see what
has been put into the map after it was asked for.
-/

open Dart

/-- The columns of an item that a routine reads or writes. -/
structure ItemResult where
  /-- 0 complete, 1 pending, 2 extracting, 3 downloading, 6 stop, 7 unknown error, 8 not supported,
  9 login, 11 nothing to download. -/
  state : ℕ
  url : Option Units := none
  extractor : Option Units := none
  info : Option Units := none
  thumbnail : Option Units := none
  thumbnailHeader : Option Units := none
  files : Option Units := none
  path : Option Units := none

/-- What a routine asks an extractor before it creates tasks. -/
structure Extractor where
  name : Units
  loginRequire : Bool

/-- The extractor of an address, and the paths of tasks with their common directory. A path that
cannot be formatted is an exception. -/
structure Extractors where
  getExtractor : Option Units → Option Extractor
  filePaths : List DownloadTask → Option (Units × Units)

namespace DownloadRoutine

/-- The step of `_downloadProcedure` that a routine takes next. -/
inductive Point where
  | checkValidState
  | checkValidUrl
  | selectExtractor
  | setToStop
  | checkLoginRequire
  | createTasks
  | checkNothingToDownload
  | extractFilePath
  | appendDownloadTasks
  | setDownloading
  | waitForComplete
  | finished
deriving DecidableEq, Repr

/-- A routine that has started. -/
structure Run where
  result : ItemResult
  point : Point := .checkValidState
  /-- It waits for its write before it goes on. -/
  saving : Bool := false
  tasks : Option (List DownloadTask) := none
  appended : Bool := false
  /-- The tasks that have been completed or have failed. -/
  reported : List ℕ := []

namespace Run

/-- `await _updateItem()`. -/
def updateItem (run : Run) (next : Point) : Run := { run with point := next, saving := true }

/-- `await _setState(state)`. -/
def setState (run : Run) (state : ℕ) (next : Point) : Run :=
  { run with result := { run.result with state }, point := next, saving := true }

def goTo (run : Run) (next : Point) : Run := { run with point := next }

/-- The next step, by the state of the item, the switch of the widget and its counters. The second
result is the total count afterwards. -/
def proceed (xs : Extractors) (itemState : ℕ) (download : Bool) (total downloaded : ℕ) (run : Run) :
    Option (Run × ℕ) :=
  match run.point with
  | .checkValidState =>
    if itemState ≠ 1 then
      if itemState = 2 ∨ itemState = 3 then some (run.setState 6 .finished, total)
      else some (run.goTo .finished, total)
    else some (run.goTo .checkValidUrl, total)
  | .checkValidUrl =>
    if (xs.getExtractor run.result.url).isNone then some (run.setState 8 .finished, total)
    else some (run.goTo .selectExtractor, total)
  | .selectExtractor =>
    (xs.getExtractor run.result.url).map fun extractor =>
      let result := { run.result with extractor := some extractor.name }
      ({ run with result }.setState 2 .setToStop, total)
  | .setToStop =>
    if download then some (run.goTo .checkLoginRequire, total)
    else some (run.setState 6 .finished, total)
  | .checkNothingToDownload =>
    match run.tasks with
    | some (task :: tasks) => some (run.goTo .extractFilePath, (task :: tasks).length)
    | _ => some (run.setState 11 .finished, total)
  | .extractFilePath =>
    match xs.filePaths (run.tasks.getD []) with
    | none => some (run.goTo .finished, total)
    | some (files, path) =>
      let result := { run.result with files := some files, path := some path }
      some ({ run with result }.updateItem .appendDownloadTasks, total)
  | .appendDownloadTasks => some ({ run with appended := true }.goTo .setDownloading, total)
  | .setDownloading => some (run.setState 3 .waitForComplete, total)
  | .waitForComplete =>
    if total ≠ downloaded then some (run, total) else some (run.setState 0 .finished, total)
  | .checkLoginRequire | .createTasks | .finished => none

/-- `checkLoginRequire`, by what the extractor answers. -/
def login (xs : Extractors) (logined tryLogin : Bool) (run : Run) : Option Run :=
  match run.point with
  | .checkLoginRequire =>
    (xs.getExtractor run.result.url).map fun extractor =>
      if extractor.loginRequire && !logined && !tryLogin then run.setState 9 .finished
      else run.goTo .createTasks
  | _ => none

end Run

end DownloadRoutine

open DownloadRoutine

/-- The map that an item has at the moment: its own, or the one of a routine. -/
inductive ItemMap where
  | own (result : ItemResult)
  | run (k : ℕ)

structure DownloadItemWidget where
  item : ItemMap
  /-- The row of the item in the database. -/
  row : ItemResult
  runs : List Run := []
  /-- The routines with writes that nobody waits for. -/
  pending : List ℕ := []
  once : Bool := false
  download : Bool
  /-- Calls of `_downloadProcedure` that still wait half a second. -/
  scheduled : ℕ := 1
  downloadTotalFileCount : ℕ := 0
  downloadedFileCount : ℕ := 0
  errorFileCount : ℕ := 0

namespace DownloadItemWidget

inductive Event where
  | start
  | retry
  | proceed (k : ℕ)
  | login (k : ℕ) (logined tryLogin : Bool)
  /-- `simpleInfoCallback` -/
  | info (k : ℕ) (info : Units)
  /-- `thumbnailCallback` -/
  | thumbnail (k : ℕ) (url header : Units)
  /-- `createTask` returns a list or null. -/
  | returned (k : ℕ) (tasks : Option (List DownloadTask))
  /-- `createTask` throws. -/
  | threw (k : ℕ)
  /-- A write that a routine waits for is carried out. -/
  | saved (k : ℕ)
  /-- A write that nobody waits for is carried out. -/
  | flushed (i : ℕ)
  /-- A task is completed, or fails. -/
  | reported (k i : ℕ) (error : Bool)

/-- The widget of an item that has been read from the database. -/
def init (result : ItemResult) (download : Bool) : DownloadItemWidget :=
  { item := .own result, row := result, download }

def itemResult (w : DownloadItemWidget) : Option ItemResult :=
  match w.item with
  | .own result => some result
  | .run k => w.runs[k]?.map Run.result

/-- The row that is written by an event. -/
def persists (w : DownloadItemWidget) : Event → Option ItemResult
  | .saved k => do
    let run ← w.runs[k]?
    if run.saving then some run.result else none
  | .flushed i => do
    let k ← w.pending[i]?
    let run ← w.runs[k]?
    return run.result
  | _ => none

/-- The routine is replaced, and its map is the one of the item if it writes. -/
def put (w : DownloadItemWidget) (k : ℕ) (run : Run) : DownloadItemWidget :=
  { w with runs := w.runs.set k run, item := if run.saving then .run k else w.item }

/-- A routine that creates its tasks. -/
def creating (w : DownloadItemWidget) (k : ℕ) : Option Run :=
  w.runs[k]?.filter fun run => !run.saving && decide (run.point = .createTasks)

def step (xs : Extractors) (w : DownloadItemWidget) : Event → Option DownloadItemWidget
  | .start =>
    if w.scheduled = 0 then none
    else if w.once then some { w with scheduled := w.scheduled - 1 }
    else do
      let result ← w.itemResult
      return { w with scheduled := w.scheduled - 1, once := true, runs := w.runs ++ [{ result }] }
  | .retry => do
    let result ← w.itemResult
    return { w with
      item := .own { result with state := 1 }
      once := false, download := true, scheduled := w.scheduled + 1 }
  | .proceed k => do
    let run ← w.runs[k]?
    let result ← w.itemResult
    if run.saving then none
    else
      let (run, total) ← run.proceed xs result.state w.download w.downloadTotalFileCount
        w.downloadedFileCount
      return { w.put k run with downloadTotalFileCount := total }
  | .login k logined tryLogin => do
    let run ← w.runs[k]?
    if run.saving then none else return w.put k (← run.login xs logined tryLogin)
  | .info k info => do
    let run ← w.creating k
    return w.put k { run with result := { run.result with info := some info } }
  | .thumbnail k url header => do
    let run ← w.creating k
    return w.put k { run with
      result := { run.result with thumbnail := some url, thumbnailHeader := some header } }
  | .returned k tasks => do
    let run ← w.creating k
    return w.put k { run with tasks, point := .checkNothingToDownload }
  | .threw k => do
    let run ← w.creating k
    -- the write of the error state is not awaited
    return { w.put k { run with
        result := { run.result with state := 7 }, point := .checkNothingToDownload } with
      item := .run k, pending := w.pending ++ [k] }
  | .saved k => do
    let row ← w.persists (.saved k)
    let run ← w.runs[k]?
    return { w with row, runs := w.runs.set k { run with saving := false } }
  | .flushed i => do
    let row ← w.persists (.flushed i)
    return { w with row, pending := w.pending.eraseIdx i }
  | .reported k i error => do
    let run ← w.runs[k]?
    let tasks ← run.tasks
    if run.appended ∧ i < tasks.length ∧ i ∉ run.reported then
      return { w with
        runs := w.runs.set k { run with reported := run.reported ++ [i] }
        downloadedFileCount := w.downloadedFileCount + 1
        errorFileCount := if error then w.errorFileCount + 1 else w.errorFileCount }
    else none

end DownloadItemWidget
