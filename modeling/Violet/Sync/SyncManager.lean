import Violet.Dart.Integer
import Violet.Transition.Run
import Mathlib.Logic.Function.Basic

/-!
# The synchronisation of the articles

The server lists its chunks from the oldest to the latest one. An attempt reads the list, fetches
the chunks behind the timestamp in the preference `synclatest`, writes them one after the other to
the table and, in the end, deletes the articles that the settings exclude.
-/

namespace Violet

open Dart

/-! ### The list of the server -/

structure SyncInfoRecord where
  type : Str
  timestamp : ℤ
  url : Str
  size : ℤ := 0
  deriving DecidableEq, Repr

namespace SyncInfoRecord

def isChunk (r : SyncInfoRecord) : Bool := r.type = "chunk".toList

/-- A line of the list. The parts that are missing or not numbers throw. -/
def read (line : Str) : Option SyncInfoRecord :=
  match splitAll " ".toList line with
  | type :: timestamp :: url :: rest => do
    let timestamp ← intTryParse timestamp
    if type = "chunk".toList then
      let size ← intTryParse (← rest.head?)
      some { type := type, timestamp := timestamp, url := url, size := size }
    else some { type := type, timestamp := timestamp, url := url }
  | _ => none

/-- Only json files are required of the chunks, and only later ones. -/
def required (latest : ℤ) (r : SyncInfoRecord) : Bool :=
  !(r.isChunk && (!(".json".toList.isSuffixOf r.url) || r.timestamp ≤ latest))

end SyncInfoRecord

/-- The records of the list, the latest one first. -/
def readLines (lines : List Str) : Option (List SyncInfoRecord) :=
  (lines.reverse.filter fun line => !("#".toList.isPrefixOf line)).mapM SyncInfoRecord.read

/-- `checkSync`: the records that are required after a timestamp, the latest one first. -/
def checkSync (lines : List Str) (latest : ℤ) : Option (List SyncInfoRecord) :=
  (readLines lines).map fun rows => rows.filter (SyncInfoRecord.required latest)

def translateToLanguage (lang : Str) : Option Str :=
  if lang = "global".toList then some []
  else if lang = "ko".toList then some "korean".toList
  else if lang = "zh".toList then some "chinese".toList
  else if lang = "ja".toList then some "japanese".toList
  else if lang = "en".toList then some "english".toList
  else none

/-! ### Attempts -/

/-- What an attempt reads: the list of the server, the articles in its files and the settings. -/
structure SyncSource (α : Type) where
  lines : List Str
  /-- The articles in a file, unless it is malformed. -/
  body : Str → Option (List α)
  /-- The primary key of an article. -/
  id : α → ℤ
  language : α → Option Str
  databaseType : Str
  /-- The articles that are deleted in the end. -/
  excluded : α → Bool

/-- The table of the articles, by their keys, and the preference `synclatest`. -/
structure Device (α : Type) where
  table : ℤ → Option α
  synclatest : Option ℤ

/-- A step of an attempt at which it fails. -/
inductive SyncStop where
  | fetching
  /-- The chunk with this number cannot be applied. -/
  | applying (i : ℕ)
  /-- The chunk with this number is applied, and its timestamp cannot be recorded. -/
  | recording (i : ℕ)
  | filtering
  deriving DecidableEq, Repr

namespace SyncSource

variable {α : Type} (src : SyncSource α)

/-- The articles of a chunk in the language of the settings. -/
def chunkRows (r : SyncInfoRecord) : Option (List α) := do
  let rows ← src.body r.url
  let lang ← translateToLanguage src.databaseType
  if lang = [] then some rows
  else some (rows.filter fun row =>
    src.language row = some lang ∨ src.language row = some "n/a".toList)

/-- The insertions of a chunk, with `ConflictAlgorithm.replace`. -/
def replace (table : ℤ → Option α) (rows : List α) : ℤ → Option α :=
  rows.foldl (fun table row => Function.update table (src.id row) (some row)) table

/-- The deletion in the end. -/
def clean (table : ℤ → Option α) : ℤ → Option α :=
  fun id => (table id).filter fun row => !src.excluded row

/-- The loop over the chunks, the oldest one first, and the step at which it ends early. -/
def applyChunks (stop : Option SyncStop) :
    ℕ → List SyncInfoRecord → Device α → Device α × Option SyncStop
  | _, [], d => (d, none)
  | i, r :: rest, d =>
    if stop = some (.applying i) then (d, some (.applying i))
    else
      match src.chunkRows r with
      | none => (d, some (.applying i))
      | some rows =>
        let d := { d with table := src.replace d.table rows }
        if stop = some (.recording i) then (d, some (.recording i))
        else applyChunks stop (i + 1) rest { d with synclatest := some r.timestamp }

/-- `doChunkSync`, after its downloads. -/
def doChunkSync (stop : Option SyncStop) (chunks : List SyncInfoRecord) (d : Device α) :
    Device α × Option SyncStop :=
  match src.applyChunks stop 0 chunks d with
  | (d, some i) => (d, some i)
  | (d, none) =>
    if chunks = [] then (d, none)
    else if stop = some .filtering then (d, some .filtering)
    else ({ d with table := src.clean d.table }, none)

/-- The chunks that are required after a timestamp, the oldest one first. -/
def chunks (rows : List SyncInfoRecord) : List SyncInfoRecord :=
  (rows.filter SyncInfoRecord.isChunk).reverse

/-- An attempt that is to fail at a step, or at none: the device afterwards and the step at which it
has failed. Before the first synchronisation no chunks are fetched. -/
def attempt (stop : Option SyncStop) (d : Device α) : Device α × Option SyncStop :=
  match d.synclatest with
  | none => (d, none)
  | some latest =>
    if stop = some .fetching then (d, some .fetching)
    else
      match checkSync src.lines latest with
      | none => (d, some .fetching)
      | some rows => src.doChunkSync stop (chunks rows) d

/-- An attempt as an event: it fails at the step, or completes. -/
def step (d : Device α) (stop : Option SyncStop) : Option (Device α) :=
  if (src.attempt stop d).2 = stop then some (src.attempt stop d).1 else none

end SyncSource

end Violet
