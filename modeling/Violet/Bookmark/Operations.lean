import Violet.Bookmark.Tables
import Violet.Dart.Method

/-!
# Bookmarks

The operations of the `Bookmark` object on the tables of the user database and on its caches of
their keys. A cache is filled by the first query for it, and kept up to date by hand afterwards.
-/

namespace Violet

open Dart Method

/-- An `int`. -/
abbrev DartInt := { n : ℤ // intMin ≤ n ∧ n ≤ intMax }

lemma intToString_inj {id id' : DartInt} (h : intToString id = intToString id') : id = id' := by
  have hid := intTryParse_intToString id.2.1 id.2.2
  rw [h, intTryParse_intToString id'.2.1 id'.2.2] at hid
  exact Subtype.ext (Option.some.inj hid).symm

lemma three_bounds : intMin ≤ 3 ∧ 3 ≤ intMax := by decide

structure Bookmark where
  db : UserDatabase
  bookmarkSet : Option (Finset ℤ) := none
  /-- One set for each type of artist. -/
  bookmarkArtistSet : Option (Fin 5 → Finset Str) := none
  bookmarkUserSet : Option (Finset Str) := none

namespace Bookmark

variable (writable : Bool)

/-- A write to the database, which throws when this is not writable. -/
def write (f : UserDatabase → UserDatabase) : Method Bookmark Unit :=
  if writable then modify fun s => { s with db := f s.db } else failure

/-! ### Groups -/

/-- `fixGroup`: a second group with the position of the first means that positions were never
given. -/
def fixed (groups : List BookmarkGroup) : List BookmarkGroup :=
  match groups with
  | _ :: second :: _ =>
    if second.gorder = 1 then
      groups.mapIdx fun i group => if i = 0 then group else { group with gorder := i + 1 }
    else groups
  | _ => groups

/-- `fixGroup` is not awaited, so its exceptions are not noticed. -/
def fixGroup : Method Bookmark Unit :=
  modify fun s =>
    if writable then
      { s with db := { s.db with groups := { s.db.groups with rows := fixed s.db.groups.rows } } }
    else s

/-- The groups in order, as they are before the repair. -/
def getGroup : Method Bookmark (List BookmarkGroup) := do
  let s ← get
  fixGroup writable
  pure (s.db.groups.rows.mergeSort fun a b => a.gorder ≤ b.gorder)

def createGroup (name description : Str) (color : ℤ) (now : Str) : Method Bookmark Unit := do
  let groups ← getGroup writable
  match groups.getLast? with
  | none => failure
  | some last =>
    write writable fun db => { db with
      groups := db.groups.insert fun id =>
        { id := id, name := name, datetime := now, description := description, color := color,
          gorder := last.gorder + 1 } }

def deleteGroup (group : ℤ) : Method Bookmark Unit := do
  write writable fun db => { db with articles := db.articles.delete fun row => row.group = group }
  write writable fun db => { db with artists := db.artists.delete fun row => row.group = group }
  write writable fun db => { db with groups := db.groups.delete fun row => row.id = group }
  modify fun s => { s with bookmarkSet := none }

def modfiyGroup (group : BookmarkGroup) : Method Bookmark Unit :=
  write writable fun db => { db with
    groups := db.groups.update (fun row => row.id = group.id) fun _ => group }

/-- `swap` of two groups, which exchanges their positions. -/
def swap (group target : BookmarkGroup) : Method Bookmark Unit :=
  write writable fun db => { db with
    groups := (db.groups.update (fun row => row.id = group.id)
        fun row => { row with gorder := target.gorder }).update (fun row => row.id = target.id)
      fun row => { row with gorder := group.gorder } }

/-- The loops of `positionSwap`: a group moves step by step, to the next or to the previous
place. The list in memory is returned as it is in the end. -/
def moveGroup (up : Bool) : ℕ → ℕ → List BookmarkGroup → Method Bookmark (List BookmarkGroup)
  | 0, _, groups => pure groups
  | steps + 1, place, groups =>
    let next := if up then place + 1 else place - 1
    match groups[place]?, groups[next]? with
    | some group, some target => do
      swap writable group target
      moveGroup up steps next ((groups.set place { target with gorder := group.gorder }).set next
        { group with gorder := target.gorder })
    | _, _ => failure

/-- The move, with the list in memory behind it. -/
def positionSwap (source target : ℕ) : Method Bookmark (List BookmarkGroup) := do
  let groups ← getGroup writable
  if source < target then moveGroup writable true (target - source) source groups
  else moveGroup writable false (source - target) source groups

/-! ### Articles -/

/-- `bookmarkSet.add`. -/
def addArticle (id : ℤ) : Method Bookmark Unit := do
  let s ← get
  match s.bookmarkSet with
  | none => failure
  | some ids => set { s with bookmarkSet := some (insert id ids) }

/-- `bookmarkSet.add(int.parse(article))`. -/
def addParsed (article : Str) : Method Bookmark Unit :=
  match intTryParse article with
  | none => failure
  | some id => addArticle id

def addParsedAll : List Str → Method Bookmark Unit
  | [] => pure ()
  | article :: rest => do
    addParsed article
    addParsedAll rest

def fillBookmarkSet : Method Bookmark Unit := do
  let s ← get
  if s.bookmarkSet.isNone then do
    set { s with bookmarkSet := some ∅ }
    addParsedAll (s.db.articles.rows.map BookmarkArticle.article)
  else pure ()

def isBookmark (id : DartInt) : Method Bookmark Bool := do
  fillBookmarkSet
  let s ← get
  match s.bookmarkSet with
  | none => failure
  | some ids => pure (decide (id.1 ∈ ids))

def insertArticle (article datetime : Str) (group : ℤ) : Method Bookmark Unit := do
  write writable fun db => { db with
    articles := db.articles.insert fun id =>
      { id := id, article := article, datetime := datetime, group := group } }
  addParsed article

def bookmark (id : DartInt) (now : Str) : Method Bookmark Unit := do
  if ← isBookmark id then pure ()
  else do
    addArticle id
    insertArticle writable (intToString id) now 1

/-- `bookmarkSet.remove`. -/
def removeArticle (id : ℤ) : Method Bookmark Unit := do
  let s ← get
  match s.bookmarkSet with
  | none => failure
  | some ids => set { s with bookmarkSet := some (ids.erase id) }

def unbookmark (id : DartInt) : Method Bookmark Unit := do
  if ← isBookmark id then do
    write writable fun db => { db with
      articles := db.articles.delete fun row => row.article = intToString id }
    removeArticle id
  else pure ()

/-! ### Artists -/

/-- The key of the set for a type, when there is one. -/
def typeKey (type : ℤ) : Option (Fin 5) :=
  if h : 0 ≤ type ∧ type.toNat < 5 then some ⟨type.toNat, h.2⟩ else none

/-- `bookmarkArtistSet[type].add`. -/
def addArtist (name : Str) (type : ℤ) : Method Bookmark Unit := do
  let s ← get
  match s.bookmarkArtistSet, typeKey type with
  | some sets, some k =>
    set { s with bookmarkArtistSet := some (Function.update sets k (insert name (sets k))) }
  | _, _ => failure

def addArtistAll : List BookmarkArtist → Method Bookmark Unit
  | [] => pure ()
  | row :: rest => do
    addArtist row.artist row.type
    addArtistAll rest

def fillBookmarkArtistSet : Method Bookmark Unit := do
  let s ← get
  if s.bookmarkArtistSet.isNone then do
    set { s with bookmarkArtistSet := some fun _ => ∅ }
    addArtistAll s.db.artists.rows
  else pure ()

def isBookmarkArtist (name : Str) (type : ℤ) : Method Bookmark Bool := do
  fillBookmarkArtistSet
  let s ← get
  match s.bookmarkArtistSet, typeKey type with
  | some sets, some k => pure (decide (name ∈ sets k))
  | _, _ => failure

def insertArtist (artist : Str) (isgroup : ℤ) (datetime : Str) (group : ℤ) :
    Method Bookmark Unit := do
  write writable fun db => { db with
    artists := db.artists.insert fun id =>
      { id := id, artist := artist, type := isgroup, datetime := datetime, group := group } }
  addArtist artist isgroup

def bookmarkArtist (name : Str) (type : ℤ) (now : Str) (group : ℤ) : Method Bookmark Unit := do
  if ← isBookmarkArtist name type then pure ()
  else do
    addArtist name type
    insertArtist writable name type now group

/-- `bookmarkArtistSet[type].remove`. -/
def removeArtist (name : Str) (type : ℤ) : Method Bookmark Unit := do
  let s ← get
  match s.bookmarkArtistSet, typeKey type with
  | some sets, some k =>
    set { s with bookmarkArtistSet := some (Function.update sets k ((sets k).erase name)) }
  | _, _ => failure

def unbookmarkArtist (name : Str) (type : ℤ) : Method Bookmark Unit := do
  if ← isBookmarkArtist name type then do
    write writable fun db => { db with
      artists := db.artists.delete fun row => row.artist = name ∧ row.type = type }
    removeArtist name type
  else pure ()

/-! ### Users -/

/-- `bookmarkUserSet.add`. -/
def addUser (user : Str) : Method Bookmark Unit := do
  let s ← get
  match s.bookmarkUserSet with
  | none => failure
  | some users => set { s with bookmarkUserSet := some (insert user users) }

def fillBookmarkUserSet : Method Bookmark Unit :=
  modify fun s =>
    if s.bookmarkUserSet.isNone then
      { s with
        bookmarkUserSet := some (s.db.users.rows.foldl (fun users row => insert row.user users) ∅) }
    else s

def isBookmarkUser (user : Str) : Method Bookmark Bool := do
  fillBookmarkUserSet
  let s ← get
  match s.bookmarkUserSet with
  | none => failure
  | some users => pure (decide (user ∈ users))

def insertUser (user datetime : Str) (group : ℤ) : Method Bookmark Unit := do
  write writable fun db => { db with
    users := db.users.insert fun id =>
      { id := id, user := user, title := none, subtitle := none, datetime := datetime,
        group := group } }
  addUser user

def bookmarkUser (user now : Str) (group : ℤ) : Method Bookmark Unit := do
  if ← isBookmarkUser user then pure ()
  else do
    addUser user
    insertUser writable user now group

/-- The user is added to the cache again. -/
def unbookmarkUser (user : Str) : Method Bookmark Unit := do
  if ← isBookmarkUser user then do
    write writable fun db => { db with users := db.users.delete fun row => row.user = user }
    addUser user
  else pure ()

/-- `bookmarkUserSet.remove`. -/
def removeUser (user : Str) : Method Bookmark Unit := do
  let s ← get
  match s.bookmarkUserSet with
  | none => failure
  | some users => set { s with bookmarkUserSet := some (users.erase user) }

def deleteUser (user : BookmarkUser) : Method Bookmark Unit := do
  write writable fun db => { db with users := db.users.delete fun row => row.id = user.id }
  removeUser user.user

def modfiyUser (user : BookmarkUser) : Method Bookmark Unit :=
  write writable fun db => { db with
    users := db.users.update (fun row => row.id = user.id) fun _ => user }

/-! ### Sequences of operations -/

inductive Operation where
  | isBookmark (id : DartInt)
  | bookmark (id : DartInt) (now : Str)
  | unbookmark (id : DartInt)
  | insertArticle (article datetime : Str) (group : ℤ)
  | isBookmarkArtist (name : Str) (type : ℤ)
  | bookmarkArtist (name : Str) (type : ℤ) (now : Str) (group : ℤ)
  | unbookmarkArtist (name : Str) (type : ℤ)
  | insertArtist (artist : Str) (isgroup : ℤ) (datetime : Str) (group : ℤ)
  | isBookmarkUser (user : Str)
  | bookmarkUser (user now : Str) (group : ℤ)
  | unbookmarkUser (user : Str)
  | insertUser (user datetime : Str) (group : ℤ)
  | deleteUser (user : BookmarkUser)
  | modfiyUser (user : BookmarkUser)
  | getGroup
  | createGroup (name description : Str) (color : ℤ) (now : Str)
  | modfiyGroup (group : BookmarkGroup)
  | positionSwap (source target : ℕ)
  | deleteGroup (group : ℤ)
  deriving DecidableEq

/-- The object after the operation, whether this returns or throws. -/
def Operation.exec (s : Bookmark) : Operation → Bookmark
  | .isBookmark id => ((Bookmark.isBookmark id).exec s).2
  | .bookmark id now => ((Bookmark.bookmark writable id now).exec s).2
  | .unbookmark id => ((Bookmark.unbookmark writable id).exec s).2
  | .insertArticle article datetime group =>
    ((Bookmark.insertArticle writable article datetime group).exec s).2
  | .isBookmarkArtist name type => ((Bookmark.isBookmarkArtist name type).exec s).2
  | .bookmarkArtist name type now group =>
    ((Bookmark.bookmarkArtist writable name type now group).exec s).2
  | .unbookmarkArtist name type => ((Bookmark.unbookmarkArtist writable name type).exec s).2
  | .insertArtist artist isgroup datetime group =>
    ((Bookmark.insertArtist writable artist isgroup datetime group).exec s).2
  | .isBookmarkUser user => ((Bookmark.isBookmarkUser user).exec s).2
  | .bookmarkUser user now group => ((Bookmark.bookmarkUser writable user now group).exec s).2
  | .unbookmarkUser user => ((Bookmark.unbookmarkUser writable user).exec s).2
  | .insertUser user datetime group =>
    ((Bookmark.insertUser writable user datetime group).exec s).2
  | .deleteUser user => ((Bookmark.deleteUser writable user).exec s).2
  | .modfiyUser user => ((Bookmark.modfiyUser writable user).exec s).2
  | .getGroup => ((Bookmark.getGroup writable).exec s).2
  | .createGroup name description color now =>
    ((Bookmark.createGroup writable name description color now).exec s).2
  | .modfiyGroup group => ((Bookmark.modfiyGroup writable group).exec s).2
  | .positionSwap source target => ((Bookmark.positionSwap writable source target).exec s).2
  | .deleteGroup group => ((Bookmark.deleteGroup writable group).exec s).2

/-- An operation while every call of the database succeeds. -/
def step (s : Bookmark) (op : Operation) : Option Bookmark := some (op.exec true s)

/-- The object before any operation. -/
def load (db : UserDatabase) : Bookmark := { db := db }

end Bookmark

end Violet
