import Violet.Dart.Integer
import Mathlib.Data.Finset.Image

/-!
# The tables of the user database

Each table numbers its rows by `integer primary key autoincrement`: an `Id` is not used again after
its row has been deleted.
-/

namespace Violet

open Dart

/-! ### Rows -/

structure BookmarkGroup where
  id : ℤ
  name : Str
  datetime : Str
  description : Str
  color : ℤ
  gorder : ℤ
  deriving DecidableEq, Repr

structure BookmarkArticle where
  id : ℤ
  article : Str
  datetime : Str
  group : ℤ
  deriving DecidableEq, Repr

structure BookmarkArtist where
  id : ℤ
  artist : Str
  /-- The column `IsGroup`: 0 for an artist, 1 for a group, 2 for an uploader, 3 for a series and 4
  for a character. -/
  type : ℤ
  datetime : Str
  group : ℤ
  deriving DecidableEq, Repr

structure BookmarkUser where
  id : ℤ
  user : Str
  title : Option Str
  subtitle : Option Str
  datetime : Str
  group : ℤ
  deriving DecidableEq, Repr

/-! ### Tables -/

/-- A table whose rows are numbered. -/
structure KeyedTable (α : Type) where
  rows : List α := []
  /-- The last `Id` that has been given out. -/
  sequence : ℤ := 0
  deriving DecidableEq, Repr

namespace KeyedTable

variable {α : Type}

/-- `INSERT` of a row under the next `Id`. -/
def insert (t : KeyedTable α) (row : ℤ → α) : KeyedTable α :=
  { rows := t.rows ++ [row (t.sequence + 1)], sequence := t.sequence + 1 }

/-- `DELETE` of the rows with a property. -/
def delete (t : KeyedTable α) (p : α → Bool) : KeyedTable α :=
  { t with rows := t.rows.filter fun row => !p row }

/-- `UPDATE` of the rows with a property. -/
def update (t : KeyedTable α) (p : α → Bool) (f : α → α) : KeyedTable α :=
  { t with rows := t.rows.map fun row => if p row then f row else row }

@[simp] lemma rows_insert (t : KeyedTable α) (row : ℤ → α) :
    (t.insert row).rows = t.rows ++ [row (t.sequence + 1)] := rfl

@[simp] lemma rows_delete (t : KeyedTable α) (p : α → Bool) :
    (t.delete p).rows = t.rows.filter fun row => !p row := rfl

@[simp] lemma rows_update (t : KeyedTable α) (p : α → Bool) (f : α → α) :
    (t.update p f).rows = t.rows.map fun row => if p row then f row else row := rfl

end KeyedTable

structure UserDatabase where
  groups : KeyedTable BookmarkGroup := {}
  articles : KeyedTable BookmarkArticle := {}
  artists : KeyedTable BookmarkArtist := {}
  users : KeyedTable BookmarkUser := {}
  deriving DecidableEq, Repr

/-- The value of `Colors.grey`. -/
def grey : ℤ := 0xFF9E9E9E

/-- The tables as `getInstance` creates them, with the default group. -/
def UserDatabase.create (now : Str) : UserDatabase where
  groups := ({} : KeyedTable BookmarkGroup).insert fun id =>
    { id := id
      name := "violet_default".toList
      datetime := now
      description := "Unclassified bookmarks.".toList
      color := grey
      gorder := 1 }

/-! ### Keys -/

namespace UserDatabase

/-- The articles with a bookmark. -/
def articleKeys (db : UserDatabase) : Finset ℤ :=
  (db.articles.rows.filterMap fun row => intTryParse row.article).toFinset

def artistKeys (db : UserDatabase) (type : ℤ) : Finset Str :=
  ((db.artists.rows.filter fun row => row.type = type).map BookmarkArtist.artist).toFinset

def userKeys (db : UserDatabase) : Finset Str := (db.users.rows.map BookmarkUser.user).toFinset

variable {db : UserDatabase} {id type : ℤ} {name : Str}

lemma mem_articleKeys :
    id ∈ db.articleKeys ↔ ∃ row ∈ db.articles.rows, intTryParse row.article = some id := by
  simp [articleKeys]

lemma mem_artistKeys :
    name ∈ db.artistKeys type ↔ ∃ row ∈ db.artists.rows, row.type = type ∧ row.artist = name := by
  simp [artistKeys, and_assoc]

lemma mem_userKeys : name ∈ db.userKeys ↔ ∃ row ∈ db.users.rows, row.user = name := by
  simp [userKeys]

end UserDatabase

end Violet
