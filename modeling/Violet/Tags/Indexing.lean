import Violet.Dart.Map
import Violet.Dart.Text

/-!
# The indices of tags

Two pages build the same indices of the rows of the database, by two copies of one loop. The copies
differ in two places: where the characters are related to the series, and where a character is kept
from being counted with itself.
-/

open Dart

/-- The columns of a row that are indexed. Artists are not null, but may be empty. -/
structure Row where
  tags : Option Units := none
  artists : Units := []
  groups : Option Units := none
  series : Option Units := none
  characters : Option Units := none
  language : Option Units := none
  type : Option Units := none
  uploader : Option Units := none
  classname : Option Units := none

/-- Numbers of occurrences. -/
abbrev Counts := Map Units ℕ

/-- Numbers of common occurrences. -/
abbrev Relation := Map Units Counts

/-- All that is built. -/
structure Index where
  tags : Counts := []
  languages : Counts := []
  artists : Counts := []
  groups : Counts := []
  types : Counts := []
  uploaders : Counts := []
  series : Counts := []
  characters : Counts := []
  classes : Counts := []
  tagIndex : Counts := []
  tagArtist : Relation := []
  tagGroup : Relation := []
  tagUploader : Relation := []
  tagSeries : Relation := []
  tagCharacter : Relation := []
  seriesSeries : Relation := []
  seriesCharacter : Relation := []
  characterCharacter : Relation := []
  characterSeries : Relation := []

namespace Indexing

/-! ### Counting -/

/-- The nonempty parts of a column between bars. -/
def parts (qr : Units) : List Units := (Units.split qr (units "|")).filter (· ≠ [])

/-- A key is put in with 0 before it is counted. -/
def bump (map : Counts) (key : Units) : Counts := map.set key ((map.get? key).getD 0 + 1)

def insert (map : Counts) (qr : Option Units) : Counts := (qr.elim [] parts).foldl bump map

def insertSingle (map : Counts) (qr : Option Units) : Counts :=
  match qr with
  | none => map
  | some str => if str = [] then map else bump map str

/-- A key that is not there yet gets an empty map. -/
def touch (rel : Relation) (key : Units) : Relation :=
  if rel.containsKey key then rel else rel.set key []

def bumpAt (rel : Relation) (key inner : Units) : Relation :=
  rel.set key (bump ((rel.get? key).getD []) inner)

/-- The place of a tag, which is the number of tags before it. -/
def addTag (tagIndex : Counts) (tag : Units) : Counts :=
  if tagIndex.containsKey tag then tagIndex else tagIndex.set tag tagIndex.length

/-- Names are related to the tags, by their places. -/
def relateTags (names tags : List Units) (tagIndex : Counts) (rel : Relation) :
    Counts × Relation :=
  tags.foldl
    (fun (tagIndex, rel) tag =>
      let tagIndex := addTag tagIndex tag
      let index := Units.ofNat ((tagIndex.get? tag).getD 0)
      (tagIndex, names.foldl (fun rel name => bumpAt rel name index) rel))
    (tagIndex, names.foldl touch rel)

/-- Keys are related to names, except where they are to be skipped. -/
def relate (skip : Units → Units → Bool) (keys names : List Units) (rel : Relation) : Relation :=
  keys.foldl
    (fun rel key =>
      names.foldl (fun rel name => if skip key name then rel else bumpAt rel key name)
        (touch rel key))
    rel

def never (_ _ : Units) : Bool := false

/-- The loop body of a page, where `seriesCharacter` relates the series and the characters of a row
and `characterCharacter` relates its characters. -/
def indexRow (seriesCharacter : List Units → List Units → Relation → Relation)
    (characterCharacter : List Units → Relation → Relation) (ix : Index) (item : Row) : Index :=
  let ix := { ix with
    tags := insert ix.tags item.tags
    artists := insert ix.artists (some item.artists)
    groups := insert ix.groups item.groups
    series := insert ix.series item.series
    characters := insert ix.characters item.characters
    languages := insertSingle ix.languages item.language
    types := insertSingle ix.types item.type
    uploaders := insertSingle ix.uploaders item.uploader
    classes := insertSingle ix.classes item.classname }
  match item.tags.map parts with
  | none => ix
  | some tags =>
    let (tagIndex, tagArtist) := relateTags (parts item.artists) tags ix.tagIndex ix.tagArtist
    let (tagIndex, tagGroup) := match item.groups with
      | none => (tagIndex, ix.tagGroup)
      | some groups => relateTags (parts groups) tags tagIndex ix.tagGroup
    let (tagIndex, tagUploader) := match item.uploader with
      | none => (tagIndex, ix.tagUploader)
      | some uploader => relateTags [uploader] tags tagIndex ix.tagUploader
    let (tagIndex, tagSeries) := match item.series with
      | none => (tagIndex, ix.tagSeries)
      | some series => relateTags (parts series) tags tagIndex ix.tagSeries
    let (tagIndex, tagCharacter) := match item.characters with
      | none => (tagIndex, ix.tagCharacter)
      | some characters => relateTags (parts characters) tags tagIndex ix.tagCharacter
    { ix with
      tagIndex, tagArtist, tagGroup, tagUploader, tagSeries, tagCharacter
      characterSeries := match item.series, item.characters with
        | some series, some characters =>
          relate never (parts series) (parts characters) ix.characterSeries
        | _, _ => ix.characterSeries
      seriesCharacter := match item.series, item.characters with
        | some series, some characters =>
          seriesCharacter (parts series) (parts characters) ix.seriesCharacter
        | _, _ => ix.seriesCharacter
      seriesSeries := match item.series with
        | some series =>
          relate (fun series series2 => series == series2) (parts series) (parts series)
            ix.seriesSeries
        | none => ix.seriesSeries
      characterCharacter := match item.characters with
        | some characters => characterCharacter (parts characters) ix.characterCharacter
        | none => ix.characterCharacter }

/-- The rows before the first page without rows, which ends the loop. -/
def delivered (pages : List (List Row)) : List Row :=
  (pages.takeWhile fun ll => !ll.isEmpty).flatten

end Indexing

namespace DataBaseDownloadPage

open Indexing

/-- The series are the keys here too. -/
def seriesCharacter (series characters : List Units) : Relation → Relation :=
  relate never series characters

/-- A character is compared with the map of the series, and so is never skipped. -/
def characterCharacter (characters : List Units) : Relation → Relation :=
  relate never characters characters

def indexing (pages : List (List Row)) : Index :=
  (delivered pages).foldl (indexRow seriesCharacter characterCharacter) {}

end DataBaseDownloadPage

namespace TagRebuildPage

open Indexing

def seriesCharacter (series characters : List Units) : Relation → Relation :=
  relate never characters series

def characterCharacter (characters : List Units) : Relation → Relation :=
  relate (fun character character2 => character == character2) characters characters

def indexing (pages : List (List Row)) : Index :=
  (delivered pages).foldl (indexRow seriesCharacter characterCharacter) {}

end TagRebuildPage
