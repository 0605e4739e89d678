import Violet.Dart.Firsts
import Violet.Dart.FixedList
import Violet.Dart.Map
import Violet.Dart.Units

/-!
# Translated tags

Tags are found by parts of their translations, either as they are written or as the keys that are
typed for them on a Korean keyboard. For the keys there is a reversed map, from the typed
translation to the tag.
-/

open Dart

/-! ### Keys of a keyboard -/

namespace TagTranslate

def index_letter_2 : List Units := [
  "r", "R", "rt", "s", "sw", "sg", "e", "E",
  "f", "fr", "fa", "fq", "ft", "fe", "fv", "fg",
  "a", "q", "Q", "qt", "t", "T", "d", "w",
  "W", "", "z", "e", "v", "g", "k", "o",
  "i", "O", "j", "p", "u", "P", "h", "hk",
  "ho", "hl", "y", "n", "nj", "np", "nl", "b",
  "m", "ml", "l", " ", "ss", "se", "st", " ",
  "frt", "fe", "fqt", " ", "fg", "aq", "at", " ",
  " ", "qr", "qe", "qtr", "qte", "qw", "qe", " ",
  " ", "tr", "ts", "te", "tq", "tw", " ", "dd",
  "d", "dt", " ", " ", "gg", " ", "yi", "yO",
  "yl", "bu", "bP", "bl"].map units

def index_initial_2 : List Units := [
  "r", "R", "s", "e", "E", "f", "a", "q",
  "Q", "t", "T", "d", "w", "W", "c", "z",
  "x", "v", "g"].map units

def index_medial_2 : List Units := [
  "k", "o", "i", "O", "j", "p", "u", "P",
  "h", "hk", "ho", "hl", "y", "n", "nj", "np",
  "nl", "b", "m", "ml", "l"].map units

def index_final_2 : List Units := [
  "", "r", "R", "rt", "s", "sw", "sg", "e",
  "f", "fr", "fa", "fq", "ft", "fx", "fv", "fg",
  "a", "q", "qt", "t", "T", "d", "w", "",
  "z", "x", "v", "g"].map units

/-- The places of the three letters of a syllable. -/
structure Distortion where
  initial : ℕ
  medial : ℕ
  final : ℕ

def distortion (ch : ℕ) : Distortion :=
  let unis := ch - 0xAC00
  { initial := unis / (21 * 28)
    medial := (unis % (21 * 28)) / 28
    final := (unis % (21 * 28)) % 28 }

def checkLetter (ch : ℕ) : Bool := 0xac00 ≤ ch && ch ≤ 0xd7fb

def checkJamo31 (ch : ℕ) : Bool := 0x3131 ≤ ch && ch ≤ 0x3163

def checkJamo11 (ch : ℕ) : Bool := 0x1100 ≤ ch && ch ≤ 0x11ff

/-- The keys for a unit; `none` is an index behind the end of a table. -/
def disassemblyCharacter (ch : ℕ) : Option Units :=
  if checkLetter ch then do
    let jamo := distortion ch
    let initial ← index_initial_2[jamo.initial]?
    let medial ← index_medial_2[jamo.medial]?
    let final ← index_final_2[jamo.final]?
    return initial ++ medial ++ final
  else if checkJamo31 ch then index_letter_2[ch - 0x3131]?
  else if checkJamo11 ch then index_letter_2[ch - 0x1100]?
  else some [.ofNat ch]

def disassembly (str : Units) : Option Units :=
  (str.mapM fun u => disassemblyCharacter u.toNat).map List.flatten

end TagTranslate

/-! ### Displayed tags -/

structure DisplayedTag where
  group : Option Units
  name : Option Units
  translated : Option Units
deriving DecidableEq

namespace DisplayedTag

def groups : List Units :=
  ["artist", "group", "tag", "series", "character", "uploader", "type", "class", "language",
    "prefix"].map units

/-- The tag `<group>:<name>`, where the group of `female:<tag>` and `male:<tag>` is `tag`. -/
def ofTag (tag : Units) (translated : Option Units) : DisplayedTag :=
  let maybeGroup := tag.takeWhile (· != 58)
  if maybeGroup ∈ groups then
    { group := some maybeGroup
      name := some (if 58 ∈ tag then tag.drop (maybeGroup.length + 1) else tag)
      translated }
  else if maybeGroup ∈ [units "female", units "male"] then
    { group := some (units "tag"), name := some tag, translated }
  else { group := none, name := none, translated }

/-- The tag of a group with a name. The group of `female:<tag>` and `male:<tag>` is `tag`. -/
def ofGroup (group name : Units) : DisplayedTag :=
  if group ∈ [units "female", units "male"] then
    { group := some (units "tag")
      name := some (if Units.startsWith name (group ++ units ":") then name
        else group ++ units ":" ++ name)
      translated := none }
  else { group := some group, name := some name, translated := none }

def getTag (t : DisplayedTag) : Units :=
  t.group.getD (units "null") ++ units ":" ++ t.name.getD (units "null")

end DisplayedTag

/-! ### The maps -/

structure TagTranslate where
  translateMap : Map Units Units := []
  reverseAndroMap : Map Units Units := []
deriving DecidableEq

namespace TagTranslate

/-- `replaceAll(' ', '')`. -/
def removeBlanks (s : Units) : Units := Units.replaceAll s (units " ") []

/-- The key of a translation in the reversed map. -/
def androKey (value : Units) : Option Units :=
  disassembly (Units.replaceAll (Units.replaceAll value (units "female:") []) (units "male:") [])

/-- An entry of the file is put into the maps. -/
def addEntry (t : TagTranslate) (element : Units × Units) : Option TagTranslate :=
  if Units.trim element.2 = [] then some t
  else if t.translateMap.containsKey element.1 then some t
  else do
    let key ← androKey element.2
    return { translateMap := t.translateMap.set element.1 element.2
             reverseAndroMap := t.reverseAndroMap.set key element.1 }

/-- The maps of a file; `none` is an exception. -/
def init (result : Map Units Units) : Option TagTranslate := result.foldlM addEntry {}

variable (t : TagTranslate)

def contains (part : Units) : List DisplayedTag :=
  let part := removeBlanks part
  (t.translateMap.filter fun e => Units.contains (removeBlanks e.2) part).map fun e =>
    .ofTag e.1 (some e.2)

def containsAndro (part : Units) : Option (List DisplayedTag) := do
  let part ← disassembly (removeBlanks part)
  return (t.reverseAndroMap.filter fun e => Units.contains (removeBlanks e.1) part).map fun e =>
    .ofTag e.2 (t.translateMap.get? e.2)

/-- The tags that have not been seen before, with the texts of those seen. -/
def withoutOverlap (result : List DisplayedTag) : List DisplayedTag :=
  (result.foldl
    (fun (overlap, rresult) element =>
      if element.getTag ∈ overlap then (overlap, rresult)
      else (overlap ++ [element.getTag], rresult ++ [element]))
    (([] : List Units), ([] : List DisplayedTag))).2

/-- The first of the results for each tag, where a result comes with a distance. -/
def firstOfEach (result : List (DisplayedTag × ℕ)) : List (DisplayedTag × ℕ) :=
  (result.foldl
    (fun seen element =>
      if element.1.getTag ∈ seen.1 then seen
      else (seen.1 ++ [element.1.getTag], seen.2 ++ [element]))
    (([] : List Units), ([] : List (DisplayedTag × ℕ)))).2

lemma withoutOverlap_eq (result : List DisplayedTag) :
    withoutOverlap result = firsts DisplayedTag.getTag [] result :=
  foldl_firsts DisplayedTag.getTag result ([], [])

lemma firstOfEach_eq (result : List (DisplayedTag × ℕ)) :
    firstOfEach result = firsts (fun e => e.1.getTag) [] result :=
  foldl_firsts (fun e : DisplayedTag × ℕ => e.1.getTag) result ([], [])

def containsTotal (part : Units) : Option (List DisplayedTag) := do
  return withoutOverlap (t.contains part ++ (← t.containsAndro part))

example : disassembly (units "안a") = some (units "dksa") := by decide

end TagTranslate
