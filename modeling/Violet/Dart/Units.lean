import Mathlib.Data.List.DropRight
import Mathlib.Data.List.Infix
import Mathlib.Tactic.Lemma

/-!
# Code units

A Dart string is a sequence of code units of 16 bits. Texts whose length or single units matter
are lists of units; the operations of `dart:core` on them are functions on such lists.
-/

namespace Dart

abbrev Units := List UInt16

/-- One or two units for a character. -/
def encodeChar (c : Char) : Units :=
  if c.toNat < 0x10000 then [.ofNat c.toNat]
  else
    let n := c.toNat - 0x10000
    [.ofNat (0xD800 + n / 0x400), .ofNat (0xDC00 + n % 0x400)]

/-- The code units of a literal. -/
def units (s : String) : Units := s.toList.flatMap encodeChar

namespace Units

/-- The units that `String.trim` removes: Unicode white space and the byte order mark. -/
def isBlank (u : UInt16) : Bool :=
  let n := u.toNat
  (9 ≤ n && n ≤ 13) || n == 32 || n == 0x85 || n == 0xA0 || n == 0x1680 ||
    (0x2000 ≤ n && n ≤ 0x200A) || n == 0x2028 || n == 0x2029 || n == 0x202F || n == 0x205F ||
    n == 0x3000 || n == 0xFEFF

def trimLeft (s : Units) : Units := s.dropWhile isBlank

def trimRight (s : Units) : Units := s.rdropWhile isBlank

def trim (s : Units) : Units := trimRight (trimLeft s)

def startsWith (s pat : Units) : Bool := pat.isPrefixOf s

def endsWith (s pat : Units) : Bool := pat.isSuffixOf s

/-- The place of the first occurrence, which the empty text has at once. -/
def indexOf? (s pat : Units) : Option ℕ :=
  (List.range (s.length + 1)).find? fun i => pat.isPrefixOf (s.drop i)

def contains (s pat : Units) : Bool := (indexOf? s pat).isSome

/-- `replaceAll`: the occurrences are taken from the left, without overlap. The counter is the
number of units of the last occurrence still to be skipped. The empty text occurs before every unit
and at the end. -/
def replaceAll (s pat sub : Units) : Units :=
  if pat = [] then sub ++ s.flatMap fun u => u :: sub else go 0 s
where
  go : ℕ → Units → Units
    | _, [] => []
    | skip + 1, _ :: s => go skip s
    | 0, u :: s =>
      if pat.isPrefixOf (u :: s) then sub ++ go (pat.length - 1) s else u :: go 0 s

/-- `split`: the empty text separates all units. -/
def split (s pat : Units) : List Units :=
  if pat = [] then s.map fun u => [u] else go 0 [] s
where
  go : ℕ → Units → Units → List Units
    | _, part, [] => [part]
    | skip + 1, part, _ :: s => go skip part s
    | 0, part, u :: s =>
      if pat.isPrefixOf (u :: s) then part :: go (pat.length - 1) [] s else go 0 (part ++ [u]) s

/-- `join` of a list of texts. -/
def join (sep : Units) (parts : List Units) : Units := sep.intercalate parts

end Units

/-- `runes`: the code points of a text, where half a pair counts by itself. -/
def runes : Units → List ℕ
  | [] => []
  | [u] => [u.toNat]
  | u :: v :: s =>
    if 0xD800 ≤ u.toNat ∧ u.toNat < 0xDC00 ∧ 0xDC00 ≤ v.toNat ∧ v.toNat < 0xE000 then
      (0x10000 + (u.toNat - 0xD800) * 0x400 + (v.toNat - 0xDC00)) :: runes s
    else u.toNat :: runes (v :: s)

end Dart
