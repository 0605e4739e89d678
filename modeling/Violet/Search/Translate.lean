import Violet.Dart.Integer

/-!
# Translation of a search text to SQL

`splitTokens` and `translate2query` of `HitomiManager`. The SQL text is assembled by string
interpolation; it is kept here as the list of its pieces, each marked as text of the program's own
or as text that the user wrote, and `translate2query` is what the pieces spell.

The loop of the source looks one token ahead to choose the connective.
-/

namespace Violet

open Dart

/-! ### Splitting -/

/-- The characters that are tokens of their own. -/
def isDelimiter (c : Char) : Bool := c == '(' || c == ')' || c == '>' || c == '<'

/-- The loop of `splitTokens`, with the string buffer. -/
def splitLoop (builder : Str) : Str → List Str
  | [] => [builder]
  | c :: tokens =>
    if c = ' ' then builder :: splitLoop [] tokens
    else if isDelimiter c then builder :: [c] :: splitLoop [] tokens
    else splitLoop (builder ++ [c]) tokens

def splitTokens (tokens : Str) : List Str := splitLoop [] tokens

/-- The nonempty tokens of a text, trimmed. -/
def words (tokens : Str) : List Str := ((splitTokens tokens).map trim).filter (· ≠ [])

/-! ### Clauses -/

inductive Piece where
  | sql (t : Str)
  | user (t : Str)
  deriving DecidableEq, Repr

def Piece.text : Piece → Str
  | .sql t | .user t => t

def render (ps : List Piece) : Str := ps.flatMap Piece.text

/-- The tag prefixes that name a column. -/
inductive Prefix where
  | male
  | female
  | tag
  | lang
  | series
  | artist
  | group
  | uploader
  | character
  | «class»
  | type
  deriving DecidableEq, Repr

def Prefix.all : List Prefix :=
  [.male, .female, .tag, .lang, .series, .artist, .group, .uploader, .character, .type, .class]

def Prefix.name : Prefix → Str
  | .male => "male".toList
  | .female => "female".toList
  | .tag => "tag".toList
  | .lang => "lang".toList
  | .series => "series".toList
  | .artist => "artist".toList
  | .group => "group".toList
  | .uploader => "uploader".toList
  | .character => "character".toList
  | .type => "type".toList
  | .class => "class".toList

def Prefix.ofName (s : Str) : Option Prefix := Prefix.all.find? fun p => p.name = s

lemma Prefix.name_of_ofName {s : Str} {p : Prefix} (h : ofName s = some p) : p.name = s :=
  of_decide_eq_true (List.find?_some (p := fun p : Prefix => decide (p.name = s)) h)

def Prefix.column : Prefix → Str
  | .male | .female | .tag => "Tags".toList
  | .lang => "Language".toList
  | .series => "Series".toList
  | .artist => "Artists".toList
  | .group => "Groups".toList
  | .uploader => "Uploader".toList
  | .character => "Characters".toList
  | .type => "Type".toList
  | .class => "Class".toList

def underscoreToBlank (s : Str) : Str := replaceChar '_' ' ' s

/-- The text searched for in the column, between the outer `%`. Here `val` is the token without its
sign and `ss1` is the part after its first colon. Columns with several values delimit each by bars,
and a `male:` or `female:` tag keeps its prefix. -/
def Prefix.postfixPieces (p : Prefix) (val ss1 : Str) : List Piece :=
  match p with
  | .male | .female => [.sql "|".toList, .user (underscoreToBlank val), .sql "|".toList]
  | .tag | .series | .artist | .group | .character =>
    [.sql "|".toList, .user (underscoreToBlank ss1), .sql "|".toList]
  | .uploader => [.user ss1]
  | .lang | .type | .class => [.user (underscoreToBlank ss1)]

/-- What the loop makes of one token. -/
inductive Clause where
  /-- A tag with a known prefix: `val` is the token without its sign, `ss1` the part after its first
  colon. -/
  | column (negative : Bool) (p : Prefix) (val ss1 : Str)
  | title (negative : Bool) (val : Str)
  /-- A parenthesis or comparison sign, copied as it stands. -/
  | symbol (tok : Str)
  deriving DecidableEq, Repr

/-- `$prefix LIKE '%$postfix%'`, negated by `IS NOT 1`. -/
def columnPieces (negative : Bool) (p : Prefix) (val ss1 : Str) : List Piece :=
  (if negative then [.sql "(".toList] else []) ++
    .sql (p.column ++ " LIKE '%".toList) :: p.postfixPieces val ss1 ++ [.sql "%'".toList] ++
    (if negative then [.sql ") IS NOT 1".toList] else []) ++
    (if p = .uploader then [.sql " COLLATE NOCASE".toList] else [])

def titlePieces (negative : Bool) (val : Str) : List Piece :=
  if negative then [.sql "Title NOT LIKE '%".toList, .user val, .sql "%'".toList]
  else [.sql "Title LIKE '%".toList, .user val, .sql "%'".toList]

def Clause.pieces : Clause → List Piece
  | .column negative p val ss1 => columnPieces negative p val ss1
  | .title negative val => titlePieces negative val
  | .symbol tok => [.sql tok]

def selectWhere : Str := "SELECT * FROM HitomiColumnModel WHERE ".toList

/-- A token with a minus sign in front is negated. -/
def isNegative (tok : Str) : Bool := tok.head? == some '-'

def unsigned (tok : Str) : Str := if isNegative tok then tok.tail else tok

/-- The clause of one token. An error is the text that `translate2query` returns at once. -/
def readToken (tok : Str) : Except Str Clause :=
  if ':' ∈ tok then
    let val := unsigned tok
    let ss := val.splitOn ':'
    if ss.headD [] = "recent".toList then .error (selectWhere ++ "ExistOnHitomi=1".toList)
    else match Prefix.ofName (ss.headD []) with
      | none => .error []
      | some p => .ok (.column (isNegative tok) p val (ss.getD 1 []))
  else if tok <:+: "=<>()".toList then .ok (.symbol tok)
  else .ok (.title (isNegative tok) (unsigned tok))

/-! ### The loop -/

def openParen : Str := "(".toList

def closeParen : Str := ")".toList

/-- `or`, in any letter case. -/
def isOr (tok : Str) : Bool := toLowerCase tok = "or".toList

/-- The loop over the tokens. After an opening parenthesis nothing is inserted; an `or` is consumed
together with the token in front of it. -/
def whereLoop (acc : List Piece) : List Str → Except Str (List Piece)
  | [] => .ok acc
  | [tok] => (readToken tok).map fun cl => acc ++ cl.pieces
  | tok :: next :: rest =>
    match readToken tok with
    | .error s => .error s
    | .ok cl =>
      let acc := acc ++ cl.pieces
      if tok = openParen then whereLoop acc (next :: rest)
      else if isOr next then whereLoop (acc ++ [.sql " OR ".toList]) rest
      else if next ≠ closeParen then whereLoop (acc ++ [.sql " AND ".toList]) (next :: rest)
      else whereLoop acc (next :: rest)

/-- The first of the parts between blanks. -/
def firstWord (tokens : Str) : Str := ((trim tokens).splitOn ' ').headD []

def translatePieces (tokens : Str) : List Piece :=
  match intTryParse (firstWord tokens) with
  | some nn => [.sql (selectWhere ++ "Id=".toList ++ intToString nn)]
  | none =>
    if trim (trim tokens) = [] then [.sql (selectWhere ++ "ExistOnHitomi=1".toList)]
    else match whereLoop [] (words (trim tokens)) with
      | .error s => [.sql s]
      | .ok ps => .sql selectWhere :: ps ++ [.sql " AND ExistOnHitomi=1".toList]

def translate2query (tokens : Str) : Str := render (translatePieces tokens)

example : translate2query "female:glasses -group:some_circle (a or b)".toList =
    ("SELECT * FROM HitomiColumnModel WHERE Tags LIKE '%|female:glasses|%' AND " ++
      "(Groups LIKE '%|some circle|%') IS NOT 1 AND " ++
      "(Title LIKE '%a%' OR Title LIKE '%b%') AND ExistOnHitomi=1").toList := by decide +kernel

/-! ### Tokens of a text -/

lemma splitLoop_append_space (builder a b : Str) :
    splitLoop builder (a ++ ' ' :: b) = splitLoop builder a ++ splitTokens b := by
  induction a generalizing builder with
  | nil => simp [splitLoop, splitTokens]
  | cons c a ih =>
    simp only [List.cons_append, splitLoop]
    split_ifs <;> simp [ih]

/-- A blank separates the tokens on its two sides. -/
lemma words_append_space (a b : Str) : words (a ++ ' ' :: b) = words a ++ words b := by
  simp [words, splitTokens, splitLoop_append_space]

@[simp] lemma words_nil : words [] = [] := by decide

lemma trim_cons_of_blank {c : Char} (hc : isWhitespace c = true) (s : Str) :
    trim (c :: s) = trim s :=
  trim_append_of_blank (w := [c]) (by simpa using hc)

lemma trim_append_singleton_of_blank {c : Char} (hc : isWhitespace c = true) (s : Str) :
    trim (s ++ [c]) = trim s := by
  by_cases hs : ∀ d ∈ s, isWhitespace d = true
  · rw [trim_eq_nil_iff.mpr hs, trim_eq_nil_iff]
    simpa [or_imp, forall_and] using ⟨hs, hc⟩
  · have hne : trimLeft s ≠ [] := by
      simpa [trimLeft, List.dropWhile_eq_nil_iff] using hs
    have hl : trimLeft (s ++ [c]) = trimLeft s ++ [c] := by
      rw [trimLeft, List.dropWhile_append, if_neg (by simpa [trimLeft] using hne), trimLeft]
    rw [trim, hl, trimRight_append_of_blank (by simpa using hc), trim]

/-- White space in front of a token in progress is not seen after trimming. -/
lemma splitLoop_cons_of_blank {c : Char} (hc : isWhitespace c = true) (builder s : Str) :
    (splitLoop (c :: builder) s).map trim = (splitLoop builder s).map trim := by
  induction s generalizing builder with
  | nil => simp [splitLoop, trim_cons_of_blank hc]
  | cons d s ih =>
    simp only [splitLoop]
    split_ifs
    · simp [trim_cons_of_blank hc]
    · simp [trim_cons_of_blank hc]
    · exact ih (builder ++ [d])

lemma words_cons_of_blank {c : Char} (hc : isWhitespace c = true) (s : Str) :
    words (c :: s) = words s := by
  have hd : isDelimiter c = false := by
    by_contra h
    simp only [isDelimiter, Bool.not_eq_false, Bool.or_eq_true, beq_iff_eq] at h
    rcases h with ((rfl | rfl) | rfl) | rfl <;> simp [isWhitespace] at hc
  by_cases hs : c = ' '
  · subst hs
    exact words_append_space [] s
  · simp [words, splitTokens, splitLoop, hs, hd, splitLoop_cons_of_blank hc []]

lemma splitLoop_append_of_blank {c : Char} (hc : isWhitespace c = true) (builder s : Str) :
    (((splitLoop builder (s ++ [c])).map trim).filter (· ≠ [])) =
      ((splitLoop builder s).map trim).filter (· ≠ []) := by
  have hd : isDelimiter c = false := by
    by_contra h
    simp only [isDelimiter, Bool.not_eq_false, Bool.or_eq_true, beq_iff_eq] at h
    rcases h with ((rfl | rfl) | rfl) | rfl <;> simp [isWhitespace] at hc
  induction s generalizing builder with
  | nil =>
    by_cases hs : c = ' '
    · simp [splitLoop, hs, List.filter_cons]
    · simp [splitLoop, hs, hd, trim_append_singleton_of_blank hc]
  | cons d s ih =>
    simp only [List.cons_append, splitLoop]
    split_ifs
    · simp only [List.map_cons, List.filter_cons, ih]
    · simp only [List.map_cons, List.filter_cons, ih]
    · exact ih (builder ++ [d])

lemma words_append_of_blank {w : Str} (hw : ∀ c ∈ w, isWhitespace c = true) (s : Str) :
    words (s ++ w) = words s := by
  induction w using List.reverseRecOn with
  | nil => simp
  | append_singleton w c ih =>
    have hc : isWhitespace c = true := hw c (by simp)
    rw [← List.append_assoc, words, splitTokens, splitLoop_append_of_blank hc]
    exact ih fun d hd => hw d (by simp [hd])

lemma words_trimLeft (s : Str) : words (trimLeft s) = words s := by
  induction s with
  | nil => rfl
  | cons c s ih =>
    by_cases hc : isWhitespace c = true
    · rw [words_cons_of_blank hc, ← ih, trimLeft, List.dropWhile_cons_of_pos hc, trimLeft]
    · rw [trimLeft, List.dropWhile_cons_of_neg hc]

/-- Trimming a text leaves its tokens. -/
theorem words_trim (s : Str) : words (trim s) = words s := by
  obtain ⟨w, hw, hblank⟩ := exists_trimRight_append (trimLeft s)
  rw [← words_trimLeft s, hw, words_append_of_blank hblank, trim]

/-- A text that is not blank and whose first word is no number is translated by the loop. -/
lemma translatePieces_eq {text : Str} (htrim : trim (trim text) ≠ [])
    (hn : intTryParse (firstWord text) = none) :
    translatePieces text = match whereLoop [] (words text) with
      | .error s => [.sql s]
      | .ok ps => .sql selectWhere :: ps ++ [.sql " AND ExistOnHitomi=1".toList] := by
  simp only [translatePieces, hn, htrim, if_false, words_trim]

lemma words_of_trim_trim {text : Str} (h : trim (trim text) = []) : words text = [] := by
  rw [← words_trim, ← words_trim (trim text), h, words_nil]

end Violet
