import Violet.Dart.Text

/-!
# What is downloaded

A download task carries the record from which the name of its file is formatted. A template consists
of literal units and of directives `%(key)s`, each of which writes the value of a field without the
characters that a file name cannot have.
-/

open Dart

/-- What a formatting throws. -/
inductive FormatError where
  /-- Nothing stands behind a `%`, or the rest of a value is cut off. -/
  | range
  /-- `Filename formatting error! pos=` and a number. -/
  | formatting (pos : ℕ)
  /-- The text between the key and the type is no number. -/
  | noNumber
  /-- A field without a value is cut. -/
  | noSuchMethod
deriving DecidableEq, Repr

structure FileNameFormat where
  title : Option Units := none
  id : Option Units := none
  originalTitle : Option Units := none
  extractor : Option Units := none
  user : Option Units := none
  account : Option Units := none
  author : Option Units := none
  englishAuthor : Option Units := none
  group : Option Units := none
  artist : Option Units := none
  search : Option Units := none
  uploadDate : Option Units := none
  uploader : Option Units := none
  uploaderId : Option Units := none
  character : Option Units := none
  gallery : Option Units := none
  series : Option Units := none
  seasonNumber : Option Units := none
  episode : Option Units := none
  episodeNumber : Option Units := none
  filenameWithoutExtension : Option Units := none
  extension : Option Units := none
  url : Option Units := none
  license : Option Units := none
  genre : Option Units := none
  laugage : Option Units := none

namespace FileNameFormat

/-- The fields by the keys of the directives. -/
def format (f : FileNameFormat) : List (Units × Option Units) :=
  [(units "title", f.title),
    (units "id", f.id),
    (units "originalTitle", f.originalTitle),
    (units "extractor", f.extractor),
    (units "user", f.user),
    (units "account", f.account),
    (units "author", f.author),
    (units "englishAuthor", f.englishAuthor),
    (units "group", f.group),
    (units "artist", f.artist),
    (units "search", f.search),
    (units "uploadDate", f.uploadDate),
    (units "uploader", f.uploader),
    (units "uploaderId", f.uploaderId),
    (units "character", f.character),
    (units "gallery", f.gallery),
    (units "series", f.series),
    (units "seasonNumber", f.seasonNumber),
    (units "episode", f.episode),
    (units "episodeNumber", f.episodeNumber),
    (units "filenameWithoutExtension", f.filenameWithoutExtension),
    (units "extension", f.extension),
    (units "file", f.filenameWithoutExtension),
    (units "ext", f.extension),
    (units "url", f.url),
    (units "license", f.license),
    (units "genre", f.genre),
    (units "laugage", f.laugage)]

/-- The value of a key, which may be null, or null for an unknown key. -/
def literal (f : FileNameFormat) (token : Units) : Option Units := (f.format.lookup token).join

/-- The characters `/ \ ? % * : | " < >`. -/
def isInvalid (u : UInt16) : Bool := decide (u ∈ units "/\\?%*:|\"<>")

/-- A value as it is written: bars become the letter `ㅣ`, other invalid characters are removed. -/
def sanitize (s : Units) : Units :=
  (Units.replaceAll s (units "|") (units "ㅣ")).filter fun u => !isInvalid u

/-- The units that are taken between the key and the type of a directive. -/
def isPadding (u : UInt16) : Bool := decide (u ∈ units " %()")

/-- What a directive of type `s` writes, where `pptk` stands before the type. -/
def write (literal : Option Units) (pptk : Units) : Except FormatError Units :=
  if pptk ≠ [] then
    match Units.intParse pptk with
    | none => .error .noNumber
    | some n =>
      match literal with
      | none => .error .noSuchMethod
      | some s =>
        if 0 ≤ n ∧ n.toNat ≤ s.length then .ok (sanitize (s.take n.toNat)) else .error .range
  else .ok (sanitize (literal.getD (units "null")))

/-- Behind a `%` at `pos - 1`: what is written, and the number of units that are taken. A type other
than `s` writes nothing. -/
def directive (f : FileNameFormat) (pos : ℕ) : Units → Except FormatError (Units × ℕ)
  | [] => .error .range
  | u :: s =>
    if u = 37 then .ok ([37], 1)
    else if u ≠ 40 then .error (.formatting (pos + 1))
    else
      let token := s.takeWhile (· != 41)
      let s := s.drop (token.length + 1)
      let pptk := s.takeWhile isPadding
      let type := (s.drop pptk.length).headD 115
      let size := 1 + (token.length + 1) + (pptk.length + 1)
      if type = 115 then (write (f.literal (Units.toLowerCase token)) pptk).map (·, size)
      else .ok ([], size)

/-- The units from `pos` on, of which the first `skip` are taken by a directive. -/
def formatLoop (f : FileNameFormat) : ℕ → ℕ → Units → Except FormatError Units
  | _, _, [] => .ok []
  | skip + 1, pos, _ :: s => f.formatLoop skip (pos + 1) s
  | 0, pos, u :: s =>
    if u = 37 then do
      let (out, skip) ← f.directive (pos + 1) s
      return out ++ (← f.formatLoop skip (pos + 1) s)
    else return u :: (← f.formatLoop 0 (pos + 1) s)

def formatting (f : FileNameFormat) (raw : Units) : Except FormatError Units :=
  f.formatLoop 0 0 raw

example : FileNameFormat.formatting { title := units "a/b|c:" } (units "%(title)s/%%x") =
    .ok (units "abㅣc/%x") := by decide

/-! ### Sanitizing -/

lemma sanitize_eq (s : Units) : sanitize s = s.flatMap fun u =>
    if u = 124 then [0x3163] else if isInvalid u then [] else [u] := by
  rw [sanitize, show units "|" = [124] by decide, show units "ㅣ" = [0x3163] by decide,
    Units.replaceAll_singleton]
  induction s with
  | nil => rfl
  | cons u s ih =>
    rw [List.flatMap_cons, List.filter_append, ih, List.flatMap_cons]
    congr 1
    by_cases hbar : u = 124
    · rw [if_pos hbar, if_pos hbar]
      decide
    · rw [if_neg hbar, if_neg hbar]
      cases hu : isInvalid u <;> simp [hu]

/-- No invalid character is written. -/
lemma isInvalid_of_mem_sanitize {s : Units} {u : UInt16} (h : u ∈ sanitize s) :
    isInvalid u = false := by
  simpa using (List.mem_filter.mp h).2

/-! ### Templates -/

/-- A part of a template: a literal unit, or the key of a value that is written. -/
inductive Piece where
  | literal (u : UInt16)
  | value (token : Units)
deriving DecidableEq, Repr

/-- What a directive writes, whatever the values. -/
def piece (pos : ℕ) : Units → Except FormatError (List Piece × ℕ)
  | [] => .error .range
  | u :: s =>
    if u = 37 then .ok ([.literal 37], 1)
    else if u ≠ 40 then .error (.formatting (pos + 1))
    else
      let token := s.takeWhile (· != 41)
      let s := s.drop (token.length + 1)
      let pptk := s.takeWhile isPadding
      let type := (s.drop pptk.length).headD 115
      let size := 1 + (token.length + 1) + (pptk.length + 1)
      if type ≠ 115 then .ok ([], size)
      else if pptk ≠ [] then .error .noNumber
      else .ok ([.value (Units.toLowerCase token)], size)

def pieces : ℕ → ℕ → Units → Except FormatError (List Piece)
  | _, _, [] => .ok []
  | skip + 1, pos, _ :: s => pieces skip (pos + 1) s
  | 0, pos, u :: s =>
    if u = 37 then do
      let (ps, skip) ← piece (pos + 1) s
      return ps ++ (← pieces skip (pos + 1) s)
    else return .literal u :: (← pieces 0 (pos + 1) s)

/-- The parts of a template. -/
def template (raw : Units) : Except FormatError (List Piece) := pieces 0 0 raw

/-- The value of a key as a text. -/
def text (f : FileNameFormat) (token : Units) : Units := (f.literal token).getD (units "null")

/-- What is written for a part. -/
def written (f : FileNameFormat) : Piece → Units
  | .literal u => [u]
  | .value token => sanitize (f.text token)

/-- What is written for a template. -/
def render (f : FileNameFormat) (ps : List Piece) : Units := ps.flatMap f.written

variable {f : FileNameFormat} {s raw : Units} {ps : List Piece} {u : UInt16}

@[simp] lemma render_nil : f.render [] = [] := rfl

@[simp] lemma render_cons (p : Piece) : f.render (p :: ps) = f.written p ++ f.render ps := rfl

@[simp] lemma render_append (qs : List Piece) :
    f.render (ps ++ qs) = f.render ps ++ f.render qs :=
  List.flatMap_append

/-- Between the key and the type stands no number. -/
lemma intParse_padding (h : ∀ u ∈ s, isPadding u = true) : Units.intParse s = none := by
  have hnumeral : ∀ c ∈ trim (Units.toStr s), isNumeral c = false := by
    intro c hc
    have hmem : c ∈ Units.toStr s :=
      (List.dropWhile_sublist _).subset ((List.rdropWhile_prefix _ _).subset hc)
    obtain ⟨u, hu, rfl⟩ := List.mem_map.mp hmem
    have hpad : u ∈ [32, 37, 40, 41] := of_decide_eq_true (h u hu)
    simp only [List.mem_cons, List.not_mem_nil, or_false] at hpad
    rcases hpad with rfl | rfl | rfl | rfl <;> decide
  rw [Units.intParse, Option.eq_none_iff_forall_ne_some]
  intro n hn
  cases htrim : trim (Units.toStr s) with
  | nil =>
    rw [intTryParse, htrim] at hn
    cases hn
  | cons c t =>
    have hc : c ∈ trim (Units.toStr s) := htrim ▸ List.mem_cons_self
    exact Bool.false_ne_true ((hnumeral c hc).symm.trans (isNumeral_of_intTryParse hn c hc))

lemma write_padding {literal : Option Units} (h : ∀ u ∈ s, isPadding u = true) :
    write literal s =
      if s ≠ [] then .error .noNumber else .ok (sanitize (literal.getD (units "null"))) := by
  rw [write, intParse_padding h]

lemma directive_eq (f : FileNameFormat) (pos : ℕ) (s : Units) :
    f.directive pos s = (piece pos s).map fun r => (f.render r.1, r.2) := by
  cases s with
  | nil => rfl
  | cons u s =>
    rw [directive, piece]
    split_ifs with hpercent hopen
    · rfl
    · rfl
    · have hpad : ∀ u ∈ ((s.drop ((s.takeWhile (· != 41)).length + 1)).takeWhile isPadding),
          isPadding u = true := fun u hu => List.mem_takeWhile_imp hu
      simp only [write_padding hpad]
      split_ifs <;> simp_all [Except.map, written, text]

lemma formatLoop_eq (f : FileNameFormat) (skip pos : ℕ) (s : Units) :
    f.formatLoop skip pos s = (pieces skip pos s).map f.render := by
  induction s generalizing skip pos with
  | nil => cases skip <;> rfl
  | cons u s ih =>
    cases skip with
    | succ skip => exact ih skip (pos + 1)
    | zero =>
      rw [formatLoop, pieces]
      split_ifs with hpercent
      · rw [directive_eq]
        cases piece (pos + 1) s with
        | error e => rfl
        | ok r =>
          show (do return f.render r.1 ++ (← f.formatLoop r.2 (pos + 1) s)) = _
          rw [ih]
          cases hps : pieces r.2 (pos + 1) s with
          | error e => simp [hps, Except.map, bind, Except.bind]
          | ok ps => simp [hps, Except.map, bind, Except.bind, pure, Except.pure]
      · rw [ih]
        cases pieces 0 (pos + 1) s <;> rfl

/-- The values are put into the template. -/
theorem formatting_eq (f : FileNameFormat) (raw : Units) :
    f.formatting raw = (template raw).map f.render :=
  formatLoop_eq f 0 0 raw

end FileNameFormat

structure DownloadTask where
  accept : Option Units := some (units
    "text/html,application/xhtml+xml,application/xml;q=0.9,image/webp,image/apng,*/*;q=0.8")
  userAgent : Option Units := some (units ("Mozilla/5.0 (Android 7.0; Mobile; rv:54.0) " ++
    "Gecko/54.0 Firefox/54.0 AppleWebKit/537.36 (KHTML, like Gecko) Chrome/59.0.3071.125 " ++
    "Mobile Safari/603.2.4"))
  referer : Option Units := none
  url : Option Units := none
  headers : Option (List (Units × Units)) := none
  filename : Option Units := none
  format : FileNameFormat := {}
  downloadPath : Option Units := none
