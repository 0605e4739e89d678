import Mathlib.Algebra.Order.BigOperators.Group.List
import Mathlib.Algebra.Order.Group.Nat
import Violet.Download.Downloadable

/-!
# Directives

A template is read segment by segment. What stands at its end may be cut off: a single `%` leads out
of the text. A padding in front of the type `s` is taken for a number, which it never is. Keys are
looked up in lower case, so that a key with a capital letter is never found.
-/

open Dart

namespace FileNameFormat

/-! ### Segments -/

/-- What is read at once: a literal unit, `%%`, or a directive `%(token)` with a padding and a type,
which is no `s` behind a padding. -/
inductive Segment where
  | literal (u : UInt16) (h : u ≠ 37)
  | percent
  | directive (token padding : Units) (type : UInt16) (htoken : 41 ∉ token)
      (hpadding : ∀ u ∈ padding, isPadding u = true) (htype : isPadding type = false)
      (h : type = 115 → padding = [])

namespace Segment

def text : Segment → Units
  | literal u _ => [u]
  | percent => [37, 37]
  | directive token padding type _ _ _ _ => 37 :: 40 :: (token ++ 41 :: (padding ++ [type]))

/-- What the segment writes. -/
def pieces : Segment → List Piece
  | literal u _ => [.literal u]
  | percent => [.literal 37]
  | directive token _ type _ _ _ _ => if type = 115 then [.value (Units.toLowerCase token)] else []

end Segment

/-- The template ends with the `%` of a directive. -/
def Unfinished (raw : Units) : Prop :=
  ∃ segments : List Segment, raw = segments.flatMap Segment.text ++ [37]

/-- A directive of the template has a padding in front of the type `s`, or in front of the end. -/
def Padded (raw : Units) : Prop :=
  ∃ (segments : List Segment) (token padding rest : Units),
    raw = segments.flatMap Segment.text ++ 37 :: 40 :: (token ++ 41 :: (padding ++ rest)) ∧
      41 ∉ token ∧ padding ≠ [] ∧ (∀ u ∈ padding, isPadding u = true) ∧ rest.headD 115 = 115

variable {f : FileNameFormat} {s raw rest token padding : Units} {u : UInt16} {pos skip : ℕ}

lemma pieces_skip (skip pos : ℕ) (s : Units) :
    pieces skip pos s = pieces 0 (pos + skip) (s.drop skip) := by
  induction skip generalizing pos s with
  | zero => rfl
  | succ skip ih =>
    cases s with
    | nil => rfl
    | cons u s =>
      rw [pieces, ih, List.drop_succ_cons, Nat.add_right_comm]
      rfl

lemma takeWhile_token (htoken : 41 ∉ token) (s : Units) :
    (token ++ 41 :: s).takeWhile (· != 41) = token := by
  rw [List.takeWhile_append_of_pos fun u hu => ?_, List.takeWhile_cons_of_neg (by decide),
    List.append_nil]
  exact bne_iff_ne.mpr fun h => htoken (h ▸ hu)

/-- Behind the key of a directive. -/
lemma piece_open (htoken : 41 ∉ token) (pos : ℕ) (s : Units) :
    piece pos (40 :: (token ++ 41 :: s)) =
      if (s.drop (s.takeWhile isPadding).length).headD 115 ≠ 115 then
        .ok ([], 1 + (token.length + 1) + ((s.takeWhile isPadding).length + 1))
      else if s.takeWhile isPadding ≠ [] then .error .noNumber
      else .ok ([.value (Units.toLowerCase token)],
        1 + (token.length + 1) + ((s.takeWhile isPadding).length + 1)) := by
  have hdrop : (token ++ 41 :: s).drop (token.length + 1) = s := by
    rw [List.drop_append]
    simp
  rw [piece, if_neg (by decide), if_neg (by decide)]
  simp only [takeWhile_token htoken, hdrop]

lemma pieces_percent (pos : ℕ) (s : Units) :
    pieces 0 pos (37 :: s) = do
      let (ps, skip) ← piece (pos + 1) s
      return ps ++ (← pieces 0 (pos + 1 + skip) (s.drop skip)) := by
  rw [pieces, if_pos rfl]
  cases piece (pos + 1) s with
  | error e => rfl
  | ok r =>
    change (do return r.1 ++ (← pieces r.2 (pos + 1) s)) = _
    rw [pieces_skip r.2]
    rfl

lemma takeWhile_padding (hpadding : ∀ u ∈ padding, isPadding u = true)
    (hrest : ∀ u, rest.head? = some u → isPadding u = false) :
    (padding ++ rest).takeWhile isPadding = padding := by
  rw [List.takeWhile_append_of_pos hpadding]
  cases rest with
  | nil => exact List.append_nil padding
  | cons u rest =>
    rw [List.takeWhile_cons_of_neg (by simp [hrest u rfl]), List.append_nil]

/-- A segment is read by itself. -/
lemma pieces_segment (segment : Segment) (pos : ℕ) (rest : Units) :
    pieces 0 pos (segment.text ++ rest) =
      (pieces 0 (pos + segment.text.length) rest).map (segment.pieces ++ ·) := by
  cases segment with
  | literal u h =>
    rw [Segment.text, List.singleton_append, pieces, if_neg h]
    cases pieces 0 (pos + 1) rest <;> rfl
  | percent =>
    have hpiece : piece (pos + 1) (37 :: rest) = .ok ([.literal 37], 1) := rfl
    rw [Segment.text, List.cons_append, List.singleton_append, pieces_percent, hpiece]
    change (do return [Piece.literal 37] ++ (← pieces 0 (pos + 1 + 1) rest)) = _
    cases pieces 0 (pos + 1 + 1) rest <;> rfl
  | directive token padding type htoken hpadding htype h =>
    have htake : (padding ++ type :: rest).takeWhile isPadding = padding :=
      takeWhile_padding hpadding fun u hu => Option.some.inj hu ▸ htype
    have hpiece : piece (pos + 1) (40 :: (token ++ 41 :: (padding ++ type :: rest))) =
        .ok ((Segment.directive token padding type htoken hpadding htype h).pieces,
          1 + (token.length + 1) + (padding.length + 1)) := by
      rw [piece_open htoken, htake, List.drop_left, List.headD_cons]
      by_cases htype' : type = 115
      · rw [Segment.pieces, if_pos htype', if_neg (not_not.mpr htype'),
          if_neg (not_not.mpr (h htype'))]
      · rw [Segment.pieces, if_neg htype', if_pos htype']
    have htext : (Segment.directive token padding type htoken hpadding htype h).text ++ rest =
        37 :: 40 :: (token ++ 41 :: (padding ++ type :: rest)) := by
      simp [Segment.text]
    have hsize : 1 + (token.length + 1) + (padding.length + 1) =
        (40 :: (token ++ 41 :: (padding ++ [type]))).length := by
      simp only [List.length_cons, List.length_append, List.length_nil]
      omega
    have hdrop : (40 :: (token ++ 41 :: (padding ++ type :: rest))).drop
        (1 + (token.length + 1) + (padding.length + 1)) = rest := by
      have hsplit : 40 :: (token ++ 41 :: (padding ++ type :: rest)) =
          (40 :: (token ++ 41 :: (padding ++ [type]))) ++ rest := by simp
      rw [hsize, hsplit, List.drop_left]
    rw [htext, pieces_percent, hpiece]
    change (do return _ ++ (← pieces 0 _ ((40 :: (token ++ 41 :: (padding ++ type :: rest))).drop
      (1 + (token.length + 1) + (padding.length + 1))))) = _
    rw [hdrop, hsize, Nat.add_assoc, Nat.add_comm 1]
    change _ =
      (pieces 0 (pos + ((40 :: (token ++ 41 :: (padding ++ [type]))).length + 1)) rest).map _
    cases pieces 0 (pos + ((40 :: (token ++ 41 :: (padding ++ [type]))).length + 1)) rest <;> rfl

/-- What is written for segments. -/
lemma pieces_segments (segments : List Segment) (pos : ℕ) (rest : Units) :
    ∃ pos', pieces 0 pos (segments.flatMap Segment.text ++ rest) =
      (pieces 0 pos' rest).map (segments.flatMap Segment.pieces ++ ·) := by
  induction segments generalizing pos with
  | nil =>
    refine ⟨pos, ?_⟩
    cases h : pieces 0 pos rest <;> simp [h, Except.map]
  | cons segment segments ih =>
    obtain ⟨pos', h⟩ := ih (pos + segment.text.length)
    refine ⟨pos', ?_⟩
    rw [List.flatMap_cons, List.append_assoc, pieces_segment, h]
    cases pieces 0 pos' rest <;> simp [Except.map]

/-! ### Errors -/

lemma pieces_of_unfinished (h : Unfinished raw) (pos : ℕ) : pieces 0 pos raw = .error .range := by
  obtain ⟨segments, rfl⟩ := h
  obtain ⟨pos', hpieces⟩ := pieces_segments segments pos [37]
  rw [hpieces]
  rfl

lemma pieces_of_padded (h : Padded raw) (pos : ℕ) : pieces 0 pos raw = .error .noNumber := by
  obtain ⟨segments, token, padding, rest, rfl, htoken, hne, hpadding, hrest⟩ := h
  obtain ⟨pos', hpieces⟩ :=
    pieces_segments segments pos (37 :: 40 :: (token ++ 41 :: (padding ++ rest)))
  have htake : (padding ++ rest).takeWhile isPadding = padding := by
    refine takeWhile_padding hpadding fun u hu => ?_
    cases rest with
    | nil => cases hu
    | cons v rest =>
      obtain rfl := Option.some.inj hu
      obtain rfl : v = 115 := hrest
      decide
  rw [hpieces, pieces_percent, piece_open htoken, htake, List.drop_left,
    if_neg (not_not.mpr hrest), if_pos hne]
  rfl

/-- What the template has when the error is thrown. -/
def Cause (raw : Units) : FormatError → Prop
  | .range => Unfinished raw
  | .noNumber => Padded raw
  | .formatting _ => True
  | .noSuchMethod => False

lemma Cause.cons {e : FormatError} (segment : Segment) (h : Cause raw e) :
    Cause (segment.text ++ raw) e := by
  cases e with
  | range =>
    obtain ⟨segments, rfl⟩ := h
    exact ⟨segment :: segments, by simp⟩
  | noNumber =>
    obtain ⟨segments, token, padding, rest, rfl, hrest⟩ := h
    exact ⟨segment :: segments, token, padding, rest, by simp, hrest⟩
  | formatting _ => trivial
  | noSuchMethod => exact h

/-- A directive that is cut off behind its key or in it is read to the end. -/
lemma pieces_of_cut (htoken : 41 ∉ token) (hs : s = token ∨ s = token ++ [41]) (pos : ℕ) :
    ∃ ps, pieces 0 pos (37 :: 40 :: s) = .ok ps := by
  have hpiece : ∃ size, piece (pos + 1) (40 :: s) =
      .ok ([.value (Units.toLowerCase token)], size) ∧ (40 :: s).length ≤ size := by
    rcases hs with rfl | rfl
    · have htake : s.takeWhile (· != 41) = s :=
        List.takeWhile_eq_self_iff.mpr fun u hu => bne_iff_ne.mpr fun h => htoken (h ▸ hu)
      refine ⟨1 + (s.length + 1) + 1, ?_, ?_⟩
      · rw [piece, if_neg (by decide), if_neg (by decide)]
        simp only [htake, List.drop_eq_nil_of_le (Nat.le_succ s.length)]
        rfl
      · rw [List.length_cons]
        omega
    · refine ⟨_, piece_open htoken (pos + 1) [], ?_⟩
      simp only [List.length_cons, List.length_append, List.takeWhile_nil, List.length_nil]
      omega
  obtain ⟨size, hpiece, hsize⟩ := hpiece
  rw [pieces_percent, hpiece]
  change ∃ ps, (do return _ ++ (← pieces 0 _ ((40 :: s).drop size))) = Except.ok ps
  rw [List.drop_eq_nil_of_le hsize]
  exact ⟨_, rfl⟩

/-- A directive is cut off, padded in front of an `s` or of the end, or a segment. -/
lemma open_cases (s : Units) :
    (∃ token, 41 ∉ token ∧ (s = token ∨ s = token ++ [41])) ∨ Padded (37 :: 40 :: s) ∨
      ∃ (segment : Segment) (rest : Units), 37 :: 40 :: s = segment.text ++ rest ∧
        rest.length < s.length := by
  by_cases hclosed : 41 ∈ s
  · obtain ⟨token, s', rfl, htoken⟩ := List.eq_append_cons_of_mem hclosed
    have hpadding : ∀ u ∈ s'.takeWhile isPadding, isPadding u = true :=
      fun u hu => List.mem_takeWhile_imp hu
    have hs' : s'.takeWhile isPadding ++ s'.dropWhile isPadding = s' :=
      List.takeWhile_append_dropWhile
    have hpadded (hne : s'.takeWhile isPadding ≠ [])
        (hrest : (s'.dropWhile isPadding).headD 115 = 115) :
        Padded (37 :: 40 :: (token ++ 41 :: s')) :=
      ⟨[], token, _, _, by rw [hs']; rfl, htoken, hne, hpadding, hrest⟩
    rcases hrest : s'.dropWhile isPadding with _ | ⟨type, rest⟩
    · by_cases hnil : s'.takeWhile isPadding = []
      · rw [hnil, hrest] at hs'
        exact .inl ⟨token, htoken, .inr (hs' ▸ rfl)⟩
      · exact .inr (.inl (hpadded hnil (by rw [hrest]; rfl)))
    · have htype : isPadding type = false := by
        have hnot := List.head?_dropWhile_not isPadding s'
        rw [hrest] at hnot
        simpa using hnot
      by_cases hno : type = 115 → s'.takeWhile isPadding = []
      · refine .inr (.inr ⟨.directive token _ type htoken hpadding htype hno, rest, ?_, ?_⟩)
        · rw [hrest] at hs'
          rw [Segment.text]
          conv_lhs => rw [← hs']
          simp
        · have hlen := congrArg List.length hs'
          rw [hrest] at hlen
          simp only [List.length_append, List.length_cons] at hlen ⊢
          omega
      · obtain ⟨htype', hne⟩ := Classical.not_imp.mp hno
        exact .inr (.inl (hpadded hne (by rw [hrest]; exact htype')))
  · exact .inl ⟨s, hclosed, .inl rfl⟩

/-- Every error has its cause. -/
lemma cause_of_pieces {e : FormatError} (h : pieces 0 pos raw = .error e) : Cause raw e := by
  induction hn : raw.length using Nat.strong_induction_on generalizing raw pos with
  | _ n ih =>
    -- a segment leaves the error to the rest
    have hsegment (segment : Segment) (rest : Units) (heq : raw = segment.text ++ rest)
        (hlt : rest.length < n) : Cause raw e := by
      rw [heq, pieces_segment] at h
      rw [heq]
      cases hrest : pieces 0 (pos + segment.text.length) rest with
      | ok ps =>
        rw [hrest] at h
        cases h
      | error e' =>
        rw [hrest] at h
        obtain rfl := Except.error.inj h
        exact (ih _ hlt hrest rfl).cons segment
    subst hn
    cases raw with
    | nil => cases h
    | cons u s =>
      by_cases hu : u = 37
      · subst hu
        cases s with
        | nil =>
          obtain rfl := Except.error.inj h
          exact ⟨[], rfl⟩
        | cons v s =>
          by_cases hpercent : v = 37
          · subst hpercent
            exact hsegment .percent s rfl (Nat.lt_succ_of_lt (Nat.lt_succ_self _))
          by_cases hopen : v = 40
          · subst hopen
            rcases open_cases s with ⟨token, htoken, hs⟩ | hpadded | ⟨segment, rest, heq, hlt⟩
            · obtain ⟨ps, hok⟩ := pieces_of_cut htoken hs pos
              cases hok.symm.trans h
            · obtain rfl := Except.error.inj ((pieces_of_padded hpadded pos).symm.trans h)
              exact hpadded
            · exact hsegment segment rest heq (Nat.lt_succ_of_lt (Nat.lt_succ_of_lt hlt))
          · have hpiece : piece (pos + 1) (v :: s) = .error (.formatting (pos + 1 + 1)) := by
              rw [piece, if_neg hpercent, if_pos hopen]
            rw [pieces_percent, hpiece] at h
            obtain rfl := Except.error.inj h
            trivial
      · exact hsegment (.literal u hu) s rfl (by simp)

/-- The formatting ends, or throws a formatting error. -/
def Proper (r : Except FormatError Units) : Prop := ∀ e, r = .error e → ∃ pos, e = .formatting pos

lemma formatting_error {e : FormatError} :
    f.formatting raw = .error e ↔ template raw = .error e := by
  rw [formatting_eq]
  cases template raw <;> simp [Except.map]

lemma formatting_range_iff : f.formatting raw = .error .range ↔ Unfinished raw := by
  rw [formatting_error]
  exact ⟨fun h => cause_of_pieces h, fun h => pieces_of_unfinished h 0⟩

lemma formatting_noNumber_iff : f.formatting raw = .error .noNumber ↔ Padded raw := by
  rw [formatting_error]
  exact ⟨fun h => cause_of_pieces h, fun h => pieces_of_padded h 0⟩

lemma proper_iff : Proper (f.formatting raw) ↔ ¬ Unfinished raw ∧ ¬ Padded raw := by
  rw [← formatting_range_iff (f := f), ← formatting_noNumber_iff (f := f)]
  constructor
  · intro h
    refine ⟨fun hrange => ?_, fun hnoNumber => ?_⟩
    · obtain ⟨pos, hpos⟩ := h _ hrange
      cases hpos
    · obtain ⟨pos, hpos⟩ := h _ hnoNumber
      cases hpos
  · rintro ⟨hrange, hnoNumber⟩ e he
    cases e with
    | range => exact absurd he hrange
    | formatting pos => exact ⟨pos, rfl⟩
    | noNumber => exact absurd he hnoNumber
    | noSuchMethod => exact (cause_of_pieces (formatting_error.mp he)).elim

/-! ### Keys -/

/-- The keys of the table. -/
def keys : List Units := (format {}).map Prod.fst

/-- The part of a template that a user writes on purpose: a literal unit, `%%`, or `%(key)s`. -/
inductive Part where
  | literal (u : UInt16) (h : u ≠ 37)
  | percent
  | value (key : Units) (h : key ∈ keys)

namespace Part

def text : Part → Units
  | literal u _ => [u]
  | percent => units "%%"
  | value key _ => units "%(" ++ key ++ units ")s"

/-- What the part stands for. -/
def replaced (f : FileNameFormat) : Part → Units
  | literal u _ => [u]
  | percent => units "%"
  | value key _ => sanitize ((f.literal key).getD [])

/-- The value of the part is not null. -/
def HasValue (f : FileNameFormat) : Part → Prop
  | value key _ => f.literal key ≠ none
  | _ => True

/-- The key of the part is written without capital letters. -/
def Lower : Part → Prop
  | value key _ => Units.toLowerCase key = key
  | _ => True

end Part

/-- No key closes its own directive. -/
lemma closing_notMem {key : Units} (h : key ∈ keys) : 41 ∉ key := by
  have hall : ∀ key ∈ keys, 41 ∉ key := by decide
  exact hall key h

/-- A key with a capital letter is not looked up. -/
lemma lower_notMem {key : Units} (h : key ∈ keys) (hlower : Units.toLowerCase key ≠ key) :
    Units.toLowerCase key ∉ keys := by
  have hall : ∀ key ∈ keys, Units.toLowerCase key ≠ key → Units.toLowerCase key ∉ keys := by decide
  exact hall key h hlower

namespace Part

def segment : Part → Segment
  | literal u h => .literal u h
  | percent => .percent
  | value key h =>
    .directive key [] 115 (closing_notMem h) (by simp) (by decide) fun _ => rfl

/-- What the code writes for the part. -/
def written (f : FileNameFormat) (p : Part) : Units := f.render p.segment.pieces

lemma text_segment (p : Part) : p.segment.text = p.text := by
  cases p with
  | literal u h => rfl
  | percent => rfl
  | value key h =>
    show 37 :: 40 :: (key ++ 41 :: ([] ++ [115])) = units "%(" ++ key ++ units ")s"
    have hopen : units "%(" = [37, 40] := by decide
    have hclose : units ")s" = [41, 115] := by decide
    rw [hopen, hclose]
    simp

lemma written_value {key : Units} (h : key ∈ keys) :
    (value key h).written f = sanitize (f.text (Units.toLowerCase key)) :=
  List.append_nil _

/-- A key without capital letters writes its value. -/
lemma written_eq_replaced {p : Part} (hlower : p.Lower) (hvalue : p.HasValue f) :
    p.written f = p.replaced f := by
  cases p with
  | literal u h => rfl
  | percent => rfl
  | value key h =>
    obtain ⟨s, hs⟩ := Option.ne_none_iff_exists'.mp hvalue
    rw [written_value, show Units.toLowerCase key = key from hlower, replaced, FileNameFormat.text,
      hs]
    rfl

end Part

/-- The parts are written one after the other. -/
theorem formatting_parts (f : FileNameFormat) (T : List Part) :
    f.formatting (T.flatMap Part.text) = .ok (T.flatMap (Part.written f)) := by
  have htext : T.flatMap Part.text = (T.map Part.segment).flatMap Segment.text ++ [] := by
    rw [List.append_nil, List.flatMap_map]
    exact List.flatMap_congr fun p _ => (Part.text_segment p).symm
  obtain ⟨pos', hpieces⟩ := pieces_segments (T.map Part.segment) 0 []
  rw [formatting_eq, template, htext, hpieces]
  show Except.ok (f.render ((T.map Part.segment).flatMap Segment.pieces ++ [])) = _
  rw [List.append_nil, render, List.flatMap_map, List.flatMap_assoc]
  rfl

/-- Where every value is the empty text. -/
def blank : FileNameFormat where
  title := some []
  id := some []
  originalTitle := some []
  extractor := some []
  user := some []
  account := some []
  author := some []
  englishAuthor := some []
  group := some []
  artist := some []
  search := some []
  uploadDate := some []
  uploader := some []
  uploaderId := some []
  character := some []
  gallery := some []
  series := some []
  seasonNumber := some []
  episode := some []
  episodeNumber := some []
  filenameWithoutExtension := some []
  extension := some []
  url := some []
  license := some []
  genre := some []
  laugage := some []

lemma format_blank : blank.format = keys.map fun key => (key, some []) := rfl

lemma lookup_map_some {key : Units} (l : List Units) :
    (l.map fun key => (key, some ([] : Units))).lookup key =
      if key ∈ l then some (some []) else none := by
  induction l with
  | nil => rfl
  | cons key' l ih =>
    rw [List.map_cons, List.lookup_cons, ih]
    by_cases h : key = key'
    · subst h
      simp
    · simp [beq_false_of_ne h, h]

lemma literal_blank (key : Units) : blank.literal key = if key ∈ keys then some [] else none := by
  rw [literal, format_blank, lookup_map_some]
  split_ifs <;> rfl

namespace Part

lemma hasValue_blank (p : Part) : p.HasValue blank := by
  cases p with
  | literal u h => trivial
  | percent => trivial
  | value key h =>
    show blank.literal key ≠ none
    rw [literal_blank, if_pos h]
    exact Option.some_ne_none []

/-- Without values a key with a capital letter writes more than its value. -/
lemma length_replaced_blank (p : Part) :
    (p.replaced blank).length ≤ (p.written blank).length ∧
      ((p.replaced blank).length = (p.written blank).length → p.Lower) := by
  cases p with
  | literal u h => exact ⟨le_rfl, fun _ => trivial⟩
  | percent => exact ⟨le_rfl, fun _ => trivial⟩
  | value key h =>
    have hreplaced : (value key h).replaced blank = [] := by
      rw [replaced, literal_blank, if_pos h]
      rfl
    rw [hreplaced]
    refine ⟨Nat.zero_le _, fun hlen => ?_⟩
    by_contra hlower
    rw [written_value, FileNameFormat.text, literal_blank, if_neg (lower_notMem h hlower)] at hlen
    revert hlen
    decide

end Part

/-- Where the one text is at least as long at every part and the whole texts are equal, the parts
have the same length. -/
lemma length_eq_of_flatMap_eq {α β : Type*} {a b : α → List β} {l : List α}
    (hle : ∀ p ∈ l, (a p).length ≤ (b p).length) (h : l.flatMap a = l.flatMap b) :
    ∀ p ∈ l, (a p).length = (b p).length := by
  have hsum : (l.map fun p => (a p).length).sum = (l.map fun p => (b p).length).sum := by
    rw [← List.length_flatMap, ← List.length_flatMap, h]
  clear h
  induction l with
  | nil => simp
  | cons p l ih =>
    have hp := hle p List.mem_cons_self
    have hl : (l.map fun p => (a p).length).sum ≤ (l.map fun p => (b p).length).sum :=
      List.sum_le_sum fun q hq => hle q (List.mem_cons_of_mem p hq)
    rw [List.map_cons, List.map_cons, List.sum_cons, List.sum_cons] at hsum
    have hrest := ih (fun q hq => hle q (List.mem_cons_of_mem p hq)) (by omega)
    intro q hq
    rcases List.mem_cons.mp hq with rfl | hq
    · omega
    · exact hrest q hq

/-- The values are put into the template, whatever they are. -/
def WritesValues (T : List Part) : Prop :=
  ∀ f : FileNameFormat, (∀ p ∈ T, p.HasValue f) →
    f.formatting (T.flatMap Part.text) = .ok (T.flatMap (Part.replaced f))

lemma writesValues_iff (T : List Part) : WritesValues T ↔ ∀ p ∈ T, p.Lower := by
  constructor
  · intro h
    have heq := (formatting_parts blank T).symm.trans (h blank fun p _ => p.hasValue_blank)
    have hlen := length_eq_of_flatMap_eq (fun p _ => p.length_replaced_blank.1)
      (Except.ok.inj heq).symm
    intro p hp
    exact p.length_replaced_blank.2 (hlen p hp)
  · intro h f hvalue
    rw [formatting_parts]
    congr 1
    exact List.flatMap_congr fun p hp => Part.written_eq_replaced (h p hp) (hvalue p hp)

/-- A template of parts is filled in unless it has a key with a capital letter. A template makes the
formatting throw something else than a formatting error where a directive is cut off behind its `%`
or padded. -/
theorem formatting_spec (T : List Part) (f : FileNameFormat) (raw : Units) :
    (WritesValues T ↔ ∀ p ∈ T, p.Lower) ∧
      (Proper (f.formatting raw) ↔ ¬ Unfinished raw ∧ ¬ Padded raw) ∧
        (f.formatting raw = .error .range ↔ Unfinished raw) :=
  ⟨writesValues_iff T, proper_iff, formatting_range_iff⟩

/-- The key `originalTitle` of the table writes `null`, and a single `%` is a range error. -/
theorem not_formatting_originalTitle :
    ¬ (∀ T : List Part, WritesValues T) ∧
      ¬ ∀ (f : FileNameFormat) (raw : Units), Proper (f.formatting raw) := by
  constructor
  · intro h
    have hwrites := h [.value (units "originalTitle") (by decide)]
      { originalTitle := some (units "x") } fun p hp => ?_
    · revert hwrites
      decide
    · obtain rfl := List.mem_singleton.mp hp
      exact Option.some_ne_none (units "x")
  · intro h
    obtain ⟨pos, hpos⟩ := h {} (units "%") .range rfl
    cases hpos

end FileNameFormat
