import Mathlib.Tactic.Lemma
import Mathlib.Data.List.Basic
import Mathlib.Data.Int.Notation

/-!
# SQL tokens

The lexer of SQLite, for the part of its language that conditions are written in. It is a machine
that reads one character at a time, so that the reading of a text composed of pieces is the
composition of the readings of the pieces.

A string literal stands between single quotes, and a doubled quote inside it stands for one quote.
Comments are skipped, and end with their line or with `*/`. Characters that begin no other token are
symbols of their own; a digit sequence that runs into a word is illegal, and so are quoted names,
which conditions do not use.
-/

namespace Sql

inductive Keyword where
  | and
  | or
  | not
  | like
  | is
  | collate
  deriving DecidableEq, Repr

inductive Token where
  | name (w : List Char)
  | keyword (k : Keyword)
  | number (n : ℕ)
  | text (s : List Char)
  | symbol (c : Char)
  | illegal
  deriving DecidableEq, Repr

/-- The single quote. -/
def quote : Char := Char.ofNat 39

/-- Keywords are written in any letter case. -/
def Keyword.ofWord (w : List Char) : Option Keyword :=
  let u := w.map Char.toUpper
  if u = "AND".toList then some .and
  else if u = "OR".toList then some .or
  else if u = "NOT".toList then some .not
  else if u = "LIKE".toList then some .like
  else if u = "IS".toList then some .is
  else if u = "COLLATE".toList then some .collate
  else none

def Token.ofWord (w : List Char) : Token :=
  match Keyword.ofWord w with
  | some k => .keyword k
  | none => .name w

def isBlank (c : Char) : Bool :=
  c == ' ' || c == '\t' || c == '\n' || c == '\r' || c.toNat == 12

def isWordStart (c : Char) : Bool := c.isAlpha || c == '_' || 128 ≤ c.toNat

def isWordChar (c : Char) : Bool := isWordStart c || c.isDigit || c == '$'

/-- The character that ends the name begun by a double quote, a grave accent or a bracket. -/
def nameEnd (c : Char) : Option Char :=
  if c.toNat = 34 ∨ c.toNat = 96 then some c
  else if c = '[' then some ']'
  else none

/-- Where the lexer stands: between tokens, inside one, inside a comment, or just after a character
that the next one decides about: a quote that either ends the literal read so far or is the first of
a doubled quote in it, a minus sign or a slash that may begin a comment, a star that may end one. -/
inductive LexMode where
  | blank
  | word (w : List Char)
  | number (d : List Char)
  | text (s : List Char)
  | quoted (s : List Char)
  | named (close : Char)
  | minus
  | slash
  | comment
  | block
  | star
  deriving DecidableEq, Repr

/-- Inside a string literal, up to a quote that may yet turn out to end it. -/
def LexMode.inLiteral : LexMode → Bool
  | .text _ | .quoted _ => true
  | _ => false

/-- Inside a literal, a quoted name or a comment, which would take in what follows. -/
def LexMode.isOpen : LexMode → Bool
  | .text _ | .named _ | .comment | .block | .star => true
  | _ => false

structure LexState where
  out : List Token
  mode : LexMode
  deriving DecidableEq, Repr

/-- The tokens read so far, the one in progress included. -/
def LexState.flush (s : LexState) : List Token :=
  match s.mode with
  | .word w => s.out ++ [.ofWord w]
  | .number d => s.out ++ [.number (Nat.ofDigitChars 10 d 0)]
  | .quoted t => s.out ++ [.text t]
  | .minus => s.out ++ [.symbol '-']
  | .slash => s.out ++ [.symbol '/']
  | _ => s.out

/-- Begin a token after the tokens `out`. -/
def LexState.start (out : List Token) (c : Char) : LexState :=
  if isBlank c then ⟨out, .blank⟩
  else if isWordStart c then ⟨out, .word [c]⟩
  else if c.isDigit then ⟨out, .number [c]⟩
  else if c = quote then ⟨out, .text []⟩
  else if c = '-' then ⟨out, .minus⟩
  else if c = '/' then ⟨out, .slash⟩
  else match nameEnd c with
    | some close => ⟨out, .named close⟩
    | none => ⟨out ++ [.symbol c], .blank⟩

def LexState.step (s : LexState) (c : Char) : LexState :=
  match s.mode with
  | .blank => .start s.out c
  | .word w => if isWordChar c then ⟨s.out, .word (w ++ [c])⟩ else .start s.flush c
  | .number d =>
    if c.isDigit then ⟨s.out, .number (d ++ [c])⟩
    else if isWordChar c then ⟨s.out ++ [.illegal], .word [c]⟩
    else .start s.flush c
  | .text t => if c = quote then ⟨s.out, .quoted t⟩ else ⟨s.out, .text (t ++ [c])⟩
  | .quoted t => if c = quote then ⟨s.out, .text (t ++ [c])⟩ else .start s.flush c
  | .named close => if c = close then ⟨s.out ++ [.illegal], .blank⟩ else s
  | .minus => if c = '-' then ⟨s.out, .comment⟩ else .start s.flush c
  | .slash => if c = '*' then ⟨s.out, .block⟩ else .start s.flush c
  | .comment => if c = '\n' then ⟨s.out, .blank⟩ else s
  | .block => if c = '*' then ⟨s.out, .star⟩ else s
  | .star =>
    if c = '/' then ⟨s.out, .blank⟩ else if c = '*' then s else ⟨s.out, .block⟩

/-- Read a text from a state. -/
def LexState.read (s : LexState) (cs : List Char) : LexState := cs.foldl LexState.step s

def LexState.init : LexState := ⟨[], .blank⟩

/-- The tokens of a text. A literal or a name that is never closed has no reading, whereas the end
of the text ends every comment. -/
def lex (cs : List Char) : Option (List Token) :=
  let s := LexState.init.read cs
  match s.mode with
  | .text _ | .named _ => none
  | _ => some s.flush

@[simp] lemma LexState.read_nil (s : LexState) : s.read [] = s := rfl

@[simp] lemma LexState.read_cons (s : LexState) (c : Char) (cs : List Char) :
    s.read (c :: cs) = (s.step c).read cs := rfl

@[simp] lemma LexState.read_append (s : LexState) (as bs : List Char) :
    s.read (as ++ bs) = (s.read as).read bs := List.foldl_append

/-! ### What has been read is kept -/

lemma LexState.start_append (out ts : List Token) (c : Char) :
    start (out ++ ts) c = ⟨out ++ (start ts c).out, (start ts c).mode⟩ := by
  unfold start
  cases nameEnd c <;> split_ifs <;> simp

lemma LexState.step_append (out ts : List Token) (m : LexMode) (c : Char) :
    step ⟨out ++ ts, m⟩ c = ⟨out ++ (step ⟨ts, m⟩ c).out, (step ⟨ts, m⟩ c).mode⟩ := by
  cases m with
  | blank => exact start_append out ts c
  | word w =>
    simp only [step, flush, List.append_assoc, start_append out]
    split_ifs <;> rfl
  | number d =>
    simp only [step, flush, List.append_assoc, start_append out]
    split_ifs <;> rfl
  | text t =>
    simp only [step]
    split_ifs <;> rfl
  | quoted t =>
    simp only [step, flush, List.append_assoc, start_append out]
    split_ifs <;> rfl
  | named close =>
    simp only [step, List.append_assoc]
    split_ifs <;> rfl
  | minus =>
    simp only [step, flush, List.append_assoc, start_append out]
    split_ifs <;> rfl
  | slash =>
    simp only [step, flush, List.append_assoc, start_append out]
    split_ifs <;> rfl
  | comment =>
    simp only [step]
    split_ifs <;> rfl
  | block =>
    simp only [step]
    split_ifs <;> rfl
  | star =>
    simp only [step]
    split_ifs <;> rfl

/-- The tokens in front of a text are kept, and have no influence on how the text is read. -/
lemma LexState.read_append_out (out : List Token) (ts : List Token) (m : LexMode)
    (cs : List Char) :
    read ⟨out ++ ts, m⟩ cs = ⟨out ++ (read ⟨ts, m⟩ cs).out, (read ⟨ts, m⟩ cs).mode⟩ := by
  induction cs generalizing ts m with
  | nil => rfl
  | cons c cs ih =>
    rw [read_cons, read_cons, step_append]
    exact ih _ _

lemma LexState.read_of_nil {m m' : LexMode} {cs : List Char} {ts : List Token}
    (h : read ⟨[], m⟩ cs = ⟨ts, m'⟩) (out : List Token) :
    read ⟨out, m⟩ cs = ⟨out ++ ts, m'⟩ := by
  have := read_append_out out [] m cs
  rwa [List.append_nil, h] at this

/-! ### Outside literals and comments -/

/-- The lexer is not inside a literal, a name or a comment that is still open. -/
def LexState.Settled (s : LexState) : Prop := s.mode.isOpen = false

instance (s : LexState) : Decidable s.Settled := inferInstanceAs (Decidable (_ = _))

/-- The text leaves nothing open: neither a literal or a name nor a comment. -/
def Closed (cs : List Char) : Prop := (LexState.init.read cs).Settled

instance (cs : List Char) : Decidable (Closed cs) :=
  inferInstanceAs (Decidable (LexState.Settled _))

@[simp] lemma LexState.settled_blank (out : List Token) : (⟨out, .blank⟩ : LexState).Settled := rfl

@[simp] lemma LexState.flush_blank (out : List Token) :
    (⟨out, .blank⟩ : LexState).flush = out := rfl

@[simp] lemma LexState.settled_word (out : List Token) (w : List Char) :
    (⟨out, .word w⟩ : LexState).Settled := rfl

@[simp] lemma LexState.settled_number (out : List Token) (d : List Char) :
    (⟨out, .number d⟩ : LexState).Settled := rfl

@[simp] lemma LexState.settled_quoted (out : List Token) (t : List Char) :
    (⟨out, .quoted t⟩ : LexState).Settled := rfl

lemma lex_eq_some {cs : List Char} (h : Closed cs) :
    lex cs = some (LexState.init.read cs).flush := by
  simp only [lex]
  split
  · rename_i heq
    rw [Closed, LexState.Settled, heq] at h
    cases h
  · rename_i heq
    rw [Closed, LexState.Settled, heq] at h
    cases h
  · rfl

/-- A text with a reading leaves nothing open but a comment. -/
lemma lex_eq_some_iff {cs : List Char} {ts : List Token} : lex cs = some ts ↔
    (LexState.init.read cs).flush = ts ∧ (Closed cs ∨ (LexState.init.read cs).mode = .comment ∨
      (LexState.init.read cs).mode = .block ∨ (LexState.init.read cs).mode = .star) := by
  constructor
  · intro h
    simp only [lex] at h
    split at h
    · cases h
    · cases h
    · rename_i htext hnamed
      refine ⟨Option.some.inj h, ?_⟩
      rw [Closed, LexState.Settled]
      cases hm : (LexState.init.read cs).mode with
      | text t => exact absurd hm (htext t)
      | named close => exact absurd hm (hnamed close)
      | comment => exact .inr (.inl rfl)
      | block => exact .inr (.inr (.inl rfl))
      | star => exact .inr (.inr (.inr rfl))
      | _ => exact .inl rfl
  · rintro ⟨rfl, hclosed | hm | hm | hm⟩
    · exact lex_eq_some hclosed
    all_goals simp only [lex, hm]

/-- Behind tokens that end in a blank, a text is read as it is by itself. -/
lemma lex_append {pre cs : List Char} {out : List Token}
    (h : LexState.init.read pre = ⟨out, .blank⟩) : lex (pre ++ cs) = (lex cs).map (out ++ ·) := by
  have hread : LexState.init.read (pre ++ cs) =
      ⟨out ++ (LexState.init.read cs).out, (LexState.init.read cs).mode⟩ := by
    rw [LexState.read_append, h, ← List.append_nil out, LexState.read_append_out, List.append_nil]
    rfl
  simp only [lex, hread]
  cases hm : (LexState.init.read cs).mode <;> simp [LexState.flush, hm]

lemma closed_append {pre : List Char} {out : List Token}
    (h : LexState.init.read pre = ⟨out, .blank⟩) (cs : List Char) :
    Closed (pre ++ cs) ↔ Closed cs := by
  rw [Closed, LexState.read_append, h, ← List.append_nil out, LexState.read_append_out]
  exact Iff.rfl

/-- Inside a comment. -/
def LexMode.inComment : LexMode → Bool
  | .comment | .block | .star => true
  | _ => false

/-- A text that does not end a comment is not read in it. -/
lemma LexState.read_inComment {s : LexState} (hs : s.mode.inComment = true) {cs : List Char}
    (h : ∀ c ∈ cs, c ≠ '\n' ∧ c ≠ '/') :
    (s.read cs).mode.inComment = true ∧ (s.read cs).out = s.out := by
  induction cs generalizing s with
  | nil => exact ⟨hs, rfl⟩
  | cons c cs ih =>
    obtain ⟨hline, hblock⟩ := h c (by simp)
    have hstep : (s.step c).mode.inComment = true ∧ (s.step c).out = s.out := by
      obtain ⟨out, mode⟩ := s
      cases mode with
      | comment => simp [step, hline, LexMode.inComment]
      | block => by_cases hc : c = '*' <;> simp [step, hc, LexMode.inComment]
      | star => by_cases hc : c = '*' <;> simp [step, hc, hblock, LexMode.inComment]
      | _ => cases hs
    obtain ⟨hmode, hout⟩ := ih hstep.1 fun d hd => h d (by simp [hd])
    exact ⟨hmode, hout.trans hstep.2⟩

/-- An open comment takes in all that follows, up to the end of its line or of the comment. -/
lemma lex_append_of_open {cs tail : List Char} {ts : List Token} (h : lex cs = some ts)
    (hopen : ¬ Closed cs) (htail : ∀ c ∈ tail, c ≠ '\n' ∧ c ≠ '/') :
    lex (cs ++ tail) = some ts := by
  obtain ⟨hflush, hmode⟩ := lex_eq_some_iff.mp h
  have hin : (LexState.init.read cs).mode.inComment = true := by
    rcases hmode.resolve_left hopen with hm | hm | hm <;> rw [hm] <;> rfl
  have hout : (LexState.init.read cs).out = ts := by
    rcases hmode.resolve_left hopen with hm | hm | hm <;> simpa [LexState.flush, hm] using hflush
  obtain ⟨htext, hsame⟩ := LexState.read_inComment hin htail
  rw [lex, LexState.read_append, ← hout, ← hsame]
  cases hm : ((LexState.init.read cs).read tail).mode <;>
    simp_all [LexMode.inComment, LexState.flush]

/-- A character that is a token by itself wherever it stands outside literals and comments. -/
def isSymbol (c : Char) : Bool :=
  !(isWordChar c || isBlank c || c == quote || c == '-' || c == '/' || c == '*' ||
    (nameEnd c).isSome)

/-- A character that can neither continue a token nor begin a comment ends the token in progress. -/
lemma LexState.step_of_settled {s : LexState} (hs : s.Settled) {c : Char}
    (hw : isWordChar c = false) (hq : c ≠ quote) (hm : c ≠ '-') (ht : c ≠ '*') :
    s.step c = .start s.flush c := by
  have hd : c.isDigit = false := by
    cases h : c.isDigit
    · rfl
    · simp [isWordChar, h] at hw
  obtain ⟨out, mode⟩ := s
  cases mode with
  | blank => rfl
  | word w => simp [step, hw]
  | number d => simp [step, hw, hd]
  | quoted t => simp [step, hq]
  | minus => simp [step, hm]
  | slash => simp [step, ht]
  | text t => cases hs
  | named close => cases hs
  | comment => cases hs
  | block => cases hs
  | star => cases hs

lemma LexState.step_space {s : LexState} (hs : s.Settled) : s.step ' ' = ⟨s.flush, .blank⟩ := by
  rw [step_of_settled hs (by decide) (by decide) (by decide) (by decide)]
  rfl

/-- A blank ends the token in progress, and what follows it is read as it is by itself. -/
lemma LexState.read_space {s : LexState} (hs : s.Settled) {cs : List Char} {ts : List Token}
    {m : LexMode} (h : read ⟨[], .blank⟩ cs = ⟨ts, m⟩) :
    s.read (' ' :: cs) = ⟨s.flush ++ ts, m⟩ := by
  rw [read_cons, step_space hs, read_of_nil h]

lemma LexState.step_symbol {s : LexState} (hs : s.Settled) {c : Char} (hc : isSymbol c = true) :
    s.step c = ⟨s.flush ++ [Token.symbol c], .blank⟩ := by
  simp only [isSymbol, Bool.not_eq_true', Bool.or_eq_false_iff, beq_eq_false_iff_ne,
    Option.isSome_eq_false_iff, Option.isNone_iff_eq_none] at hc
  obtain ⟨⟨⟨⟨⟨⟨hw, hb⟩, hq⟩, hm⟩, hslash⟩, ht⟩, hname⟩ := hc
  rw [step_of_settled hs hw hq hm ht]
  have hws : isWordStart c = false := by
    cases h : isWordStart c
    · rfl
    · simp [isWordChar, h] at hw
  have hd : c.isDigit = false := by
    cases h : c.isDigit
    · rfl
    · simp [isWordChar, h] at hw
  simp [start, hb, hws, hd, hq, hm, hslash, hname]

/-- From the state `s`, the text `cs` is read as the tokens `ts`. -/
structure LexState.Reads (s : LexState) (cs : List Char) (ts : List Token) : Prop where
  settled : (s.read cs).Settled
  flush_eq : (s.read cs).flush = s.flush ++ ts

lemma LexState.Reads.append {s : LexState} {as bs : List Char} {ts us : List Token}
    (ha : s.Reads as ts) (hb : (s.read as).Reads bs us) : s.Reads (as ++ bs) (ts ++ us) where
  settled := by rw [read_append]; exact hb.settled
  flush_eq := by rw [read_append, hb.flush_eq, ha.flush_eq, List.append_assoc]

lemma LexState.reads_nil {s : LexState} (hs : s.Settled) : s.Reads [] [] :=
  ⟨hs, by simp⟩

/-- A text of symbols. -/
lemma LexState.reads_symbols {s : LexState} (hs : s.Settled) {cs : List Char}
    (h : ∀ c ∈ cs, isSymbol c = true) : s.Reads cs (cs.map .symbol) := by
  induction cs generalizing s with
  | nil => exact reads_nil hs
  | cons c cs ih =>
    have hstep := step_symbol hs (h c (by simp))
    have hrest := ih (s := s.step c) (by simp [hstep]) fun d hd => h d (by simp [hd])
    refine ⟨hrest.settled, ?_⟩
    rw [read_cons, hrest.flush_eq, hstep]
    simp

lemma lex_eq_of_reads {cs : List Char} {ts : List Token} (h : LexState.init.Reads cs ts) :
    lex cs = some ts := by
  rw [lex_eq_some h.settled, h.flush_eq]
  rfl

lemma LexState.start_digit {c : Char} (h : c.isDigit = true) (out : List Token) :
    start out c = ⟨out, .number [c]⟩ := by
  have hbounds : 48 ≤ c.toNat ∧ c.toNat ≤ 57 := by
    simp only [Char.isDigit, Bool.and_eq_true, decide_eq_true_eq, ge_iff_le] at h
    exact ⟨UInt32.le_iff_toNat_le.mp h.1, UInt32.le_iff_toNat_le.mp h.2⟩
  have halpha : c.isAlpha = (c.isUpper || c.isLower) := rfl
  have hupper : c.isUpper = decide (65 ≤ c.val ∧ c.val ≤ 90) := rfl
  have hlower : c.isLower = (decide (97 ≤ c.val) && decide (c.val ≤ 122)) := rfl
  have hw : ¬ isWordStart c = true := by
    simp only [isWordStart, halpha, hupper, hlower, Bool.or_eq_true, Bool.and_eq_true,
      decide_eq_true_eq, beq_iff_eq]
    rintro (((⟨hA, -⟩ | ⟨ha, -⟩) | rfl) | hn)
    · have : 65 ≤ c.toNat := UInt32.le_iff_toNat_le.mp hA
      omega
    · have : 97 ≤ c.toNat := UInt32.le_iff_toNat_le.mp ha
      omega
    · simp at hbounds
    · omega
  have hb : ¬ isBlank c = true := by
    simp only [isBlank, Bool.or_eq_true, beq_iff_eq]
    rintro ((((rfl | rfl) | rfl) | rfl) | hn) <;> simp_all
  simp [start, hw, hb, h]

lemma LexState.read_digits {d ds : List Char} (h : ∀ c ∈ ds, c.isDigit = true)
    (out : List Token) : read ⟨out, .number d⟩ ds = ⟨out, .number (d ++ ds)⟩ := by
  induction ds generalizing d with
  | nil => simp
  | cons c ds ih =>
    have hstep : step ⟨out, .number d⟩ c = ⟨out, .number (d ++ [c])⟩ := if_pos (h c (by simp))
    rw [read_cons, hstep, ih fun e he => h e (by simp [he]), List.append_assoc]
    rfl

/-- A printed number, between tokens or behind a minus sign. -/
lemma LexState.reads_toDigits {s : LexState} (hs : s.mode = .blank ∨ s.mode = .minus) (n : ℕ) :
    s.Reads (Nat.toDigits 10 n) [.number n] := by
  have hall : ∀ c ∈ Nat.toDigits 10 n, c.isDigit = true := fun c hc =>
    Nat.isDigit_of_mem_toDigits (by decide) (by decide) hc
  obtain ⟨d, ds, hds⟩ := List.exists_cons_of_ne_nil (Nat.toDigits_ne_nil (b := 10) (n := n))
  have hread : s.read (Nat.toDigits 10 n) = ⟨s.flush, .number (Nat.toDigits 10 n)⟩ := by
    rw [hds] at hall ⊢
    have hd := hall d (by simp)
    have hminus : d ≠ '-' := by
      rintro rfl
      cases hd
    have hstep : s.step d = ⟨s.flush, .number [d]⟩ := by
      obtain ⟨out, mode⟩ := s
      rcases hs with rfl | rfl
      · exact start_digit hd out
      · simp [step, hminus, start_digit hd]
    rw [read_cons, hstep, read_digits (fun c hc => hall c (by simp [hc])), List.singleton_append]
  have hflush : flush ⟨s.flush, .number (Nat.toDigits 10 n)⟩ =
      s.flush ++ [Token.number (Nat.ofDigitChars 10 (Nat.toDigits 10 n) 0)] := rfl
  constructor
  · rw [hread]
    exact settled_number _ _
  · rw [hread, hflush, Nat.ofDigitChars_ten_toDigits]

/-! ### Inside literals -/

section

variable (out : List Token) (t : List Char)

@[simp] lemma LexState.step_text_quote : step ⟨out, .text t⟩ quote = ⟨out, .quoted t⟩ := rfl

lemma LexState.step_text {c : Char} (hc : c ≠ quote) :
    step ⟨out, .text t⟩ c = ⟨out, .text (t ++ [c])⟩ := if_neg hc

@[simp] lemma LexState.step_quoted_quote :
    step ⟨out, .quoted t⟩ quote = ⟨out, .text (t ++ [quote])⟩ := rfl

lemma LexState.step_quoted {c : Char} (hc : c ≠ quote) :
    step ⟨out, .quoted t⟩ c = .start (out ++ [Token.text t]) c := if_neg hc

end

/-- Every run of quotes splits into pairs. -/
def paired : List Char → Bool
  | [] => true
  | [c] => c ≠ quote
  | c :: d :: s => if c = quote then d = quote && paired s else paired (d :: s)

/-- The text that a paired literal body stands for. -/
def unpair : List Char → List Char
  | [] => []
  | [c] => [c]
  | c :: d :: s => if c = quote then c :: unpair s else c :: unpair (d :: s)

lemma paired_of_notMem {v : List Char} (h : quote ∉ v) : paired v = true := by
  induction v using paired.induct with
  | case1 => rfl
  | case2 c =>
    have hc : c ≠ quote := fun hc => h (by simp [hc])
    simp [paired, hc]
  | case3 d s ih => simp at h
  | case4 c d s hc ih =>
    rw [paired, if_neg hc]
    exact ih fun hm => h (List.mem_cons_of_mem _ hm)

lemma paired_cons {c : Char} (hc : c ≠ quote) (v : List Char) : paired (c :: v) = paired v := by
  cases v with
  | nil => simp [paired, hc]
  | cons d v => rw [paired, if_neg hc]

lemma paired_append_singleton {c : Char} (hc : c ≠ quote) (v : List Char) :
    paired (v ++ [c]) = paired v := by
  induction v using paired.induct with
  | case1 => simp [paired, hc]
  | case2 d => by_cases hd : d = quote <;> simp [paired, hc, hd]
  | case3 d s ih => simp [paired, ih]
  | case4 d e s hd ih => simpa [paired, hd] using ih

/-- Replacing characters other than quotes leaves the pairs. -/
lemma paired_map {f : Char → Char} (hf : ∀ c, f c = quote ↔ c = quote) (v : List Char) :
    paired (v.map f) = paired v := by
  induction v using paired.induct with
  | case1 => rfl
  | case2 c => simp [paired, hf]
  | case3 d s ih => simp [paired, ih, (hf quote).mpr rfl, hf]
  | case4 c d s hc ih =>
    have hfc : f c ≠ quote := fun h => hc ((hf c).mp h)
    simpa [paired, hc, hfc] using ih

lemma unpair_of_notMem {v : List Char} (h : quote ∉ v) : unpair v = v := by
  induction v using unpair.induct with
  | case1 => rfl
  | case2 c => rfl
  | case3 d s ih => simp at h
  | case4 c d s hc ih =>
    rw [unpair, if_neg hc, ih fun hm => h (List.mem_cons_of_mem _ hm)]

/-- A paired text is read inside the literal it stands in. -/
lemma LexState.read_paired {v : List Char} (h : paired v = true) (out : List Token)
    (t : List Char) : LexState.read ⟨out, .text t⟩ v = ⟨out, .text (t ++ unpair v)⟩ := by
  induction v using paired.induct generalizing t with
  | case1 => simp [unpair]
  | case2 c =>
    have hc : c ≠ quote := by simpa [paired] using h
    simp [step_text out t hc, unpair]
  | case3 d s ih =>
    simp only [paired, if_true, Bool.and_eq_true, decide_eq_true_eq] at h
    obtain ⟨rfl, hs⟩ := h
    simp [ih hs, unpair]
  | case4 c d s hc ih =>
    rw [paired, if_neg hc] at h
    rw [read_cons, step_text out t hc, ih h, unpair, if_neg hc]
    simp

/-- All of `v` is read inside one literal: the literal does not end before the end of `v`, nor with
its last character. -/
def LexState.Contains (s : LexState) (v : List Char) : Prop :=
  (∀ w, w <+: v → (s.read w).mode.inLiteral = true) ∧ ∃ t, (s.read v).mode = .text t

lemma LexState.contains_cons {s : LexState} {c : Char} {v : List Char} :
    s.Contains (c :: v) ↔ s.mode.inLiteral = true ∧ (s.step c).Contains v := by
  constructor
  · rintro ⟨hp, ht⟩
    refine ⟨hp [] (by simp), fun w hw => ?_, ht⟩
    exact hp (c :: w) (by simpa using hw)
  · rintro ⟨hs, hp, ht⟩
    refine ⟨fun w hw => ?_, ht⟩
    cases w with
    | nil => exact hs
    | cons d w =>
      obtain ⟨rfl, hwv⟩ := List.cons_prefix_cons.mp hw
      exact hp w hwv

lemma LexState.not_inLiteral_start {out : List Token} {c : Char} (hc : c ≠ quote) :
    (LexState.start out c).mode.inLiteral = false := by
  unfold start
  cases nameEnd c <;> split_ifs <;> rfl

/-- Exactly the paired texts stay inside the literal in which they are read. -/
theorem LexState.contains_iff_paired (out : List Token) (t v : List Char) :
    LexState.Contains ⟨out, .text t⟩ v ↔ paired v = true := by
  induction v using paired.induct generalizing t with
  | case1 => simp [Contains, paired, LexMode.inLiteral]
  | case2 c =>
    rw [contains_cons]
    by_cases hc : c = quote
    · simp [hc, paired, Contains]
    · simp [step_text out t hc, hc, paired, Contains, LexMode.inLiteral]
  | case3 d s ih =>
    rw [contains_cons, step_text_quote, contains_cons]
    by_cases hd : d = quote
    · simp [hd, paired, ih, LexMode.inLiteral]
    · have hstart : ¬ (LexState.start (out ++ [Token.text t]) d).Contains s := fun h => by
        simpa [not_inLiteral_start hd] using h.1 [] (by simp)
      simp [step_quoted out t hd, hd, paired, hstart]
  | case4 c d s hc ih =>
    rw [contains_cons, step_text out t hc, ih, paired, if_neg hc]
    simp [LexMode.inLiteral]

end Sql
