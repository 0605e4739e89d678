import Violet.Script.ScriptLexer

/-!
# Lexemes

The lexical rules of scripts: single blanks and comments are passed over, the other lexemes are
tokens. The tables of the scanner follow a small automaton that reads these rules, so the scanner
accounts for every unit of a text exactly when the text is a sequence of lexemes.
-/

namespace Violet

open Dart

/-! ### The rules -/

def isSpace (u : UInt16) : Bool := u = 10 || u = 13 || u = 32

def isDigit (u : UInt16) : Bool := 48 ≤ u && u ≤ 57

def isWordStart (u : UInt16) : Bool :=
  u = 36 || (65 ≤ u && u ≤ 90) || u = 95 || (97 ≤ u && u ≤ 122)

def isWordPart (u : UInt16) : Bool :=
  isDigit u || (65 ≤ u && u ≤ 90) || u = 95 || (97 ≤ u && u ≤ 122)

/-- One of `=[]:,()`. -/
def isMark (u : UInt16) : Bool :=
  u = 61 || u = 91 || u = 93 || u = 58 || u = 44 || u = 40 || u = 41

/-- The inside of a string literal: a backslash stands only in front of a quote. -/
inductive Escaped : Units → Prop where
  | nil : Escaped []
  | plain {u : UInt16} {s : Units} (hquote : u ≠ 34) (hslash : u ≠ 92) (h : Escaped s) :
      Escaped (u :: s)
  | quote {s : Units} (h : Escaped s) : Escaped (92 :: 34 :: s)

inductive Lexeme : Units → Prop where
  | blank {u : UInt16} (h : isSpace u = true) : Lexeme [u]
  | comment {body : Units} (h : ∀ u ∈ body, u ≠ 10) : Lexeme (47 :: 47 :: (body ++ [10]))
  | mark {u : UInt16} (h : isMark u = true) : Lexeme [u]
  | word {u : UInt16} {s : Units} (hu : isWordStart u = true) (h : ∀ v ∈ s, isWordPart v = true) :
      Lexeme (u :: s)
  | number {u : UInt16} {s : Units} (hu : isDigit u = true) (h : ∀ v ∈ s, isDigit v = true) :
      Lexeme (u :: s)
  | string {body : Units} (h : Escaped body) : Lexeme (34 :: (body ++ [34]))

/-- The text is a sequence of lexemes: the rules cover every character and every escape. -/
def Covered (text : Units) : Prop := ∃ lexemes : List Units, (∀ s ∈ lexemes, Lexeme s) ∧
  text = lexemes.flatten

/-! ### The automaton -/

/-- What has been read of a lexeme. -/
inductive Part where
  | start
  | blank
  | slash
  | comment
  | commentEnd
  | mark
  | word
  | number
  | string
  | escape
  | stringEnd
  deriving DecidableEq, Repr

namespace Part

def step : Part → UInt16 → Option Part
  | .start, u =>
    if isSpace u then some .blank
    else if u = 47 then some .slash
    else if isMark u then some .mark
    else if isWordStart u then some .word
    else if isDigit u then some .number
    else if u = 34 then some .string
    else none
  | .slash, u => if u = 47 then some .comment else none
  | .comment, u => if u = 10 then some .commentEnd else some .comment
  | .word, u => if isWordPart u then some .word else none
  | .number, u => if isDigit u then some .number else none
  | .string, u =>
    if u = 34 then some .stringEnd else if u = 92 then some .escape else some .string
  | .escape, u => if u = 34 then some .string else none
  | .blank, _ | .commentEnd, _ | .mark, _ | .stringEnd, _ => none

def run (p : Part) (s : Units) : Option Part := s.foldlM step p

/-- A lexeme may end here. -/
def accepts : Part → Bool
  | .blank | .commentEnd | .mark | .word | .number | .stringEnd => true
  | .start | .slash | .comment | .string | .escape => false

@[simp] lemma run_nil (p : Part) : p.run [] = some p := rfl

@[simp] lemma run_cons (p : Part) (u : UInt16) (s : Units) :
    p.run (u :: s) = (p.step u).bind fun q => q.run s := rfl

lemma run_append (p : Part) (s t : Units) : p.run (s ++ t) = (p.run s).bind fun q => q.run t :=
  List.foldlM_append

variable {p q : Part} {u : UInt16} {s : Units}

lemma run_word (h : ∀ v ∈ s, isWordPart v = true) : word.run s = some word := by
  induction s with
  | nil => rfl
  | cons v s ih =>
    rw [run_cons, step, if_pos (h v (by simp))]
    exact ih fun w hw => h w (by simp [hw])

lemma run_number (h : ∀ v ∈ s, isDigit v = true) : number.run s = some number := by
  induction s with
  | nil => rfl
  | cons v s ih =>
    rw [run_cons, step, if_pos (h v (by simp))]
    exact ih fun w hw => h w (by simp [hw])

lemma run_comment (h : ∀ v ∈ s, v ≠ 10) : comment.run s = some comment := by
  induction s with
  | nil => rfl
  | cons v s ih =>
    rw [run_cons, step, if_neg (h v (by simp))]
    exact ih fun w hw => h w (by simp [hw])

lemma run_string (h : Escaped s) : string.run s = some string := by
  induction h with
  | nil => rfl
  | plain hquote hslash _ ih =>
    rw [run_cons, step, if_neg hquote, if_neg hslash]
    exact ih
  | quote _ ih => exact ih

lemma word_of_run (h : word.run s = some q) : q = word ∧ ∀ v ∈ s, isWordPart v = true := by
  induction s with
  | nil => exact ⟨(Option.some.inj h).symm, by simp⟩
  | cons v s ih =>
    obtain ⟨r, hr, hrest⟩ := Option.bind_eq_some_iff.mp h
    obtain ⟨hv, rfl⟩ := by simpa [step] using hr
    obtain ⟨hq, hs⟩ := ih hrest
    exact ⟨hq, by simpa using ⟨hv, hs⟩⟩

lemma number_of_run (h : number.run s = some q) : q = number ∧ ∀ v ∈ s, isDigit v = true := by
  induction s with
  | nil => exact ⟨(Option.some.inj h).symm, by simp⟩
  | cons v s ih =>
    obtain ⟨r, hr, hrest⟩ := Option.bind_eq_some_iff.mp h
    obtain ⟨hv, rfl⟩ := by simpa [step] using hr
    obtain ⟨hq, hs⟩ := ih hrest
    exact ⟨hq, by simpa using ⟨hv, hs⟩⟩

/-- Nothing can be read behind the end of a lexeme of fixed end. -/
lemma nil_of_run (hstep : ∀ u, p.step u = none) (h : p.run s = some q) : s = [] ∧ q = p := by
  cases s with
  | nil => exact ⟨rfl, (Option.some.inj h).symm⟩
  | cons u s =>
    rw [run_cons, hstep] at h
    cases h

lemma comment_of_run (h : comment.run s = some q) (hq : q.accepts = true) :
    ∃ body : Units, (∀ u ∈ body, u ≠ 10) ∧ s = body ++ [10] := by
  induction s with
  | nil =>
    obtain rfl := Option.some.inj h
    cases hq
  | cons v s ih =>
    by_cases hv : v = 10
    · rw [run_cons, step, if_pos hv] at h
      obtain ⟨rfl, -⟩ := nil_of_run (p := commentEnd) (fun _ => rfl) h
      exact ⟨[], by simp, by rw [hv]; rfl⟩
    · rw [run_cons, step, if_neg hv] at h
      obtain ⟨body, hbody, rfl⟩ := ih h
      exact ⟨v :: body, by simpa using ⟨hv, hbody⟩, rfl⟩

lemma string_of_run (s : Units) :
    (∀ q, string.run s = some q → q.accepts = true →
      ∃ body, Escaped body ∧ s = body ++ [34]) ∧
    ∀ q, escape.run s = some q → q.accepts = true →
      ∃ body, Escaped body ∧ s = 34 :: (body ++ [34]) := by
  induction s with
  | nil =>
    constructor <;> intro q h hq <;> obtain rfl := Option.some.inj h <;> cases hq
  | cons v s ih =>
    constructor
    · intro q h hq
      by_cases hquote : v = 34
      · rw [run_cons, step, if_pos hquote] at h
        obtain ⟨rfl, -⟩ := nil_of_run (p := stringEnd) (fun _ => rfl) h
        exact ⟨[], .nil, by rw [hquote]; rfl⟩
      · by_cases hslash : v = 92
        · rw [run_cons, step, if_neg hquote, if_pos hslash] at h
          obtain ⟨body, hbody, rfl⟩ := ih.2 q h hq
          exact ⟨92 :: 34 :: body, hbody.quote, by rw [hslash]; rfl⟩
        · rw [run_cons, step, if_neg hquote, if_neg hslash] at h
          obtain ⟨body, hbody, rfl⟩ := ih.1 q h hq
          exact ⟨v :: body, hbody.plain hquote hslash, rfl⟩
    · intro q h hq
      by_cases hquote : v = 34
      · rw [run_cons, step, if_pos hquote] at h
        obtain ⟨body, hbody, rfl⟩ := ih.1 q h hq
        exact ⟨body, hbody, by rw [hquote]⟩
      · rw [run_cons, step, if_neg hquote] at h
        cases h

lemma step_start_blank (h : isSpace u = true) : start.step u = some blank := if_pos h

lemma step_start_mark (h : isMark u = true) : start.step u = some mark := by
  simp only [isMark, Bool.or_eq_true, decide_eq_true_eq] at h
  rcases h with ((((((rfl | rfl) | rfl) | rfl) | rfl) | rfl) | rfl) <;> rfl

lemma step_start_word (h : isWordStart u = true) : start.step u = some word := by
  have hspace : isSpace u = false := by
    simp [isSpace, isWordStart, ← UInt16.toNat_inj, UInt16.le_iff_toNat_le] at h ⊢
    omega
  have hslash : u ≠ 47 := by
    rintro rfl
    cases h
  have hmark : isMark u = false := by
    simp [isMark, isWordStart, ← UInt16.toNat_inj, UInt16.le_iff_toNat_le] at h ⊢
    omega
  simp [step, hspace, hslash, hmark, h]

lemma step_start_number (h : isDigit u = true) : start.step u = some number := by
  have hspace : isSpace u = false := by
    simp [isSpace, isDigit, ← UInt16.toNat_inj, UInt16.le_iff_toNat_le] at h ⊢
    omega
  have hslash : u ≠ 47 := by
    rintro rfl
    cases h
  have hmark : isMark u = false := by
    simp [isMark, isDigit, ← UInt16.toNat_inj, UInt16.le_iff_toNat_le] at h ⊢
    omega
  have hword : isWordStart u = false := by
    simp [isWordStart, isDigit, ← UInt16.toNat_inj, UInt16.le_iff_toNat_le] at h ⊢
    omega
  simp [step, hspace, hslash, hmark, hword, h]

lemma lexeme_of_run_start {u : UInt16} {s : Units} (h : start.run (u :: s) = some q)
    (hq : q.accepts = true) : Lexeme (u :: s) := by
  rw [run_cons, step] at h
  split_ifs at h with hspace hslash hmark hword hdigit hquote
  · obtain ⟨rfl, -⟩ := nil_of_run (p := blank) (fun _ => rfl) h
    exact .blank hspace
  · obtain ⟨r, hr, hrest⟩ : ∃ r, slash.run s = some r ∧ r.accepts = true := ⟨q, h, hq⟩
    cases s with
    | nil =>
      obtain rfl := Option.some.inj hr
      cases hrest
    | cons v s =>
      by_cases hv : v = 47
      · rw [run_cons, step, if_pos hv] at hr
        obtain ⟨body, hbody, rfl⟩ := comment_of_run hr hrest
        rw [hslash, hv]
        exact .comment hbody
      · rw [run_cons, step, if_neg hv] at hr
        cases hr
  · obtain ⟨rfl, -⟩ := nil_of_run (p := mark) (fun _ => rfl) h
    exact .mark hmark
  · exact .word hword (word_of_run h).2
  · exact .number hdigit (number_of_run h).2
  · obtain ⟨body, hbody, rfl⟩ := (string_of_run s).1 q h hq
    rw [hquote]
    exact .string hbody
  · cases h

/-- The automaton reads the lexemes. -/
theorem lexeme_iff_run : Lexeme s ↔ ∃ q, start.run s = some q ∧ q.accepts = true := by
  constructor
  · intro h
    cases h with
    | blank h => exact ⟨.blank, by rw [run_cons, step_start_blank h]; rfl, rfl⟩
    | mark h => exact ⟨.mark, by rw [run_cons, step_start_mark h]; rfl, rfl⟩
    | word hu h => exact ⟨.word, by rw [run_cons, step_start_word hu]; exact run_word h, rfl⟩
    | number hu h =>
      exact ⟨.number, by rw [run_cons, step_start_number hu]; exact run_number h, rfl⟩
    | comment h =>
      refine ⟨.commentEnd, ?_, rfl⟩
      change comment.run _ = _
      rw [run_append, run_comment h]
      rfl
    | string h =>
      refine ⟨.stringEnd, ?_, rfl⟩
      change string.run _ = _
      rw [run_append, run_string h]
      rfl
  · rintro ⟨q, h, hq⟩
    cases s with
    | nil =>
      obtain rfl := Option.some.inj h
      cases hq
    | cons u s => exact lexeme_of_run_start h hq

end Part

/-! ### The tables -/

namespace ScriptLexer

/-- What has been read at each node. -/
def parts : List Part :=
  [.start, .blank, .slash, .mark, .mark, .mark, .word, .mark, .mark, .mark, .mark, .word, .word,
   .word, .word, .word, .word, .number, .string, .comment, .word, .word, .word, .word, .word, .word,
   .word, .escape, .stringEnd, .commentEnd, .word, .word, .word, .word, .word, .word, .word, .word,
   .word, .word, .word, .word, .word, .word, .word, .word]

def part (node : ℕ) : Part := parts.getD node .start

/-- The letters of a row that may lead to a keyword. -/
def keyword (row : List TransitionRange) : List TransitionRange := row.take (row.length - 4)

/-- A name goes on with the same units everywhere, and most other lexemes end at once. -/
lemma rows_follow : ((List.range 46).all fun node =>
    let row := rows.getD node []
    match part node with
    | .word => row = wordRow (keyword row) && (keyword row).all fun r =>
        part r.node = .word && r.first = r.last && isWordPart (.ofNat r.first.toNat)
    | .blank | .commentEnd | .mark | .stringEnd => row.isEmpty
    | p => (List.range 256).all fun u =>
        decide ((entry row u).map part = p.step (.ofNat u))) = true := by
  decide +kernel

lemma entry_word : ((List.range 256).all fun u =>
    decide ((entry (wordRow []) u).map part = Part.word.step (.ofNat u))) = true := by
  decide +kernel

/-- A letter of a keyword leads to another part of the name, as it does without the keyword. -/
lemma entry_wordRow {rs : List TransitionRange} {u : ℕ} (hu : u < 256)
    (h : ∀ r ∈ rs, part r.node = .word ∧ r.first = r.last ∧
      isWordPart (.ofNat r.first.toNat) = true) :
    (entry (wordRow rs) u).map part = Part.word.step (.ofNat u) := by
  have hword := of_decide_eq_true (List.all_eq_true.mp entry_word u (List.mem_range.mpr hu))
  rw [entry, wordRow, List.find?_append]
  cases hfind : rs.find? fun r => decide (r.first.toNat ≤ u) && decide (u ≤ r.last.toNat) with
  | none => exact hword
  | some r =>
    obtain ⟨hnode, hlast, hpart⟩ := h r (List.mem_of_find?_eq_some hfind)
    have hbounds := List.find?_some (p := fun r : TransitionRange =>
      decide (r.first.toNat ≤ u) && decide (u ≤ r.last.toNat)) hfind
    rw [Bool.and_eq_true, decide_eq_true_eq, decide_eq_true_eq, ← hlast] at hbounds
    have hru : r.first.toNat = u := Nat.le_antisymm hbounds.1 hbounds.2
    rw [hru] at hpart
    simp [Part.step, hpart, hnode]

lemma entry_follows {node u : ℕ} (hnode : node < 46) (hu : u < 256) :
    (entry (rows.getD node []) u).map part = (part node).step (.ofNat u) := by
  have hrow := List.all_eq_true.mp rows_follow node (List.mem_range.mpr hnode)
  cases hpart : part node with
  | word =>
    simp only [hpart, Bool.and_eq_true, decide_eq_true_eq, List.all_eq_true] at hrow
    rw [hrow.1]
    exact entry_wordRow hu fun r hr =>
      ⟨(hrow.2 r hr).1.1, (hrow.2 r hr).1.2, (hrow.2 r hr).2⟩
  | blank | commentEnd | mark | stringEnd =>
    simp only [hpart, List.isEmpty_iff] at hrow
    rw [hrow]
    rfl
  | start | slash | comment | number | string | escape =>
    simp only [hpart] at hrow
    exact of_decide_eq_true (List.all_eq_true.mp hrow u (List.mem_range.mpr hu))

/-- The tables follow the automaton. -/
theorem map_part_next? {node : ℕ} {u : UInt16} (hnode : node < 46) (hu : u.toNat < 256) :
    (scriptLexer.next? node u).map part = (part node).step u := by
  have hcheck := entry_follows hnode hu
  rw [UInt16.ofNat_toNat] at hcheck
  rw [← hcheck]
  have hrows : node < rows.length := hnode
  simp [LexerTables.next?, scriptLexer, transitionTable, hrows, hu]

lemma part_eq_start {node : ℕ} (hnode : node < 46) (h : part node = .start) : node = 0 := by
  have hcheck : ((List.range 46).all fun node => part node ≠ .start || node = 0) = true := by
    decide +kernel
  simpa [h] using List.all_eq_true.mp hcheck node (List.mem_range.mpr hnode)

/-- A token ends exactly where a lexeme may end. -/
lemma isSome_name? {node : ℕ} (hnode : node < 46) :
    (scriptLexer.name? node).isSome = (part node).accepts := by
  have hcheck : ((List.range 46).all fun node =>
    decide ((scriptLexer.name? node).isSome = (part node).accepts)) = true := by decide +kernel
  exact of_decide_eq_true (List.all_eq_true.mp hcheck node (List.mem_range.mpr hnode))

end ScriptLexer

/-! ### Covered texts -/

lemma Lexeme.ne_nil {s : Units} (h : Lexeme s) : s ≠ [] := by
  cases h <;> simp

lemma covered_nil : Covered [] := ⟨[], by simp, rfl⟩

namespace Part

variable {p q : Part} {u : UInt16} {rest : Units}

/-- The rest of the text completes the lexeme of which a part has been read, and is covered from
there on. -/
def Completes (p : Part) (rest : Units) : Prop :=
  ∃ a b q, rest = a ++ b ∧ p.run a = some q ∧ q.accepts = true ∧ Covered b

/-- A text that the scan may meet when `p` has been read. -/
def Fits (p : Part) (rest : Units) : Prop := p = .start ∧ Covered rest ∨ p.Completes rest

/-- A covered text begins with a lexeme. -/
lemma completes_of_covered (h : Covered (u :: rest)) :
    ∃ q, start.step u = some q ∧ q.Completes rest := by
  obtain ⟨lexemes, hall, htext⟩ := h
  cases lexemes with
  | nil => cases htext
  | cons s lexemes =>
    have hs : Lexeme s := hall s (by simp)
    obtain ⟨v, s, rfl⟩ := List.exists_cons_of_ne_nil hs.ne_nil
    obtain ⟨rfl, rfl⟩ := List.cons.inj htext
    obtain ⟨q, hrun, hq⟩ := lexeme_iff_run.mp hs
    obtain ⟨r, hr, hrest⟩ := Option.bind_eq_some_iff.mp hrun
    exact ⟨r, hr, s, lexemes.flatten, q, rfl, hrest, hq, lexemes,
      fun t ht => hall t (by simp [ht]), rfl⟩

/-- A lexeme that could be longer is made longer by the first lexeme of a covered text. -/
lemma completes_of_step (hp : p.accepts = true) (hu : p.step u = some q)
    (h : Covered (u :: rest)) : q.Completes rest := by
  obtain ⟨r, hr, a, b, t, rfl, hrun, ht, hb⟩ := completes_of_covered h
  cases p with
  | word =>
    obtain ⟨hpart, rfl⟩ := by simpa [step] using hu
    refine ⟨a, b, .word, rfl, run_word ?_, rfl, hb⟩
    by_cases hdigit : isDigit u = true
    · rw [step_start_number hdigit, Option.some.injEq] at hr
      subst hr
      intro v hv
      simp [isWordPart, (number_of_run hrun).2 v hv]
    · have hstart : isWordStart u = true := by
        simp only [isWordPart, Bool.or_eq_true, hdigit] at hpart
        simp only [isWordStart, Bool.or_eq_true]
        tauto
      rw [step_start_word hstart, Option.some.injEq] at hr
      subst hr
      exact (word_of_run hrun).2
  | number =>
    obtain ⟨hdigit, rfl⟩ := by simpa [step] using hu
    rw [step_start_number hdigit, Option.some.injEq] at hr
    subst hr
    exact ⟨a, b, t, rfl, hrun, ht, hb⟩
  | blank | commentEnd | mark | stringEnd => cases hu
  | start | slash | comment | string | escape => cases hp

/-- The scan goes on, or has come to the end of a lexeme. -/
lemma Fits.step (h : p.Fits (u :: rest)) :
    (∃ q, p.step u = some q ∧ q.Fits rest) ∨
      p.step u = none ∧ p.accepts = true ∧ Covered (u :: rest) := by
  rcases h with ⟨rfl, h⟩ | ⟨a, b, q, hab, hrun, hq, hb⟩
  · obtain ⟨q, hu, hq⟩ := completes_of_covered h
    exact .inl ⟨q, hu, .inr hq⟩
  · cases a with
    | nil =>
      obtain rfl := Option.some.inj hrun
      rw [List.nil_append] at hab
      subst hab
      cases hu : p.step u with
      | none => exact .inr ⟨rfl, hq, hb⟩
      | some r => exact .inl ⟨r, rfl, .inr (completes_of_step hq hu hb)⟩
    | cons v a =>
      obtain ⟨rfl, rfl⟩ := List.cons.inj hab
      obtain ⟨r, hr, hrest⟩ := Option.bind_eq_some_iff.mp hrun
      exact .inl ⟨r, hr, .inr ⟨a, b, q, rfl, hrest, hq, hb⟩⟩

lemma Fits.nil (h : p.Fits []) : p = .start ∨ p.accepts = true := by
  rcases h with ⟨rfl, -⟩ | ⟨a, b, q, hab, hrun, hq, -⟩
  · exact .inl rfl
  · obtain ⟨rfl, rfl⟩ := List.nil_eq_append_iff.mp hab
    obtain rfl := Option.some.inj hrun
    exact .inr hq

end Part

/-! ### Nothing is lost -/

/-- What a call has read: the texts that it dropped, and the token. -/
def Scanned.pieces (r : Scanned) : List Units := r.dropped ++ [r.token.contents]

/-- The texts that a call has dropped are lexemes, and its token is one that ends at a node with the
name of the token. -/
structure Scanned.Spelled (r : Scanned) : Prop where
  dropped : ∀ d ∈ r.dropped, Lexeme d
  token : ∃ node < 46, scriptLexer.name? node = some r.token.name ∧
    Part.start.run r.token.contents = some (ScriptLexer.part node)

lemma Scanned.Spelled.lexeme {r : Scanned} (h : r.Spelled) : ∀ s ∈ r.pieces, Lexeme s := by
  intro s hs
  rcases List.mem_append.mp hs with hs | hs
  · exact h.dropped s hs
  · obtain ⟨node, hnode, hname, hrun⟩ := h.token
    rw [List.mem_singleton.mp hs]
    refine Part.lexeme_iff_run.mpr ⟨_, hrun, ?_⟩
    rw [← ScriptLexer.isSome_name? hnode, hname]
    rfl

namespace Scan

variable {s : Scan} {u : UInt16} {l : Lexer} {rest : Units} {fuel : ℕ}

/-- The texts that have been dropped are lexemes, and the builder is what has been read of one. -/
structure ReadsLexemes (s : Scan) : Prop where
  node : s.nodePos < 46
  builder : Part.start.run s.builder = some (ScriptLexer.part s.nodePos)
  dropped : ∀ d ∈ s.dropped, Lexeme d

lemma readsLexemes_start (l : Lexer) : (start l).ReadsLexemes :=
  ⟨Nat.zero_lt_succ _, rfl, by simp [start]⟩

lemma ReadsLexemes.lexeme (h : s.ReadsLexemes) {name : Str}
    (hname : scriptLexer.name? s.nodePos = some name) : Lexeme s.builder := by
  refine Part.lexeme_iff_run.mpr ⟨_, h.builder, ?_⟩
  rw [← ScriptLexer.isSome_name? h.node, hname]
  rfl

lemma ReadsLexemes.go (h : s.ReadsLexemes) {n : ℕ} (hu : u.toNat < 256)
    (hn : scriptLexer.next? s.nodePos u = some n) : (s.go u n).ReadsLexemes where
  node := (ScriptLexer.complete.next?_eq_some hn).2
  builder := by
    have hpart := ScriptLexer.map_part_next? h.node hu
    rw [hn] at hpart
    change Part.start.run (s.builder ++ [u]) = _
    rw [Part.run_append, h.builder, Option.bind_some, Part.run_cons, ← hpart]
    rfl
  dropped := h.dropped

lemma ReadsLexemes.drop (h : s.ReadsLexemes) {name : Str}
    (hname : scriptLexer.name? s.nodePos = some name) : s.drop.ReadsLexemes where
  node := Nat.zero_lt_succ _
  builder := rfl
  dropped d hd := by
    rcases List.mem_append.mp hd with hd | hd
    · exact h.dropped d hd
    · rw [List.mem_singleton.mp hd]
      exact h.lexeme hname

lemma ReadsLexemes.returns (h : s.ReadsLexemes) {name : Str}
    (hname : scriptLexer.name? s.nodePos = some name) : (s.returns name).Spelled :=
  ⟨h.dropped, s.nodePos, h.node, hname, h.builder⟩

/-- What a call reads is spelled by the rules. -/
theorem spelled_of_loop (h : s.ReadsLexemes) {r : Scanned}
    (hr : s.loop scriptLexer fuel = some (.ok r)) : r.Spelled := by
  have hc := ScriptLexer.complete
  induction fuel generalizing s with
  | zero => cases hr
  | succ fuel ih =>
    cases ht : s.lexer.target with
    | nil =>
      simp only [loop, ht, Option.some.injEq, finish_eq hc h.node] at hr
      cases hname : scriptLexer.name? s.nodePos with
      | none => simp [hname] at hr
      | some name =>
        rw [hname] at hr
        cases hr
        exact h.returns hname
    | cons u rest =>
      by_cases hu : u.toNat < 256
      · simp only [loop, ht, turn_eq hc h.node hu] at hr
        cases hn : scriptLexer.next? s.nodePos u with
        | some n => exact ih (h.go hu hn) (by simpa [hn] using hr)
        | none =>
          cases hname : scriptLexer.name? s.nodePos with
          | none =>
            have herror : s.error.ReadsLexemes := ⟨h.node, h.builder, h.dropped⟩
            exact ih herror (by simpa [hn, hname] using hr)
          | some name =>
            by_cases hempty : name = []
            · exact ih (h.drop hname) (by simpa [hn, hname, hempty] using hr)
            · obtain rfl : s.returns name = r := by simpa [hn, hname, hempty] using hr
              exact h.returns hname
      · simp [loop, ht, turn_range hc h.node (not_lt.mp hu)] at hr

/-- A scan of a covered text: what has been read and what is left make up the text, and what is
left completes what has been read. -/
structure Tracks (l : Lexer) (s : Scan) : Prop extends s.ReadsLexemes where
  text : l.target = s.dropped.flatten ++ s.builder ++ s.lexer.target
  fits : (ScriptLexer.part s.nodePos).Fits s.lexer.target

lemma tracks_start (h : Covered l.target) : (start l).Tracks l :=
  { readsLexemes_start l with text := rfl, fits := .inl ⟨rfl, h⟩ }

lemma Tracks.returns (h : s.Tracks l) (name : Str) :
    l.target = (s.returns name).pieces.flatten ++ (s.returns name).lexer.target := by
  rw [h.text]
  simp [Scanned.pieces, Scan.returns]

/-- One turn in a covered text: the scan goes on, or returns a token. No unit is passed over. -/
lemma Tracks.turn (h : s.Tracks l) (ht : s.lexer.target = u :: rest) (hu : u.toNat < 256) :
    (∃ s', s.turn scriptLexer u = .inl s' ∧ s'.Tracks l ∧
      (s'.nodePos = 0 → s'.lexer.target ≠ []) ∧ s'.lexer.target <:+ s.lexer.target) ∨
    ∃ r, s.turn scriptLexer u = .inr (.ok r) ∧ l.target = r.pieces.flatten ++ r.lexer.target ∧
      Covered r.lexer.target := by
  have hpart := ScriptLexer.map_part_next? h.node hu
  rw [turn_eq ScriptLexer.complete h.node hu]
  have hfits := h.fits
  rw [ht] at hfits
  rcases hfits.step with ⟨q, hq, hrest⟩ | ⟨hnone, haccepts, hcovered⟩
  · obtain ⟨n, hn, rfl⟩ := Option.map_eq_some_iff.mp (hpart.trans hq)
    rw [hn]
    refine .inl ⟨s.go u n, rfl, { h.toReadsLexemes.go hu hn with text := ?_, fits := ?_ },
      fun h0 => absurd h0 (ScriptLexer.complete.next?_eq_some hn).1, ?_⟩
    · rw [h.text, target_go, ht]
      simp [go]
    · rwa [target_go, ht]
    · rw [target_go]
      exact List.tail_suffix _
  · have hn : scriptLexer.next? s.nodePos u = none := by
      rw [hnone] at hpart
      exact Option.map_eq_none_iff.mp hpart
    obtain ⟨name, hname⟩ : ∃ name, scriptLexer.name? s.nodePos = some name := by
      rw [← ScriptLexer.isSome_name? h.node] at haccepts
      exact Option.isSome_iff_exists.mp haccepts
    rw [hn, hname]
    by_cases hempty : name = []
    · refine .inl ⟨s.drop, if_pos hempty,
        { h.toReadsLexemes.drop hname with text := ?_, fits := ?_ }, fun _ => ?_, ?_⟩
      · rw [h.text]
        simp [drop]
      · exact .inl ⟨rfl, by rwa [target_drop, ht]⟩
      · rw [target_drop, ht]
        exact List.cons_ne_nil u rest
      · exact List.suffix_rfl
    · exact .inr ⟨s.returns name, if_neg hempty, h.returns name, by rwa [target_returns, ht]⟩

/-- A call in a covered text reads without a loss. -/
theorem text_of_loop (h : s.Tracks l) (hnode : s.nodePos = 0 → s.lexer.target ≠ [])
    (hu : ∀ u ∈ s.lexer.target, u.toNat < 256) {r : Except LexError Scanned}
    (hr : s.loop scriptLexer fuel = some r) :
    ∃ r', r = .ok r' ∧ l.target = r'.pieces.flatten ++ r'.lexer.target ∧
      Covered r'.lexer.target := by
  induction fuel generalizing s with
  | zero => cases hr
  | succ fuel ih =>
    cases ht : s.lexer.target with
    | nil =>
      simp only [loop, ht, Option.some.injEq, finish_eq ScriptLexer.complete h.node] at hr
      have haccepts : (ScriptLexer.part s.nodePos).accepts = true := by
        have hfits := h.fits
        rw [ht] at hfits
        refine hfits.nil.resolve_left fun hstart => ?_
        exact hnode (ScriptLexer.part_eq_start h.node hstart) ht
      rw [← ScriptLexer.isSome_name? h.node] at haccepts
      obtain ⟨name, hname⟩ := Option.isSome_iff_exists.mp haccepts
      rw [hname] at hr
      subst hr
      exact ⟨_, rfl, h.returns name, by simpa [ht] using covered_nil⟩
    | cons u rest =>
      rcases h.turn ht (hu u (by simp [ht])) with ⟨s', hs', ht', hnode', hle⟩ | ⟨r', hr', htext⟩
      · refine ih ht' hnode' (fun v hv => hu v (hle.subset hv)) ?_
        simpa only [loop, ht, hs'] using hr
      · simp only [loop, ht, hr', Option.some.injEq] at hr
        exact ⟨r', hr.symm, htext⟩

end Scan

namespace Lexer

variable {l : Lexer} {fuel : ℕ} {calls : List (Lexer × Scanned)} {e : Option LexError}

/-- What the calls have read, in the order of the text. -/
def pieces (calls : List (Lexer × Scanned)) : List Units := calls.flatMap fun c => c.2.pieces

theorem spelled_of_run (hrun : l.run scriptLexer fuel = some (calls, e)) :
    ∀ c ∈ calls, c.2.Spelled := by
  induction fuel generalizing l calls with
  | zero => cases hrun
  | succ fuel ih =>
    by_cases hv : l.valid = true
    · simp only [run, hv, if_true] at hrun
      rcases hnext : l.next scriptLexer fuel with _ | _ | r
      · simp [hnext] at hrun
      · rw [hnext] at hrun
        cases hrun
        simp
      · rw [hnext] at hrun
        obtain ⟨⟨calls', e'⟩, hrest, heq⟩ := Option.map_eq_some_iff.mp hrun
        cases heq
        intro c hc
        rcases List.mem_cons.mp hc with rfl | hc
        · exact Scan.spelled_of_loop (Scan.readsLexemes_start l) hnext
        · exact ih hrest c hc
    · simp only [run, if_neg hv, Option.some.injEq, Prod.mk.injEq] at hrun
      obtain ⟨rfl, -⟩ := hrun
      simp

theorem lexemes_of_run (hrun : l.run scriptLexer fuel = some (calls, e)) :
    ∀ s ∈ pieces calls, Lexeme s := by
  intro s hs
  obtain ⟨c, hc, hs⟩ := List.mem_flatMap.mp hs
  exact (spelled_of_run hrun c hc).lexeme s hs

theorem text_of_run (hcovered : Covered l.target) (hu : ∀ u ∈ l.target, u.toNat < 256)
    (hrun : l.run scriptLexer fuel = some (calls, e)) :
    e = none ∧ (pieces calls).flatten = l.target := by
  induction fuel generalizing l calls with
  | zero => cases hrun
  | succ fuel ih =>
    by_cases hv : l.valid = true
    · simp only [run, hv, if_true] at hrun
      cases hnext : l.next scriptLexer fuel with
      | none => simp [hnext] at hrun
      | some r =>
        rw [hnext] at hrun
        have hne : l.target ≠ [] := by simpa [valid] using hv
        obtain ⟨r', rfl, htext, hrest⟩ :=
          Scan.text_of_loop (Scan.tracks_start hcovered) (fun _ => hne) hu hnext
        obtain ⟨⟨calls', e'⟩, hcalls, heq⟩ := Option.map_eq_some_iff.mp hrun
        cases heq
        obtain ⟨he, hflat⟩ := ih hrest (fun u hmem => hu u (by simp [htext, hmem])) hcalls
        refine ⟨he, ?_⟩
        rw [htext, ← hflat]
        simp [pieces]
    · simp only [run, if_neg hv, Option.some.injEq, Prod.mk.injEq] at hrun
      obtain ⟨rfl, rfl⟩ := hrun
      have hnil : l.target = [] := by simpa [valid] using hv
      simp [pieces, hnil]

/-- When the calls use up the text, nothing has been lost exactly when the rules cover it. -/
theorem text_eq_iff_covered (hrun : l.run scriptLexer fuel = some (calls, none)) :
    (pieces calls).flatten = l.target ↔ Covered l.target := by
  constructor
  · intro h
    exact ⟨pieces calls, lexemes_of_run hrun, h.symm⟩
  · intro h
    refine (text_of_run h (fun u hu => ?_) hrun).2
    by_contra hge
    exact absurd (run_range ScriptLexer.complete ⟨u, hu, not_lt.mp hge⟩ hrun) (by simp)

end Lexer

end Violet
