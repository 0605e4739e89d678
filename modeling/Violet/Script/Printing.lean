import Violet.Script.Compilation

/-!
# Parsing undoes printing

The tokens of a syntax tree, fed to the parser, build this syntax tree again. The `else` of a
conditional belongs to the nearest `if`, so the branch in front of it must not end in an `if` that
has no `else`; a block closes it.
-/

namespace Violet

open Dart Parsing

/-! ### The tokens of a syntax tree -/

/-- A token of the parser: its name and its contents. -/
abbrev Lexed := Str × Units

namespace Lexed

/-- A mark or a keyword. -/
def mark (s : String) : Lexed := (s.toList, units s)

def name (contents : Units) : Lexed := ("name".toList, contents)

/-- A string literal: the quotes inside are escaped. -/
def literal (content : Units) : Lexed :=
  ("string".toList, 34 :: (content.replaceAll [34] [92, 34] ++ [34]))

end Lexed

open Lexed

def PConsts.tokens : PConsts → List Lexed
  | .integer content => [("number".toList, content)]
  | .string content => [literal content]

mutual

def PIndex.tokens : PIndex → List Lexed
  | .ofVariable content => content.tokens
  | .indexing index content => index.tokens ++ mark "[" :: (content.tokens ++ [mark "]"])

def PVariable.tokens : PVariable → List Lexed
  | .name content => [Lexed.name content]
  | .function content => content.tokens
  | .consts content => content.tokens
  | .null => [mark "function"]

def PFunction.tokens : PFunction → List Lexed
  | .call name => [Lexed.name name, mark "(", mark ")"]
  | .callWith name argument => Lexed.name name :: mark "(" :: (argument.tokens ++ [mark ")"])

def PArgument.tokens : PArgument → List Lexed
  | .last index => index.tokens
  | .cons index argument => index.tokens ++ mark "," :: argument.tokens

end

mutual

def PStatement.tokens : PStatement → List Lexed
  | .sfunction (some function) => function.tokens
  | .sfunction none => [mark "function"]
  | .sindex index1 index2 => index1.tokens ++ mark "=" :: index2.tokens
  | .srunnable runnable => runnable.tokens

def PLine.tokens : PLine → List Lexed
  | .mk statement => statement.tokens

def PBlock.tokens : PBlock → List Lexed
  | .empty => []
  | .cons line block => line.tokens ++ block.tokens

def PBlockEntry.tokens : PBlockEntry → List Lexed
  | .innerBlock block => mark "[" :: (block.tokens ++ [mark "]"])
  | .line line => line.tokens

def PRunnable.tokens : PRunnable → List Lexed
  | .sloop name index1 index2 blockEntry1 =>
    mark "loop" :: mark "(" :: Lexed.name name :: mark "=" :: (index1.tokens ++ mark "to" ::
      (index2.tokens ++ mark ")" :: blockEntry1.tokens))
  | .sforeach name index1 blockEntry1 =>
    mark "foreach" :: mark "(" :: Lexed.name name :: mark ":" :: (index1.tokens ++ mark ")" ::
      blockEntry1.tokens)
  | .sif index1 blockEntry1 =>
    mark "if" :: mark "(" :: (index1.tokens ++ mark ")" :: blockEntry1.tokens)
  | .sifelse index1 blockEntry1 blockEntry2 =>
    mark "if" :: mark "(" :: (index1.tokens ++ mark ")" :: (blockEntry1.tokens ++ mark "else" ::
      blockEntry2.tokens))

end

/-! ### Syntax trees of the grammar -/

/-! Every call of the syntax tree is one: the lexeme `function` does not occur. -/

mutual

def PIndex.proper : PIndex → Bool
  | .ofVariable content => content.proper
  | .indexing index content => index.proper && content.proper

def PVariable.proper : PVariable → Bool
  | .name _ | .consts _ => true
  | .function content => content.proper
  | .null => false

def PFunction.proper : PFunction → Bool
  | .call _ => true
  | .callWith _ argument => argument.proper

def PArgument.proper : PArgument → Bool
  | .last index => index.proper
  | .cons index argument => index.proper && argument.proper

end

mutual

/-- The text ends in an `if` that an `else` could follow. -/
def PStatement.endsOpen : PStatement → Bool
  | .sfunction _ | .sindex _ _ => false
  | .srunnable runnable => runnable.endsOpen

def PLine.endsOpen : PLine → Bool
  | .mk statement => statement.endsOpen

def PBlockEntry.endsOpen : PBlockEntry → Bool
  | .innerBlock _ => false
  | .line line => line.endsOpen

def PRunnable.endsOpen : PRunnable → Bool
  | .sloop _ _ _ blockEntry1 | .sforeach _ _ blockEntry1 => blockEntry1.endsOpen
  | .sif _ _ => true
  | .sifelse _ _ blockEntry2 => blockEntry2.endsOpen

end

/-- The branch itself is an `if` without an `else`. -/
def PBlockEntry.isIf : PBlockEntry → Bool
  | .line (.mk (.srunnable (.sif _ _))) => true
  | _ => false

/-! A syntax tree of the grammar, in which the condition forbids no branch in front of an `else`. -/

mutual

def PStatement.proper (forbidden : PBlockEntry → Bool) : PStatement → Bool
  | .sfunction (some function) => function.proper
  | .sfunction none => false
  | .sindex index1 index2 => index1.proper && index2.proper
  | .srunnable runnable => runnable.proper forbidden

def PLine.proper (forbidden : PBlockEntry → Bool) : PLine → Bool
  | .mk statement => statement.proper forbidden

def PBlock.proper (forbidden : PBlockEntry → Bool) : PBlock → Bool
  | .empty => true
  | .cons line block => line.proper forbidden && block.proper forbidden

def PBlockEntry.proper (forbidden : PBlockEntry → Bool) : PBlockEntry → Bool
  | .innerBlock block => block.proper forbidden
  | .line line => line.proper forbidden

def PRunnable.proper (forbidden : PBlockEntry → Bool) : PRunnable → Bool
  | .sloop _ index1 index2 blockEntry1 =>
    index1.proper && index2.proper && blockEntry1.proper forbidden
  | .sforeach _ index1 blockEntry1 | .sif index1 blockEntry1 =>
    index1.proper && blockEntry1.proper forbidden
  | .sifelse index1 blockEntry1 blockEntry2 =>
    index1.proper && blockEntry1.proper forbidden && !forbidden blockEntry1 &&
      blockEntry2.proper forbidden

end

/-! ### String literals -/

/-- A quote inside a literal is escaped. -/
lemma escape_cons (u : UInt16) (s : Units) :
    Units.replaceAll.go [34] [92, 34] 0 (u :: s) =
      (if u = 34 then [92, 34] else [u]) ++ Units.replaceAll.go [34] [92, 34] 0 s := by
  by_cases h : u = 34
  · subst h
    rfl
  · have hne : ([34] : Units).isPrefixOf (u :: s) = false := by
      simpa [List.isPrefixOf] using fun h' => h h'.symm
    simp [Units.replaceAll.go, hne, h]

lemma head_escape_ne (s rest : Units) : Units.replaceAll.go [34] [92, 34] 0 s ≠ 34 :: rest := by
  cases s with
  | nil => simp [Units.replaceAll.go]
  | cons u s =>
    rw [escape_cons]
    split_ifs with h
    · simp
    · simpa using fun h' => absurd h' h

lemma unescape_escape (s : Units) :
    Units.replaceAll.go [92, 34] [34] 0 (Units.replaceAll.go [34] [92, 34] 0 s) = s := by
  induction s with
  | nil => rfl
  | cons u s ih =>
    rw [escape_cons]
    by_cases h : u = 34
    · subst h
      simpa [Units.replaceAll.go] using ih
    · have hne : ([92, 34] : Units).isPrefixOf (u :: Units.replaceAll.go [34] [92, 34] 0 s) =
          false := by
        rw [Bool.eq_false_iff]
        intro hprefix
        obtain ⟨rest, hrest⟩ := List.isPrefixOf_iff_prefix.mp hprefix
        exact head_escape_ne s rest (List.cons.inj hrest).2.symm
      simp [if_neg h, Units.replaceAll.go, hne, ih]

lemma literal_snd (content : Units) :
    (literal content).2 = 34 :: (content.replaceAll [34] [92, 34] ++ [34]) := rfl

/-- Reading a string literal undoes escaping it. -/
lemma unquote_literal (content : Units) : unquote (literal content).2 = content := by
  have hbody : ((literal content).2.drop 1).take ((literal content).2.length - 2) =
      content.replaceAll [34] [92, 34] := by
    simp [literal_snd]
  rw [unquote, hbody]
  exact unescape_escape content

/-! ### Every syntax tree is read -/

namespace ScriptGrammar

/-- The word that the tokens make up. -/
def word (tokens : List Lexed) : List (ℕ × ParseTreeNode) :=
  tokens.map fun t => ((ScriptParser.symbolTable.lookup t.1).getD 0, leaf t.2)

variable {a k X : ℕ} {us ws : List (ℕ × ParseTreeNode)} {vs : List ParseTreeNode}
  {v : ParseTreeNode} {Xs : List ℕ} {content : INode}

lemma word_append (ts us : List Lexed) : word (ts ++ us) = word ts ++ word us := List.map_append

/-- A word that is read as the symbol, with a node that holds the syntax tree. -/
def ReadsAs (X a : ℕ) (tokens : List Lexed) (content : INode) : Prop :=
  ∃ n, scriptGrammar.Reads [X] a (word tokens) [n] ∧ n.userContents = some content

/-- A production computes the syntax tree of its node. -/
lemma ReadsAs.of_rhs {tokens : List Lexed} {action : List ParseTreeNode → Option INode}
    (hk : k < 24) (hallowed : allowed k a = true)
    (haction : PActionDescription.actions[k]? = some action)
    (h : scriptGrammar.Reads (scriptGrammar.rhs k) a (word tokens) vs)
    (hcontent : action vs = some content) : ReadsAs (scriptGrammar.lhs k) a tokens content := by
  refine ⟨reduced k vs content, .of_rhs hk hallowed ?_ h, rfl⟩
  have hsem : semantics k vs = some (reduced k vs content) := by
    simp [semantics, haction, hcontent]
  exact hsem

lemma reads_token {t : Lexed} {ts : List Lexed} (ht : ScriptParser.symbolTable.lookup t.1 = some X)
    (hX : isToken X = true) (h : scriptGrammar.Reads Xs a (word ts) vs) :
    scriptGrammar.Reads (X :: Xs) a (word (t :: ts)) (leaf t.2 :: vs) := by
  rw [word, List.map_cons, ht]
  exact .token hX h

lemma reads_last (t : Lexed) (a : ℕ) (ht : ScriptParser.symbolTable.lookup t.1 = some X)
    (hX : isToken X = true) : scriptGrammar.Reads [X] a (word [t]) [leaf t.2] :=
  reads_token ht hX (.nil a)

lemma reads_append {ts us : List Lexed}
    (h : scriptGrammar.Reads [X] (Grammar.lookahead (word us) a) (word ts) [v])
    (h' : scriptGrammar.Reads Xs a (word us) vs) :
    scriptGrammar.Reads (X :: Xs) a (word (ts ++ us)) (v :: vs) := by
  rw [word_append]
  exact h.append h'

/-- A production other than the `if` without an `else` is complete in front of all other symbols
than `function`. -/
lemma allowed_of_ne (hk : k ≠ 22) (ha : a ≠ 10) : allowed k a = true := by
  simp [allowed, hk, ha]

open ParseTreeNode

lemma readsAs_consts (c : PConsts) (ha : a ≠ 10) : ReadsAs 6 a c.tokens (.constsNode c) := by
  cases c with
  | integer content =>
    exact .of_rhs (k := 9) (by decide) (allowed_of_ne (by decide) ha) rfl
      (reads_token (X := 15) rfl rfl (.nil a)) rfl
  | string content =>
    have hlen : ¬ (leaf (literal content).2).contents.length < 2 := by
      simp [leaf, contents, literal_snd]
    have hcontent : unquote (leaf (literal content).2).contents = content :=
      unquote_literal content
    exact .of_rhs (k := 10) (by decide) (allowed_of_ne (by decide) ha) rfl
      (reads_token (t := literal content) (X := 16) rfl rfl (.nil a))
      (by simp only [if_neg hlen, hcontent])

mutual

theorem readsAs_index : (i : PIndex) → i.proper = true → ∀ {a : ℕ}, a ≠ 10 →
    ReadsAs 7 a i.tokens (.indexNode i)
  | .ofVariable v, h, a, ha => by
    obtain ⟨n, hn, hv⟩ := readsAs_variable v (by simpa [PIndex.proper] using h) ha
    rw [PIndex.tokens]
    exact .of_rhs (k := 11) (by decide) (allowed_of_ne (by decide) ha) rfl hn
      (by simp [asVariable, hv])
  | .indexing i v, h, a, ha => by
    obtain ⟨hi, hv⟩ : i.proper = true ∧ v.proper = true := by simpa [PIndex.proper] using h
    obtain ⟨n, hn, hni⟩ := readsAs_index i hi (a := 13) (by decide)
    obtain ⟨m, hm, hmv⟩ := readsAs_variable v hv (a := 14) (by decide)
    rw [PIndex.tokens]
    have hrhs := reads_append hn (reads_token (t := mark "[") (X := 13) rfl rfl
      (reads_append hm (reads_last (mark "]") a (X := 14) rfl rfl)))
    exact .of_rhs (k := 12) (by decide) (allowed_of_ne (by decide) ha) rfl hrhs
      (by simp [asIndex, asVariable, hni, hmv])

theorem readsAs_variable : (v : PVariable) → v.proper = true → ∀ {a : ℕ}, a ≠ 10 →
    ReadsAs 8 a v.tokens (.variableNode v)
  | .name c, h, a, ha => by
    exact .of_rhs (k := 13) (by decide) (allowed_of_ne (by decide) ha) rfl
      (reads_token (X := 17) rfl rfl (.nil a)) rfl
  | .function f, h, a, ha => by
    obtain ⟨n, hn, hf⟩ := readsAs_function f (by simpa [PVariable.proper] using h) ha
    rw [PVariable.tokens]
    exact .of_rhs (k := 14) (by decide) (allowed_of_ne (by decide) ha) rfl hn
      (by simp [asFunction, hf])
  | .consts c, h, a, ha => by
    obtain ⟨n, hn, hc⟩ := readsAs_consts c ha
    rw [PVariable.tokens]
    exact .of_rhs (k := 15) (by decide) (allowed_of_ne (by decide) ha) rfl hn
      (by simp [asConsts, hc])
  | .null, h, a, ha => by simp [PVariable.proper] at h

theorem readsAs_function : (f : PFunction) → f.proper = true → ∀ {a : ℕ}, a ≠ 10 →
    ReadsAs 10 a f.tokens (.functionNode f)
  | .call name, h, a, ha => by
    exact .of_rhs (k := 18) (by decide) (allowed_of_ne (by decide) ha) rfl
      (reads_token (X := 17) rfl rfl (reads_token (X := 19) rfl rfl
        (reads_token (X := 20) rfl rfl (.nil a)))) rfl
  | .callWith name argument, h, a, ha => by
    obtain ⟨n, hn, hargument⟩ :=
      readsAs_argument argument (by simpa [PFunction.proper] using h) (a := 20) (by decide)
    rw [PFunction.tokens]
    have hrhs := reads_token (t := Lexed.name name) (X := 17) rfl rfl
      (reads_token (t := mark "(") (X := 19) rfl rfl
        (reads_append hn (reads_last (mark ")") a (X := 20) rfl rfl)))
    exact .of_rhs (k := 19) (by decide) (allowed_of_ne (by decide) ha) rfl hrhs
      (by simp [asArgument, hargument]; rfl)

theorem readsAs_argument : (argument : PArgument) → argument.proper = true → ∀ {a : ℕ}, a ≠ 10 →
    ReadsAs 9 a argument.tokens (.argumentNode argument)
  | .last i, h, a, ha => by
    obtain ⟨n, hn, hi⟩ := readsAs_index i (by simpa [PArgument.proper] using h) ha
    rw [PArgument.tokens]
    exact .of_rhs (k := 16) (by decide) (allowed_of_ne (by decide) ha) rfl hn
      (by simp [asIndex, hi])
  | .cons i argument, h, a, ha => by
    obtain ⟨hi, hargument⟩ : i.proper = true ∧ argument.proper = true := by
      simpa [PArgument.proper] using h
    obtain ⟨n, hn, hni⟩ := readsAs_index i hi (a := 18) (by decide)
    obtain ⟨m, hm, hma⟩ := readsAs_argument argument hargument ha
    rw [PArgument.tokens]
    exact .of_rhs (k := 17) (by decide) (allowed_of_ne (by decide) ha) rfl
      (reads_append hn (reads_token (X := 18) rfl rfl hm)) (by simp [asIndex, asArgument, hni, hma])

end

/-! The first token of a line is not `function` or `else`. -/

/-- The first token. -/
def Starts (tokens : List Lexed) : Prop :=
  ∃ X t ts, tokens = t :: ts ∧ ScriptParser.symbolTable.lookup t.1 = some X ∧ X ≠ 10 ∧ X ≠ 26

lemma Starts.append {ts : List Lexed} (h : Starts ts) (us : List Lexed) : Starts (ts ++ us) := by
  obtain ⟨X, t, ts, rfl, ht⟩ := h
  exact ⟨X, t, ts ++ us, rfl, ht⟩

lemma Starts.lookahead_ne {ts : List Lexed} (h : Starts ts) (a : ℕ) :
    Grammar.lookahead (word ts) a ≠ 10 ∧ Grammar.lookahead (word ts) a ≠ 26 := by
  obtain ⟨X, t, ts, rfl, ht, hX⟩ := h
  simpa [word, ht] using hX

lemma starts_function (f : PFunction) : Starts f.tokens := by
  cases f with
  | call name => exact ⟨17, _, _, rfl, rfl, by decide⟩
  | callWith name argument =>
    rw [PFunction.tokens]
    exact ⟨17, _, _, rfl, rfl, by decide⟩

lemma starts_index : (i : PIndex) → i.proper = true → Starts i.tokens
  | .ofVariable v, h => by
    rw [PIndex.tokens]
    cases v with
    | name c => exact ⟨17, _, _, rfl, rfl, by decide⟩
    | function f => exact starts_function f
    | consts c =>
      cases c with
      | integer content => exact ⟨15, _, _, rfl, rfl, by decide⟩
      | string content => exact ⟨16, _, _, rfl, rfl, by decide⟩
    | null => simp [PIndex.proper, PVariable.proper] at h
  | .indexing i v, h => by
    rw [PIndex.tokens]
    have hi : i.proper = true ∧ v.proper = true := by simpa [PIndex.proper] using h
    exact (starts_index i hi.1).append _

lemma starts_line {forbidden : PBlockEntry → Bool} (l : PLine) (h : l.proper forbidden = true) :
    Starts l.tokens := by
  obtain ⟨s⟩ := l
  rw [PLine.tokens]
  cases s with
  | sfunction f =>
    cases f with
    | none => simp [PLine.proper, PStatement.proper] at h
    | some f => exact starts_function f
  | sindex i j =>
    have hi : i.proper = true ∧ j.proper = true := by
      simpa [PLine.proper, PStatement.proper] using h
    exact (starts_index i hi.1).append _
  | srunnable r =>
    rw [PStatement.tokens]
    cases r <;> rw [PRunnable.tokens]
    · exact ⟨21, _, _, rfl, rfl, by decide⟩
    · exact ⟨23, _, _, rfl, rfl, by decide⟩
    · exact ⟨25, _, _, rfl, rfl, by decide⟩
    · exact ⟨25, _, _, rfl, rfl, by decide⟩

mutual

theorem readsAs_statement : (s : PStatement) → s.proper PBlockEntry.endsOpen = true →
    ∀ {a : ℕ}, a ≠ 10 → (s.endsOpen = true → a ≠ 26) → ReadsAs 3 a s.tokens (.statementNode s)
  | .sfunction none, h, a, ha, ho => by simp [PStatement.proper] at h
  | .sfunction (some f), h, a, ha, ho => by
    obtain ⟨n, hn, hf⟩ := readsAs_function f (by simpa [PStatement.proper] using h) ha
    rw [PStatement.tokens]
    exact .of_rhs (k := 2) (by decide) (allowed_of_ne (by decide) ha) rfl hn
      (by simp [asFunction, hf])
  | .sindex i j, h, a, ha, ho => by
    obtain ⟨hi, hj⟩ : i.proper = true ∧ j.proper = true := by simpa [PStatement.proper] using h
    obtain ⟨n, hn, hni⟩ := readsAs_index i hi (a := 12) (by decide)
    obtain ⟨m, hm, hmj⟩ := readsAs_index j hj ha
    rw [PStatement.tokens]
    exact .of_rhs (k := 3) (by decide) (allowed_of_ne (by decide) ha) rfl
      (reads_append hn (reads_token (X := 12) rfl rfl hm)) (by simp [asIndex, hni, hmj])
  | .srunnable r, h, a, ha, ho => by
    obtain ⟨n, hn, hr⟩ := readsAs_runnable r (by simpa [PStatement.proper] using h) ha
      (by simpa [PStatement.endsOpen] using ho)
    rw [PStatement.tokens]
    exact .of_rhs (k := 4) (by decide) (allowed_of_ne (by decide) ha) rfl hn
      (by simp [asRunnable, hr])

theorem readsAs_line : (l : PLine) → l.proper PBlockEntry.endsOpen = true →
    ∀ {a : ℕ}, a ≠ 10 → (l.endsOpen = true → a ≠ 26) → ReadsAs 2 a l.tokens (.lineNode l)
  | .mk s, h, a, ha, ho => by
    obtain ⟨n, hn, hs⟩ := readsAs_statement s (by simpa [PLine.proper] using h) ha
      (by simpa [PLine.endsOpen] using ho)
    rw [PLine.tokens]
    exact .of_rhs (k := 1) (by decide) (allowed_of_ne (by decide) ha) rfl hn
      (by simp [asStatement, hs])

/-- A block is read in front of its closing bracket. -/
theorem readsAs_block : (b : PBlock) → b.proper PBlockEntry.endsOpen = true →
    ReadsAs 5 14 b.tokens (.blockNode b) ∧ (b.tokens = [] ∨ Starts b.tokens)
  | .empty, h => by
    rw [PBlock.tokens]
    exact ⟨.of_rhs (k := 8) (by decide) (allowed_of_ne (by decide) (by decide)) rfl (.nil 14) rfl,
      .inl rfl⟩
  | .cons l b, h => by
    obtain ⟨hl, hb⟩ : l.proper PBlockEntry.endsOpen = true ∧
        b.proper PBlockEntry.endsOpen = true := by simpa [PBlock.proper] using h
    obtain ⟨⟨m, hm, hmb⟩, hstarts⟩ := readsAs_block b hb
    have hahead : Grammar.lookahead (word b.tokens) 14 ≠ 10 ∧
        Grammar.lookahead (word b.tokens) 14 ≠ 26 := by
      rcases hstarts with hnil | hstarts
      · rw [hnil]
        decide
      · exact hstarts.lookahead_ne 14
    obtain ⟨n, hn, hnl⟩ := readsAs_line l hl hahead.1 fun _ => hahead.2
    rw [PBlock.tokens]
    exact ⟨.of_rhs (k := 7) (by decide) (allowed_of_ne (by decide) (by decide)) rfl
      (reads_append hn hm) (by simp [asLine, asBlock, hnl, hmb]),
      .inr ((starts_line l hl).append _)⟩

theorem readsAs_blockEntry : (b : PBlockEntry) → b.proper PBlockEntry.endsOpen = true →
    ∀ {a : ℕ}, a ≠ 10 → (b.endsOpen = true → a ≠ 26) → ReadsAs 4 a b.tokens (.blockEntryNode b)
  | .innerBlock b, h, a, ha, ho => by
    obtain ⟨⟨n, hn, hb⟩, -⟩ := readsAs_block b (by simpa [PBlockEntry.proper] using h)
    rw [PBlockEntry.tokens]
    have hrhs := reads_token (t := mark "[") (X := 13) rfl rfl
      (reads_append hn (reads_last (mark "]") a (X := 14) rfl rfl))
    exact .of_rhs (k := 5) (by decide) (allowed_of_ne (by decide) ha) rfl hrhs
      (by simp [asBlock, hb])
  | .line l, h, a, ha, ho => by
    obtain ⟨n, hn, hl⟩ := readsAs_line l (by simpa [PBlockEntry.proper] using h) ha
      (by simpa [PBlockEntry.endsOpen] using ho)
    rw [PBlockEntry.tokens]
    exact .of_rhs (k := 6) (by decide) (allowed_of_ne (by decide) ha) rfl hn (by simp [asLine, hl])

theorem readsAs_runnable : (r : PRunnable) → r.proper PBlockEntry.endsOpen = true →
    ∀ {a : ℕ}, a ≠ 10 → (r.endsOpen = true → a ≠ 26) → ReadsAs 11 a r.tokens (.runnableNode r)
  | .sloop name i j b, h, a, ha, ho => by
    obtain ⟨⟨hi, hj⟩, hb⟩ : (i.proper = true ∧ j.proper = true) ∧
        b.proper PBlockEntry.endsOpen = true := by simpa [PRunnable.proper] using h
    obtain ⟨n, hn, hni⟩ := readsAs_index i hi (a := 22) (by decide)
    obtain ⟨m, hm, hmj⟩ := readsAs_index j hj (a := 20) (by decide)
    obtain ⟨o, hr, hob⟩ := readsAs_blockEntry b hb ha (by simpa [PRunnable.endsOpen] using ho)
    rw [PRunnable.tokens]
    have hrhs := reads_token (t := mark "loop") (X := 21) rfl rfl
      (reads_token (t := mark "(") (X := 19) rfl rfl
        (reads_token (t := Lexed.name name) (X := 17) rfl rfl
          (reads_token (t := mark "=") (X := 12) rfl rfl
            (reads_append hn (reads_token (t := mark "to") (X := 22) rfl rfl
              (reads_append hm (reads_token (t := mark ")") (X := 20) rfl rfl hr)))))))
    exact .of_rhs (k := 20) (by decide) (allowed_of_ne (by decide) ha) rfl hrhs
      (by simp [asIndex, asBlockEntry, hni, hmj, hob]; rfl)
  | .sforeach name i b, h, a, ha, ho => by
    obtain ⟨hi, hb⟩ : i.proper = true ∧ b.proper PBlockEntry.endsOpen = true := by
      simpa [PRunnable.proper] using h
    obtain ⟨n, hn, hni⟩ := readsAs_index i hi (a := 20) (by decide)
    obtain ⟨o, hr, hob⟩ := readsAs_blockEntry b hb ha (by simpa [PRunnable.endsOpen] using ho)
    rw [PRunnable.tokens]
    have hrhs := reads_token (t := mark "foreach") (X := 23) rfl rfl
      (reads_token (t := mark "(") (X := 19) rfl rfl
        (reads_token (t := Lexed.name name) (X := 17) rfl rfl
          (reads_token (t := mark ":") (X := 24) rfl rfl
            (reads_append hn (reads_token (t := mark ")") (X := 20) rfl rfl hr)))))
    exact .of_rhs (k := 21) (by decide) (allowed_of_ne (by decide) ha) rfl hrhs
      (by simp [asIndex, asBlockEntry, hni, hob]; rfl)
  | .sif i b, h, a, ha, ho => by
    obtain ⟨hi, hb⟩ : i.proper = true ∧ b.proper PBlockEntry.endsOpen = true := by
      simpa [PRunnable.proper] using h
    have h26 : a ≠ 26 := ho (by rw [PRunnable.endsOpen])
    obtain ⟨n, hn, hni⟩ := readsAs_index i hi (a := 20) (by decide)
    obtain ⟨o, hr, hob⟩ := readsAs_blockEntry b hb ha fun _ => h26
    rw [PRunnable.tokens]
    have hrhs := reads_token (t := mark "if") (X := 25) rfl rfl
      (reads_token (t := mark "(") (X := 19) rfl rfl
        (reads_append hn (reads_token (t := mark ")") (X := 20) rfl rfl hr)))
    exact .of_rhs (k := 22) (by decide) (by simp [allowed, ha, h26]) rfl hrhs
      (by simp [asIndex, asBlockEntry, hni, hob])
  | .sifelse i b e, h, a, ha, ho => by
    obtain ⟨⟨⟨hi, hb⟩, hclosed⟩, he⟩ : ((i.proper = true ∧
        b.proper PBlockEntry.endsOpen = true) ∧ b.endsOpen = false) ∧
          e.proper PBlockEntry.endsOpen = true := by simpa [PRunnable.proper] using h
    obtain ⟨n, hn, hni⟩ := readsAs_index i hi (a := 20) (by decide)
    -- the branch in front of `else` is closed
    obtain ⟨o, hr, hob⟩ := readsAs_blockEntry b hb (a := 26) (by decide) (by simp [hclosed])
    obtain ⟨q, hs, hqe⟩ := readsAs_blockEntry e he ha (by simpa [PRunnable.endsOpen] using ho)
    rw [PRunnable.tokens]
    have hrhs := reads_token (t := mark "if") (X := 25) rfl rfl
      (reads_token (t := mark "(") (X := 19) rfl rfl
        (reads_append hn (reads_token (t := mark ")") (X := 20) rfl rfl
          (reads_append hr (reads_token (t := mark "else") (X := 26) rfl rfl hs)))))
    exact .of_rhs (k := 23) (by decide) (allowed_of_ne (by decide) ha) rfl hrhs
      (by simp [asIndex, asBlockEntry, hni, hob, hqe])

end

/-- A string literal of a script has its quotes. -/
lemma fits_of_reads (h : scriptGrammar.Reads [1] a us [v]) (hus : ∀ t ∈ us, ∃ c, t.2 = leaf c) :
    ∀ t ∈ us, Fits t.1 t.2 := by
  have hlen := h.forall_mem (P := fun X n => X = 16 → 2 ≤ n.contents.length)
    (fun k hk ws w hsem e he hX h16 => ?_) (fun e he hX => ?_)
  · intro t ht
    obtain ⟨c, hc⟩ := hus t ht
    have htoken : isToken t.1 = true := h.token_of_mem t ht
    rw [hc]
    exact fits_leaf htoken fun h16 => by simpa [hc, leaf, contents] using hlen t ht h16
  · have h10 : ∀ k < 24, 16 ∈ scriptGrammar.rhs k → k = 10 := by decide +kernel
    obtain rfl : k = 10 := h10 k hk (h16 ▸ List.of_mem_zip he |>.1)
    cases ws with
    | nil => cases he
    | cons c ws =>
      have hec : e = (16, c) := by simpa [scriptGrammar, productions] using he
      obtain ⟨content, hcontent, -⟩ := Option.map_eq_some_iff.mp hsem
      cases ws with
      | nil =>
        rw [hec]
        by_contra hlt
        have hshort : c.contents.length < 2 := not_le.mp hlt
        have hnone : (if c.contents.length < 2 then none
            else some (INode.constsNode (.string (unquote c.contents)))) = some content := hcontent
        rw [if_pos hshort] at hnone
        cases hnone
      | cons d ws => simp [PActionDescription.actions] at hcontent
  · obtain rfl := List.mem_singleton.mp he
    cases hX

end ScriptGrammar

namespace ScriptCache

open ScriptGrammar

/-- Tokens are inserted one after the other. -/
def insertAll (fuel : ℕ) :
    ShiftReduceParser → List Token → Option (Except CompileError ShiftReduceParser)
  | p, [] => some (.ok p)
  | p, tk :: tks =>
    match insert fuel p tk with
    | none => none
    | some (.error e) => some (.error e)
    | some (.ok p) => insertAll fuel p tks

/-- The tokens and the end marker are fed to the parser. -/
def parse (fuel : ℕ) (tks : List Token) : Option (Except CompileError ParseTreeNode) :=
  match insertAll fuel .init tks with
  | none => none
  | some (.error e) => some (.error e)
  | some (.ok p) => finish fuel p

variable {st : Stack ParseTreeNode} {us ts : List (ℕ × ParseTreeNode)} {p : ShiftReduceParser}
  {tks : List Token} {tree : ParseTreeNode}

lemma insertAll_le {fuel fuel' : ℕ} {r : Except CompileError ShiftReduceParser}
    (h : insertAll fuel p tks = some r) (hle : fuel ≤ fuel') : insertAll fuel' p tks = some r := by
  induction tks generalizing p with
  | nil => exact h
  | cons tk tks ih =>
    rw [insertAll] at h ⊢
    cases hins : insert fuel p tk with
    | none => simp [hins] at h
    | some q =>
      simp only [hins, insert_le hins hle] at h ⊢
      cases q with
      | error e => exact h
      | ok p' => exact ih h

lemma parse_le {fuel fuel' : ℕ} {r : Except CompileError ParseTreeNode}
    (h : parse fuel tks = some r) (hle : fuel ≤ fuel') : parse fuel' tks = some r := by
  rw [parse] at h ⊢
  cases hins : insertAll fuel .init tks with
  | none => simp [hins] at h
  | some q =>
    simp only [hins, insertAll_le hins hle] at h ⊢
    cases q with
    | error e => exact h
    | ok p => exact finish_le h hle

/-- The tokens of a script are shifted. -/
lemma exists_insertAll (hreads : IsScript (us ++ ts) tree) (hword : wordOf tks = some ts)
    (hfits : ∀ t ∈ ts, Fits t.1 t.2) (h : Reached st us) (hp : Holds p st) :
    ∃ fuel p' st', insertAll fuel p tks = some (.ok p') ∧ Reached st' (us ++ ts) ∧
      Holds p' st' := by
  induction tks generalizing st us ts p with
  | nil =>
    obtain rfl := Option.some.inj hword
    exact ⟨0, p, st, rfl, by rwa [List.append_nil], hp⟩
  | cons tk tks ih =>
    cases hX : symbol? tk with
    | none => simp [wordOf, hX] at hword
    | some X =>
      rw [wordOf_cons hX] at hword
      obtain ⟨ts', hword', rfl⟩ := Option.map_eq_some_iff.mp hword
      have htoken : isToken X = true :=
        hreads.token_of_mem (X, leaf tk.contents) (by simp)
      obtain ⟨fuel, ⟨st₁, hins, hreached⟩ | ⟨-, hfeed⟩⟩ :=
        insert_token h hp hX htoken (hfits _ List.mem_cons_self)
      · rw [List.append_cons] at hreads ⊢
        obtain ⟨fuel', p', st', hins', hrest⟩ := ih hreads hword'
          (fun t ht => hfits t (List.mem_cons_of_mem _ ht)) hreached (holds_holding st₁ false)
        refine ⟨max fuel fuel', p', st', ?_, hrest⟩
        simp only [insertAll, insert_le hins (Nat.le_max_left fuel fuel')]
        exact insertAll_le hins' (Nat.le_max_right _ _)
      · exact absurd ⟨[], tree, by simpa using hreads⟩ (not_viable_of_rejected h hfeed)

/-- The parser builds the tree of a script. -/
theorem exists_parse (hreads : IsScript ts tree) (hword : wordOf tks = some ts)
    (hfits : ∀ t ∈ ts, Fits t.1 t.2) : ∃ fuel, parse fuel tks = some (.ok tree) := by
  obtain ⟨fuel, p, st, hins, hreached, hp⟩ :=
    exists_insertAll (List.nil_append ts ▸ hreads) hword hfits .nil holds_init
  obtain ⟨fuel', hfinish⟩ := finish_of_isScript hreached hp hreads
  refine ⟨max fuel fuel', ?_⟩
  simp only [parse, insertAll_le hins (Nat.le_max_left fuel fuel')]
  exact finish_le hfinish (Nat.le_max_right _ _)

/-- The names and contents of the tokens. -/
def lexed (tks : List Token) : List Lexed := tks.map fun tk => (tk.name, tk.contents)

lemma wordOf_eq_word (h : ∀ t ∈ word (lexed tks), isToken t.1 = true) :
    wordOf tks = some (word (lexed tks)) := by
  induction tks with
  | nil => rfl
  | cons tk tks ih =>
    have htoken : isToken ((ScriptParser.symbolTable.lookup tk.name).getD 0) = true :=
      h _ List.mem_cons_self
    have hrest := ih fun t ht => h t (List.mem_cons_of_mem _ ht)
    cases hX : ScriptParser.symbolTable.lookup tk.name with
    | none =>
      rw [hX] at htoken
      cases htoken
    | some X =>
      rw [wordOf_cons hX, hrest]
      simp [lexed, word, hX]

/-- The tokens of the syntax tree, wherever they stand in the text, are parsed without an error, and
the parser builds this syntax tree. -/
def Builds (b : PBlockEntry) : Prop :=
  ∀ tks, lexed tks = b.tokens →
    ∃ fuel tree, parse fuel tks = some (.ok tree) ∧ tree.userContents = some (.blockEntryNode b)

/-- The tokens of a syntax tree are a script with this syntax tree. -/
lemma exists_isScript (b : PBlockEntry) (h : b.proper PBlockEntry.endsOpen = true) :
    ∃ tree, IsScript (word b.tokens) tree ∧ tree.userContents = some (.blockEntryNode b) := by
  obtain ⟨n, hn, hb⟩ := readsAs_blockEntry b h (a := 27) (by decide) fun _ => by decide
  obtain ⟨tree, hreads, htree⟩ : ReadsAs 1 27 b.tokens (.blockEntryNode b) :=
    .of_rhs (k := 0) (by decide) (allowed_of_ne (by decide) (by decide)) rfl hn (by simp [hb])
  exact ⟨tree, hreads, htree⟩

/-- Parsing undoes printing, when no branch in front of an `else` ends in an `if` without one. -/
theorem builds_of_proper (b : PBlockEntry) (h : b.proper PBlockEntry.endsOpen = true) :
    Builds b := by
  intro tks htks
  obtain ⟨tree, hreads, htree⟩ := exists_isScript b h
  rw [← htks] at hreads
  have hword := wordOf_eq_word fun t ht => hreads.token_of_mem t ht
  have hleaf : ∀ t ∈ word (lexed tks), ∃ c, t.2 = leaf c := by
    intro t ht
    obtain ⟨l, -, rfl⟩ := List.mem_map.mp ht
    exact ⟨l.2, rfl⟩
  obtain ⟨fuel, hparse⟩ := exists_parse hreads hword (fits_of_reads hreads hleaf)
  exact ⟨fuel, tree, hparse, htree⟩

/-- `if (a) f() else g()` -/
theorem builds_ifelse : Builds (.line (.mk (.srunnable (.sifelse (.ofVariable (.name (units "a")))
    (.line (.mk (.sfunction (some (.call (units "f"))))))
    (.line (.mk (.sfunction (some (.call (units "g")))))))))) :=
  builds_of_proper _ (by decide)

/-- The call of a function without arguments. -/
def callOf (name : String) : PBlockEntry := .line (.mk (.sfunction (some (.call (units name)))))

/-- `loop (i = 1 to 2)` with a conditional as its body. -/
def loopOf (body : PRunnable) : PBlockEntry :=
  .line (.mk (.srunnable (.sloop (units "i") (.ofVariable (.consts (.integer (units "1"))))
    (.ofVariable (.consts (.integer (units "2")))) (.line (.mk (.srunnable body))))))

/-- `if (a) loop (i = 1 to 2) if (b) f() else g()`, with the `else` at the first `if`. -/
def outerElse : PBlockEntry :=
  .line (.mk (.srunnable (.sifelse (.ofVariable (.name (units "a")))
    (loopOf (.sif (.ofVariable (.name (units "b"))) (callOf "f"))) (callOf "g"))))

/-- The same text, with the `else` at the second `if`. -/
def innerElse : PBlockEntry :=
  .line (.mk (.srunnable (.sif (.ofVariable (.name (units "a")))
    (loopOf (.sifelse (.ofVariable (.name (units "b"))) (callOf "f") (callOf "g"))))))

/-- The `else` behind a loop belongs to the `if` in the body of the loop. -/
theorem not_builds_outerElse :
    ¬ ∀ b : PBlockEntry, b.proper PBlockEntry.isIf = true → Builds b := by
  intro h
  obtain ⟨fuel, tree, hparse, htree⟩ :=
    h outerElse (by decide) (outerElse.tokens.map fun t => ⟨t.1, t.2, 0, 0⟩) (by decide)
  have hinner : ((parse 60 (outerElse.tokens.map fun t => ⟨t.1, t.2, 0, 0⟩)).bind fun r =>
      r.toOption.bind ParseTreeNode.userContents) = some (.blockEntryNode innerElse) := by
    decide +kernel
  obtain ⟨r, hr, hcontents⟩ := Option.bind_eq_some_iff.mp hinner
  have heq : Except.ok tree = r := by
    have h₁ := parse_le hparse (Nat.le_max_left fuel 60)
    have h₂ := parse_le hr (Nat.le_max_right fuel 60)
    exact Option.some.inj (h₁.symm.trans h₂)
  subst heq
  have hsame := htree.symm.trans hcontents
  exact absurd hsame (by decide)

end ScriptCache

end Violet
