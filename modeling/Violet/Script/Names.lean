import Violet.Script.Reading
import Violet.Script.Unparsing

/-!
# Names of tokens

The scanner tells the keywords and marks by the nodes that their texts lead to, and no other text
leads there. So the name of a token is told by its contents, and a script has the syntax tree whose
tokens are the ones of its reading.
-/

namespace Violet

open Dart Parsing Lexed

namespace ScriptLexer

/-- The only text that leads to a node, if there is one. -/
def paths : List (Option String) :=
  [some "", none, none, some "=", some "[", some "]", some "v", some ":", some ",", some "(",
   some ")", some "l", some "f", some "i", some "t", some "e", none, none, none, none, some "va",
   some "lo", some "fo", some "fu", some "if", some "to", some "el", none, none, none, some "var",
   some "loo", some "for", some "fun", some "els", some "loop", some "fore", some "func",
   some "else", some "forea", some "funct", some "foreac", some "functi", some "foreach",
   some "functio", some "function"]

def path (node : ℕ) : Option Units := (paths.getD node none).map units

/-- The range into a node with one text leads there from a node with one text, by one unit. -/
lemma rows_paths : ((List.range 46).all fun node => (rows.getD node []).all fun r =>
    (path r.node).all fun text => r.first = r.last &&
      ((path node).map fun s => s ++ [UInt16.ofNat r.first.toNat]) = some text) = true := by
  decide +kernel

variable {node n : ℕ} {u : UInt16} {contents text : Units}

lemma next?_eq_entry (hnode : node < 46) (hu : u.toNat < 256) :
    scriptLexer.next? node u = entry (rows.getD node []) u.toNat := by
  have hrows : node < rows.length := hnode
  simp [LexerTables.next?, scriptLexer, transitionTable, hrows, hu]

lemma lt_of_next? (hn : scriptLexer.next? node u = some n) : u.toNat < 256 := by
  by_contra hu
  have hcol (row : List TransitionRange) : ((List.range 256).map (entry row))[u.toNat]? = none := by
    simpa using not_lt.mp hu
  cases hrow : scriptLexer.transitionTable[node]? with
  | none => simp [LexerTables.next?, hrow] at hn
  | some row =>
    obtain ⟨ranges, -, rfl⟩ := List.mem_map.mp (List.mem_of_getElem? hrow)
    simp [LexerTables.next?, hrow, hcol] at hn

/-- The automaton follows the nodes. -/
lemma map_part_foldlM (hnode : node < 46) (hu : ∀ u ∈ contents, u.toNat < 256) :
    (contents.foldlM scriptLexer.next? node).map part = (part node).run contents := by
  induction contents generalizing node with
  | nil => rfl
  | cons u s ih =>
    rw [Part.run_cons, ← map_part_next? hnode (hu u List.mem_cons_self), List.foldlM_cons]
    cases hn : scriptLexer.next? node u with
    | none => rfl
    | some n =>
      exact ih (complete.next?_eq_some hn).2 fun v hv => hu v (List.mem_cons_of_mem u hv)

end ScriptLexer

open ScriptLexer

variable {node n : ℕ} {u : UInt16} {contents text : Units}

lemma nodeOf_concat (contents : Units) (u : UInt16) :
    nodeOf (contents ++ [u]) = (nodeOf contents).bind fun node => scriptLexer.next? node u := by
  rw [nodeOf, List.foldlM_append]
  cases hn : contents.foldlM scriptLexer.next? 0 <;> simp [nodeOf, hn]

lemma lt_of_nodeOf (h : nodeOf contents = some node) :
    node < 46 ∧ ∀ u ∈ contents, u.toNat < 256 := by
  induction contents using List.reverseRecOn generalizing node with
  | nil =>
    obtain rfl := Option.some.inj h
    exact ⟨Nat.zero_lt_succ _, by simp⟩
  | append_singleton s u ih =>
    rw [nodeOf_concat] at h
    obtain ⟨m, hm, hn⟩ := Option.bind_eq_some_iff.mp h
    refine ⟨(complete.next?_eq_some hn).2, fun v hv => ?_⟩
    rcases List.mem_append.mp hv with hv | hv
    · exact (ih hm).2 v hv
    · rw [List.mem_singleton.mp hv]
      exact lt_of_next? hn

lemma map_part_nodeOf (hu : ∀ u ∈ contents, u.toNat < 256) :
    (nodeOf contents).map part = Part.start.run contents :=
  map_part_foldlM (Nat.zero_lt_succ _) hu

lemma run_of_nodeOf (h : nodeOf contents = some node) :
    Part.start.run contents = some (part node) := by
  rw [← map_part_nodeOf (lt_of_nodeOf h).2, h]
  rfl

/-- A node with one text is led to by this text. -/
theorem eq_of_path (h : nodeOf contents = some node) (htext : path node = some text) :
    contents = text := by
  induction contents using List.reverseRecOn generalizing node text with
  | nil =>
    obtain rfl := Option.some.inj h
    exact Option.some.inj htext
  | append_singleton s u ih =>
    rw [nodeOf_concat] at h
    obtain ⟨m, hm, hn⟩ := Option.bind_eq_some_iff.mp h
    have hlt := (lt_of_nodeOf hm).1
    rw [next?_eq_entry hlt (lt_of_next? hn)] at hn
    obtain ⟨r, hfind, rfl⟩ := Option.map_eq_some_iff.mp hn
    have hrow := List.all_eq_true.mp rows_paths m (List.mem_range.mpr hlt)
    have hrange := List.all_eq_true.mp hrow r (List.mem_of_find?_eq_some hfind)
    rw [htext, Option.all_some, Bool.and_eq_true, decide_eq_true_eq, decide_eq_true_eq] at hrange
    obtain ⟨hlast, hpath⟩ := hrange
    obtain ⟨s', hs', rfl⟩ := Option.map_eq_some_iff.mp hpath
    have hbounds := List.find?_some (p := fun r : TransitionRange =>
      decide (r.first.toNat ≤ u.toNat) && decide (u.toNat ≤ r.last.toNat)) hfind
    rw [Bool.and_eq_true, decide_eq_true_eq, decide_eq_true_eq, ← hlast] at hbounds
    rw [ih hm hs', Nat.le_antisymm hbounds.1 hbounds.2, UInt16.ofNat_toNat]

/-! ### String literals -/

/-- A string literal is not entered from another lexeme. -/
lemma Part.enters_stringEnd {p : Part} {s : Units} (h : p.run s = some .stringEnd) :
    p = .start ∨ p = .string ∨ p = .escape ∨ p = .stringEnd := by
  induction s generalizing p with
  | nil => exact .inr (.inr (.inr (Option.some.inj h)))
  | cons u s ih =>
    obtain ⟨q, hq, hrest⟩ := Option.bind_eq_some_iff.mp h
    have hnext := ih hrest
    clear ih h hrest
    cases p <;> simp only [step] at hq <;> (try split_ifs at hq) <;> simp at hq <;>
      subst hq <;> simp at hnext ⊢

lemma Part.escaped_of_stringEnd {s : Units} (h : Part.start.run s = some .stringEnd) :
    ∃ body, Escaped body ∧ s = 34 :: (body ++ [34]) := by
  cases s with
  | nil => cases h
  | cons u s =>
    obtain ⟨q, hq, hrest⟩ := Option.bind_eq_some_iff.mp h
    rw [step] at hq
    by_cases hquote : u = 34
    · subst hquote
      obtain rfl := Option.some.inj hq
      obtain ⟨body, hbody, rfl⟩ := (string_of_run s).1 _ hrest rfl
      exact ⟨body, hbody, rfl⟩
    · have hnext := enters_stringEnd hrest
      simp only [hquote, if_false] at hq
      split_ifs at hq <;> obtain rfl := Option.some.inj hq <;> simp at hnext

/-- What stands between the quotes of a literal is an escaped text. -/
lemma exists_escape {body : Units} (h : Escaped body) :
    ∃ content : Units, body = content.replaceAll [34] [92, 34] := by
  induction h with
  | nil => exact ⟨[], rfl⟩
  | @plain u s hquote hslash _ ih =>
    obtain ⟨content, rfl⟩ := ih
    refine ⟨u :: content, ?_⟩
    have hcons := escape_cons u content
    rw [if_neg hquote] at hcons
    exact hcons.symm
  | quote _ ih =>
    obtain ⟨content, rfl⟩ := ih
    exact ⟨34 :: content, (escape_cons 34 content).symm⟩

/-- The text of a literal is the one that is printed for its content. -/
lemma literal_unquote {s : Units} (h : Part.start.run s = some .stringEnd) :
    (literal (unquote s)).2 = s := by
  obtain ⟨body, hbody, rfl⟩ := Part.escaped_of_stringEnd h
  obtain ⟨content, rfl⟩ := exists_escape hbody
  exact congrArg (fun c => (literal c).2) (unquote_literal content)

/-! ### The symbols of tokens -/

/-- The token of a text, wherever it stands. -/
def tokenOf (contents : Units) : Token :=
  ⟨((nodeOf contents).bind scriptLexer.name?).getD [], contents, 0, 0⟩

/-- The word that tokens with these texts make up. -/
def spell (texts : List Units) : Option (List (ℕ × ParseTreeNode)) :=
  ScriptCache.wordOf (texts.map tokenOf)

namespace ScriptGrammar

open ScriptCache

/-- A keyword or a mark has the only text of its symbol. -/
lemma nodes_spell : ((List.range 46).all fun node => ((scriptLexer.name? node).bind fun name =>
    ScriptParser.symbolTable.lookup name).all fun X =>
      X = 15 || X = 17 || (X = 16 && part node = .stringEnd) ||
        (path node = some (units (symbolText X)) && X ∈ [10, 12, 13, 14, 18, 19, 20, 21, 22, 23, 24,
          25, 26] && ScriptParser.symbolTable.lookup (symbolText X).toList = some X)) = true := by
  decide +kernel

lemma exists_node_of_symbol {X : ℕ} (hX : symbol? (tokenOf contents) = some X) :
    ∃ node name, nodeOf contents = some node ∧ scriptLexer.name? node = some name ∧
      ScriptParser.symbolTable.lookup name = some X := by
  have hlookup : ScriptParser.symbolTable.lookup (tokenOf contents).name = some X := hX
  rw [tokenOf] at hlookup
  cases hname : (nodeOf contents).bind scriptLexer.name? with
  | none =>
    rw [hname] at hlookup
    cases hlookup
  | some name =>
    rw [hname] at hlookup
    obtain ⟨node, hnode, hname⟩ := Option.bind_eq_some_iff.mp hname
    exact ⟨node, name, hnode, hname, hlookup⟩

/-- The text of a token is the one that its symbol prints. -/
lemma spells_of_symbol {X : ℕ} (hX : symbol? (tokenOf contents) = some X) :
    Spells X (leaf contents) [(X, leaf contents)] := by
  obtain ⟨node, name, hnode, hname, hlookup⟩ := exists_node_of_symbol hX
  have hcheck := List.all_eq_true.mp nodes_spell node (List.mem_range.mpr (lt_of_nodeOf hnode).1)
  rw [hname, Option.bind_some, hlookup, Option.all_some] at hcheck
  simp only [Bool.or_eq_true, Bool.and_eq_true, decide_eq_true_eq] at hcheck
  obtain ((rfl | rfl) | ⟨rfl, hpart⟩) | ⟨⟨hpath, hmem⟩, hsymbol⟩ := hcheck
  · rfl
  · rfl
  · have hrun := run_of_nodeOf hnode
    rw [hpart] at hrun
    change _ = word [literal (unquote contents)]
    rw [word, List.map_singleton, literal_unquote hrun]
    rfl
  · have htext := eq_of_path hnode hpath
    have hword : [(X, leaf contents)] = word [mark (symbolText X)] := by
      rw [word, List.map_singleton, mark, hsymbol, htext]
      rfl
    simp only [List.mem_cons, List.not_mem_nil, or_false] at hmem
    obtain rfl | rfl | rfl | rfl | rfl | rfl | rfl | rfl | rfl | rfl | rfl | rfl | rfl := hmem
    case inl => exact .inl ⟨rfl, hword⟩
    all_goals exact hword

lemma spells_of_spell {texts : List Units} {ts : List (ℕ × ParseTreeNode)}
    (hts : spell texts = some ts) : ∀ t ∈ ts, Spells t.1 t.2 [t] := by
  induction texts generalizing ts with
  | nil =>
    obtain rfl := Option.some.inj hts
    simp
  | cons contents texts ih =>
    rw [spell, List.map_cons] at hts
    cases hX : symbol? (tokenOf contents) with
    | none => simp [wordOf, hX] at hts
    | some X =>
      rw [wordOf_cons hX] at hts
      obtain ⟨us, hus, rfl⟩ := Option.map_eq_some_iff.mp hts
      exact List.forall_mem_cons.mpr ⟨spells_of_symbol hX, ih hus⟩

/-- A script is told by the syntax tree that is built of it. -/
theorem word_of_isScript {texts : List Units} {ts : List (ℕ × ParseTreeNode)}
    {tree : ParseTreeNode} (hts : spell texts = some ts) (h : IsScript ts tree) :
    ∃ b, tree.userContents = some (.blockEntryNode b) ∧ ts = word b.tokens :=
  (spellsAll_of_reads h (spells_of_spell hts)).append_nil

end ScriptGrammar

end Violet
