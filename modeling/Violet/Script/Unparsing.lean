import Violet.Script.Printing

/-!
# Printing undoes parsing

The tokens of the syntax tree that the parser has built are the ones that it was given. So two texts
have the same syntax tree only when they have the same tokens.
-/

namespace Violet

open Dart Parsing Lexed

namespace ScriptGrammar

variable {k X : ℕ} {us ts : List (ℕ × ParseTreeNode)} {vs : List ParseTreeNode}
  {v n : ParseTreeNode} {Xs : List ℕ} {a : ℕ}

/-! ### The word of a node -/

/-- The text of a symbol that has only one. -/
def symbolText : ℕ → String
  | 10 => "function"
  | 12 => "="
  | 13 => "["
  | 14 => "]"
  | 18 => ","
  | 19 => "("
  | 20 => ")"
  | 21 => "loop"
  | 22 => "to"
  | 23 => "foreach"
  | 24 => ":"
  | 25 => "if"
  | 26 => "else"
  | _ => ""

/-- The word is the one of the syntax tree that the node of the symbol holds. -/
def Spells (X : ℕ) (n : ParseTreeNode) (us : List (ℕ × ParseTreeNode)) : Prop :=
  match X with
  | 1 | 4 => ∃ b, n.userContents = some (.blockEntryNode b) ∧ us = word b.tokens
  | 2 => ∃ l, n.userContents = some (.lineNode l) ∧ us = word l.tokens
  | 3 => ∃ s, n.userContents = some (.statementNode s) ∧ us = word s.tokens
  | 5 => ∃ b, n.userContents = some (.blockNode b) ∧ us = word b.tokens
  | 6 => ∃ c, n.userContents = some (.constsNode c) ∧ us = word c.tokens
  | 7 => ∃ i, n.userContents = some (.indexNode i) ∧ us = word i.tokens
  | 8 => ∃ v, n.userContents = some (.variableNode v) ∧ us = word v.tokens
  | 9 => ∃ a, n.userContents = some (.argumentNode a) ∧ us = word a.tokens
  | 10 => (n.userContents = none ∧ us = word [mark "function"]) ∨
      ∃ f, n.userContents = some (.functionNode f) ∧ us = word f.tokens
  | 11 => ∃ r, n.userContents = some (.runnableNode r) ∧ us = word r.tokens
  | 15 => us = word [("number".toList, n.contents)]
  | 16 => us = word [literal (unquote n.contents)]
  | 17 => us = word [Lexed.name n.contents]
  | X => us = word [mark (symbolText X)]

/-- The words of the nodes of some symbols, one after the other. -/
inductive SpellsAll : List ℕ → List ParseTreeNode → List (ℕ × ParseTreeNode) → Prop where
  | nil : SpellsAll [] [] []
  | cons {X : ℕ} {n : ParseTreeNode} {us : List (ℕ × ParseTreeNode)} {Xs : List ℕ}
      {ns : List ParseTreeNode} {ts : List (ℕ × ParseTreeNode)} (h : Spells X n us)
      (hrest : SpellsAll Xs ns ts) : SpellsAll (X :: Xs) (n :: ns) (us ++ ts)

open ParseTreeNode

/-- The node that a production has built holds what its action returns. -/
lemma userContents_of_semantics {action : List ParseTreeNode → Option INode} {content : INode}
    (hsem : semantics k vs = some v) (haction : PActionDescription.actions[k]? = some action)
    (hcontent : action vs = some content) : v.userContents = some content := by
  rw [semantics, haction, Option.bind_some, hcontent] at hsem
  cases hsem
  rfl

theorem spells_of_rhs (hk : k < 24) (hsem : semantics k vs = some v)
    (h : SpellsAll (scriptGrammar.rhs k) vs us) : Spells (scriptGrammar.lhs k) v us := by
  interval_cases k
  · -- script -> block_entry
    obtain _ | ⟨⟨b, hb, rfl⟩, ⟨⟩⟩ := h
    exact ⟨b, userContents_of_semantics hsem rfl (by simp [hb]), by simp⟩
  · -- line -> stmt
    obtain _ | ⟨⟨s, hs, rfl⟩, ⟨⟩⟩ := h
    exact ⟨.mk s, userContents_of_semantics hsem rfl (by simp [asStatement, hs]),
      by simp [PLine.tokens]⟩
  · -- stmt -> function
    obtain _ | ⟨⟨hnone, rfl⟩ | ⟨f, hf, rfl⟩, ⟨⟩⟩ := h
    · exact ⟨.sfunction none, userContents_of_semantics hsem rfl (by simp [asFunction, hnone]),
        by simp [PStatement.tokens]⟩
    · exact ⟨.sfunction (some f), userContents_of_semantics hsem rfl (by simp [asFunction, hf]),
        by simp [PStatement.tokens]⟩
  · -- stmt -> index = index
    obtain _ | ⟨⟨i, hi, rfl⟩, _ | ⟨rfl, _ | ⟨⟨j, hj, rfl⟩, ⟨⟩⟩⟩⟩ := h
    exact ⟨.sindex i j, userContents_of_semantics hsem rfl (by simp [asIndex, hi, hj]),
      by simp [PStatement.tokens, word, symbolText]⟩
  · -- stmt -> runnable
    obtain _ | ⟨⟨r, hr, rfl⟩, ⟨⟩⟩ := h
    exact ⟨.srunnable r, userContents_of_semantics hsem rfl (by simp [asRunnable, hr]),
      by simp [PStatement.tokens]⟩
  · -- block_entry -> [ block ]
    obtain _ | ⟨rfl, _ | ⟨⟨b, hb, rfl⟩, _ | ⟨rfl, ⟨⟩⟩⟩⟩ := h
    exact ⟨.innerBlock b, userContents_of_semantics hsem rfl (by simp [asBlock, hb]),
      by simp [PBlockEntry.tokens, word, symbolText]⟩
  · -- block_entry -> line
    obtain _ | ⟨⟨l, hl, rfl⟩, ⟨⟩⟩ := h
    exact ⟨.line l, userContents_of_semantics hsem rfl (by simp [asLine, hl]),
      by simp [PBlockEntry.tokens]⟩
  · -- block -> line block
    obtain _ | ⟨⟨l, hl, rfl⟩, _ | ⟨⟨b, hb, rfl⟩, ⟨⟩⟩⟩ := h
    exact ⟨.cons l b, userContents_of_semantics hsem rfl (by simp [asBlock, asLine, hl, hb]),
      by simp [PBlock.tokens, word]⟩
  · -- block ->
    obtain ⟨⟩ := h
    exact ⟨.empty, userContents_of_semantics hsem rfl rfl, by simp [PBlock.tokens, word]⟩
  · -- consts -> number
    obtain _ | ⟨rfl, ⟨⟩⟩ := h
    exact ⟨.integer _, userContents_of_semantics hsem rfl rfl, by simp [PConsts.tokens]⟩
  · -- consts -> string
    obtain _ | @⟨_, c, _, _, _, _, rfl, ⟨⟩⟩ := h
    obtain ⟨content, haction, rfl⟩ := Option.map_eq_some_iff.mp hsem
    have hcontent : (if c.contents.length < 2 then none
      else some (INode.constsNode (.string (unquote c.contents)))) = some content := haction
    split_ifs at hcontent
    obtain rfl := Option.some.inj hcontent
    exact ⟨.string _, rfl, by simp [PConsts.tokens]⟩
  · -- index -> variable
    obtain _ | ⟨⟨v, hv, rfl⟩, ⟨⟩⟩ := h
    exact ⟨.ofVariable v, userContents_of_semantics hsem rfl (by simp [asVariable, hv]),
      by simp [PIndex.tokens]⟩
  · -- index -> index [ variable ]
    obtain _ | ⟨⟨i, hi, rfl⟩, _ | ⟨rfl, _ | ⟨⟨v, hv, rfl⟩, _ | ⟨rfl, ⟨⟩⟩⟩⟩⟩ := h
    exact ⟨.indexing i v,
      userContents_of_semantics hsem rfl (by simp [asIndex, asVariable, hi, hv]),
      by simp [PIndex.tokens, word, symbolText]⟩
  · -- variable -> name
    obtain _ | ⟨rfl, ⟨⟩⟩ := h
    exact ⟨.name _, userContents_of_semantics hsem rfl rfl, by simp [PVariable.tokens]⟩
  · -- variable -> function
    obtain _ | ⟨⟨hnone, rfl⟩ | ⟨f, hf, rfl⟩, ⟨⟩⟩ := h
    · exact ⟨.null, userContents_of_semantics hsem rfl (by simp [asFunction, hnone]),
        by simp [PVariable.tokens]⟩
    · exact ⟨.function f, userContents_of_semantics hsem rfl (by simp [asFunction, hf]),
        by simp [PVariable.tokens]⟩
  · -- variable -> consts
    obtain _ | ⟨⟨c, hc, rfl⟩, ⟨⟩⟩ := h
    exact ⟨.consts c, userContents_of_semantics hsem rfl (by simp [asConsts, hc]),
      by simp [PVariable.tokens]⟩
  · -- argument -> index
    obtain _ | ⟨⟨i, hi, rfl⟩, ⟨⟩⟩ := h
    exact ⟨.last i, userContents_of_semantics hsem rfl (by simp [asIndex, hi]),
      by simp [PArgument.tokens]⟩
  · -- argument -> index , argument
    obtain _ | ⟨⟨i, hi, rfl⟩, _ | ⟨rfl, _ | ⟨⟨a, ha, rfl⟩, ⟨⟩⟩⟩⟩ := h
    exact ⟨.cons i a, userContents_of_semantics hsem rfl (by simp [asArgument, asIndex, hi, ha]),
      by simp [PArgument.tokens, word, symbolText]⟩
  · -- function -> name ( )
    obtain _ | ⟨rfl, _ | ⟨rfl, _ | ⟨rfl, ⟨⟩⟩⟩⟩ := h
    exact .inr ⟨.call _, userContents_of_semantics hsem rfl rfl,
      by simp [PFunction.tokens, word, symbolText]⟩
  · -- function -> name ( argument )
    obtain _ | ⟨rfl, _ | ⟨rfl, _ | ⟨⟨a, ha, rfl⟩, _ | ⟨rfl, ⟨⟩⟩⟩⟩⟩ := h
    exact .inr ⟨.callWith _ a, userContents_of_semantics hsem rfl (by simp [asArgument, ha]; rfl),
      by simp [PFunction.tokens, word, symbolText]⟩
  · -- runnable -> loop
    obtain _ | ⟨rfl, _ | ⟨rfl, _ | ⟨rfl, _ | ⟨rfl, _ | ⟨⟨i, hi, rfl⟩, _ | ⟨rfl, _ |
      ⟨⟨j, hj, rfl⟩, _ | ⟨rfl, _ | ⟨⟨b, hb, rfl⟩, ⟨⟩⟩⟩⟩⟩⟩⟩⟩⟩⟩ := h
    exact ⟨.sloop _ i j b, userContents_of_semantics hsem rfl
      (by simp [asBlockEntry, asIndex, hi, hj, hb]; rfl),
      by simp [PRunnable.tokens, word, symbolText]⟩
  · -- runnable -> foreach
    obtain _ | ⟨rfl, _ | ⟨rfl, _ | ⟨rfl, _ | ⟨rfl, _ | ⟨⟨i, hi, rfl⟩, _ | ⟨rfl, _ |
      ⟨⟨b, hb, rfl⟩, ⟨⟩⟩⟩⟩⟩⟩⟩⟩ := h
    exact ⟨.sforeach _ i b, userContents_of_semantics hsem rfl
      (by simp [asBlockEntry, asIndex, hi, hb]; rfl),
      by simp [PRunnable.tokens, word, symbolText]⟩
  · -- runnable -> if
    obtain _ | ⟨rfl, _ | ⟨rfl, _ | ⟨⟨i, hi, rfl⟩, _ | ⟨rfl, _ | ⟨⟨b, hb, rfl⟩, ⟨⟩⟩⟩⟩⟩⟩ := h
    exact ⟨.sif i b, userContents_of_semantics hsem rfl (by simp [asBlockEntry, asIndex, hi, hb]),
      by simp [PRunnable.tokens, word, symbolText]⟩
  · -- runnable -> if else
    obtain _ | ⟨rfl, _ | ⟨rfl, _ | ⟨⟨i, hi, rfl⟩, _ | ⟨rfl, _ | ⟨⟨b, hb, rfl⟩, _ | ⟨rfl, _ |
      ⟨⟨e, he, rfl⟩, ⟨⟩⟩⟩⟩⟩⟩⟩⟩ := h
    exact ⟨.sifelse i b e, userContents_of_semantics hsem rfl
      (by simp [asBlockEntry, asIndex, hi, hb, he]), by simp [PRunnable.tokens, word, symbolText]⟩

lemma SpellsAll.append_nil (h : SpellsAll [X] [n] us) : Spells X n us := by
  obtain _ | ⟨h, ⟨⟩⟩ := h
  rwa [List.append_nil]

/-- Each node that is read holds a syntax tree whose word has been read. -/
theorem spellsAll_of_reads (h : scriptGrammar.Reads Xs a ts vs)
    (hts : ∀ t ∈ ts, Spells t.1 t.2 [t]) : SpellsAll Xs vs ts := by
  induction h with
  | nil => exact .nil
  | token _ _ ih =>
    obtain ⟨ht, hts⟩ := List.forall_mem_cons.mp hts
    exact .cons ht (ih hts)
  | produce hk _ hsem _ _ ihrhs ih =>
    obtain ⟨hus, hts⟩ := List.forall_mem_append.mp hts
    exact .cons (spells_of_rhs hk hsem (ihrhs hus)) (ih hts)

end ScriptGrammar

end Violet
