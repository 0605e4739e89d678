import Violet.Dart.Units

/-!
# The syntax trees of scripts

The nodes that the parser builds, and the semantic actions that build them. The lexeme `function`
is taken for a call by the parser and has no node: a statement then holds no call, and a variable
has no content.
-/

namespace Violet

open Dart

inductive PConsts where
  | integer (content : Units)
  | string (content : Units)
  deriving DecidableEq, Repr

mutual

inductive PIndex where
  | ofVariable (content : PVariable)
  | indexing (index : PIndex) (content : PVariable)
  deriving DecidableEq, Repr

inductive PVariable where
  | name (content : Units)
  | function (content : PFunction)
  | consts (content : PConsts)
  | null
  deriving DecidableEq, Repr

inductive PFunction where
  | call (name : Units)
  | callWith (name : Units) (argument : PArgument)
  deriving DecidableEq, Repr

inductive PArgument where
  | last (index : PIndex)
  | cons (index : PIndex) (argument : PArgument)
  deriving DecidableEq, Repr

end

mutual

inductive PStatement where
  | sfunction (function : Option PFunction)
  | sindex (index1 index2 : PIndex)
  | srunnable (runnable : PRunnable)
  deriving DecidableEq, Repr

inductive PLine where
  | mk (statement : PStatement)
  deriving DecidableEq, Repr

inductive PBlock where
  | empty
  | cons (line : PLine) (block : PBlock)
  deriving DecidableEq, Repr

inductive PBlockEntry where
  | innerBlock (block : PBlock)
  | line (line : PLine)
  deriving DecidableEq, Repr

inductive PRunnable where
  | sloop (name : Units) (index1 index2 : PIndex) (blockEntry1 : PBlockEntry)
  | sforeach (name : Units) (index1 : PIndex) (blockEntry1 : PBlockEntry)
  | sif (index1 : PIndex) (blockEntry1 : PBlockEntry)
  | sifelse (index1 : PIndex) (blockEntry1 blockEntry2 : PBlockEntry)
  deriving DecidableEq, Repr

end

inductive INode where
  | lineNode (node : PLine)
  | statementNode (node : PStatement)
  | blockEntryNode (node : PBlockEntry)
  | blockNode (node : PBlock)
  | indexNode (node : PIndex)
  | constsNode (node : PConsts)
  | variableNode (node : PVariable)
  | argumentNode (node : PArgument)
  | functionNode (node : PFunction)
  | runnableNode (node : PRunnable)
  deriving DecidableEq, Repr

/-- A node of the parse tree: the text below it, the syntax tree that an action has built, and, when
it has been reduced, the index of its action and its children. -/
inductive ParseTreeNode where
  | node (contents : Units) (userContents : Option INode) (productionRuleIndex : Option ℕ)
      (childs : List ParseTreeNode)
  deriving Repr

namespace ParseTreeNode

def contents : ParseTreeNode → Units
  | node contents _ _ _ => contents

def userContents : ParseTreeNode → Option INode
  | node _ userContents _ _ => userContents

def productionRuleIndex : ParseTreeNode → Option ℕ
  | node _ _ productionRuleIndex _ => productionRuleIndex

def childs : ParseTreeNode → List ParseTreeNode
  | node _ _ _ childs => childs

/-! What an action takes from a child; a child of another kind is a failing cast. -/

def asLine (n : ParseTreeNode) : Option PLine :=
  match n.userContents with
  | some (.lineNode l) => some l
  | _ => none

def asStatement (n : ParseTreeNode) : Option PStatement :=
  match n.userContents with
  | some (.statementNode s) => some s
  | _ => none

def asBlockEntry (n : ParseTreeNode) : Option PBlockEntry :=
  match n.userContents with
  | some (.blockEntryNode b) => some b
  | _ => none

def asBlock (n : ParseTreeNode) : Option PBlock :=
  match n.userContents with
  | some (.blockNode b) => some b
  | _ => none

def asIndex (n : ParseTreeNode) : Option PIndex :=
  match n.userContents with
  | some (.indexNode i) => some i
  | _ => none

def asConsts (n : ParseTreeNode) : Option PConsts :=
  match n.userContents with
  | some (.constsNode c) => some c
  | _ => none

def asVariable (n : ParseTreeNode) : Option PVariable :=
  match n.userContents with
  | some (.variableNode v) => some v
  | _ => none

def asArgument (n : ParseTreeNode) : Option PArgument :=
  match n.userContents with
  | some (.argumentNode a) => some a
  | _ => none

def asRunnable (n : ParseTreeNode) : Option PRunnable :=
  match n.userContents with
  | some (.runnableNode r) => some r
  | _ => none

/-- The lexeme `function` has no node. -/
def asFunction (n : ParseTreeNode) : Option (Option PFunction) :=
  match n.userContents with
  | none => some none
  | some (.functionNode f) => some (some f)
  | _ => none

end ParseTreeNode

/-- The text of a string literal: without its quotes, and with `\"` read as a quote. -/
def unquote (contents : Units) : Units :=
  Units.replaceAll ((contents.drop 1).take (contents.length - 2)) [0x5C, 0x22] [0x22]

/-- `PActionDescription.actions`: what the nodes of each production hold. -/
def PActionDescription.actions : List (List ParseTreeNode → Option INode) :=
  [ -- script -> block_entry
   fun childs => match childs with
    | [c] => c.userContents
    | _ => none,
   -- line -> stmt
   fun childs => match childs with
    | [c] => c.asStatement.map fun s => .lineNode (.mk s)
    | _ => none,
   -- stmt -> function
   fun childs => match childs with
    | [c] => c.asFunction.map fun f => .statementNode (.sfunction f)
    | _ => none,
   -- stmt -> index = index
   fun childs => match childs with
    | [i, _, j] => do pure (.statementNode (.sindex (← i.asIndex) (← j.asIndex)))
    | _ => none,
   -- stmt -> runnable
   fun childs => match childs with
    | [c] => c.asRunnable.map fun r => .statementNode (.srunnable r)
    | _ => none,
   -- block_entry -> [ block ]
   fun childs => match childs with
    | [_, b, _] => b.asBlock.map fun b => .blockEntryNode (.innerBlock b)
    | _ => none,
   -- block_entry -> line
   fun childs => match childs with
    | [c] => c.asLine.map fun l => .blockEntryNode (.line l)
    | _ => none,
   -- block -> line block
   fun childs => match childs with
    | [l, b] => do pure (.blockNode (.cons (← l.asLine) (← b.asBlock)))
    | _ => none,
   -- block ->
   fun _ => some (.blockNode .empty),
   -- consts -> number
   fun childs => match childs with
    | [c] => some (.constsNode (.integer c.contents))
    | _ => none,
   -- consts -> string
   fun childs => match childs with
    | [c] =>
      if c.contents.length < 2 then none else some (.constsNode (.string (unquote c.contents)))
    | _ => none,
   -- index -> variable
   fun childs => match childs with
    | [c] => c.asVariable.map fun v => .indexNode (.ofVariable v)
    | _ => none,
   -- index -> index [ variable ]
   fun childs => match childs with
    | [i, _, v, _] => do pure (.indexNode (.indexing (← i.asIndex) (← v.asVariable)))
    | _ => none,
   -- variable -> name
   fun childs => match childs with
    | [c] => some (.variableNode (.name c.contents))
    | _ => none,
   -- variable -> function
   fun childs => match childs with
    | [c] => c.asFunction.map fun f => .variableNode (f.elim .null .function)
    | _ => none,
   -- variable -> consts
   fun childs => match childs with
    | [c] => c.asConsts.map fun c => .variableNode (.consts c)
    | _ => none,
   -- argument -> index
   fun childs => match childs with
    | [c] => c.asIndex.map fun i => .argumentNode (.last i)
    | _ => none,
   -- argument -> index , argument
   fun childs => match childs with
    | [i, _, a] => do pure (.argumentNode (.cons (← i.asIndex) (← a.asArgument)))
    | _ => none,
   -- function -> name ( )
   fun childs => match childs with
    | [n, _, _] => some (.functionNode (.call n.contents))
    | _ => none,
   -- function -> name ( argument )
   fun childs => match childs with
    | [n, _, a, _] => a.asArgument.map fun a => .functionNode (.callWith n.contents a)
    | _ => none,
   -- runnable -> loop ( name = index to index ) block_entry
   fun childs => match childs with
    | [_, _, n, _, i, _, j, _, b] => do
      pure (.runnableNode (.sloop n.contents (← i.asIndex) (← j.asIndex) (← b.asBlockEntry)))
    | _ => none,
   -- runnable -> foreach ( name : index ) block_entry
   fun childs => match childs with
    | [_, _, n, _, i, _, b] => do
      pure (.runnableNode (.sforeach n.contents (← i.asIndex) (← b.asBlockEntry)))
    | _ => none,
   -- runnable -> if ( index ) block_entry
   fun childs => match childs with
    | [_, _, i, _, b] => do pure (.runnableNode (.sif (← i.asIndex) (← b.asBlockEntry)))
    | _ => none,
   -- runnable -> if ( index ) block_entry else block_entry
   fun childs => match childs with
    | [_, _, i, _, b, _, e] => do
      pure (.runnableNode (.sifelse (← i.asIndex) (← b.asBlockEntry) (← e.asBlockEntry)))
    | _ => none]

end Violet
