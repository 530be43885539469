import Bindery.Proofs.Collection.Step

set_option autoImplicit false

/-! Where expressions come from. Nothing in an operand is invented: every part of it was made by a
node that was read, from operands that were made in the same way. -/

namespace Bindery

open Syntax

/-- An expression of which every part was made by one of these nodes. -/
inductive Expr.MadeFrom (nodes : List Node) : Expr → Prop
  | leaf {node : Node} {expr : Expr} (member : node ∈ nodes)
      (left : Collection.leafOf? node = some expr) : MadeFrom nodes expr
  | binary {node : Node} {left right : Expr} {operator : Operator} (member : node ∈ nodes)
      (kind : node.kind = .binaryExpr) (symbol : Collection.operatorOf? node = some operator)
      (leftMade : MadeFrom nodes left) (rightMade : MadeFrom nodes right) :
      MadeFrom nodes (.combine left operator right)
  | argument {node : Node} {value : Expr} (member : node ∈ nodes) (kind : node.kind = .argument)
      (valueMade : MadeFrom nodes value) :
      MadeFrom nodes (.argument (Collection.labelOf? node) value node.span)
  | call {node : Node} {callee : Expr} {arguments : List Expr} (member : node ∈ nodes)
      (kind : node.kind = .call) (calleeMade : MadeFrom nodes callee)
      (argumentsMade : ∀ argument ∈ arguments, MadeFrom nodes argument) :
      MadeFrom nodes (.apply callee arguments node.span)

namespace Collection

variable {nodes : List Node}

theorem madeFrom_combineLast {node : Node} {operands : List Expr} (member : node ∈ nodes)
    (kind : node.kind = .binaryExpr) (made : ∀ operand ∈ operands, operand.MadeFrom nodes) :
    ∀ operand ∈ combineLast (operatorOf? node) operands, operand.MadeFrom nodes := by
  have dropped : ∀ operand ∈ operands.drop 2, operand.MadeFrom nodes :=
    fun operand present => made operand (List.mem_of_mem_drop present)
  unfold combineLast
  split
  · rename_i right left rest operator symbol
    rw [List.forall_mem_cons, List.forall_mem_cons] at made
    rw [List.forall_mem_cons]
    exact ⟨.binary member kind symbol made.2.1 made.1, made.2.2⟩
  · exact dropped

theorem madeFrom_labelLast {node : Node} {operands : List Expr} (member : node ∈ nodes)
    (kind : node.kind = .argument) (made : ∀ operand ∈ operands, operand.MadeFrom nodes) :
    ∀ operand ∈ labelLast (labelOf? node) node.span operands, operand.MadeFrom nodes := by
  cases operands with
  | nil => exact made
  | cons value rest =>
      rw [List.forall_mem_cons] at made
      rw [labelLast, List.forall_mem_cons]
      exact ⟨.argument member kind made.1, made.2⟩

theorem madeFrom_callLast {node : Node} {operands : List Expr} (member : node ∈ nodes)
    (kind : node.kind = .call) (made : ∀ operand ∈ operands, operand.MadeFrom nodes) :
    ∀ operand ∈ callLast (argumentCount node) node.span operands, operand.MadeFrom nodes := by
  have before : ∀ operand ∈ operands.drop (argumentCount node), operand.MadeFrom nodes :=
    fun operand present => made operand (List.mem_of_mem_drop present)
  unfold callLast
  split
  · exact made
  · rename_i callee rest found
    rw [found, List.forall_mem_cons] at before
    rw [List.forall_mem_cons]
    refine ⟨.call member kind before.1 ?_, before.2⟩
    intro argument present
    exact made argument (List.mem_of_mem_take (List.mem_reverse.mp present))

theorem madeFrom_operandsAfter {node : Node} {operands : List Expr} (member : node ∈ nodes)
    (made : ∀ operand ∈ operands, operand.MadeFrom nodes) :
    ∀ operand ∈ operandsAfter operands node, operand.MadeFrom nodes := by
  unfold operandsAfter
  split
  · exact List.forall_mem_nil _
  · rename_i kind
    exact madeFrom_combineLast member kind made
  · rename_i kind
    exact madeFrom_labelLast member kind made
  · rename_i kind
    exact madeFrom_callLast member kind made
  · intro operand present
    rcases List.mem_append.mp present with own | earlier
    · exact .leaf member (Option.mem_toList.mp own)
    · exact made operand earlier

/-- The operands that a run of nodes leaves, starting from none, are made of these nodes. -/
theorem madeFrom_foldl (read : List Node) (within : ∀ node ∈ read, node ∈ nodes)
    (operands : List Expr) (made : ∀ operand ∈ operands, operand.MadeFrom nodes) :
    ∀ operand ∈ read.foldl operandsAfter operands, operand.MadeFrom nodes := by
  induction read generalizing operands with
  | nil => exact made
  | cons node rest ih =>
      rw [List.forall_mem_cons] at within
      exact ih within.2 _ (madeFrom_operandsAfter within.1 made)

end Collection

end Bindery
