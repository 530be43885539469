import Bindery.Program.Collection
import Bindery.Proofs.Unplaced

set_option autoImplicit false

/-! The operands that expression nodes leave. Every node of an expression works on the last operands
only, and it does the same whether operands have places or not. -/

namespace Bindery.Collection

open Syntax

/-- The state with these operands in place of its own, and with further errors. -/
def leave (state : Collection) (operands : List Expr) (errors : List SemanticError) :
    Collection :=
  { state with operands := operands, errors := state.errors ++ errors }

theorem leave_leave (state : Collection) (first second : List Expr)
    (earlier later : List SemanticError) :
    (state.leave first earlier).leave second later = state.leave second (earlier ++ later) := by
  simp only [leave, List.append_assoc]

theorem leave_self (state : Collection) : state.leave state.operands [] = state := by
  rw [leave, List.append_nil]

/-- Puts two operands and what stands between them in the place of the last two. Without an operator
or a second operand they are dropped. -/
def combineLast (operator : Option Operator) (operands : List Expr) : List Expr :=
  match operands, operator with
  | right :: left :: rest, some operator => .combine left operator right :: rest
  | _, _ => operands.drop 2

def labelLast (label : Option String) (span : Span) : List Expr → List Expr
  | [] => []
  | value :: rest => .argument label value span :: rest

/-- Puts a call in the place of its arguments and its callee. If there are too few, they stay. -/
def callLast (count : Nat) (span : Span) (operands : List Expr) : List Expr :=
  match operands.drop count with
  | [] => operands
  | callee :: rest => .apply callee (operands.take count).reverse span :: rest

def integerFaults (text : String) (span : Span) : List SemanticError :=
  if (Number.readInteger? text).isSome then [] else [.invalidLiteral .integer text span]

def floatFaults (text : String) (span : Span) : List SemanticError :=
  if (Number.Binary64.read? text).isSome then [] else [.invalidLiteral .float text span]

theorem read_of_integer (state : Collection) (node : Node) (integer : node.kind = .intLiteral) :
    state.read node = state.readInteger node := by
  rw [read, integer]

theorem read_of_float (state : Collection) (node : Node) (float : node.kind = .floatLiteral) :
    state.read node = state.readFloat node := by
  rw [read, float]

theorem readInteger_eq (state : Collection) (node : Node) :
    state.readInteger node =
      state.leave
        (.integer ((Number.readInteger? (literalText node .integer)).getD 0) node.span ::
          state.operands)
        (integerFaults (literalText node .integer) node.span) := by
  unfold readInteger integerFaults leave
  cases found : Number.readInteger? (literalText node .integer) with
  | some value => simp [found, pushOperand]
  | none => simp [found, pushOperand, report]

theorem readFloat_eq (state : Collection) (node : Node) :
    state.readFloat node =
      state.leave
        (.float ((Number.Binary64.read? (literalText node .float)).getD .zero) node.span ::
          state.operands)
        (floatFaults (literalText node .float) node.span) := by
  unfold readFloat floatFaults leave
  cases found : Number.Binary64.read? (literalText node .float) with
  | some value => simp [found, pushOperand]
  | none => simp [found, pushOperand, report]

theorem readBinary_eq (state : Collection) (node : Node) :
    state.readBinary node =
      state.leave (combineLast (operatorOf? node) state.operands) [] := by
  unfold readBinary combineLast leave
  rw [List.append_nil]
  cases state with
  | mk fragments operands fields program errors =>
      cases operatorOf? node with
      | none => rcases operands with _ | ⟨right, _ | ⟨left, rest⟩⟩ <;> rfl
      | some operator => rcases operands with _ | ⟨right, _ | ⟨left, rest⟩⟩ <;> rfl

theorem readArgument_eq (state : Collection) (node : Node) :
    state.readArgument node =
      state.leave (labelLast (node.identifier?.map Spanned.value) node.span state.operands)
        [] := by
  unfold leave
  rw [List.append_nil]
  cases state with
  | mk fragments operands fields program errors => cases operands <;> rfl

theorem readCall_eq (state : Collection) (node : Node) :
    state.readCall node =
      state.leave (callLast (argumentCount node) node.span state.operands) [] := by
  unfold readCall callLast leave
  rw [List.append_nil]
  cases remaining : state.operands.drop (argumentCount node) with
  | nil => simp only [remaining]
  | cons callee rest => simp only [remaining]

/-! ### Operands without places -/

theorem unplaced_combineLast (operator : Option Operator) (operands : List Expr) :
    (combineLast operator operands).map Expr.unplaced =
      combineLast operator (operands.map Expr.unplaced) := by
  rcases operands with _ | ⟨right, _ | ⟨left, rest⟩⟩
  · cases operator <;> rfl
  · cases operator <;> rfl
  · cases operator with
    | none => rfl
    | some operator =>
        rw [combineLast, List.map_cons, Expr.unplaced_combine]
        rfl

theorem unplaced_labelLast (label : Option String) (span : Span) (operands : List Expr) :
    (labelLast label span operands).map Expr.unplaced =
      labelLast label .nowhere (operands.map Expr.unplaced) := by
  cases operands with
  | nil => rfl
  | cons value rest =>
      rw [labelLast, List.map_cons, Expr.unplaced]
      rfl

theorem unplaced_callLast (count : Nat) (span : Span) (operands : List Expr) :
    (callLast count span operands).map Expr.unplaced =
      callLast count .nowhere (operands.map Expr.unplaced) := by
  unfold callLast
  rw [← List.map_drop, ← List.map_take, ← List.map_reverse]
  cases operands.drop count with
  | nil => rfl
  | cons callee rest =>
      rw [List.map_cons, List.map_cons, Expr.unplaced_apply]

theorem unplaced_integerFaults (text : String) (span : Span) :
    (integerFaults text span).map SemanticError.unplaced =
      integerFaults text .nowhere := by
  unfold integerFaults
  split <;> rfl

theorem unplaced_floatFaults (text : String) (span : Span) :
    (floatFaults text span).map SemanticError.unplaced =
      floatFaults text .nowhere := by
  unfold floatFaults
  split <;> rfl

end Bindery.Collection
