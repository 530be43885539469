import Bindery.Span
import Bindery.Number.Binary64
import Bindery.Number.Integer
import Bindery.Text.Quoted
import Bindery.Text.Truth

set_option autoImplicit false

/-! Expressions bound to names: how they are built, which calls they contain, and their texts.

`Expr.apply` is the way to build a call. It makes every argument an argument expression, so the
arguments of a call that came from a program are always of that form. -/

namespace Bindery

inductive Operator where
  | add | sub | mul | div
  deriving DecidableEq, Repr

namespace Operator

def symbol : Operator → String
  | .add => "+"
  | .sub => "-"
  | .mul => "*"
  | .div => "/"

def ofSymbol? (symbol : String) : Option Operator :=
  if symbol = "+" then some .add
  else if symbol = "-" then some .sub
  else if symbol = "*" then some .mul
  else if symbol = "/" then some .div
  else none

theorem ofSymbol?_symbol (operator : Operator) : ofSymbol? operator.symbol = some operator := by
  cases operator <;> rfl

/-- The name of an operator in a description. -/
def name : Operator → String
  | .add => "Add"
  | .sub => "Sub"
  | .mul => "Mul"
  | .div => "Div"

end Operator

inductive Expr where
  | integer (value : Int64) (span : Span)
  | float (value : Number.Binary64) (span : Span)
  | boolean (value : Bool) (span : Span)
  | string (value : String) (span : Span)
  | identifier (name : String) (span : Span)
  | binary (left : Expr) (operator : Operator) (right : Expr) (span : Span)
  | call (callee : Expr) (arguments : List Expr) (span : Span)
  | argument (label : Option String) (value : Expr) (span : Span)
  deriving Repr

namespace Expr

def span : Expr → Span
  | .integer _ span | .float _ span | .boolean _ span | .string _ span | .identifier _ span
  | .binary _ _ _ span | .call _ _ span | .argument _ _ span => span

/-- The same expression at another place; the places of its parts stay. -/
def withSpan (span : Span) : Expr → Expr
  | .integer value _ => .integer value span
  | .float value _ => .float value span
  | .boolean value _ => .boolean value span
  | .string value _ => .string value span
  | .identifier name _ => .identifier name span
  | .binary left operator right _ => .binary left operator right span
  | .call callee arguments _ => .call callee arguments span
  | .argument label value _ => .argument label value span

/-- Two operands and what stands between them, at the place that covers both. -/
def combine (left : Expr) (operator : Operator) (right : Expr) : Expr :=
  .binary left operator right (left.span.join right.span)

/-- An expression as an argument. One that is none yet becomes an argument without a label, at its
own place. -/
def toArgument : Expr → Expr
  | .argument label value span => .argument label value span
  | value => .argument none value value.span

/-- A call of `callee`. -/
def apply (callee : Expr) (arguments : List Expr) (span : Span) : Expr :=
  .call callee (arguments.map toArgument) span

mutual

/-- The names that are called, in source order. A callee that is not a name is searched itself. -/
def callees : Expr → List String
  | .call (.identifier name _) arguments _ => name :: calleesAll arguments
  | .call callee arguments _ => callee.callees ++ calleesAll arguments
  | .binary left _ right _ => left.callees ++ right.callees
  | .argument _ value _ => value.callees
  | .integer .. | .float .. | .boolean .. | .string .. | .identifier .. => []

def calleesAll : List Expr → List String
  | [] => []
  | expr :: rest => expr.callees ++ calleesAll rest

end

mutual

/-- The text of an expression. Operands are not bracketed. -/
def render : Expr → String
  | .integer value _ => Number.writeInteger value
  | .float value _ => value.write
  | .boolean value _ => Text.truth value
  | .string value _ => Text.quote value
  | .identifier name _ => name
  | .binary left operator right _ =>
      left.render ++ " " ++ operator.symbol ++ " " ++ right.render
  | .call callee arguments _ =>
      callee.render ++ "(" ++ String.intercalate ", " (renderAll arguments) ++ ")"
  | .argument (some label) value _ => label ++ ": " ++ value.render
  | .argument none value _ => value.render

def renderAll : List Expr → List String
  | [] => []
  | expr :: rest => expr.render :: renderAll rest

end

mutual

/-- Equality of form, places and values; floats are compared as numbers, so an expression that holds
not-a-number differs from itself. -/
def same : Expr → Expr → Bool
  | .integer left leftSpan, .integer right rightSpan => left = right && leftSpan = rightSpan
  | .float left leftSpan, .float right rightSpan => left.same right && leftSpan = rightSpan
  | .boolean left leftSpan, .boolean right rightSpan => left = right && leftSpan = rightSpan
  | .string left leftSpan, .string right rightSpan => left = right && leftSpan = rightSpan
  | .identifier left leftSpan, .identifier right rightSpan => left = right && leftSpan = rightSpan
  | .binary left operator right span, .binary left' operator' right' span' =>
      left.same left' && operator = operator' && right.same right' && span = span'
  | .call callee arguments span, .call callee' arguments' span' =>
      callee.same callee' && sameAll arguments arguments' && span = span'
  | .argument label value span, .argument label' value' span' =>
      label = label' && value.same value' && span = span'
  | _, _ => false

def sameAll : List Expr → List Expr → Bool
  | [], [] => true
  | left :: lefts, right :: rights => left.same right && sameAll lefts rights
  | _, _ => false

end

def placed (description : String) (span : Span) : String :=
  "Expr \x7b kind: " ++ description ++ ", span: " ++ span.render ++ " \x7d"

mutual

/-- The structure of an expression spelled out, without its own place. -/
def describe : Expr → String
  | .integer value _ => "Int(" ++ Number.writeInteger value ++ ")"
  | .float value _ => "Float(" ++ value.write ++ ")"
  | .boolean value _ => "Bool(" ++ Text.truth value ++ ")"
  | .string value _ => "String(" ++ Text.quote value ++ ")"
  | .identifier name _ => "Identifier(" ++ Text.quote name ++ ")"
  | .binary left operator right _ =>
      "Binary \x7b lhs: " ++ placed left.describe left.span ++ ", op: " ++ operator.name ++
        ", rhs: " ++ placed right.describe right.span ++ " \x7d"
  | .call callee arguments _ =>
      "FuncCall \x7b callee: " ++ placed callee.describe callee.span ++ ", args: [" ++
        String.intercalate ", " (describeAll arguments) ++ "] \x7d"
  | .argument label value _ =>
      "Arg(Argument \x7b name: " ++ Text.quoteOption label ++ ", expr: " ++
        placed value.describe value.span ++ " \x7d)"

def describeAll : List Expr → List String
  | [] => []
  | expr :: rest => placed expr.describe expr.span :: describeAll rest

end

end Expr

end Bindery
