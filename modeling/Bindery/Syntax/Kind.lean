set_option autoImplicit false

/-! The kinds of syntax element. Any kind may label a node or a token: a tree that came from a
recovering reader need not be well formed. -/

namespace Bindery.Syntax

inductive Kind where
  | program
  /-- Written `import std::io`. -/
  | importDeclaration
  | accessChain
  /-- Written `pub add x y = x + y`. -/
  | binding
  | visibility
  /-- Written `add :: int -> int -> int`. -/
  | signature
  /-- Written `type Point (x: int, y: int)`. -/
  | typeDefinition
  /-- Written `x: int` inside a type definition. -/
  | typeField
  | namedType
  | voidType
  | variableType
  | arrowType
  | intLiteral
  | floatLiteral
  | stringLiteral
  | boolLiteral
  | identExpr
  | binaryExpr
  | parenExpr
  | call
  | argument
  | identifier
  | integer
  | float
  | string
  | boolean
  | importWord
  | typeWord
  | pubWord
  | leftParen
  | rightParen
  | comma
  | colon
  | colonColon
  | equals
  | arrow
  | quote
  | plus
  | minus
  | star
  | slash
  | whitespace
  | lineComment
  | error
  deriving DecidableEq, Repr

namespace Kind

/-- Every kind, in the order of the codes. -/
def all : List Kind := [
  .program, .importDeclaration, .accessChain, .binding, .visibility, .signature, .typeDefinition,
  .typeField, .namedType, .voidType, .variableType, .arrowType, .intLiteral, .floatLiteral,
  .stringLiteral, .boolLiteral, .identExpr, .binaryExpr, .parenExpr, .call, .argument,
  .identifier, .integer, .float, .string, .boolean, .importWord, .typeWord, .pubWord, .leftParen,
  .rightParen, .comma, .colon, .colonColon, .equals, .arrow, .quote, .plus, .minus, .star,
  .slash, .whitespace, .lineComment, .error]

def name : Kind → String
  | .program => "Program"
  | .importDeclaration => "ImportDeclaration"
  | .accessChain => "AccessChain"
  | .binding => "Binding"
  | .visibility => "Visibility"
  | .signature => "BindType"
  | .typeDefinition => "TypeDefine"
  | .typeField => "TypeField"
  | .namedType => "ExistType"
  | .voidType => "VoidType"
  | .variableType => "VariantType"
  | .arrowType => "CombineType"
  | .intLiteral => "IntLiteral"
  | .floatLiteral => "FloatLiteral"
  | .stringLiteral => "StringLiteral"
  | .boolLiteral => "BoolLiteral"
  | .identExpr => "IdentExpr"
  | .binaryExpr => "BinaryExpr"
  | .parenExpr => "ParenExpr"
  | .call => "FuncCall"
  | .argument => "Argument"
  | .identifier => "Identifier"
  | .integer => "Integer"
  | .float => "Float"
  | .string => "String"
  | .boolean => "Boolean"
  | .importWord => "Import"
  | .typeWord => "Type"
  | .pubWord => "Pub"
  | .leftParen => "LParen"
  | .rightParen => "RParen"
  | .comma => "Comma"
  | .colon => "Colon"
  | .colonColon => "ColonColon"
  | .equals => "Equals"
  | .arrow => "Arrow"
  | .quote => "Quote"
  | .plus => "Plus"
  | .minus => "Minus"
  | .star => "Star"
  | .slash => "Slash"
  | .whitespace => "Whitespace"
  | .lineComment => "LineComment"
  | .error => "Error"

def ofName? (name : String) : Option Kind := all.find? fun kind => kind.name = name

/-- The number that stands for a kind where trees are stored. -/
def code (kind : Kind) : Nat := all.idxOf kind

/-- The kind that a number stands for. A number without a kind stands for an error. -/
def ofCode (code : Nat) : Kind := all[code]?.getD .error

theorem ofName?_name (kind : Kind) : ofName? kind.name = some kind := by
  cases kind <;> decide

theorem ofCode_code (kind : Kind) : ofCode kind.code = kind := by
  cases kind <;> decide

/-- Blanks and comments, which carry no meaning. -/
def isTrivia : Kind → Bool
  | .whitespace | .lineComment => true
  | _ => false

/-- The kinds of node that stand for an expression. An argument stands for one only inside a call
and is not among them. -/
def isExpression : Kind → Bool
  | .intLiteral | .floatLiteral | .stringLiteral | .boolLiteral
  | .identExpr | .binaryExpr | .parenExpr | .call => true
  | _ => false

end Kind

end Bindery.Syntax
