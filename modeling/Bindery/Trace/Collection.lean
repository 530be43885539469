import Bindery.Program.Collection
import Bindery.Trace

set_option autoImplicit false

/-! The records of reading a tree: one for every node, and one for what the node declared or why it
was passed over. -/

namespace Bindery.Trace

open Syntax

/-- What is recorded about an import with a path. -/
def ofImport (node : Node) : List Record :=
  match node.child? .accessChain with
  | none => []
  | some chain => [⟨.debug, "import declaration", [("import", chain.significantText)]⟩]

def ofBinding (state : Collection) (node : Node) : List Record :=
  match state.bodyOf? node, node.identifiers with
  | some _, name :: parameters =>
      [⟨.debug, "binding declaration",
        [("binding", name.value), ("params", Text.quoteList (parameters.map Spanned.value)),
          ("export", Text.truth node.isExported)]⟩]
  | _, _ => []

def ofSignature (state : Collection) (node : Node) : List Record :=
  match node.identifier? with
  | none => []
  | some name =>
      [⟨.debug, "binding type declaration",
        [("binding", name.value), ("fragments", count state.fragments.length)]⟩]

def ofField (state : Collection) (node : Node) : List Record :=
  if node.identifier?.isNone || state.fragments.isEmpty then
    [⟨.warn, "type field without a name or type", [("field", node.text)]⟩]
  else []

def ofType (state : Collection) (node : Node) : List Record :=
  match node.identifier? with
  | none => [⟨.warn, "type definition without a name", [("define", node.text)]⟩]
  | some name =>
      [⟨.debug, "type definition",
        [("type_define", name.value), ("fields", count state.fields.length)]⟩]

/-- An arrow inside an arrow loses its brackets, which a reader may not expect. -/
def ofArrow (node : Node) : List Record :=
  if node.parent = some .arrowType then
    [⟨.warn, "higher-order signature is flattened into a curried type list",
      [("signature", node.text)]⟩]
  else []

def ofBinary (state : Collection) (node : Node) : List Record :=
  if state.operands.length < 2 || (Collection.operatorOf? node).isNone then
    [⟨.warn, "incomplete binary expression", [("expr", node.text)]⟩]
  else []

def ofCall (state : Collection) (node : Node) : List Record :=
  if state.operands.length < Collection.argumentCount node + 1 then
    [⟨.warn, "incomplete call expression", [("call", node.text)]⟩]
  else []

/-- The records of reading one node in a state. -/
def ofNode (state : Collection) (node : Node) : List Record :=
  ⟨.trace, "exit", [("kind", node.kind.name)]⟩ ::
    match node.kind with
    | .importDeclaration => ofImport node
    | .binding => ofBinding state node
    | .signature => ofSignature state node
    | .typeDefinition => ofType state node
    | .typeField => ofField state node
    | .arrowType => ofArrow node
    | .binaryExpr => ofBinary state node
    | .call => ofCall state node
    | .namedType | .voidType | .variableType | .intLiteral | .floatLiteral | .stringLiteral
    | .boolLiteral | .identExpr | .argument | .program | .accessChain | .visibility
    | .parenExpr => []
    | kind => [⟨.trace, "ignored", [("kind", kind.name)]⟩]

/-- The records of reading nodes one after the other. -/
def ofNodes (state : Collection) : List Node → List Record
  | [] => []
  | node :: rest => ofNode state node ++ ofNodes (state.read node) rest

def ofTree (tree : Tree) : List Record := ofNodes .empty tree.postorder

end Bindery.Trace
