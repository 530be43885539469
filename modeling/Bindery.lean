import Bindery.Compilation
import Bindery.Diagnostic
import Bindery.Diagnostic.Excerpt
import Bindery.Diagnostic.Log
import Bindery.Environment
import Bindery.Expectation
import Bindery.Expr
import Bindery.Number.Binary64
import Bindery.Number.Decimal
import Bindery.Number.Digits
import Bindery.Number.Integer
import Bindery.Program
import Bindery.Program.Collection
import Bindery.Proofs.Collection.Completeness
import Bindery.Proofs.Collection.Isolation
import Bindery.Proofs.Collection.Linearity
import Bindery.Proofs.Collection.Operands
import Bindery.Proofs.Collection.Placement
import Bindery.Proofs.Collection.Provenance
import Bindery.Proofs.Collection.Shift
import Bindery.Proofs.Collection.Step
import Bindery.Proofs.Collection.Trivia
import Bindery.Proofs.Compilation
import Bindery.Proofs.Compilation.Attribution
import Bindery.Proofs.Compilation.Blame
import Bindery.Proofs.Compilation.Independence
import Bindery.Proofs.Diagnostic.FileNumbers
import Bindery.Proofs.Number.Writing
import Bindery.Proofs.Registry
import Bindery.Proofs.Shift
import Bindery.Proofs.Source.Blame
import Bindery.Proofs.Source.Callees
import Bindery.Proofs.Source.Collected
import Bindery.Proofs.Source.Declaration
import Bindery.Proofs.Source.Isolation
import Bindery.Proofs.Source.Juxtaposition
import Bindery.Proofs.Source.KnownOperators
import Bindery.Proofs.Source.Layout
import Bindery.Proofs.Source.Lossless
import Bindery.Proofs.Source.Meaning
import Bindery.Proofs.Source.Occurrences
import Bindery.Proofs.Source.Places
import Bindery.Proofs.Source.Pointing
import Bindery.Proofs.Source.Printing
import Bindery.Proofs.Source.Reading
import Bindery.Proofs.Source.Reordering
import Bindery.Proofs.Source.Sites
import Bindery.Proofs.Source.Spelling
import Bindery.Proofs.Source.Tree
import Bindery.Proofs.Source.UnknownOperators
import Bindery.Proofs.Spans
import Bindery.Proofs.Syntax.Balance
import Bindery.Proofs.Syntax.Concatenation
import Bindery.Proofs.Syntax.Coverage
import Bindery.Proofs.Syntax.LeadingTrivia
import Bindery.Proofs.Syntax.Pile
import Bindery.Proofs.Syntax.Placement
import Bindery.Proofs.Syntax.Recording
import Bindery.Proofs.Syntax.Replay
import Bindery.Proofs.Syntax.RoundTrip
import Bindery.Proofs.Syntax.Shelter
import Bindery.Proofs.Syntax.Shift
import Bindery.Proofs.Syntax.Symbols
import Bindery.Proofs.Syntax.Trivia
import Bindery.Proofs.Table.Acceptance
import Bindery.Proofs.Table.Atomicity
import Bindery.Proofs.Table.Consistency
import Bindery.Proofs.Table.Enlargement
import Bindery.Proofs.Table.Exports
import Bindery.Proofs.Table.Faults
import Bindery.Proofs.Table.History
import Bindery.Proofs.Table.InPlace
import Bindery.Proofs.Table.References
import Bindery.Proofs.Table.Reordering
import Bindery.Proofs.Text.Placement
import Bindery.Proofs.Text.Slicing
import Bindery.Proofs.Unplaced
import Bindery.Registry
import Bindery.SemanticError
import Bindery.Source
import Bindery.Source.Draft
import Bindery.Span
import Bindery.Syntax.Event
import Bindery.Syntax.Kind
import Bindery.Syntax.Node
import Bindery.Syntax.Recorder
import Bindery.Syntax.Tree
import Bindery.Table
import Bindery.Table.Listing
import Bindery.Text.Printable
import Bindery.Text.Quoted
import Bindery.Text.Slice
import Bindery.Text.Truth
import Bindery.Trace
import Bindery.Trace.Collection
import Bindery.Trace.Compilation
import Bindery.Trace.Table
import Bindery.Ty
import Bindery.Proofs.Compilation.Signatures
import Bindery.Proofs.Table.Listing
import Bindery.Proofs.Diagnostic.History
import Bindery.Proofs.Number.Reading
import Bindery.Proofs.Source.IntegerLiterals
