import CelTyping.Table
import CelTyping.Text.Characters
import CelTyping.Text.Alphanumeric
import CelTyping.Text.Quoted
import CelTyping.Decimal.Double
import CelTyping.Decimal.Shortest
import CelTyping.Ty.Kind
import CelTyping.Ty.Basic
import CelTyping.Ty.Compare
import CelTyping.Ty.Printing
import CelTyping.Ty.WellKnown
import CelTyping.Ty.Parsing
import CelTyping.Unification.Mapping
import CelTyping.Unification.Generality
import CelTyping.Unification.Substitute
import CelTyping.Unification.Unify
import CelTyping.Document.Basic
import CelTyping.Document.Json.Term
import CelTyping.Document.Json.Meaning
import CelTyping.Document.Json.Writing
import CelTyping.Constant
import CelTyping.Expr.Basic
import CelTyping.Expr.Codec
import CelTyping.Source
import CelTyping.Declaration.Error
import CelTyping.Container
import CelTyping.Declaration.Variable
import CelTyping.Declaration.Overload
import CelTyping.Declaration.FunctionDecl
import CelTyping.Declaration.Entry
import CelTyping.Declaration.Registry
import CelTyping.Scope.Store
import CelTyping.Env.Basic
import CelTyping.Env.Standard
import CelTyping.Check.Error
import CelTyping.Check.State
import CelTyping.Check.Resolution
import CelTyping.Check.Typing
import CelTyping.Check.Walk
import CelTyping.Diagnostic.Basic
import CelTyping.Diagnostic.Rendering
import CelTyping.Document.Toml.Table
import CelTyping.Document.Toml.Text
import CelTyping.Document.Toml.Scalar
import CelTyping.Document.Toml.Value
import CelTyping.Document.Toml.Statement
import CelTyping.Config.Basic
import CelTyping.Config.Build
import CelTyping.Command.Styled
import CelTyping.Command.Input
import CelTyping.Command.Check
import CelTyping.Command.Listing
import CelTyping.Main
import CelTyping.Proofs.Sequences
import CelTyping.Proofs.Ty.Nodes
import CelTyping.Proofs.Ty.Acceptance
import CelTyping.Proofs.Ty.Grammar
import CelTyping.Proofs.Ty.Positions
import CelTyping.Proofs.Text.Utf8Order
import CelTyping.Proofs.Source.Lines
import CelTyping.Proofs.Declaration.Storage
import CelTyping.Proofs.Declaration.Separation
import CelTyping.Proofs.Unification.Reach
import CelTyping.Proofs.Unification.Resolve
import CelTyping.Proofs.Unification.Growth
import CelTyping.Proofs.Unification.Frame
import CelTyping.Proofs.Unification.Solutions
import CelTyping.Proofs.Unification.FirstOrder
import CelTyping.Proofs.Unification.Termination
import CelTyping.Proofs.Unification.Renaming
import CelTyping.Proofs.Unification.MostGeneral
import CelTyping.Proofs.Unification.NormalForm
import CelTyping.Proofs.Unification.Symmetry
import CelTyping.Proofs.Unification.Generality
import CelTyping.Proofs.Unification.Widening
import CelTyping.Proofs.Env.Sight
import CelTyping.Proofs.Env.Additions
import CelTyping.Proofs.Env.Retention
import CelTyping.Proofs.Env.Locals
import CelTyping.Proofs.Env.Candidates
import CelTyping.Proofs.Scope.Handles
import CelTyping.Proofs.Scope.Isolation
import CelTyping.Proofs.Scope.Listings
import CelTyping.Proofs.Env.Assembly
import CelTyping.Proofs.Expr.Vocabulary
import CelTyping.Proofs.Expr.Rewriting
import CelTyping.Proofs.Document.Json
import CelTyping.Proofs.Expr.Codec
import CelTyping.Proofs.Check.Blind
import CelTyping.Proofs.Check.Parallel
import CelTyping.Proofs.Check.Congruence
import CelTyping.Proofs.Check.Policy
import CelTyping.Proofs.Check.Operations
import CelTyping.Proofs.Check.Walk
import CelTyping.Proofs.Check.Instantiate
import CelTyping.Proofs.Check.Acyclicity
import CelTyping.Proofs.Check.ClosedTypes
import CelTyping.Proofs.Check.ErrorFree
import CelTyping.Proofs.Check.Coverage
import CelTyping.Proofs.Check.Independence
import CelTyping.Proofs.Check.Caching
import CelTyping.Proofs.Check.Relevance
import CelTyping.Proofs.Check.RenamedParams
import CelTyping.Proofs.Check.FreshVariables
import CelTyping.Proofs.Check.Matching
import CelTyping.Proofs.Check.UnusedVariables
import CelTyping.Proofs.Check.LoopScope
import CelTyping.Proofs.Check.ListLiterals
import CelTyping.Proofs.Check.Homogeneity
import CelTyping.Proofs.Check.Notes
import CelTyping.Proofs.Check.Reporting
import CelTyping.Proofs.Check.Rewriting
import CelTyping.Proofs.Check.SideTables
import CelTyping.Proofs.Check.References
import CelTyping.Proofs.Declaration.LiteralArguments
import CelTyping.Proofs.Declaration.Dispatch
import CelTyping.Proofs.Declaration.Merging
import CelTyping.Proofs.Declaration.Redeclaration
import CelTyping.Proofs.Ty.RoundTrip
import CelTyping.Proofs.Config.Declared
import CelTyping.Proofs.Check.OverloadOrder
import CelTyping.Proofs.Check.FieldInitializers
