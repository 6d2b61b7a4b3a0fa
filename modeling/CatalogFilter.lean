import CatalogFilter.Text.Blank
import CatalogFilter.Text.Letter
import CatalogFilter.Text.Split
import CatalogFilter.Text.Numeral
import CatalogFilter.Text.Quoted
import CatalogFilter.Token.Basic
import CatalogFilter.Token.Lexer
import CatalogFilter.Expr.Basic
import CatalogFilter.Expr.Printer
import CatalogFilter.Expr.Flatten
import CatalogFilter.Expr.Parser
import CatalogFilter.Like.Pattern
import CatalogFilter.Catalog.Column
import CatalogFilter.Catalog.Index
import CatalogFilter.Catalog.Basic
import CatalogFilter.Criterion.Predicate
import CatalogFilter.Criterion.FilterSet
import CatalogFilter.Criterion.OfExpr
import CatalogFilter.Join.Graph
import CatalogFilter.Join.Resolver
import CatalogFilter.Schema.Basic
import CatalogFilter.Schema.Builtin
import CatalogFilter.Json.Basic
import CatalogFilter.Json.Reader
import CatalogFilter.Json.Writer
import CatalogFilter.Json.Record
import CatalogFilter.Schema.Stored
import CatalogFilter.Criterion.Stored
import CatalogFilter.Decimal.Shortest
import CatalogFilter.Decimal.Layout
import CatalogFilter.Decimal.Reader
import CatalogFilter.Cell.Basic
import CatalogFilter.Statement.Sort
import CatalogFilter.Statement.Basic
import CatalogFilter.Session.Basic
import CatalogFilter.Toml.Basic
import CatalogFilter.Toml.Document
import CatalogFilter.Toml.Moment
import CatalogFilter.Toml.Reader
import CatalogFilter.Settings.Value
import CatalogFilter.Settings.Place
import CatalogFilter.Settings.EnvironmentFile
import CatalogFilter.Command.Arguments
import CatalogFilter.Command.Help
import CatalogFilter.Command.Config
import CatalogFilter.Command.Run
import CatalogFilter.Main
import CatalogFilter.Proofs.Token.Separation
import CatalogFilter.Proofs.Token.Spelling
import CatalogFilter.Proofs.Token.Names
import CatalogFilter.Proofs.Token.Context
import CatalogFilter.Proofs.Expr.Grammar
import CatalogFilter.Proofs.Expr.Soundness
import CatalogFilter.Proofs.Expr.Completeness
import CatalogFilter.Proofs.Expr.Acceptance
import CatalogFilter.Proofs.Expr.Chains
import CatalogFilter.Proofs.Expr.Reading
import CatalogFilter.Proofs.Expr.RoundTrip
import CatalogFilter.Proofs.Criterion.Terms
import CatalogFilter.Proofs.Criterion.Structure
import CatalogFilter.Proofs.Order.LookUp
import CatalogFilter.Proofs.Like.Patterns
import CatalogFilter.Proofs.Like.Spelling
import CatalogFilter.Proofs.Catalog.Resolution
import CatalogFilter.Proofs.Catalog.Validation
import CatalogFilter.Proofs.Criterion.RoundTrip
import CatalogFilter.Proofs.Criterion.Stability
import CatalogFilter.Proofs.Join.Dependency
import CatalogFilter.Proofs.Join.Emission
import CatalogFilter.Proofs.Session.Invariant
import CatalogFilter.Proofs.Join.Acceptance
import CatalogFilter.Proofs.Join.Reach
import CatalogFilter.Proofs.Schema.Pruning
import CatalogFilter.Proofs.Schema.Availability
import CatalogFilter.Proofs.Session.ExistingTables
import CatalogFilter.Proofs.Criterion.Meaning
import CatalogFilter.Proofs.Criterion.Inverse
import CatalogFilter.Proofs.Criterion.PatternTerms
import CatalogFilter.Proofs.Criterion.LikeClauses
import CatalogFilter.Proofs.Criterion.Comparisons
import CatalogFilter.Proofs.Expr.Ranges
import CatalogFilter.Proofs.Expr.Flatness
import CatalogFilter.Proofs.Criterion.Containment
import CatalogFilter.Proofs.Session.Columns
import CatalogFilter.Proofs.Statement.Names
import CatalogFilter.Proofs.Json.Leaves
import CatalogFilter.Proofs.Json.RoundTrip
import CatalogFilter.Proofs.Statement.Columns
import CatalogFilter.Proofs.Json.Stored
import CatalogFilter.Proofs.Token.Progress
import CatalogFilter.Proofs.Expr.Resuming
import CatalogFilter.Proofs.Join.Agreement
