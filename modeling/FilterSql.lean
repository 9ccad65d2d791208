import FilterSql.Text.Blank
import FilterSql.Text.CaseData
import FilterSql.Text.Lower
import FilterSql.Binary64.Basic
import FilterSql.Binary64.Round
import FilterSql.Binary64.Shortest
import FilterSql.Time.Calendar
import FilterSql.Time.Instant
import FilterSql.Time.Timestamp
import FilterSql.Json.Source
import FilterSql.Json.Basic
import FilterSql.Json.Writer
import FilterSql.Encoding.Base64Url
import FilterSql.Name
import FilterSql.JsonPath
import FilterSql.Value
import FilterSql.Sql.Syntax
import FilterSql.Sql.Condition
import FilterSql.Sql.Statement
import FilterSql.Sql.JsonParameter
import FilterSql.Sql.Dialect
import FilterSql.Sql.Render
import FilterSql.ColumnKind
import FilterSql.Filter.Operand
import FilterSql.Filter.Basic
import FilterSql.Filter.Error
import FilterSql.Filter.Reader
import FilterSql.Filter.Template
import FilterSql.Settings
import FilterSql.Schema.Column
import FilterSql.Schema.Basic
import FilterSql.Compile.Operand
import FilterSql.Compile.Test
import FilterSql.Compile.Scope
import FilterSql.Compile.Filter
import FilterSql.Codec.Operand
import FilterSql.Sort.Basic
import FilterSql.Sort.Schema
import FilterSql.Sort.Cursor
import FilterSql.Sort.Keyset
import FilterSql.Sort.Page
import FilterSql.Execute.Connection
import FilterSql.Execute.Basic
import FilterSql.Execute.Batches
import FilterSql.Codec.Record
import FilterSql.Codec.Sort
import FilterSql.Codec.Page
import FilterSql.Codec.Settings
import FilterSql.Toml.Token
import FilterSql.Toml.Scalar
import FilterSql.Toml.Document
import FilterSql.Sort.Stable
import FilterSql.Execute.Script
import FilterSql.Proofs.Sql.Database
import FilterSql.Proofs.Sql.Evaluation
import FilterSql.Proofs.Sort.Stable
import FilterSql.Proofs.Sql.Conditions
import FilterSql.Proofs.Sql.Parts
import FilterSql.Proofs.Sql.Clauses
import FilterSql.Proofs.Sql.Placeholders
import FilterSql.Proofs.Sql.Numbering
import FilterSql.Proofs.Filter.Decision
import FilterSql.Proofs.Filter.Steps
import FilterSql.Proofs.Filter.Compilation
import FilterSql.Proofs.Filter.Negation
import FilterSql.Proofs.Sort.Order
import FilterSql.Proofs.Sort.Resolution
import FilterSql.Proofs.Sort.Keyset
import FilterSql.Proofs.Sort.Agreement
import FilterSql.Proofs.Sort.Statement
import FilterSql.Proofs.Sort.Walk
import FilterSql.Proofs.Filter.Likeness
import FilterSql.Proofs.Sql.Joins
import FilterSql.Proofs.Sql.Sight
import FilterSql.Proofs.Sql.Subquery
import FilterSql.Proofs.Filter.Visibility
import FilterSql.Proofs.Filter.Restriction
import FilterSql.Proofs.Sort.Succession
import FilterSql.Proofs.Binary64.Rounding
import FilterSql.Proofs.Binary64.Shortest
import FilterSql.Proofs.Encoding.Base64Url
import FilterSql.Proofs.Json.Escape
import FilterSql.Proofs.Json.Number
import FilterSql.Proofs.Json.RoundTrip
import FilterSql.Proofs.Sort.Cursor
import FilterSql.Proofs.Sql.Formula
import FilterSql.Proofs.Sql.Nesting
import FilterSql.Proofs.Sql.Precedence
import FilterSql.Proofs.Sql.Algebra
import FilterSql.Proofs.Filter.Depth
import FilterSql.Proofs.Filter.Dotted
import FilterSql.Proofs.Filter.Disjunction
import FilterSql.Proofs.Execute.Calls
import FilterSql.Proofs.Execute.Skipping
import FilterSql.Proofs.Execute.Trace
import FilterSql.Proofs.Filter.Image
import FilterSql.Proofs.Sort.Termination
import FilterSql.Proofs.Sql.Equality
import FilterSql.Proofs.Sql.Emission
import FilterSql.Proofs.Filter.Membership
import FilterSql.Proofs.Json.Place
import FilterSql.Proofs.Filter.Context
import FilterSql.Proofs.Filter.Integer
import FilterSql.Proofs.Sql.Faults
import FilterSql.Proofs.Execute.Batches
import FilterSql.Proofs.Sql.Bindings
import FilterSql.Proofs.Sort.FilterForm
import FilterSql.Proofs.Filter.Pattern
import FilterSql.Proofs.Binary64.Monotone
import FilterSql.Proofs.Sort.Preorder
import FilterSql.Proofs.Text.Lower
import FilterSql.Proofs.Filter.Folding
import FilterSql.Proofs.Filter.Trichotomy
import FilterSql.Proofs.Filter.Translation
import FilterSql.Proofs.Filter.Unknown
import FilterSql.Proofs.Json.FixedPath
import FilterSql.Proofs.Sql.Renumbering
import FilterSql.Proofs.Sql.Aggregates
import FilterSql.Proofs.Execute.Counting
import FilterSql.Proofs.Json.MemberPath
import FilterSql.Proofs.Sql.JsonParameter
import FilterSql.Proofs.Filter.AddedMember
import FilterSql.Proofs.Filter.WellFormed
import FilterSql.Proofs.Sort.Grammar
import FilterSql.Proofs.Sort.Request
