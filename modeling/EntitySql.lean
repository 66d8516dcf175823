import EntitySql.Catalog.Json
import EntitySql.Catalog.Live
import EntitySql.Catalog.Snapshot
import EntitySql.Catalog.ViewText
import EntitySql.Client.Address
import EntitySql.Client.Answer
import EntitySql.Client.Basic
import EntitySql.Client.Cursor
import EntitySql.Client.Directory
import EntitySql.Client.Entity
import EntitySql.Client.Error
import EntitySql.Client.Options
import EntitySql.Client.Update
import EntitySql.CommandLine.Arguments
import EntitySql.CommandLine.Run
import EntitySql.Database.Catalog
import EntitySql.Database.Command
import EntitySql.Database.Connection
import EntitySql.Database.Datum
import EntitySql.Database.Definition
import EntitySql.Database.Fault
import EntitySql.Database.Formula
import EntitySql.Database.Gathering
import EntitySql.Database.Grammar.Expression
import EntitySql.Database.Grammar.Reading
import EntitySql.Database.Grammar.Statement
import EntitySql.Database.Names
import EntitySql.Database.Operation
import EntitySql.Database.Relation
import EntitySql.Database.Script
import EntitySql.Database.Table
import EntitySql.Database.Token
import EntitySql.Database.Writing
import EntitySql.Error
import EntitySql.Json.Reader
import EntitySql.Json.Writer
import EntitySql.Main
import EntitySql.Migration.Difference
import EntitySql.Migration.Plan
import EntitySql.Model.Basic
import EntitySql.Model.ColumnType
import EntitySql.Model.Mapping
import EntitySql.Model.Registry
import EntitySql.Number.Arithmetic
import EntitySql.Number.Double
import EntitySql.Number.Nearest
import EntitySql.Number.Numeral
import EntitySql.Number.Rounded
import EntitySql.Number.Shortest
import EntitySql.Query.Expr
import EntitySql.Query.Rows
import EntitySql.Query.Scope
import EntitySql.Query.Select
import EntitySql.Sql.Affinity
import EntitySql.Sql.Change
import EntitySql.Sql.Dialect
import EntitySql.Sql.Fragment
import EntitySql.Sql.Operation
import EntitySql.Sql.Operator
import EntitySql.Sql.Shipped
import EntitySql.Sql.Term
import EntitySql.Text.Alphanumeric
import EntitySql.Text.Ascii
import EntitySql.Text.Blank
import EntitySql.Text.Cased
import EntitySql.Text.Hex
import EntitySql.Text.Lowercase
import EntitySql.Text.Percent
import EntitySql.Text.Printable
import EntitySql.Text.Quoted
import EntitySql.Text.Ranges
import EntitySql.Time.Duration
import EntitySql.Time.Timestamp
import EntitySql.Value
import EntitySql.Proofs.Reading.Symbol
import EntitySql.Proofs.Reading.Term
import EntitySql.Proofs.Reading.Grammar
import EntitySql.Proofs.Grouping
import EntitySql.Proofs.Migration.Effect
import EntitySql.Proofs.Migration.Convergence
import EntitySql.Proofs.Query.Compiling
import EntitySql.Proofs.Query.Leaf
import EntitySql.Proofs.Reading.Marker
import EntitySql.Proofs.Query.Parameters
import EntitySql.Proofs.Query.Clauses
import EntitySql.Proofs.Query.Faults
import EntitySql.Proofs.Query.Masking
import EntitySql.Proofs.Query.Separation
import EntitySql.Proofs.Database.Lexing
import EntitySql.Proofs.Database.Lossless
import EntitySql.Proofs.Database.Yielding
import EntitySql.Proofs.Database.DefaultText
import EntitySql.Proofs.Database.Declaration
import EntitySql.Proofs.Database.Statement
import EntitySql.Proofs.Database.Effects
import EntitySql.Proofs.Database.Creation
import EntitySql.Proofs.Catalog.Report
import EntitySql.Proofs.Client.RoundTrip
import EntitySql.Proofs.Database.Consuming
import EntitySql.Proofs.Database.ChangeText
import EntitySql.Proofs.Client.Undoing
import EntitySql.Proofs.Database.Written
import EntitySql.Proofs.Database.Grouped
import EntitySql.Proofs.Database.Regrouping
import EntitySql.Proofs.Query.Precedence
import EntitySql.Proofs.Catalog.ViewText
import EntitySql.Proofs.Catalog.ViewTokens
import EntitySql.Proofs.Reading.Clause
import EntitySql.Proofs.Reading.Query
import EntitySql.Proofs.Query.Built
import EntitySql.Proofs.Query.Rereading
import EntitySql.Proofs.Outcome
import EntitySql.Proofs.Names
import EntitySql.Proofs.Model
import EntitySql.Proofs.Model.Groups
import EntitySql.Proofs.Model.Building
import EntitySql.Proofs.Model.Spelling
import EntitySql.Proofs.Registry.Sharing
import EntitySql.Proofs.Migration.Agreement
import EntitySql.Proofs.Migration.InPlace
import EntitySql.Proofs.Migration.Copying
import EntitySql.Proofs.Migration.Filling
import EntitySql.Proofs.Database.Selecting
import EntitySql.Proofs.Database.Inserting
import EntitySql.Proofs.Database.Storage
import EntitySql.Proofs.Database.Keeping
import EntitySql.Proofs.Database.IndexNames
import EntitySql.Proofs.Database.TableInvariant
import EntitySql.Proofs.Database.Numbering
import EntitySql.Proofs.Database.Shape
import EntitySql.Proofs.Database.CopyText
import EntitySql.Proofs.Database.ChangeReading
import EntitySql.Proofs.Query.RowText
import EntitySql.Proofs.Query.Relaxed
import EntitySql.Proofs.Query.Assembly
import EntitySql.Proofs.Client.Running
import EntitySql.Proofs.Client.Recovery
import EntitySql.Proofs.Client.Carrying
import EntitySql.Proofs.Client.Copying
import EntitySql.Proofs.Client.FreeNames
import EntitySql.Proofs.Catalog.Likeness
import EntitySql.Proofs.Client.Reporting
import EntitySql.Proofs.Client.Emptying
import EntitySql.Proofs.Reading.Splitting
import EntitySql.Proofs.Reading.Definition
import EntitySql.Proofs.Reading.TableText
import EntitySql.Proofs.Reading.Atom
import EntitySql.Proofs.Reading.Level
import EntitySql.Proofs.Names.Folding
import EntitySql.Proofs.Migration.Uniques
import EntitySql.Proofs.Migration.Respelling
import EntitySql.Proofs.Query.Writing
import EntitySql.Proofs.Query.Counting
import EntitySql.Proofs.Text.Quoting
import EntitySql.Proofs.Model.NativeType
import EntitySql.Proofs.Query.Appending
import EntitySql.Proofs.Catalog.ViewHead
import EntitySql.Proofs.Database.Extending
import EntitySql.Proofs.Database.Scanning
import EntitySql.Proofs.Database.Windows
import EntitySql.Proofs.Database.Legible
import EntitySql.Proofs.Query.Legible
import EntitySql.Proofs.Query.Paging
import EntitySql.Proofs.Client.Paging
