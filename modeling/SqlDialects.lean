import SqlDialects.Collection.Run
import SqlDialects.Main
import SqlDialects.Proofs.Acceptance
import SqlDialects.Proofs.Attachments
import SqlDialects.Proofs.BareColumns
import SqlDialects.Proofs.Calls
import SqlDialects.Proofs.Counting.Statements
import SqlDialects.Proofs.Formats.QuotedText
import SqlDialects.Proofs.Formats.Specifiers
import SqlDialects.Proofs.Handles
import SqlDialects.Proofs.Literals.Statements
import SqlDialects.Proofs.Lowering.Aggregates
import SqlDialects.Proofs.Lowering.Counts
import SqlDialects.Proofs.Lowering.Faults
import SqlDialects.Proofs.Lowering.Grouping
import SqlDialects.Proofs.Lowering.JoinClauses
import SqlDialects.Proofs.Lowering.PathRows
import SqlDialects.Proofs.Lowering.Qualifiers
import SqlDialects.Proofs.Lowering.Resolution
import SqlDialects.Proofs.Lowering.SelectedQueries
import SqlDialects.Proofs.Lowering.Spelling
import SqlDialects.Proofs.Overrides
import SqlDialects.Proofs.Placeholders
import SqlDialects.Proofs.QuotedTokens
import SqlDialects.Proofs.Registrations
import SqlDialects.Proofs.Rendering.Arithmetic
import SqlDialects.Proofs.Rendering.Capabilities
import SqlDialects.Proofs.Rendering.ComparedRows
import SqlDialects.Proofs.Rendering.LikePatterns
import SqlDialects.Proofs.Rendering.Limits
import SqlDialects.Proofs.Rendering.Locks
import SqlDialects.Proofs.Rendering.NullOrder
import SqlDialects.Proofs.Rendering.Precedence
import SqlDialects.Proofs.Rendering.RowComparison
import SqlDialects.Proofs.Rendering.SetOperations
import SqlDialects.Proofs.Rendering.Statements
import SqlDialects.Proofs.Rendering.WellFormed
import SqlDialects.Proofs.Replay
import SqlDialects.Proofs.Schema.Columns
import SqlDialects.Proofs.Schema.Declarations
import SqlDialects.Proofs.Schema.Names
import SqlDialects.Proofs.Schema.Quoting
import SqlDialects.Proofs.Schema.Reversal
import SqlDialects.Proofs.Strategies
import SqlDialects.Proofs.Templates.Calls
import SqlDialects.Proofs.Templates.Written
import SqlDialects.Proofs.Transactions
import SqlDialects.Proofs.Upgrades
import SqlDialects.Proofs.Versions
import SqlDialects.Sql.Same
