import FilterSql.Text.Name
import FilterSql.Json.Printer
import FilterSql.Wire.Request
import FilterSql.Wire.Config
import FilterSql.Schema.Registry
import FilterSql.Repository
import FilterSql.Proofs.Parameters
import FilterSql.Proofs.Parameters.History
import FilterSql.Proofs.Failure
import FilterSql.Proofs.Statement.Pieces
import FilterSql.Proofs.Condition.Compiled
import FilterSql.Proofs.Condition.Naming
import FilterSql.Proofs.Condition.Pattern
import FilterSql.Proofs.Condition.Slots
import FilterSql.Proofs.Condition.Fault
import FilterSql.Proofs.Condition.Template
import FilterSql.Proofs.Condition.Leaves
import FilterSql.Proofs.Statement.Token
import FilterSql.Proofs.Statement.Binding
import FilterSql.Proofs.Condition.Positional
import FilterSql.Proofs.Condition.References
import FilterSql.Proofs.Sql.Token
import FilterSql.Proofs.Sql.Grammar
import FilterSql.Proofs.Condition.Tokens
import FilterSql.Proofs.Condition.Meaning
import FilterSql.Proofs.Condition.Alike
import FilterSql.Proofs.Query.Alike
import FilterSql.Proofs.Query.OrderBy
import FilterSql.Proofs.Query.Source
import FilterSql.Proofs.Query.Precedence
import FilterSql.Proofs.Query.Base
import FilterSql.Proofs.Store.Session
import FilterSql.Proofs.Query.Fetch
import FilterSql.Proofs.Repository.BaseParameters
import FilterSql.Proofs.Repository.Rejections
import FilterSql.Proofs.Repository.Keys
import FilterSql.Proofs.Repository.Deletion
import FilterSql.Proofs.Query.Bounds
import FilterSql.Proofs.Schema.Registry
import FilterSql.Proofs.Statement.Literal
import FilterSql.Proofs.Query.Literal
import FilterSql.Proofs.Json.Sorted
import FilterSql.Proofs.Wire.Filter
import FilterSql.Proofs.Wire.Request
import FilterSql.Proofs.Query.Unconstrained
import FilterSql.Proofs.Statement.Rebinding
import FilterSql.Proofs.Statement.Dialects
import FilterSql.Proofs.Condition.Renaming
import FilterSql.Proofs.Schema.History
import FilterSql.Proofs.Repository.Responses
