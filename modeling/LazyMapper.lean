import LazyMapper.Report
import LazyMapper.Proofs.Loader.Nesting
import LazyMapper.Proofs.Loader.Indexing
import LazyMapper.Proofs.Loader.Grammar
import LazyMapper.Proofs.Loader.Chains
import LazyMapper.Proofs.Loader.Roots
import LazyMapper.Proofs.Plan.Merging
import LazyMapper.Proofs.Plan.Refusing
import LazyMapper.Proofs.Plan.Expansion
import LazyMapper.Proofs.Statement.Resolving
import LazyMapper.Proofs.Statement.Scoping
import LazyMapper.Proofs.Statement.Paths
import LazyMapper.Proofs.Statement.Scopes
import LazyMapper.Proofs.Statement.Labelling
import LazyMapper.Proofs.Statement.Selection
import LazyMapper.Proofs.Sql.Placeholders
import LazyMapper.Proofs.Sql.Grouping
import LazyMapper.Proofs.Session.Retention
import LazyMapper.Proofs.Session.Expiration
import LazyMapper.Proofs.Session.Transparency
import LazyMapper.Proofs.Session.Fetching
import LazyMapper.Proofs.Session.Transactions
import LazyMapper.Proofs.Session.Failing
import LazyMapper.Proofs.Session.Merging
import LazyMapper.Proofs.Session.Consistency
import LazyMapper.Proofs.Session.Attachment
import LazyMapper.Proofs.Session.Versions
import LazyMapper.Proofs.Session.Agreement
import LazyMapper.Proofs.Session.Refreshing
import LazyMapper.Proofs.Session.Absorption
import LazyMapper.Proofs.Session.Lifecycle
import LazyMapper.Proofs.Session.Lookups
import LazyMapper.Proofs.Session.Identities
import LazyMapper.Proofs.Session.Separation
import LazyMapper.Proofs.Session.Naming
import LazyMapper.Proofs.Session.Related
import LazyMapper.Proofs.Session.Selecting
import LazyMapper.Proofs.Attribute.Changing
import LazyMapper.Proofs.Row.Stripping
import LazyMapper.Proofs.Session.Counting
import LazyMapper.Proofs.Entity.Configuring
