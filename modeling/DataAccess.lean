import DataAccess.Describe
import DataAccess.Filter.Criterion.Grammar
import DataAccess.Proofs.Filter.Acceptance
import DataAccess.Proofs.Filter.Faults
import DataAccess.Proofs.Filter.Meaning
import DataAccess.Proofs.Filter.Reading
import DataAccess.Proofs.Filter.Writing
import DataAccess.Proofs.Plan.Additions
import DataAccess.Proofs.Plan.Answering
import DataAccess.Proofs.Plan.Branching
import DataAccess.Proofs.Plan.Clauses
import DataAccess.Proofs.Plan.Conjunction
import DataAccess.Proofs.Plan.Merging
import DataAccess.Proofs.Query.Ordering
import DataAccess.Proofs.Query.Writing
import DataAccess.Proofs.Session.Fetching
import DataAccess.Proofs.Session.Interruption
import DataAccess.Proofs.Store.Calls
import DataAccess.Proofs.Store.Coherence
import DataAccess.Proofs.Store.Commitment
import DataAccess.Proofs.Store.Confinement
import DataAccess.Proofs.Store.Counting
import DataAccess.Proofs.Store.Deferral
import DataAccess.Proofs.Store.Entering
import DataAccess.Proofs.Store.Finding
import DataAccess.Proofs.Store.Loading
import DataAccess.Proofs.Store.Notices
import DataAccess.Proofs.Store.Paging
import DataAccess.Proofs.Store.Planning
import DataAccess.Proofs.Store.Updating
import DataAccess.Proofs.Store.Visibility
import DataAccess.Proofs.Value.Comparing
import DataAccess.Proofs.Value.Picking
import DataAccess.Query.OData
import DataAccess.Scalar.Instant
import DataAccess.Scalar.Uuid
import DataAccess.Store.Actions
import DataAccess.Value.Reader
import DataAccess.Wire.Entity
import DataAccess.Wire.Query
import DataAccess.Wire.Store
