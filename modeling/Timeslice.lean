import Timeslice.Cluster.Service
import Timeslice.Exchange.Script
import Timeslice.Schema.Codec
import Timeslice.Schema.Ddl
import Timeslice.Session.Basic
import Timeslice.Proofs.Command.Naming
import Timeslice.Proofs.Number.DecimalText
import Timeslice.Proofs.Data.Rows
import Timeslice.Proofs.Time.Cutting
import Timeslice.Proofs.Predicate.Lexing
import Timeslice.Proofs.Predicate.Descent
import Timeslice.Proofs.Predicate.Grouping
import Timeslice.Proofs.Predicate.Composing
import Timeslice.Proofs.Predicate.Extraction
import Timeslice.Proofs.Predicate.QuotedNames
import Timeslice.Proofs.Predicate.Semicolons
import Timeslice.Proofs.Predicate.Bounds
import Timeslice.Proofs.Predicate.Dates
import Timeslice.Proofs.Schema.DefinitionText
import Timeslice.Proofs.Query.Answering
import Timeslice.Proofs.Query.Resolving
import Timeslice.Proofs.Query.TimeOrder
import Timeslice.Proofs.Query.Merging
import Timeslice.Proofs.Query.Clauses
import Timeslice.Proofs.Session.Outcome
import Timeslice.Proofs.Session.Deadline
import Timeslice.Proofs.Session.Settling
import Timeslice.Proofs.Session.Ending
import Timeslice.Proofs.Session.Selected
import Timeslice.Proofs.Session.Tracing
import Timeslice.Proofs.Cluster.Refinement
import Timeslice.Proofs.Cluster.Ending
import Timeslice.Proofs.Cluster.Spans
import Timeslice.Proofs.Cluster.Effects
import Timeslice.Proofs.Cluster.Definitions
import Timeslice.Proofs.Cluster.Listing
import Timeslice.Proofs.Cluster.InFlight
import Timeslice.Proofs.Time.Specs
import Timeslice.Proofs.Predicate.Culprits
import Timeslice.Proofs.Json.Forms
