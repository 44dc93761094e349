import Pushdown.Graph.Run
import Pushdown.Main
import Pushdown.Report.Command
import Pushdown.Store.Scripted
import Pushdown.Tagged.Element
import Pushdown.Tagged.Expr
import Pushdown.Tagged.Filter
import Pushdown.Tagged.Step
import Pushdown.Proofs.Number.Rounding
import Pushdown.Proofs.Outcome
import Pushdown.Proofs.Predicate.Members
import Pushdown.Proofs.Predicate.Total
import Pushdown.Proofs.Plan.Absorption
import Pushdown.Proofs.Predicate.StoredIds
import Pushdown.Proofs.Plan.Planning
import Pushdown.Proofs.Value.StoreComparison
import Pushdown.Proofs.Filter.Monotonicity
import Pushdown.Proofs.Filter.Evaluation
import Pushdown.Proofs.Filter.Superset
import Pushdown.Proofs.Identity.Encoding
import Pushdown.Proofs.Identity.RoundTrip
import Pushdown.Proofs.Graph.Documents
import Pushdown.Proofs.Graph.Rewriting
import Pushdown.Proofs.Graph.Folding
import Pushdown.Proofs.Plan.Placement
import Pushdown.Proofs.Plan.Rejection
import Pushdown.Proofs.Store.Reading
import Pushdown.Proofs.Filter.Quoting
import Pushdown.Proofs.Filter.Pieces
import Pushdown.Proofs.Filter.Rendering
import Pushdown.Proofs.Filter.Letters
import Pushdown.Proofs.Store.Openings
import Pushdown.Proofs.Store.Answers
import Pushdown.Proofs.Store.Scans
import Pushdown.Proofs.Store.Neighborhoods
import Pushdown.Proofs.Store.Recognition
import Pushdown.Proofs.Entries.Order
import Pushdown.Proofs.Value.Narrowing
import Pushdown.Proofs.Identity.Creation
import Pushdown.Proofs.Store.Writing
import Pushdown.Proofs.Graph.Additions
import Pushdown.Proofs.Graph.ReadBack
import Pushdown.Proofs.Graph.Labels
import Pushdown.Proofs.Filter.Tokens
import Pushdown.Proofs.Plan.QueryTokens
import Pushdown.Proofs.Language.Completeness
import Pushdown.Proofs.Language.Printing
import Pushdown.Proofs.Runs
import Pushdown.Proofs.Store.Calls
import Pushdown.Proofs.Store.ReadCollections
import Pushdown.Proofs.Graph.Variables
import Pushdown.Proofs.Graph.Calls
import Pushdown.Proofs.Graph.Records
import Pushdown.Proofs.Graph.Writes
import Pushdown.Proofs.Graph.Scanning
import Pushdown.Proofs.Graph.Faults
import Pushdown.Proofs.Graph.Visibility
import Pushdown.Proofs.Graph.Reopening
import Pushdown.Proofs.Entries.Names
import Pushdown.Proofs.Predicate.Narrowing
import Pushdown.Proofs.Traversal.Texts
import Pushdown.Proofs.Text.Parts
import Pushdown.Proofs.Config.Definitions
import Pushdown.Proofs.Serial.Lists
import Pushdown.Proofs.Json.Spelling
import Pushdown.Proofs.Config.Normalization
import Pushdown.Proofs.Config.Saving
import Pushdown.Proofs.Graph.Kinds
import Pushdown.Proofs.Graph.Fields
import Pushdown.Proofs.Graph.Repetition
import Pushdown.Proofs.Graph.Updates
import Pushdown.Proofs.Graph.Neighbors
import Pushdown.Proofs.Filter.Constructors
import Pushdown.Proofs.Plan.Exactness
import Pushdown.Proofs.Store.Keys
import Pushdown.Proofs.Predicate.IdEncodings
import Pushdown.Proofs.Value.Literals
import Pushdown.Proofs.Graph.Pulling
import Pushdown.Proofs.Language.Meaning
import Pushdown.Proofs.Language.Steps
import Pushdown.Proofs.Language.Coverage
import Pushdown.Proofs.Config.Completion
import Pushdown.Proofs.Language.Snippets
import Pushdown.Proofs.Language.ErrorSpans
import Pushdown.Proofs.Graph.Versions
import Pushdown.Proofs.Language.Positions
