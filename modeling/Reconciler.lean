import Reconciler.Main
import Reconciler.Yaml.Writer
import Reconciler.Yaml.Reader
import Reconciler.Inventory.Listing
import Reconciler.Json.Reader
import Reconciler.Json.Writer
import Reconciler.Run.Listing
import Reconciler.Run.Stages
import Reconciler.Proofs.Document.Path
import Reconciler.Proofs.Document.Alike
import Reconciler.Proofs.Resource
import Reconciler.Proofs.Batch
import Reconciler.Proofs.Writes
import Reconciler.Proofs.TypeName
import Reconciler.Proofs.Manifest
import Reconciler.Proofs.Inventory.Entries
import Reconciler.Proofs.Inventory.Survey
import Reconciler.Proofs.Inventory.Plan
import Reconciler.Proofs.Run.Commit
import Reconciler.Proofs.Run.Children
import Reconciler.Proofs.Run.Reconcile
import Reconciler.Proofs.Inventory.Readiness
import Reconciler.Proofs.Run.Generation
import Reconciler.Proofs.Gating
import Reconciler.Proofs.Run.Outcome
import Reconciler.Proofs.Convergence
import Reconciler.Proofs.Run.Settled
import Reconciler.Proofs.Run.Rerun
import Reconciler.Proofs.Run.Response
import Reconciler.Proofs.Run.Renewal
import Reconciler.Proofs.Run.Fate
import Reconciler.Proofs.Run.Final
import Reconciler.Proofs.Run.Again
import Reconciler.Proofs.Run.FixedPoint
import Reconciler.Proofs.Terminal
import Reconciler.Proofs.Run.Dispute
import Reconciler.Proofs.Idempotence
import Reconciler.Proofs.Run.Passage
import Reconciler.Proofs.Run.States
import Reconciler.Proofs.Frame
import Reconciler.Proofs.Survival
import Reconciler.Proofs.Return
import Reconciler.Proofs.Agreement
import Reconciler.Proofs.Pending
import Reconciler.Proofs.Tally
import Reconciler.Proofs.Run.Callback
import Reconciler.Proofs.Isolation
import Reconciler.Proofs.Spelling
import Reconciler.Proofs.Run.Watches
import Reconciler.Proofs.Abort
import Reconciler.Proofs.Blocking
import Reconciler.Proofs.Run.Notices
import Reconciler.Proofs.Misdeclared
import Reconciler.Proofs.Overwriting
import Reconciler.Proofs.Inventory.Census
import Reconciler.Proofs.Census
import Reconciler.Proofs.Reordering
import Reconciler.Proofs.Inventory.Representation
import Reconciler.Proofs.Representation
import Reconciler.Proofs.Report
import Reconciler.Proofs.Rejection
import Reconciler.Proofs.Settlement
import Reconciler.Proofs.Document.Sorted
import Reconciler.Proofs.Encoding
import Reconciler.Proofs.Storage
import Reconciler.Proofs.Run.Handling
import Reconciler.Proofs.Completion
import Reconciler.Proofs.Rendition
import Reconciler.Proofs.Retirement
import Reconciler.Proofs.Edits
import Reconciler.Proofs.Rewriting
import Reconciler.Proofs.Repetition
import Reconciler.Proofs.Placement
import Reconciler.Proofs.Document.NormalForm
import Reconciler.Proofs.Rounding
import Reconciler.Proofs.Integers
import Reconciler.Proofs.Access
import Reconciler.Proofs.Inspection
import Reconciler.Proofs.Announcement
import Reconciler.Proofs.Declaration
import Reconciler.Proofs.Coordinate
import Reconciler.Proofs.Annotation
