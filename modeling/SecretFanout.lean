import SecretFanout.Main
import SecretFanout.Controller.Timeline
import SecretFanout.Cluster.Direct
import SecretFanout.Api.Prepared
import SecretFanout.Discovery.Client
import SecretFanout.Discovery.Wait
import SecretFanout.Proofs.Store
import SecretFanout.Proofs.Traffic
import SecretFanout.Proofs.MarkSafety
import SecretFanout.Proofs.Settled
import SecretFanout.Proofs.Contents
import SecretFanout.Proofs.Walk
import SecretFanout.Proofs.Reports
import SecretFanout.Proofs.Flow
import SecretFanout.Proofs.Rejection
import SecretFanout.Proofs.Convergence
import SecretFanout.Proofs.Wakeup
import SecretFanout.Proofs.Reentry
import SecretFanout.Proofs.Interruption
import SecretFanout.Proofs.Rings
import SecretFanout.Proofs.Rest
import SecretFanout.Proofs.Order
import SecretFanout.Proofs.Retry
import SecretFanout.Proofs.Chronicle
import SecretFanout.Proofs.Provenance
import SecretFanout.Proofs.Custody
import SecretFanout.Proofs.Footprint
import SecretFanout.Proofs.Rewriting
import SecretFanout.Proofs.Documents
import SecretFanout.Proofs.Validation
import SecretFanout.Proofs.Admission
import SecretFanout.Proofs.Schemas
import SecretFanout.Proofs.Grammar
import SecretFanout.Proofs.Range
import SecretFanout.Proofs.WholeSeconds
import SecretFanout.Proofs.Outcomes
import SecretFanout.Proofs.Literals
import SecretFanout.Proofs.ExactSelectors
import SecretFanout.Proofs.DefaultNames
import SecretFanout.Proofs.Edits
import SecretFanout.Proofs.Summaries
import SecretFanout.Proofs.Delays
import SecretFanout.Proofs.Recommendation
import SecretFanout.Proofs.Waiting
