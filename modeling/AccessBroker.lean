import AccessBroker.Main
import AccessBroker.Proofs.AccessSpans
import AccessBroker.Proofs.Agreement
import AccessBroker.Proofs.Anteroom
import AccessBroker.Proofs.Approvals
import AccessBroker.Proofs.Approvers
import AccessBroker.Proofs.Artifacts
import AccessBroker.Proofs.Atomicity
import AccessBroker.Proofs.Audit
import AccessBroker.Proofs.Candidacy
import AccessBroker.Proofs.Checkpoints
import AccessBroker.Proofs.Chronicle
import AccessBroker.Proofs.Cleanup
import AccessBroker.Proofs.Columns
import AccessBroker.Proofs.Configuration
import AccessBroker.Proofs.Convergence
import AccessBroker.Proofs.Coverage
import AccessBroker.Proofs.Decisions
import AccessBroker.Proofs.Deletions
import AccessBroker.Proofs.Denials
import AccessBroker.Proofs.Expiry
import AccessBroker.Proofs.LateVotes
import AccessBroker.Proofs.Leadership
import AccessBroker.Proofs.Lifecycle
import AccessBroker.Proofs.Origins
import AccessBroker.Proofs.OwnGrants
import AccessBroker.Proofs.Resolution
import AccessBroker.Proofs.Retries
import AccessBroker.Proofs.Revocations
import AccessBroker.Proofs.Snapshots
import AccessBroker.Proofs.SpanNotation
import AccessBroker.Proofs.SpanPrecision
import AccessBroker.Proofs.Updates
import AccessBroker.Proofs.Watching
import AccessBroker.Proofs.Workshop
import AccessBroker.Simulation.Campaign
import AccessBroker.Simulation.QueueBench
import AccessBroker.Simulation.Tampering
