import JobBinding.CommandLine.Run
import JobBinding.Main
import JobBinding.Proofs.Gather.Isolation
import JobBinding.Proofs.Validation.Progress
import JobBinding.Proofs.Validation.Report
import JobBinding.Proofs.Verdict.Classify
import JobBinding.Proofs.Workflow.Actions
import JobBinding.Proofs.Workflow.Document
import JobBinding.Proofs.Gather.Transport
import JobBinding.Proofs.Files.Siblings
import JobBinding.Proofs.Rendezvous.Sharing
import JobBinding.Proofs.Gather.Rounds
import JobBinding.Proofs.Gather.Succession
import JobBinding.Proofs.Gather.Abandonment
import JobBinding.Proofs.Gather.Receiving
import JobBinding.Proofs.Verdict.Changes
import JobBinding.Proofs.Workflow.Places
import JobBinding.Proofs.Summary.Directory
import JobBinding.Proofs.Verdict.Count
import JobBinding.Proofs.Verdict.Alone
import JobBinding.Proofs.Verdict.Wording
import JobBinding.Proofs.Validation.Single
import JobBinding.Proofs.Scenario.Grant
import JobBinding.Proofs.Gather.Polling
import JobBinding.Proofs.Gather.Cleanup
import JobBinding.Proofs.Gather.Delivery
import JobBinding.Proofs.Binding.Device
import JobBinding.Proofs.Binding.UniqueId
import JobBinding.Proofs.Environment
import JobBinding.Proofs.Rendezvous.Names
import JobBinding.Proofs.Rendezvous.ReadBack
import JobBinding.Proofs.Rendezvous.Interleaving
import JobBinding.Proofs.CommandLine.Execute
import JobBinding.Proofs.Verdict.Observed
import JobBinding.Proofs.Workflow.Preparation
import JobBinding.Proofs.Cluster.Merging
