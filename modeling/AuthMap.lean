import AuthMap.Event.Console
import AuthMap.Json.Parser
import AuthMap.Main
import AuthMap.Proofs.Arn
import AuthMap.Proofs.Identity
import AuthMap.Proofs.Cluster.Interleaving
import AuthMap.Proofs.Codec.Reports
import AuthMap.Proofs.Store.Halves
import AuthMap.Proofs.Store.Separation
import AuthMap.Proofs.Store.Refusal
import AuthMap.Proofs.Store.Principal
import AuthMap.Proofs.Store.Accounts
import AuthMap.Proofs.Store.Inverse
import AuthMap.Proofs.Cluster.Writes
import AuthMap.Proofs.Store.Assignment
import AuthMap.Proofs.Cluster.Commands
import AuthMap.Proofs.Cluster.Frame
import AuthMap.Proofs.Cluster.Preservation
import AuthMap.Proofs.Cli.ExitCode
import AuthMap.Proofs.Yaml.Blank
import AuthMap.Proofs.Codec.Entries
import AuthMap.Proofs.Cluster.NodeGroups
import AuthMap.Proofs.Arn.Parts
import AuthMap.Proofs.Redact.Hidden
import AuthMap.Proofs.Redact.Keys
import AuthMap.Proofs.Redact.Marked
import AuthMap.Proofs.Config
import AuthMap.Proofs.Cli.Overrides
import AuthMap.Proofs.Cli.Failures
import AuthMap.Proofs.Json.Strings
import AuthMap.Proofs.Json.RoundTrip
import AuthMap.Proofs.Yaml.Value
import AuthMap.Proofs.Cli.Listing
import AuthMap.Proofs.Cluster.Lifecycle
import AuthMap.Proofs.Cluster.Sparing
import AuthMap.Proofs.Store.AuditLog
import AuthMap.Proofs.Cli.Filter
import AuthMap.Proofs.Environment
import AuthMap.Proofs.Name
