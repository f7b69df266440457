import HostProfile.Text.Blank
import HostProfile.Text.Lowercase
import HostProfile.Text.Quoted
import HostProfile.Version
import HostProfile.Directive
import HostProfile.OrderedMap
import HostProfile.Context.Token
import HostProfile.Context.Parser
import HostProfile.Context.Stored
import HostProfile.Json.Reader
import HostProfile.Resource
import HostProfile.Package
import HostProfile.Digest
import HostProfile.Order
import HostProfile.MergeRules
import HostProfile.Change
import HostProfile.MergeError
import HostProfile.Report
import HostProfile.Config.Loader
import HostProfile.Proofs.KeyedTable.Refinement
import HostProfile.Proofs.Packages.SetAndList
import HostProfile.Proofs.Identity
import HostProfile.Proofs.Packages.Directives
import HostProfile.Proofs.Profile.Distinct
import HostProfile.Proofs.FailedMerge
import HostProfile.Proofs.Chain.Change
import HostProfile.Proofs.Profile.Contexts
import HostProfile.Proofs.Signature
import HostProfile.Proofs.MergeOrder
import HostProfile.Proofs.Layers.Contents
import HostProfile.Proofs.BulkMerge
import HostProfile.Proofs.Layers.Again
import HostProfile.Proofs.ComponentSet.Environment
import HostProfile.Proofs.Context.RoundTrip
import HostProfile.Proofs.Segments
import HostProfile.Proofs.Squash
import HostProfile.Proofs.Representation
import HostProfile.Proofs.Refusal
import HostProfile.Proofs.Config.Text
import HostProfile.Proofs.Context.Value
import HostProfile.Proofs.Latest
import HostProfile.Proofs.KeyedTable.Growth
import HostProfile.Proofs.SortedOutput
import HostProfile.Proofs.Agreement
import HostProfile.Proofs.Pruning
import HostProfile.Proofs.Keys
import HostProfile.Proofs.Stored
import HostProfile.Proofs.Config.Readings
