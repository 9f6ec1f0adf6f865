import MeshProbe.Json.Parser
import MeshProbe.Json.Printer
import MeshProbe.Url.Parser
import MeshProbe.Api.Operation
import MeshProbe.Environment
import MeshProbe.Wait.Script
import MeshProbe.Wait.Counter
import MeshProbe.Graph.Wait
import MeshProbe.Api.Canned
import MeshProbe.Api.Client
import MeshProbe.ClusterRole.Template
import MeshProbe.Environment.Load
import MeshProbe.Cluster.Tool
import MeshProbe.ClusterRole.Fetch
import MeshProbe.Session
import MeshProbe.Main
import MeshProbe.Proofs.Wait.Attempts
import MeshProbe.Proofs.Wait.Timeline
import MeshProbe.Proofs.Wait.Course
import MeshProbe.Proofs.Action
import MeshProbe.Proofs.Api.Exchange
import MeshProbe.Proofs.Graph.BadgeWait
import MeshProbe.Proofs.Wait.Cancellation
import MeshProbe.Proofs.Cluster.Manifest
import MeshProbe.Proofs.Cluster.Sweep
import MeshProbe.Proofs.Session.Operations
import MeshProbe.Proofs.Session.Tracking
import MeshProbe.Proofs.Session.Removal
import MeshProbe.Proofs.Session.Lifecycle
import MeshProbe.Proofs.Api.Address
import MeshProbe.Proofs.Api.Request
import MeshProbe.Proofs.Api.Unambiguous
import MeshProbe.Proofs.Api.PathText
import MeshProbe.Proofs.Json.Roundtrip
import MeshProbe.Proofs.CommandLine.Call
import MeshProbe.Proofs.CommandLine.Cleanup
import MeshProbe.Proofs.Session.Bookkeeping
import MeshProbe.Proofs.Wait.Independence
import MeshProbe.Proofs.Wait.Counter
import MeshProbe.Proofs.ClusterRole.Lines
import MeshProbe.Proofs.ClusterRole.Rendered
import MeshProbe.Proofs.Api.BaseAddress
import MeshProbe.Proofs.Api.Refusal
import MeshProbe.Proofs.Api.JsonAnswer
import MeshProbe.Proofs.Cluster.Outcome
import MeshProbe.Proofs.ClusterRole.Fetch
import MeshProbe.Proofs.Environment.Mapping
