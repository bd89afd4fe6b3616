import Libdeno.Library.Transition
import Libdeno.Library.BigEndian
import Libdeno.Library.Reader
import Libdeno.Library.Channel
import Libdeno.Library.Text
import Libdeno.Library.History
import Libdeno.Supervisor.Frame
import Libdeno.Supervisor.TerminalMapping
import Libdeno.Supervisor.Json
import Libdeno.Supervisor.Transport
import Libdeno.Supervisor.Codec
import Libdeno.Supervisor.SessionRuns
import Libdeno.Supervisor.RequestFirst
import Libdeno.Supervisor.ChildExit
import Libdeno.Supervisor.TerminalTail
import Libdeno.Supervisor.Drivers
import Libdeno.Supervisor.StartBarrier
import Libdeno.Supervisor.CrossingCancel
import Libdeno.Library.Pool
import Libdeno.Executor.DispatchOrder
import Libdeno.Executor.Lifecycle
import Libdeno.Executor.Manager
import Libdeno.Executor.Shutdown
import Libdeno.Executor.Classification
import Libdeno.Executor.Reasons
import Libdeno.Runs.Workers
import Libdeno.Runs.RunLease
import Libdeno.Runs.Exclusive
import Libdeno.Runs.WorkerRegistry
import Libdeno.Supervisor.RunResult
import Libdeno.Supervisor.HandshakeExpiry
import Libdeno.Runtime.SharedStack
import Libdeno.Http.NpmDownload
import Libdeno.Library.Lines
import Libdeno.Library.Scan
import Libdeno.Library.Json
import Libdeno.Broker.RequestId
import Libdeno.Broker.Line
import Libdeno.Broker.Connection
import Libdeno.Snapshot.Table
import Libdeno.Snapshot.Manifest
import Libdeno.Snapshot.Bundle
import Libdeno.Snapshot.Compat
import Libdeno.Snapshot.Publication
import Libdeno.Snapshot.Import
import Libdeno.Analysis.ModuleInfoCache
import Libdeno.Limits.Termination
import Libdeno.Graph.FrozenLockfile
import Libdeno.NpmCache.Url
import Libdeno.NpmCache.Identity
import Libdeno.NpmCache.References
import Libdeno.NpmCache.Manifest
import Libdeno.NpmCache.Stability
import Libdeno.Broker.Stream
import Libdeno.Entry.PackageMain
import Libdeno.Http.Retries
import Libdeno.Library.FifoMap
import Libdeno.Library.Framing
import Libdeno.Library.Grants
import Libdeno.Library.JsonText
import Libdeno.Library.JsonValue
import Libdeno.Limits.Budget
import Libdeno.NpmCache.CanonicalJson
import Libdeno.NpmCache.SnapshotCache
import Libdeno.Library.Relay
import Libdeno.Library.Worklist
import Libdeno.Output.Capture
import Libdeno.Permissions.Flags
import Libdeno.Snapshot.CargoArgs
import Libdeno.Snapshot.DependencyGraph
import Libdeno.Snapshot.Generation
import Libdeno.Snapshot.Residuals
import Libdeno.Library.Hoare
import Libdeno.Library.Descriptors
import Libdeno.Library.Hex
import Libdeno.Library.Latch
import Libdeno.Output.Restored
import Libdeno.Supervisor.Token
import Libdeno.Subprocess.Request
import Libdeno.Subprocess.Child
import Libdeno.Subprocess.Legacy
import Libdeno.Subprocess.Supervised
import Libdeno.Runtime.ThreadMessaging
import Libdeno.Executor.ResultCell
import Libdeno.Limits.WaitRequested
import Libdeno.Limits.NodeIpc
import Libdeno.NpmCache.Provenance
import Libdeno.Executor.Dispatch
import Libdeno.Broker.Install
import Libdeno.Runs.Captured
import Libdeno.Runtime.ReadAuthority
import Libdeno.Subprocess.ProcessTree
import Libdeno.Output.Redirect
