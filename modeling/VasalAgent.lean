import VasalAgent.Async.Prog
import VasalAgent.Async.Monitor
import VasalAgent.Async.Pool
import VasalAgent.Async.History
import VasalAgent.Async.Interpret
import VasalAgent.Async.Ledger
import VasalAgent.Async.Mutex
import VasalAgent.Async.Ownership
import VasalAgent.Async.Environment
import VasalAgent.Async.Crash
import VasalAgent.Async.Guard
import VasalAgent.Async.Holders
import VasalAgent.Async.Relational
import VasalAgent.Stream.Incremental
import VasalAgent.Arith.Binary64
import VasalAgent.Text.Utf8
import VasalAgent.Text.Words
import VasalAgent.Protocol.Json
import VasalAgent.Serde.Number
import VasalAgent.Serde.Value
import VasalAgent.Serde.Codec
import VasalAgent.Serde.Record
import VasalAgent.Serde.Text
import VasalAgent.Serde.Pretty
import VasalAgent.Protocol.Task
import VasalAgent.Protocol.TaskCodec
import VasalAgent.Protocol.Sidecar
import VasalAgent.Protocol.JsonRpc
import VasalAgent.Sdk.Codec
import VasalAgent.Sdk.Server
import VasalAgent.Sdk.Texts
import VasalAgent.Sdk.Listening
import VasalAgent.Task.Effects
import VasalAgent.Task.Shell
import VasalAgent.Task.Truncation
import VasalAgent.Task.Sidecar
import VasalAgent.Task.Chain
import VasalAgent.Task.Internal
import VasalAgent.Task.World
import VasalAgent.Task.WellFormed
import VasalAgent.Task.Secrecy
import VasalAgent.Task.ChainRuns
import VasalAgent.Task.ChainLaws
import VasalAgent.Task.Polling
import VasalAgent.Task.Injection
import VasalAgent.Task.Deadlines
import VasalAgent.Task.Results
import VasalAgent.Sdk.EndToEnd
import VasalAgent.Sdk.Answered
import VasalAgent.Sdk.Classification
import VasalAgent.Task.Providers
import VasalAgent.Transport.Poll
import VasalAgent.Agent.Effects
import VasalAgent.Agent.Manager
import VasalAgent.Agent.Main
import VasalAgent.Agent.Programs
import VasalAgent.Agent.System
import VasalAgent.Agent.Registration
import VasalAgent.Agent.Displaced
import VasalAgent.Agent.Cancellation
import VasalAgent.Agent.Pipeline
import VasalAgent.Agent.Dispatch
import VasalAgent.Agent.Shutdown
import VasalAgent.Agent.PollLoop
import VasalAgent.Agent.Permits
import VasalAgent.Agent.Reload
import VasalAgent.Agent.Progress
import VasalAgent.Agent.Counts
import VasalAgent.Agent.AuditTrail
import VasalAgent.Agent.Ticks
import VasalAgent.Agent.WellFormed
import VasalAgent.Agent.Secrecy
import VasalAgent.Agent.Journal
import VasalAgent.Auth.TokenStore
import VasalAgent.Auth.Expiry
import VasalAgent.Auth.Rotation
import VasalAgent.Audit.Forwarder
import VasalAgent.Audit.Delivery
import VasalAgent.Audit.Accounts
import VasalAgent.Transport.Grpc
import VasalAgent.Transport.GrpcMutex
import VasalAgent.Transport.GrpcDelivery
import VasalAgent.Transport.GrpcBackoff
import VasalAgent.Transport.GrpcLoop
import VasalAgent.Transport.WorkItems
import VasalAgent.Store.Table
import VasalAgent.Store.Disk
import VasalAgent.Store.Rowid
import VasalAgent.Units.Effects
import VasalAgent.Units.Health
import VasalAgent.Units.Lifecycle
import VasalAgent.Units.Footprint
import VasalAgent.Units.HealthGate
import VasalAgent.Units.Formats
import VasalAgent.Units.Truth
import VasalAgent.Units.LostUpdate
import VasalAgent.Units.Upgrade
import VasalAgent.Units.Custody
import VasalAgent.Units.HealthPass
import VasalAgent.Units.Vocabulary
import VasalAgent.Agent.Heartbeat
import VasalAgent.Agent.Metrics
import VasalAgent.Units.Declared
import VasalAgent.SelfUpgrade.Program
import VasalAgent.Auth.Bootstrap
import VasalAgent.SelfUpgrade.Consistency
import VasalAgent.SelfUpgrade.Reversal
import VasalAgent.Sidecars.Launch
import VasalAgent.Sidecars.Echo
import VasalAgent.Sidecars.Sql
import VasalAgent.Sidecars.SqlOutput
import VasalAgent.Sidecars.SqlHandler
import VasalAgent.Sidecars.SqlLocks
import VasalAgent.Sidecars.Observer
