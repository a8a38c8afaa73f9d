import TestOrch.Core.Effect
import TestOrch.Core.Except
import TestOrch.Core.Greedy
import TestOrch.Core.Markup
import TestOrch.Core.Pool
import TestOrch.Core.PosixPath
import TestOrch.Core.Table
import TestOrch.Core.Transition
import TestOrch.Shared.PyValue
import TestOrch.Shared.Json
import TestOrch.Shared.Validation
import TestOrch.Shared.Schemas
import TestOrch.Shared.BundleTransport
import TestOrch.Shared.BundleDecoding
import TestOrch.Shared.HostStats
import TestOrch.Shared.PyFormat
import TestOrch.Backend.Models
import TestOrch.Backend.Scheduler
import TestOrch.Backend.Maintenance
import TestOrch.Backend.SweepPair
import TestOrch.Backend.StatusRender
import TestOrch.Backend.RowMarkup
import TestOrch.Backend.PollState
import TestOrch.Backend.PollRun
import TestOrch.Backend.PollReplies
import TestOrch.Backend.PollRows
import TestOrch.Backend.InfluxLog
import TestOrch.Backend.WsAdmin
import TestOrch.Worker.DockerEngine
import TestOrch.Worker.Tasks
import TestOrch.Worker.StoredVerdict
import TestOrch.Worker.TranslationLayer
import TestOrch.System.World
import TestOrch.System.Submit
import TestOrch.System.Task
import TestOrch.System.Inventory
import TestOrch.System.Sweep
import TestOrch.System.Step
import TestOrch.System.Placement
import TestOrch.System.SoloSubmit
import TestOrch.System.AuditRow
import TestOrch.System.DispatchCalls
import TestOrch.System.Verdicts
import TestOrch.System.SweepRace
import TestOrch.System.Stranded
import TestOrch.System.Completion
import TestOrch.System.Redelivery
import TestOrch.System.Locks
import TestOrch.System.Conservation
import TestOrch.System.Capacity
import TestOrch.System.SlotAccount
import TestOrch.System.HostRows
import TestOrch.System.Gauge
import TestOrch.System.Reservations
import TestOrch.System.LogStreams
import TestOrch.System.HeartbeatQueue
import TestOrch.Backend.HtmlEscape
import TestOrch.Core.Separated
import TestOrch.System.TagStrings
import TestOrch.Backend.LdapAuth
import TestOrch.Backend.Sessions
import TestOrch.Worker.LogSinks
import TestOrch.Core.Lines
import TestOrch.Shared.PyInt
import TestOrch.Worker.ConfigFiles
import TestOrch.Worker.PytestConfig
import TestOrch.Worker.ReportStatus
import TestOrch.Worker.RobotArgs
import TestOrch.Backend.LdapQuery
import TestOrch.Core.Chunks
import TestOrch.Worker.LogChunks
import TestOrch.Backend.PollTasks
import TestOrch.Core.Fanout
import TestOrch.System.LiveLogs
import TestOrch.System.PollDelivery
import TestOrch.System.AtomicDispatch
import TestOrch.System.AuditTrail
import TestOrch.System.CapableHosts
import TestOrch.System.Serializable
import TestOrch.System.AccessControl
import TestOrch.System.DeadHosts
import TestOrch.Core.Simulation
import TestOrch.System.SoloTask
import TestOrch.System.Deadlock
