import Cronwatch.Jobs.Dependencies
import Cronwatch.Jobs.Dispatcher
import Cronwatch.Jobs.Lock
import Cronwatch.Alerts.RateLimit
import Cronwatch.Jobs.CircuitBreaker
import Cronwatch.Jobs.Scheduler
import Cronwatch.Jobs.SchedulerTicks
import Cronwatch.Jobs.Archiver
import Cronwatch.Jobs.SharedFiles
import Cronwatch.Jobs.Deadline
import Cronwatch.Theory.ExpiringMap
import Cronwatch.Silence.Mute
import Cronwatch.Silence.Pause
import Cronwatch.Silence.Suppression
import Cronwatch.Silence.Agreement
import Cronwatch.Alerts.HeartbeatMonitor
import Cronwatch.Alerts.Watchdog
import Cronwatch.Jobs.Pipeline
import Cronwatch.Jobs.Enabled
import Cronwatch.Jobs.Executor
import Cronwatch.Jobs.Backoff
import Cronwatch.Alerts.ElapsedTime
import Cronwatch.Jobs.Concurrency
import Cronwatch.Jobs.Timeout
import Cronwatch.Jobs.Runner
import Cronwatch.Jobs.CutShort
import Cronwatch.Jobs.Changelog
import Cronwatch.Jobs.Snapshot
import Cronwatch.Jobs.HistoryFiles
import Cronwatch.Alerts.Email
import Cronwatch.Alerts.Escalation
import Cronwatch.Alerts.RoutedOnce
import Cronwatch.Alerts.FailureCounters
import Cronwatch.Alerts.SLA
import Cronwatch.Alerts.LostAlerts
import Cronwatch.Alerts.EscalatedPipeline
import Cronwatch.Alerts.ChecksumRestart
import Cronwatch.Alerts.Attribution
import Cronwatch.Jobs.SnapshotReporter
import Cronwatch.Jobs.Quota
import Cronwatch.Alerts.SlidingWindows
import Cronwatch.Jobs.QuotaExecutor
import Cronwatch.Jobs.Readiness
import Cronwatch.Theory.KeyedBag
import Cronwatch.Jobs.QueuedOnce
import Cronwatch.Jobs.LockUsers
import Cronwatch.Theory.BoundedMap
import Cronwatch.Jobs.Tracing
import Cronwatch.Jobs.Audit
import Cronwatch.Jobs.TracingExecutor
import Cronwatch.Theory.Renamed
import Cronwatch.Jobs.HeartbeatStore
import Cronwatch.Alerts.HeartbeatFiles
import Cronwatch.Jobs.Retry
import Cronwatch.Theory.Highest
import Cronwatch.Alerts.EscalationLevels
import Cronwatch.Theory.Arc
import Cronwatch.Runtime.TimeOfDay
import Cronwatch.Jobs.Window
import Cronwatch.Theory.OrderStatistics
import Cronwatch.Jobs.Profiling
import Cronwatch.Jobs.ChangelogDiff
import Cronwatch.Theory.Buckets
import Cronwatch.Jobs.GroupReporter
import Cronwatch.Jobs.Metrics
import Cronwatch.Jobs.Reporter
import Cronwatch.Jobs.Secrets
import Cronwatch.Silence.PauseListing
import Cronwatch.Runtime.Files
import Cronwatch.Theory.FileTree
import Cronwatch.Jobs.LockFile
import Cronwatch.Theory.Utf8
import Cronwatch.Jobs.Output
import Cronwatch.Theory.SetOrder
import Cronwatch.Jobs.ConditionReporter
import Cronwatch.Theory.StableSort
import Cronwatch.Runtime.Yaml
import Cronwatch.Jobs.Metadata
import Cronwatch.Jobs.Priority
import Cronwatch.Jobs.Grouping
import Cronwatch.Jobs.Health
import Cronwatch.Jobs.Cost
import Cronwatch.Jobs.Retention
import Cronwatch.Jobs.MetadataReporter
import Cronwatch.Jobs.Ownership
import Cronwatch.Theory.FirstOccurrences
import Cronwatch.Jobs.Flattening
import Cronwatch.Jobs.Waves
import Cronwatch.Runtime.Fnmatch
import Cronwatch.Theory.Glob
import Cronwatch.Jobs.LoadConfig
import Cronwatch.Jobs.Selector
import Cronwatch.Jobs.Conditions
import Cronwatch.Jobs.ConditionalExecutor
import Cronwatch.Silence.PauseExecutor
import Cronwatch.Theory.Latch
import Cronwatch.Alerts.DeadlineDays
import Cronwatch.Alerts.GroupAlerts
import Cronwatch.Jobs.SchedulerResets
import Cronwatch.Jobs.Cooldown
import Cronwatch.Jobs.ChangelogReporter
import Cronwatch.Jobs.ProfilingStore
import Cronwatch.Alerts.SLAHistory
import Cronwatch.Theory.Pruning
import Cronwatch.Jobs.RetentionRuns
import Cronwatch.Alerts.TornHeartbeats
import Cronwatch.Theory.TextStore
import Cronwatch.Silence.SilenceFiles
import Cronwatch.Theory.AppendFile
import Cronwatch.Jobs.TornAudit
import Cronwatch.Jobs.MetricsEndpoint
import Cronwatch.Jobs.Labels
import Cronwatch.Silence.SharedPauses
import Cronwatch.Theory.ReadReplace
import Cronwatch.Jobs.OverlappingArchivers
import Cronwatch.Jobs.ArchiversApart
