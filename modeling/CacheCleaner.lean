import CacheCleaner.Pipeline.Flags
import CacheCleaner.Pipeline.Generations
import CacheCleaner.Pipeline.History
import CacheCleaner.Pipeline.Switches
import CacheCleaner.Pipeline.Cancelled
import CacheCleaner.Daemon.Tracking
import CacheCleaner.Daemon.Shutdown
import CacheCleaner.Daemon.SingleInstance
import CacheCleaner.Recovery.Restart
import CacheCleaner.Daemon.DryRun
import CacheCleaner.Daemon.LiveAttempts
import CacheCleaner.Pipeline.Retention
import CacheCleaner.Cli.Explain
import CacheCleaner.Catalog.Generations
import CacheCleaner.Catalog.Gateway
import CacheCleaner.Executor.Pause
import CacheCleaner.Pipeline.Freshness
import CacheCleaner.Daemon.Copies
import CacheCleaner.Daemon.ScreenOff
import CacheCleaner.Ipc.Wire
import CacheCleaner.Engine.Topology
import CacheCleaner.Executor.Reopen
import CacheCleaner.Engine.Complete
import CacheCleaner.Store.Batch
import CacheCleaner.Store.ReadBack
import CacheCleaner.Runtime.Verdict
import CacheCleaner.Store.Leases
import CacheCleaner.Store.Idempotency
import CacheCleaner.Runtime.Resource
import CacheCleaner.Domain.Job
import CacheCleaner.Idle.Manager
import CacheCleaner.Runtime.TokenBucket
import CacheCleaner.Runtime.AuditLog
import CacheCleaner.Daemon.Clock
import CacheCleaner.Daemon.Published
import CacheCleaner.Hardware.Sysfs
