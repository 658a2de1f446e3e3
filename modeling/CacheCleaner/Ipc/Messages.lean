import CacheCleaner.Json.Codec
import CacheCleaner.Pipeline.Program

namespace CacheCleaner.Ipc

open Json

/-! The messages between client and daemon, and their JSON as `serde` derives it:
field names and order as in the source, `F` for the `f32` fields. -/

abbrev U8 := BitVec 8
abbrev U32 := BitVec 32
abbrev U64 := BitVec 64
abbrev Usize := BitVec 64

variable {F : Type}

def u8 : Codec F U8 := .bits 8
def u32 : Codec F U32 := .bits 32
def u64 : Codec F U64 := .bits 64
def usize : Codec F Usize := .bits 64

theorem u64_solid : (u64 : Codec F U64).Solid := Codec.bits_solid

structure CleanParams where
  deep : Bool
  trim : Bool
  zramCompact : Bool
  dryRun : Bool
  deriving DecidableEq, Repr

inductive Command where
  | ping
  | triggerClean (params : CleanParams)
  | getStatus
  | getStats
  | getIdleAssessment
  | getJobStatus (jobId : U64)
  | cancel
  | reloadConfig
  | stopDaemon
  deriving DecidableEq, Repr

def CleanParams.fields : Record F CleanParams CleanParams :=
  Record.start CleanParams.mk
    |>.and "deep" (.defaulted .bool false) (·.deep)
    |>.and "trim" (.defaulted .bool false) (·.trim)
    |>.and "zram_compact" (.defaulted .bool false) (·.zramCompact)
    |>.and "dry_run" (.defaulted .bool false) (·.dryRun)

def CleanParams.codec : Codec F CleanParams :=
  CleanParams.fields.codec (by simp [fields]) fun _ => rfl

namespace Command

def name : Command → String
  | .ping => "Ping"
  | .triggerClean _ => "TriggerClean"
  | .getStatus => "GetStatus"
  | .getStats => "GetStats"
  | .getIdleAssessment => "GetIdleAssessment"
  | .getJobStatus _ => "GetJobStatus"
  | .cancel => "Cancel"
  | .reloadConfig => "ReloadConfig"
  | .stopDaemon => "StopDaemon"

def params : Command → Option (Value F)
  | .triggerClean params => some (CleanParams.codec.encode params)
  | .getJobStatus jobId => some (u64.encode jobId)
  | _ => none

def variant : String → Option (Variant F Command)
  | "Ping" => some (.unit .ping)
  | "TriggerClean" => some (.content fun value =>
    (CleanParams.codec.decode value).map .triggerClean)
  | "GetStatus" => some (.unit .getStatus)
  | "GetStats" => some (.unit .getStats)
  | "GetIdleAssessment" => some (.unit .getIdleAssessment)
  | "GetJobStatus" => some (.content fun value =>
    (u64.decode value).map .getJobStatus)
  | "Cancel" => some (.unit .cancel)
  | "ReloadConfig" => some (.unit .reloadConfig)
  | "StopDaemon" => some (.unit .stopDaemon)
  | _ => none

theorem variant_read (command : Command) :
    (variant (F := F) command.name).bind (·.read command.params) = some command := by
  cases command with
  | triggerClean params =>
    change (CleanParams.codec.decode ((CleanParams.codec (F := F)).encode params)).map _ = _
    rw [Codec.decode_encode]
    rfl
  | getJobStatus jobId =>
    change ((u64 (F := F)).decode (u64.encode jobId)).map _ = _
    rw [Codec.decode_encode]
    rfl
  | _ => rfl

def codec : Codec F Command where
  encode command := writeTagged "command" "params" command.name command.params
  decode := readTagged "command" "params" variant
  decode_encode command := (readTagged_writeTagged (by decide) variant).trans command.variant_read

end Command

structure StorageReport where
  totalFreedBytes : U64
  deletedFilesCount : Usize
  skippedFilesCount : Usize
  errorsCount : Usize
  appCacheBytes : U64
  oemLogsBytes : U64
  crashDumpsBytes : U64
  tempApksBytes : U64
  frozenAppsCleaned : Usize
  activeAppsCleaned : Usize
  deriving DecidableEq, Repr

structure MemoryReport where
  memoryCompacted : Bool
  zramCompacted : Bool
  cgroupMemoryReclaimed : Bool
  reclaimedMb : U64
  deriving DecidableEq, Repr

structure TrimReport where
  fstrimCompleted : Bool
  trimmedMounts : List String
  deriving DecidableEq, Repr

structure OptimizationReport where
  f2fsGcActivated : Bool
  deriving DecidableEq, Repr

structure PlanEntry where
  path : String
  category : String
  sizeBytes : U64
  reason : String
  deriving DecidableEq, Repr

structure CleanReport where
  storage : StorageReport
  memory : MemoryReport
  trim : TrimReport
  optimization : OptimizationReport
  durationMs : U64
  planEntries : Option (List PlanEntry)
  cancelReason : Option CancelReason
  totalFreedBytes : U64
  deletedFilesCount : Usize
  appCacheFreedBytes : U64
  oemLogsFreedBytes : U64
  crashDumpsFreedBytes : U64
  tempApksFreedBytes : U64
  skippedFilesCount : Usize
  errorsCount : Usize
  frozenAppsCleaned : Usize
  activeAppsCleaned : Usize
  memoryCompacted : Bool
  zramCompacted : Bool
  cgroupMemoryReclaimed : Bool
  fstrimCompleted : Bool
  deriving DecidableEq, Repr

def StorageReport.codec : Codec F StorageReport :=
  Record.codec (Record.start StorageReport.mk
      |>.and "total_freed_bytes" (.required u64) (·.totalFreedBytes)
      |>.and "deleted_files_count" (.required usize) (·.deletedFilesCount)
      |>.and "skipped_files_count" (.required usize) (·.skippedFilesCount)
      |>.and "errors_count" (.required usize) (·.errorsCount)
      |>.and "app_cache_bytes" (.required u64) (·.appCacheBytes)
      |>.and "oem_logs_bytes" (.required u64) (·.oemLogsBytes)
      |>.and "crash_dumps_bytes" (.required u64) (·.crashDumpsBytes)
      |>.and "temp_apks_bytes" (.required u64) (·.tempApksBytes)
      |>.and "frozen_apps_cleaned" (.required usize) (·.frozenAppsCleaned)
      |>.and "active_apps_cleaned" (.required usize) (·.activeAppsCleaned)) (by simp) fun _ => rfl

def MemoryReport.codec : Codec F MemoryReport :=
  Record.codec (Record.start MemoryReport.mk
      |>.and "memory_compacted" (.required .bool) (·.memoryCompacted)
      |>.and "zram_compacted" (.required .bool) (·.zramCompacted)
      |>.and "cgroup_memory_reclaimed" (.required .bool) (·.cgroupMemoryReclaimed)
      |>.and "reclaimed_mb" (.required u64) (·.reclaimedMb)) (by simp) fun _ => rfl

def TrimReport.codec : Codec F TrimReport :=
  Record.codec (Record.start TrimReport.mk
      |>.and "fstrim_completed" (.required .bool) (·.fstrimCompleted)
      |>.and "trimmed_mounts" (.required (.list .string)) (·.trimmedMounts)) (by simp) fun _ => rfl

def OptimizationReport.codec : Codec F OptimizationReport :=
  Record.codec (Record.start OptimizationReport.mk
      |>.and "f2fs_gc_activated" (.required .bool) (·.f2fsGcActivated)) (by simp) fun _ => rfl

def PlanEntry.codec : Codec F PlanEntry :=
  Record.codec (Record.start PlanEntry.mk
      |>.and "path" (.required .string) (·.path)
      |>.and "category" (.required .string) (·.category)
      |>.and "size_bytes" (.required u64) (·.sizeBytes)
      |>.and "reason" (.required .string) (·.reason)) (by simp) fun _ => rfl

def CancelReason.name : CancelReason → String
  | .screenOn => "screen_on"
  | .userActivity => "user_activity"
  | .thermalCritical => "thermal_critical"
  | .batteryLow => "battery_low"
  | .unplugged => "unplugged"
  | .shutdown => "shutdown"
  | .timeout => "timeout"
  | .manualCancel => "manual_cancel"

def CancelReason.codec : Codec F CancelReason :=
  .enumeration CancelReason.name
    [.screenOn, .userActivity, .thermalCritical, .batteryLow, .unplugged, .shutdown,
      .timeout, .manualCancel] fun reason => by cases reason <;> decide

theorem CancelReason.codec_solid : (codec : Codec F CancelReason).Solid := Codec.enumeration_solid

def CleanReport.fields : Record F CleanReport CleanReport :=
  Record.start CleanReport.mk
    |>.and "storage" (.required StorageReport.codec) (·.storage)
    |>.and "memory" (.required MemoryReport.codec) (·.memory)
    |>.and "trim" (.required TrimReport.codec) (·.trim)
    |>.and "optimization" (.required OptimizationReport.codec) (·.optimization)
    |>.and "duration_ms" (.required u64) (·.durationMs)
    |>.and "plan_entries" (.skipped (.list PlanEntry.codec) Codec.list_solid) (·.planEntries)
    |>.and "cancel_reason" (.skipped CancelReason.codec CancelReason.codec_solid) (·.cancelReason)
    |>.and "total_freed_bytes" (.required u64) (·.totalFreedBytes)
    |>.and "deleted_files_count" (.required usize) (·.deletedFilesCount)
    |>.and "app_cache_freed_bytes" (.required u64) (·.appCacheFreedBytes)
    |>.and "oem_logs_freed_bytes" (.required u64) (·.oemLogsFreedBytes)
    |>.and "crash_dumps_freed_bytes" (.required u64) (·.crashDumpsFreedBytes)
    |>.and "temp_apks_freed_bytes" (.required u64) (·.tempApksFreedBytes)
    |>.and "skipped_files_count" (.required usize) (·.skippedFilesCount)
    |>.and "errors_count" (.required usize) (·.errorsCount)
    |>.and "frozen_apps_cleaned" (.required usize) (·.frozenAppsCleaned)
    |>.and "active_apps_cleaned" (.required usize) (·.activeAppsCleaned)
    |>.and "memory_compacted" (.required .bool) (·.memoryCompacted)
    |>.and "zram_compacted" (.required .bool) (·.zramCompacted)
    |>.and "cgroup_memory_reclaimed" (.required .bool) (·.cgroupMemoryReclaimed)
    |>.and "fstrim_completed" (.required .bool) (·.fstrimCompleted)

def CleanReport.codec : Codec F CleanReport :=
  CleanReport.fields.codec (by simp [fields]) fun _ => rfl

theorem CleanReport.codec_solid : (codec : Codec F CleanReport).Solid := Record.codec_solid

inductive IdleState where
  | active | idleCandidate | idle | deepIdle
  deriving DecidableEq, Repr

inductive ThermalHysteresisState where
  | normal | warm | hot | critical
  deriving DecidableEq, Repr

inductive MaintenanceEligibility where
  | allowed | blocked | paused
  deriving DecidableEq, Repr

inductive IdleBlocker where
  | screenOn | gracePeriodRemaining | notCharging | batteryTooLow
  | batteryBelowDeepThreshold | thermalHot | thermalCritical | cpuPressureHigh
  | ioPressureHigh | recentActivity | sensorUnavailable
  deriving DecidableEq, Repr

inductive IdlePositive where
  | screenOff | graceElapsed | charging | highBattery | cpuIdle | ioIdle | thermalSafe
  | stationary
  deriving DecidableEq, Repr

structure Duration where
  secs : U64
  nanos : U32
  normal : nanos.toNat < 1000000000
  deriving DecidableEq, Repr

structure IdleAssessment where
  score : U8
  state : IdleState
  thermalState : ThermalHysteresisState
  standardMaintenance : MaintenanceEligibility
  heavyMaintenance : MaintenanceEligibility
  blockers : List IdleBlocker
  positives : List IdlePositive
  rateLimitOpsPerSec : U32
  timeUntilNextTransition : Option Duration
  deriving DecidableEq, Repr

def IdleState.name : IdleState → String
  | .active => "active"
  | .idleCandidate => "idle_candidate"
  | .idle => "idle"
  | .deepIdle => "deep_idle"

def ThermalHysteresisState.name : ThermalHysteresisState → String
  | .normal => "normal"
  | .warm => "warm"
  | .hot => "hot"
  | .critical => "critical"

def MaintenanceEligibility.name : MaintenanceEligibility → String
  | .allowed => "allowed"
  | .blocked => "blocked"
  | .paused => "paused"

def IdleBlocker.name : IdleBlocker → String
  | .screenOn => "screen_on"
  | .gracePeriodRemaining => "grace_period_remaining"
  | .notCharging => "not_charging"
  | .batteryTooLow => "battery_too_low"
  | .batteryBelowDeepThreshold => "battery_below_deep_threshold"
  | .thermalHot => "thermal_hot"
  | .thermalCritical => "thermal_critical"
  | .cpuPressureHigh => "cpu_pressure_high"
  | .ioPressureHigh => "io_pressure_high"
  | .recentActivity => "recent_activity"
  | .sensorUnavailable => "sensor_unavailable"

def IdlePositive.name : IdlePositive → String
  | .screenOff => "screen_off"
  | .graceElapsed => "grace_elapsed"
  | .charging => "charging"
  | .highBattery => "high_battery"
  | .cpuIdle => "cpu_idle"
  | .ioIdle => "io_idle"
  | .thermalSafe => "thermal_safe"
  | .stationary => "stationary"

def IdleState.codec : Codec F IdleState :=
  .enumeration IdleState.name [.active, .idleCandidate, .idle, .deepIdle]
    fun state => by cases state <;> decide

def ThermalHysteresisState.codec : Codec F ThermalHysteresisState :=
  .enumeration ThermalHysteresisState.name [.normal, .warm, .hot, .critical]
    fun state => by cases state <;> decide

def MaintenanceEligibility.codec : Codec F MaintenanceEligibility :=
  .enumeration MaintenanceEligibility.name [.allowed, .blocked, .paused]
    fun eligibility => by cases eligibility <;> decide

def IdleBlocker.codec : Codec F IdleBlocker :=
  .enumeration IdleBlocker.name [.screenOn, .gracePeriodRemaining, .notCharging, .batteryTooLow,
      .batteryBelowDeepThreshold, .thermalHot, .thermalCritical, .cpuPressureHigh,
      .ioPressureHigh, .recentActivity, .sensorUnavailable]
    fun blocker => by cases blocker <;> decide

def IdlePositive.codec : Codec F IdlePositive :=
  .enumeration IdlePositive.name
    [.screenOff, .graceElapsed, .charging, .highBattery, .cpuIdle, .ioIdle, .thermalSafe,
      .stationary] fun positive => by cases positive <;> decide

namespace Duration

def new? (secs : U64) (nanos : U32) : Option Duration :=
  let whole := secs.toNat + nanos.toNat / 1000000000
  if whole < 2 ^ 64 then
    some ⟨.ofNat 64 whole, .ofNat 32 (nanos.toNat % 1000000000), by
      rw [BitVec.toNat_ofNat, Nat.mod_eq_of_lt (by omega)]
      exact Nat.mod_lt _ (by decide)⟩
  else none

theorem new?_normal (duration : Duration) : new? duration.secs duration.nanos = some duration := by
  have none : duration.nanos.toNat / 1000000000 = 0 := Nat.div_eq_of_lt duration.normal
  simp only [new?, none, Nat.add_zero, if_pos duration.secs.isLt,
    Nat.mod_eq_of_lt duration.normal, BitVec.ofNat_toNat, BitVec.setWidth_eq]

def fields : Record F (U64 × U32) (U64 × U32) :=
  Record.start Prod.mk
    |>.and "secs" (.required u64) (·.1)
    |>.and "nanos" (.required u32) (·.2)

def codec : Codec F Duration :=
  (Duration.fields.codec (by simp [fields]) fun _ => rfl).refine
    (fun duration => (duration.secs, duration.nanos))
    (fun (secs, nanos) => new? secs nanos) new?_normal

theorem codec_solid : (codec : Codec F Duration).Solid := Codec.refine_solid Record.codec_solid

end Duration

def IdleAssessment.fields : Record F IdleAssessment IdleAssessment :=
  Record.start IdleAssessment.mk
    |>.and "score" (.required u8) (·.score)
    |>.and "state" (.required IdleState.codec) (·.state)
    |>.and "thermal_state" (.required ThermalHysteresisState.codec) (·.thermalState)
    |>.and "standard_maintenance" (.required MaintenanceEligibility.codec) (·.standardMaintenance)
    |>.and "heavy_maintenance" (.required MaintenanceEligibility.codec) (·.heavyMaintenance)
    |>.and "blockers" (.required (.list IdleBlocker.codec)) (·.blockers)
    |>.and "positives" (.required (.list IdlePositive.codec)) (·.positives)
    |>.and "rate_limit_ops_per_sec" (.required u32) (·.rateLimitOpsPerSec)
    |>.and "time_until_next_transition" (.optional Duration.codec Duration.codec_solid)
      (·.timeUntilNextTransition)

structure DaemonStatus (F : Type) where
  state : String
  uptimeSecs : U64
  lastCleanedTs : Option U64
  lastFreedBytes : U64
  totalFreedBytes : U64
  isCharging : Bool
  screenState : String
  socTempC : F
  batteryTempC : F
  cpuUsagePct : F
  ramVmSizeBytes : U64
  ramRssBytes : U64
  ramPssBytes : U64
  idleState : String
  idleScore : U8
  blockers : List String

inductive ResponseData (F : Type) where
  | pong (version : String) (uptimeSecs : U64)
  | jobAccepted (jobId : U64) (message : String)
  | jobStatus (jobId : U64) (state : String) (reclaimedBytes : U64)
      (isCompleted : Bool) (report : Option CleanReport)
  | status (status : DaemonStatus F)
  | report (report : CleanReport)
  | idle (assessment : IdleAssessment)
  | message (text : String)

inductive Response (F : Type) where
  | success (data : ResponseData F)
  | error (message : String)

def DaemonStatus.fields (library : Library F) : Record F (DaemonStatus F) (DaemonStatus F) :=
  Record.start DaemonStatus.mk
    |>.and "state" (.required .string) (·.state)
    |>.and "uptime_secs" (.required u64) (·.uptimeSecs)
    |>.and "last_cleaned_ts" (.optional u64 u64_solid) (·.lastCleanedTs)
    |>.and "last_freed_bytes" (.required u64) (·.lastFreedBytes)
    |>.and "total_freed_bytes" (.required u64) (·.totalFreedBytes)
    |>.and "is_charging" (.required .bool) (·.isCharging)
    |>.and "screen_state" (.required .string) (·.screenState)
    |>.and "soc_temp_c" (.required (.float library)) (·.socTempC)
    |>.and "battery_temp_c" (.required (.float library)) (·.batteryTempC)
    |>.and "cpu_usage_pct" (.defaulted (.float library) (library.ofNat 0)) (·.cpuUsagePct)
    |>.and "ram_vm_size_bytes" (.defaulted u64 0) (·.ramVmSizeBytes)
    |>.and "ram_rss_bytes" (.defaulted u64 0) (·.ramRssBytes)
    |>.and "ram_pss_bytes" (.defaulted u64 0) (·.ramPssBytes)
    |>.and "idle_state" (.defaulted .string "") (·.idleState)
    |>.and "idle_score" (.defaulted u8 0) (·.idleScore)
    |>.and "blockers" (.defaulted (.list .string) []) (·.blockers)

namespace ResponseData

def pongFields : Record F (String × U64) (ResponseData F) :=
  Record.start ResponseData.pong
    |>.and "version" (.required .string) (·.1)
    |>.and "uptime_secs" (.required u64) (·.2)

def jobAcceptedFields : Record F (U64 × String) (ResponseData F) :=
  Record.start ResponseData.jobAccepted
    |>.and "job_id" (.required u64) (·.1)
    |>.and "message" (.required .string) (·.2)

def jobStatusFields : Record F (U64 × String × U64 × Bool × Option CleanReport) (ResponseData F) :=
  Record.start ResponseData.jobStatus
    |>.and "job_id" (.required u64) (·.1)
    |>.and "state" (.required .string) (·.2.1)
    |>.and "reclaimed_bytes" (.required u64) (·.2.2.1)
    |>.and "is_completed" (.required .bool) (·.2.2.2.1)
    |>.and "report" (.optional CleanReport.codec CleanReport.codec_solid) (·.2.2.2.2)

variable (library : Library F)

def encode : ResponseData F → Value F
  | .pong version uptimeSecs => pongFields.write (version, uptimeSecs)
  | .jobAccepted jobId text => jobAcceptedFields.write (jobId, text)
  | .jobStatus jobId state reclaimedBytes isCompleted outcome =>
    jobStatusFields.write (jobId, state, reclaimedBytes, isCompleted, outcome)
  | .status reading => (DaemonStatus.fields library).write reading
  | .report outcome => CleanReport.fields.write outcome
  | .idle assessment => IdleAssessment.fields.write assessment
  | .message text => .str text

def decode : Value F → Option (ResponseData F) :=
  readUntagged [pongFields.read, jobAcceptedFields.read, jobStatusFields.read,
    fun value => ((DaemonStatus.fields library).read value).map .status,
    fun value => (CleanReport.fields.read value).map .report,
    fun value => (IdleAssessment.fields.read value).map .idle,
    fun value => (Codec.string.decode value).map .message]

/-! No payload is taken for one of an earlier kind: it lacks a key that kind needs,
or is no object at all. -/

theorem version_needed : "version" ∈ (pongFields (F := F)).needed := by
  simp [pongFields]

theorem message_needed : "message" ∈ (jobAcceptedFields (F := F)).needed := by
  simp [jobAcceptedFields]

theorem jobId_needed : "job_id" ∈ (jobStatusFields (F := F)).needed := by
  simp [jobStatusFields]

theorem uptimeSecs_needed : "uptime_secs" ∈ (DaemonStatus.fields library).needed := by
  simp [DaemonStatus.fields]

theorem storage_needed : "storage" ∈ (CleanReport.fields (F := F)).needed := by
  simp [CleanReport.fields]

theorem decode_beyond_jobs {record : Record F σ α} (source : σ)
    (version : "version" ∉ record.keys) (message : "message" ∉ record.keys)
    (jobId : "job_id" ∉ record.keys) : decode library (record.write source) = readUntagged [
        fun value => ((DaemonStatus.fields library).read value).map .status,
        fun value => (CleanReport.fields.read value).map .report,
        fun value => (IdleAssessment.fields.read value).map .idle,
        fun value => (Codec.string.decode value).map .message] (record.write source) := by
  rw [decode, readUntagged_skip (Record.read_foreign version_needed version source),
    readUntagged_skip (Record.read_foreign message_needed message source),
    readUntagged_skip (Record.read_foreign jobId_needed jobId source)]

theorem decode_encode (data : ResponseData F) :
    decode library (encode library data) = some data := by
  cases data with
  | pong version uptimeSecs =>
    exact readUntagged_take (Record.read_write (by simp [pongFields]) (version, uptimeSecs))
  | jobAccepted jobId text =>
    rw [encode, decode, readUntagged_skip
      (Record.read_foreign version_needed (by simp [jobAcceptedFields]) _)]
    exact readUntagged_take (Record.read_write (by simp [jobAcceptedFields]) (jobId, text))
  | jobStatus jobId state reclaimedBytes isCompleted outcome =>
    rw [encode, decode, readUntagged_skip
        (Record.read_foreign version_needed (by simp [jobStatusFields]) _), readUntagged_skip
        (Record.read_foreign message_needed (by simp [jobStatusFields]) _)]
    exact readUntagged_take (Record.read_write (by simp [jobStatusFields])
      (jobId, state, reclaimedBytes, isCompleted, outcome))
  | status reading =>
    rw [encode, decode_beyond_jobs library reading (by simp [DaemonStatus.fields])
      (by simp [DaemonStatus.fields]) (by simp [DaemonStatus.fields])]
    exact readUntagged_take (congrArg (Option.map ResponseData.status)
      (Record.read_write (by simp [DaemonStatus.fields]) reading))
  | report outcome =>
    rw [encode, decode_beyond_jobs library outcome (by simp [CleanReport.fields])
      (by simp [CleanReport.fields]) (by simp [CleanReport.fields]),
      readUntagged_skip (congrArg (Option.map ResponseData.status)
        (Record.read_foreign (uptimeSecs_needed library) (by simp [CleanReport.fields]) outcome))]
    exact readUntagged_take (congrArg (Option.map ResponseData.report)
      (Record.read_write (by simp [CleanReport.fields]) outcome))
  | idle assessment =>
    rw [encode, decode_beyond_jobs library assessment (by simp [IdleAssessment.fields])
      (by simp [IdleAssessment.fields]) (by simp [IdleAssessment.fields]),
      readUntagged_skip (congrArg (Option.map ResponseData.status)
        (Record.read_foreign (uptimeSecs_needed library) (by simp [IdleAssessment.fields])
          assessment)), readUntagged_skip (congrArg (Option.map ResponseData.report)
        (Record.read_foreign storage_needed (by simp [IdleAssessment.fields]) assessment))]
    exact readUntagged_take (congrArg (Option.map ResponseData.idle)
      (Record.read_write (by simp [IdleAssessment.fields]) assessment))
  | message text => rfl

def codec : Codec F (ResponseData F) where
  encode := encode library
  decode := decode library
  decode_encode := decode_encode library

end ResponseData

namespace Response

def name : Response F → String
  | .success _ => "Success"
  | .error _ => "Error"

variable (library : Library F)

def data : Response F → Option (Value F)
  | .success data => some ((ResponseData.codec library).encode data)
  | .error text => some (.str text)

def variant : String → Option (Variant F (Response F))
  | "Success" => some (.content fun value =>
    ((ResponseData.codec library).decode value).map .success)
  | "Error" => some (.content fun value => (Codec.string.decode value).map .error)
  | _ => none

theorem variant_read (response : Response F) :
    (variant library response.name).bind (·.read (response.data library)) = some response := by
  cases response with
  | success data =>
    change ((ResponseData.codec library).decode
      ((ResponseData.codec library).encode data)).map _ = _
    rw [Codec.decode_encode]
    rfl
  | error text => rfl

def codec : Codec F (Response F) where
  encode response := writeTagged "status" "data" response.name (response.data library)
  decode := readTagged "status" "data" (variant library)
  decode_encode response :=
    (readTagged_writeTagged (by decide) (variant library)).trans (response.variant_read library)

end Response

end CacheCleaner.Ipc
