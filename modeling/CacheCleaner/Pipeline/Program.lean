import CacheCleaner.Engine.Planner
import CacheCleaner.Engine.Scanner
import CacheCleaner.Executor.Program
import CacheCleaner.Recovery.Program

namespace CacheCleaner

open Effect

inductive TriggerSource where
  | manualIpc | screenOff | deepIdle | memoryPressurePsi | periodicMaintenance
  deriving DecidableEq, Repr

def TriggerSource.debug : TriggerSource → String
  | .manualIpc => "ManualIpc"
  | .screenOff => "ScreenOff"
  | .deepIdle => "DeepIdle"
  | .memoryPressurePsi => "MemoryPressurePsi"
  | .periodicMaintenance => "PeriodicMaintenance"

structure JobAdmissionRequest where
  jobId : JobId
  source : TriggerSource
  deep : Bool
  trim : Bool
  dryRun : Bool
  catalogGeneration : CatalogGeneration
  configGeneration : ConfigGeneration
  admittedAt : UnixTimestamp
  deriving DecidableEq, Repr

structure SchedulerService where
  queue : List JobAdmissionRequest
  jobCounter : Nat
  deriving DecidableEq, Repr

def orZero : Result Nat → Nat
  | .ok value => value
  | .error _ => 0

namespace SchedulerService

def new : Act SchedulerService := do
  let known ← ask .maxJobId
  pure ⟨[], orZero known + 1⟩

def coalesce (existing : JobAdmissionRequest) (deep trim dryRun : Bool) : JobAdmissionRequest :=
  { existing with
    deep := existing.deep || deep
    trim := existing.trim || trim
    dryRun := existing.dryRun && dryRun }

def admitJob (scheduler : SchedulerService) (source : TriggerSource)
    (deep trim dryRun : Bool) (catalog : CatalogGeneration) (config : ConfigGeneration) :
    Act (Result JobAdmissionRequest × SchedulerService) :=
  match scheduler.queue with
  | existing :: rest =>
    let request := coalesce existing deep trim dryRun
    pure (.ok request, { scheduler with queue := request :: rest })
  | [] => do
    let job : JobId := ⟨scheduler.jobCounter⟩
    let counted := { scheduler with jobCounter := scheduler.jobCounter + 1 }
    match ← ask (.write (.registerJob job source.debug catalog config)) with
    | .error error => pure (.error error, counted)
    | .ok () =>
      let now ← ask .now
      let request : JobAdmissionRequest := ⟨job, source, deep, trim, dryRun, catalog, config, now⟩
      pure (.ok request, { counted with queue := [request] })

def popNextJob (scheduler : SchedulerService) : SchedulerService :=
  { scheduler with queue := scheduler.queue.tail }

end SchedulerService

structure WorkerPool where
  workerId : WorkerId
  attemptCounter : Nat
  deriving DecidableEq, Repr

def resourceForJob (job : JobId) : String :=
  let id := job.val
  s!"job:{id}"

namespace WorkerPool

def new (worker : WorkerId) : Act WorkerPool := do
  let known ← ask .maxAttemptId
  pure ⟨worker, orZero known + 1⟩

/-- `claim_attempt`; the counter advances even when the claim fails. -/
def claimAttempt (pool : WorkerPool) (job : JobId) (lease : Nat) :
    Act (Result AttemptId × WorkerPool) := do
  let attempt : AttemptId := ⟨pool.attemptCounter⟩
  let counted := { pool with attemptCounter := pool.attemptCounter + 1 }
  match ← ask (.acquireLease (resourceForJob job) pool.workerId lease) with
  | .error error => pure (.error error, counted)
  | .ok false =>
    pure (.error (.safetyViolation (.leaseUnavailable job)), counted)
  | .ok true =>
    match ← ask (.write (.createAttempt attempt job pool.workerId lease)) with
    | .error error => pure (.error error, counted)
    | .ok () => pure (.ok attempt, counted)

def finishAttempt (pool : WorkerPool) (attempt : AttemptId) (job : JobId)
    (state : AttemptState) : Act (Result Unit) := do
  match ← ask (.write (.updateAttemptState attempt state)) with
  | .error error => pure (.error error)
  | .ok () =>
    let _ ← ask (.write (.releaseLease (resourceForJob job) pool.workerId))
    pure (.ok ())

end WorkerPool

structure CleanParams where
  deep : Bool
  trim : Bool
  dryRun : Bool
  deriving DecidableEq, Repr

def CleanParams.trigger (params : CleanParams) : TriggerSource :=
  if params.deep then .manualIpc else .periodicMaintenance

inductive CancelReason where
  | screenOn | userActivity | thermalCritical | batteryLow | unplugged
  | shutdown | timeout | manualCancel
  deriving DecidableEq, Repr

structure CleanReport where
  totalFreedBytes : Nat
  deletedFilesCount : Nat
  skippedFilesCount : Nat
  errorsCount : Nat
  fstrimCompleted : Bool
  cancelReason : Option CancelReason
  deriving DecidableEq, Repr

/-- The orders in which the hash maps of one job happen to be walked. -/
structure HashOrders where
  targets : IterationOrder TargetDescriptor
  paths : IterationOrder ((TargetId × String) × OperationId)

structure Counters where
  candidate : Nat
  grant : Nat
  deriving DecidableEq, Repr

structure AuthoritativeCleanPipeline where
  config : DaemonConfig
  catalog : CatalogSnapshot
  scheduler : SchedulerService
  workerPool : WorkerPool
  configGeneration : ConfigGeneration
  counters : Counters

abbrev Pipeline := AuthoritativeCleanPipeline

namespace AuthoritativeCleanPipeline

def permit? (config : EffectiveConfig) (now : UnixTimestamp)
    (isFrozen : Bool) (target : TargetDescriptor) (candidate : Candidate) : Option PolicyPermit :=
  match SafetyGate.validateCandidate candidate target with
  | .error _ => none
  | .ok validated =>
    match PolicyEngine.evaluateCandidateWithFreezer validated target config now isFrozen with
    | .allow permit => some permit
    | .deny _ => none

def permitted (config : EffectiveConfig) (now : UnixTimestamp)
    (frozenUids : List Nat) (target : TargetDescriptor)
    (candidates : List Candidate) : List PolicyPermit :=
  let isFrozen := decide (0 < target.ownerUid) && frozenUids.contains target.ownerUid
  candidates.filterMap (permit? config now isFrozen target)

def scanTargets : List TargetDescriptor → Nat → Act (List (TargetDescriptor × List Candidate) × Nat)
  | [], nextId => pure ([], nextId)
  | target :: rest, nextId => do
    if ← ask .isCancelled then pure ([], nextId)
    else
      let (result, nextId) ←
        CandidateScanner.scanTargetWithResource target nextId
      let (others, nextId) ← scanTargets rest nextId
      pure ((target, result.candidates) :: others, nextId)

def permits (config : EffectiveConfig) (now : UnixTimestamp) (frozenUids : List Nat)
    (scanned : List (TargetDescriptor × List Candidate)) : List PolicyPermit :=
  scanned.flatMap fun (target, candidates) =>
    permitted config now frozenUids target candidates

def dryRunResult (admission : JobAdmissionRequest) (attempt : AttemptId)
    (plan : PlannedPlan) : JobResult where
  jobId := admission.jobId
  attemptId := attempt
  totalReclaimed := plan.totalEstimatedReclaim
  totalOperations := plan.operations.length
  successfulOperations := 0
  failedOperations := 0
  skippedOperations := plan.operations.length

variable (pipeline : Pipeline)

def perform
    (admission : JobAdmissionRequest) (attempt : AttemptId)
    (authorized : AuthorizedPlan) : Act (Result JobResult) :=
  if admission.dryRun then
    pure (.ok (dryRunResult admission attempt authorized.plan))
  else
    CleanupExecutor.executePlan authorized pipeline.catalog pipeline.configGeneration attempt

def trimMounts (admission : JobAdmissionRequest) : Act Bool :=
  if admission.trim && !admission.dryRun then ask .trimMounts else pure false

def report (admission : JobAdmissionRequest) (job : JobResult) : Act CleanReport := do
  let fstrimCompleted ← trimMounts admission
  let _ ← ask (.recordAudit job)
  pure ⟨job.totalReclaimed, job.successfulOperations, job.skippedOperations,
    job.failedOperations, fstrimCompleted, none⟩

def carryOut
    (admission : JobAdmissionRequest) (attempt : AttemptId)
    (authorized : AuthorizedPlan) : Act (Result CleanReport) := do
  match ← perform pipeline admission attempt authorized with
  | .error error => pure (.error error)
  | .ok job => do
    let finished ← report admission job
    pure (.ok finished)

variable (orders : HashOrders)

/-- Steps 7 and 8 on what was scanned, and the rest of the job. -/
def planAndRun
    (admission : JobAdmissionRequest) (attempt : AttemptId)
    (allowed : List PolicyPermit) (counters : Counters) : Act (Result CleanReport × Counters) :=
  match CleanupPlanner.buildPlan orders.paths admission.jobId
      pipeline.catalog.generation admission.configGeneration allowed with
  | .error error => pure (.error error, counters)
  | .ok plan => do
    let now ← ask .now
    match AuthorizationEngine.authorizePlan ⟨counters.grant⟩ now plan
        pipeline.catalog.generation 300 admission.configGeneration with
    | .error error => pure (.error error, counters)
    | .ok authorized =>
      let result ← carryOut pipeline admission attempt authorized
      pure (result, { counters with grant := counters.grant + 1 })

/-- `run_pipeline_job`; the snapshot is the pipeline's catalog, refreshed just
before. -/
def runPipelineJob (admission : JobAdmissionRequest)
    (attempt : AttemptId) : Act (Result CleanReport × Counters) :=
  match ValidatedConfig.fromRaw (pipeline.config.toRaw admission.dryRun) with
  | none => .abort
  | some (.error error) => pure (.error error, pipeline.counters)
  | some (.ok validated) => do
    let config : EffectiveConfig := ⟨pipeline.configGeneration, validated⟩
    let frozenUids ← ask .frozenUids
    let now ← ask .now
    let (scanned, nextId) ← scanTargets (orders.targets.order pipeline.catalog.targets.rows)
      pipeline.counters.candidate
    planAndRun pipeline orders admission attempt (permits config now frozenUids scanned)
      { pipeline.counters with candidate := nextId }

/-- The closing of a job in `execute`; a total that `ByteCount::new` rejects
ends the process. -/
def closeJob
    (admission : JobAdmissionRequest) (attempt : AttemptId)
    (result : Result CleanReport) : Act (Result CleanReport) :=
  match result with
  | .ok finished =>
    match ByteCount.new? finished.totalFreedBytes with
    | none => .abort
    | some total => do
      match ← ask (.write (.updateJobState admission.jobId .completed total)) with
      | .error error => pure (.error error)
      | .ok () =>
        match ← pipeline.workerPool.finishAttempt attempt admission.jobId .success with
        | .error error => pure (.error error)
        | .ok () => pure (.ok finished)
  | .error error => do
    let _ ← ask (.write (.updateJobState admission.jobId .failed 0))
    let _ ← pipeline.workerPool.finishAttempt attempt admission.jobId (.failedWith error.display)
    pure (.error error)

def runClaimed
    (admission : JobAdmissionRequest) (attempt : AttemptId) :
    Act (Result CleanReport × Pipeline) := do
  let (result, counters) ← runPipelineJob pipeline orders admission attempt
  let closed ← closeJob pipeline admission attempt result
  pure (closed, { pipeline with counters })

def runAdmitted
    (admission : JobAdmissionRequest) : Act (Result CleanReport × Pipeline) := do
  let (claimed, workerPool) ←
    pipeline.workerPool.claimAttempt admission.jobId 300
  let pipeline := { pipeline with workerPool }
  match claimed with
  | .error error => pure (.error error, pipeline)
  | .ok attempt => runClaimed pipeline orders admission attempt

def execute (params : CleanParams) :
    Act (Result CleanReport × Pipeline) := do
  let view ← ask .discover
  let catalog := TargetCatalog.discoverAllTargets view pipeline.catalog
  let (admitted, scheduler) ← pipeline.scheduler.admitJob params.trigger
    params.deep params.trim params.dryRun catalog.generation pipeline.configGeneration
  let pipeline := { pipeline with catalog, scheduler }
  match admitted with
  | .error error => pure (.error error, pipeline)
  | .ok admission => runAdmitted pipeline orders admission

def updateConfig
    (config : DaemonConfig) : Pipeline :=
  { pipeline with
    config
    configGeneration := pipeline.configGeneration.nextSaturating }

def new (config : DaemonConfig) : Act Pipeline := do
  let view ← ask .discover
  let catalog := TargetCatalog.discoverAllTargets view TargetCatalog.new
  let _ ← RecoveryEngine.reconcileStartupCrashes catalog
  let scheduler ← SchedulerService.new
  let workerPool ← WorkerPool.new ⟨1⟩
  pure ⟨config, catalog, scheduler, workerPool, .initial, ⟨1, 1⟩⟩

end AuthoritativeCleanPipeline

end CacheCleaner
