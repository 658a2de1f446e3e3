import CacheCleaner.Effect.Threads
import CacheCleaner.Pipeline.Program

namespace CacheCleaner

/-! The daemon: command handlers, event-loop actions and cleaning workers that
share one `DaemonContext`.  Each request is one step no other thread can
interrupt: an atomic access, or a block under a lock. -/

open Effect

inductive DaemonState where
  | starting | idle | evaluatingTriggers | cleaningScheduled | cleaningManual
  | pressureReclaiming (level : String)
  | preempted (reason : String)
  | shuttingDown
  deriving DecidableEq, Repr

def DaemonState.display : DaemonState → String
  | .starting => "Starting up"
  | .idle => "Idle / Sleeping"
  | .evaluatingTriggers => "Evaluating Triggers"
  | .cleaningScheduled => "Cleaning in progress (Scheduled)"
  | .cleaningManual => "Cleaning in progress (Manual Trigger)"
  | .pressureReclaiming level => s!"Memory Reclaim in progress ({level})"
  | .preempted reason => s!"Preempted ({reason})"
  | .shuttingDown => "Shutting down"

/-- The fields of `DaemonRuntimeState` that commands and workers set. -/
structure DaemonRuntimeState where
  state : DaemonState
  lastCleanedTs : Option UnixTimestamp
  lastFreedBytes : Nat
  totalFreedBytes : Nat
  isCleaning : Bool
  shutdownRequested : Bool
  deriving DecidableEq, Repr

def DaemonRuntimeState.default : DaemonRuntimeState := ⟨.idle, none, 0, 0, false, false⟩

structure JobRecord where
  jobId : Nat
  state : String
  reclaimedBytes : Nat
  isCompleted : Bool
  report : Option CleanReport
  deriving DecidableEq, Repr

inductive Worker where
  | scheduled (params : CleanParams)
  | manual (jobId : Nat) (params : CleanParams)
  deriving DecidableEq, Repr

/-- The shared context.  `runtimeLocked` says that a writer keeps the lock over
several steps, and `spawned` are the threads created but not yet running. -/
structure DaemonContext where
  runtime : DaemonRuntimeState
  runtimeLocked : Bool
  engineLocked : Bool
  cancelled : Bool
  reasonCode : Option CancelReason
  recentJobs : Table JobRecord.jobId
  nextJobId : Nat
  spawned : List Worker

def DaemonContext.new : DaemonContext := ⟨.default, false, false, false, none, .empty, 1, []⟩

namespace JobRecord

def running (jobId : Nat) : JobRecord := ⟨jobId, "RUNNING", 0, false, none⟩

def complete (report : CleanReport) (record : JobRecord) : JobRecord :=
  { record with
    state := "COMPLETED"
    reclaimedBytes := report.totalFreedBytes
    isCompleted := true
    report := some report }

def fail (error : CleanerError) (record : JobRecord) : JobRecord :=
  let shown := error.display
  { record with state := s!"FAILED: {shown}", isCompleted := true, report := none }

end JobRecord

namespace Daemon

inductive Action where
  | isShutdownRequested
  | isCleaning
  | readRuntime
  | setState (state : DaemonState)
  | claimManual
  | claimScheduled
  /-- `trigger_shutdown` up to the cancellation, which it makes with the lock
  held. -/
  | requestShutdown
  | releaseRuntime
  | publishReport (now : UnixTimestamp) (freed : Nat)
  | publishFailure
  | storeCancelled (value : Bool)
  | loadCancelled
  | exchangeReason (reason : CancelReason)
  | clearReason
  | fetchJobId
  | insertJob (record : JobRecord)
  | getJob (jobId : Nat)
  | completeJob (jobId : Nat) (report : CleanReport)
  | failJob (jobId : Nat) (error : CleanerError)
  | spawn (worker : Worker)
  | lockEngine
  | unlockEngine
  | now

def Action.publishes : Action → Bool
  | .publishReport _ _ | .publishFailure => true
  | _ => false

abbrev Answer : Action → Type
  | .isShutdownRequested => Bool
  | .isCleaning => Bool
  | .readRuntime => DaemonRuntimeState
  | .claimManual => Bool
  | .claimScheduled => Bool
  | .loadCancelled => Bool
  | .fetchJobId => Nat
  | .getJob _ => Option JobRecord
  | .spawn _ => Bool
  | .now => UnixTimestamp
  | _ => Unit

abbrev Routine := Effect.Program Action Answer

def act (action : Action) : Routine (Answer action) := Effect.Program.perform action

def claimManual (runtime : DaemonRuntimeState) : Bool × DaemonRuntimeState :=
  if runtime.isCleaning then (false, runtime)
  else (true, { runtime with isCleaning := true, state := .cleaningManual })

def claimScheduled (runtime : DaemonRuntimeState) : Bool × DaemonRuntimeState :=
  if runtime.shutdownRequested || runtime.isCleaning then (false, runtime)
  else (true, { runtime with isCleaning := true, state := .cleaningScheduled })

def publishReport (now : UnixTimestamp) (freed : Nat)
    (runtime : DaemonRuntimeState) : DaemonRuntimeState :=
  { runtime with
    lastCleanedTs := some now
    lastFreedBytes := freed
    totalFreedBytes := runtime.totalFreedBytes + freed
    state := .idle
    isCleaning := false }

def publishFailure (runtime : DaemonRuntimeState) : DaemonRuntimeState :=
  { runtime with state := .idle, isCleaning := false }

def updateJob (jobs : Table JobRecord.jobId) (jobId : Nat)
    (change : JobRecord → JobRecord) : Table JobRecord.jobId :=
  match jobs.find jobId with
  | some record => jobs.upsert (change record)
  | none => jobs

/-- What the context does not determine: whether a thread can be created, and
the time. -/
structure Chance where
  created : Bool
  now : UnixTimestamp
  deriving DecidableEq, Repr

/-- A block under the runtime lock, which waits while another thread keeps it. -/
def guarded {α : Type} (context : DaemonContext)
    (block : DaemonRuntimeState → α × DaemonRuntimeState) : Option (α × DaemonContext) :=
  if context.runtimeLocked then none
  else some ((block context.runtime).1, { context with runtime := (block context.runtime).2 })

def answer (chance : Chance) (action : Action) (context : DaemonContext) :
    Option (Answer action × DaemonContext) :=
  match action with
  | .isShutdownRequested => guarded context fun runtime =>
    (runtime.shutdownRequested, runtime)
  | .isCleaning => guarded context fun runtime => (runtime.isCleaning, runtime)
  | .readRuntime => guarded context fun runtime => (runtime, runtime)
  | .setState state => guarded context fun runtime => ((), { runtime with state })
  | .claimManual => guarded context claimManual
  | .claimScheduled => guarded context claimScheduled
  | .requestShutdown => (guarded context fun runtime => ((), { runtime with
      shutdownRequested := true
      state := .shuttingDown })).map fun (_, after) =>
        ((), { after with runtimeLocked := true })
  | .releaseRuntime => some ((), { context with runtimeLocked := false })
  | .publishReport now freed => guarded context fun runtime =>
    ((), publishReport now freed runtime)
  | .publishFailure => guarded context fun runtime =>
    ((), publishFailure runtime)
  | .storeCancelled value => some ((), { context with cancelled := value })
  | .loadCancelled => some (context.cancelled, context)
  | .exchangeReason reason => some ((), { context with
      reasonCode := context.reasonCode.or (some reason) })
  | .clearReason => some ((), { context with reasonCode := none })
  | .fetchJobId => some (context.nextJobId, { context with nextJobId := context.nextJobId + 1 })
  | .insertJob record => some ((), { context with
      recentJobs := context.recentJobs.upsert record })
  | .getJob jobId => some (context.recentJobs.find jobId, context)
  | .completeJob jobId report => some ((), { context with
      recentJobs := updateJob context.recentJobs jobId (.complete report) })
  | .failJob jobId error => some ((), { context with
      recentJobs := updateJob context.recentJobs jobId (.fail error) })
  | .spawn worker => some (chance.created, if chance.created then
      { context with spawned := worker :: context.spawned } else context)
  | .lockEngine => if context.engineLocked then none
      else some ((), { context with engineLocked := true })
  | .unlockEngine => some ((), { context with engineLocked := false })
  | .now => some (chance.now, context)

end Daemon

namespace CancellationToken

open Daemon

def isCancelled : Routine Bool := act .loadCancelled

def cancelWithReason (reason : CancelReason) : Routine Unit := do
  act (.storeCancelled true)
  act (.exchangeReason reason)

def cancel : Routine Unit := cancelWithReason .manualCancel

def reset : Routine Unit := do
  act (.storeCancelled false)
  act .clearReason

end CancellationToken

namespace DaemonContext

open Daemon

variable {context after : DaemonContext}

def triggerShutdown : Routine Unit := do
  act .requestShutdown
  CancellationToken.cancel
  act .releaseRuntime

/-- `spawn_maintenance_worker`; the result of the thread creation is dropped. -/
def spawnMaintenanceWorker (fstrimPartitions : Bool) : Routine Unit := do
  if ← act .claimScheduled then
    CancellationToken.reset
    let _ ← act (.spawn (.scheduled ⟨true, fstrimPartitions, false⟩))
    pure ()
  else pure ()

inductive Command where
  | ping | getStatus | getIdleAssessment
  | triggerClean (params : CleanParams)
  | getJobStatus (jobId : Nat)
  | getStats | cancel
  /-- With whether the file on disk loads. -/
  | reloadConfig (loads : Except String String)
  | stopDaemon

structure DaemonStatus where
  state : String
  lastCleanedTs : Option UnixTimestamp
  lastFreedBytes : Nat
  totalFreedBytes : Nat

def DaemonStatus.of (runtime : DaemonRuntimeState) : DaemonStatus :=
  ⟨runtime.state.display, runtime.lastCleanedTs, runtime.lastFreedBytes, runtime.totalFreedBytes⟩

inductive Response where
  | pong
  | status (status : DaemonStatus)
  | idle
  | jobAccepted (jobId : Nat) (text : String)
  | jobStatus (record : JobRecord)
  | message (text : String)
  | error (text : String)

/-- `reload_config`; the engine takes the new configuration under its lock. -/
def reloadConfig (loads : Except String String) : Routine Response :=
  match loads with
  | .ok text => do
    act .lockEngine
    act .unlockEngine
    pure (.message text)
  | .error text => pure (.error text)

/-- `TriggerClean`; the result of the thread creation is dropped. -/
def triggerClean (params : CleanParams) : Routine Response := do
  if ← act .claimManual then
    CancellationToken.reset
    let jobId ← act .fetchJobId
    act (.insertJob (.running jobId))
    let _ ← act (.spawn (.manual jobId params))
    pure (.jobAccepted jobId s!"Manual clean job #{jobId} accepted and executing in background")
  else pure (.error "Cleaning operation is already in progress")

def handleCommand (command : Command) : Routine Response := do
  if ← act .isShutdownRequested then
    pure (.error "Daemon is currently shutting down")
  else
    match command with
    | .ping => pure .pong
    | .getStatus => do
      let runtime ← act .readRuntime
      pure (.status (.of runtime))
    | .getIdleAssessment => pure .idle
    | .triggerClean params => triggerClean params
    | .getJobStatus jobId => do
      match ← act (.getJob jobId) with
      | some record => pure (.jobStatus record)
      | none => pure (.error s!"Job #{jobId} not found")
    | .getStats => do
      let runtime ← act .readRuntime
      pure (.status (.of runtime))
    | .cancel => do
      CancellationToken.cancel
      act (.setState (.preempted "Cancelled by user"))
      pure (.message "Clean operation cancelled")
    | .reloadConfig loads => reloadConfig loads
    | .stopDaemon => do
      triggerShutdown
      pure (.message "Daemon stopping gracefully")

/-- A job as its worker sees it: it checks the token and at last returns. -/
abbrev Job := Effect.Program Unit (fun _ => Bool) (Result CleanReport)

def execute : Job → Routine (Result CleanReport)
  | .done result => .done result
  | .abort => .abort
  | .call _ next => .call .loadCancelled fun cancelled =>
    execute (next cancelled)

def closeRecord (worker : Worker) (result : Result CleanReport) : Routine Unit :=
  match worker, result with
  | .scheduled _, _ => pure ()
  | .manual jobId _, .ok report => act (.completeJob jobId report)
  | .manual jobId _, .error error => act (.failJob jobId error)

def publish (now : UnixTimestamp) (result : Result CleanReport) : Routine Unit :=
  match result with
  | .ok report => act (.publishReport now report.totalFreedBytes)
  | .error _ => act .publishFailure

def work (worker : Worker) (job : Job) : Routine Unit := do
  act .lockEngine
  let result ← execute job
  act .unlockEngine
  let now ← act .now
  publish now result
  closeRecord worker result

def preemptCleaning (reason : String) : Routine Unit := do
  CancellationToken.cancelWithReason .screenOn
  act (.setState (.preempted reason))

def reconcileSysfs (turnedOn : Bool) : Routine Unit := do
  if (← act .isCleaning) && turnedOn then preemptCleaning "Screen turned ON"
  else pure ()

def fallbackScreenOn : Routine Unit := do
  if ← act .isCleaning then
    CancellationToken.cancel
    act (.setState (.preempted "Screen turned ON"))
  else pure ()

def reclaimMemory (level : String) : Routine Unit := do
  if ← act .isCleaning then pure ()
  else
    act (.setState (.pressureReclaiming level))
    if ← act .isCleaning then pure ()
    else act (.setState .idle)

/-- The guard of `RunMaintenance`, with what `evaluate_triggers` said. -/
def maintenanceDue (shouldRun : Bool) : Routine Bool :=
  if shouldRun then do
    if ← act .isCleaning then pure false
    else
      let stopping ← act .isShutdownRequested
      pure !stopping
  else pure false

/-- `RunMaintenance`; the shutdown flag is read once more where the run is
postponed. -/
def runMaintenance (shouldRun fstrimPartitions : Bool) : Routine Unit := do
  if ← maintenanceDue shouldRun then spawnMaintenanceWorker fstrimPartitions
  else
    let _ ← act .isShutdownRequested
    pure ()

/-- `perform_shutdown_cleanup`, which looks at the flag up to `polls` times. -/
def awaitWorker : Nat → Routine Unit
  | 0 => pure ()
  | polls + 1 => do
    if ← act .isCleaning then awaitWorker polls else pure ()

def performShutdownCleanup (polls : Nat) : Routine Unit := do
  triggerShutdown
  awaitWorker polls

inductive Code where
  | command (command : Command)
  | worker (worker : Worker) (job : Job)
  | shutdownSignal
  | reloadSignal (loads : Except String String)
  | preempt (reason : String)
  | reconcile (turnedOn : Bool)
  | fallbackScreen
  | reclaim (level : String)
  | maintain (shouldRun fstrimPartitions : Bool)
  | shutdownCleanup (polls : Nat)

def body : Code → Routine Unit
  | .command command => do
    let _ ← handleCommand command
    pure ()
  | .worker worker job => work worker job
  | .shutdownSignal => triggerShutdown
  | .reloadSignal loads => do
    let _ ← reloadConfig loads
    pure ()
  | .preempt reason => preemptCleaning reason
  | .reconcile turnedOn => reconcileSysfs turnedOn
  | .fallbackScreen => fallbackScreenOn
  | .reclaim level => reclaimMemory level
  | .maintain shouldRun fstrim => runMaintenance shouldRun fstrim
  | .shutdownCleanup polls => performShutdownCleanup polls

def launch (code : Code) (context : DaemonContext) : Option DaemonContext :=
  match code with
  | .worker worker _ => if worker ∈ context.spawned then
      some { context with spawned := context.spawned.erase worker } else none
  | _ => some context

theorem launch_frame {code : Code} (launched : launch code context = some after) :
    after = { context with spawned := after.spawned } := by
  cases code with
  | worker worker job =>
    simp only [launch] at launched
    split at launched
    · cases launched
      rfl
    · cases launched
  | _ =>
    cases launched
    rfl

theorem mem_of_launch {worker : Worker} (job : Job)
    (launched : launch (.worker worker job) context = some after) : worker ∈ context.spawned := by
  simp only [launch] at launched
  split at launched
  · assumption
  · cases launched

theorem launch_spawned {code : Code} (launched : launch code context = some after) (worker : Worker)
    (mem : worker ∈ after.spawned) : worker ∈ context.spawned := by
  cases code with
  | worker begun job =>
    simp only [launch] at launched
    split at launched
    · cases launched
      exact List.mem_of_mem_erase mem
    · cases launched
  | _ =>
    cases launched
    exact mem

def system : System Code Chance Action Answer DaemonContext := ⟨body, launch, answer⟩

end DaemonContext

end CacheCleaner
