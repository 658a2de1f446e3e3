import CacheCleaner.Daemon.Program

namespace CacheCleaner.DaemonContext

open Effect Daemon

inductive Phase where
  | idle
  /-- The flag is claimed and the token not yet reset. -/
  | claimed
  | reset
  | numbered (jobId : Nat)
  | recorded (jobId : Nat)
  /-- With the runtime lock, before the cancellation and after it. -/
  | stopping
  | stopped
  | working (worker : Worker)
  /-- The outcome is published and the record not yet closed. -/
  | closing (worker : Worker)
  | ended (worker : Worker)
  deriving DecidableEq, Repr

namespace Phase

def published : Worker → Phase
  | .scheduled params => .ended (.scheduled params)
  | .manual jobId params => .closing (.manual jobId params)

def advance : Phase → Exchange Action Answer → Phase
  | .idle, ⟨.claimManual, granted⟩ => if granted then .claimed else .idle
  | .idle, ⟨.claimScheduled, granted⟩ => if granted then .claimed else .idle
  | .idle, ⟨.requestShutdown, _⟩ => .stopping
  | .claimed, ⟨.storeCancelled _, _⟩ => .reset
  | .reset, ⟨.fetchJobId, jobId⟩ => .numbered jobId
  | .reset, ⟨.spawn _, _⟩ => .idle
  | .numbered jobId, ⟨.insertJob _, _⟩ => .recorded jobId
  | .recorded _, ⟨.spawn _, _⟩ => .idle
  | .stopping, ⟨.storeCancelled _, _⟩ => .stopped
  | .stopped, ⟨.releaseRuntime, _⟩ => .idle
  | .working worker, ⟨.publishReport _ _, _⟩ => published worker
  | .working worker, ⟨.publishFailure, _⟩ => published worker
  | .closing worker, ⟨.completeJob _ _, _⟩ => .ended worker
  | .closing worker, ⟨.failJob _ _, _⟩ => .ended worker
  | phase, _ => phase

def ordinary : Action → Bool
  | .isShutdownRequested | .isCleaning | .readRuntime | .setState _
  | .claimManual | .claimScheduled | .requestShutdown | .storeCancelled true
  | .exchangeReason _ | .getJob _ | .lockEngine | .unlockEngine => true
  | _ => false

def permits : Phase → Action → Bool
  | .idle, action => ordinary action
  | .claimed, .storeCancelled value => !value
  | .reset, .clearReason => true
  | .reset, .fetchJobId => true
  | .reset, .spawn (.scheduled _) => true
  | .numbered jobId, .insertJob record => record = .running jobId
  | .recorded jobId, .spawn (.manual created _) => created = jobId
  | .stopping, .storeCancelled value => value
  | .stopped, .exchangeReason _ => true
  | .stopped, .releaseRuntime => true
  | .working _, .lockEngine => true
  | .working _, .loadCancelled => true
  | .working _, .unlockEngine => true
  | .working _, .now => true
  | .working _, .publishReport _ _ => true
  | .working _, .publishFailure => true
  | .closing (.manual closed _), .completeJob jobId _ => jobId = closed
  | .closing (.manual closed _), .failJob jobId _ => jobId = closed
  | _, _ => false

def initial : Code → Phase
  | .worker worker _ => .working worker
  | _ => .idle

def final : Phase → Bool
  | .idle | .ended _ => true
  | _ => false

end Phase

def protocol : Protocol Phase Code Action Answer :=
  ⟨Phase.initial, Phase.advance, fun phase action => phase.permits action⟩

@[simp] theorem protocol_initial (code : Code) : protocol.initial code = Phase.initial code := rfl

@[simp] theorem protocol_advance (phase : Phase) (exchange : Exchange Action Answer) :
    protocol.advance phase exchange = phase.advance exchange := rfl

@[simp] theorem protocol_permits (phase : Phase) (action : Action) :
    protocol.permits phase action = (phase.permits action = true) := rfl

abbrev Neutral {α : Type} (program : Routine α) : Prop :=
  protocol.Obeys (fun phase _ => phase = .idle) .idle program

section

attribute [local simp] act Program.perform Phase.permits Phase.ordinary Phase.advance

theorem cancelWithReason_neutral (reason : CancelReason) :
    Neutral (CancellationToken.cancelWithReason reason) := by
  simp [CancellationToken.cancelWithReason]

theorem triggerShutdown_neutral : Neutral triggerShutdown := by
  simp [triggerShutdown, CancellationToken.cancel, CancellationToken.cancelWithReason]

theorem spawnMaintenanceWorker_neutral (fstrimPartitions : Bool) :
    Neutral (spawnMaintenanceWorker fstrimPartitions) := by
  simp [spawnMaintenanceWorker, CancellationToken.reset]

theorem reloadConfig_neutral (loads : Except String String) : Neutral (reloadConfig loads) := by
  cases loads <;> simp [reloadConfig]

theorem triggerClean_neutral (params : CleanParams) : Neutral (triggerClean params) := by
  simp [triggerClean, CancellationToken.reset]

theorem Neutral.bind {α β : Type} {program : Routine α} {next : α → Routine β}
    (first : Neutral program) (rest : ∀ value, Neutral (next value)) :
    Neutral (program >>= next) := by
  apply Protocol.Obeys.bind first
  rintro phase value rfl
  exact rest value

theorem setState_neutral : Neutral (act (.setState state)) := by
  simp

theorem preemptCleaning_neutral (reason : String) : Neutral (preemptCleaning reason) :=
  (cancelWithReason_neutral .screenOn).bind fun _ => setState_neutral

theorem handleCommand_neutral (command : Command) : Neutral (handleCommand command) := by
  cases command with
  | triggerClean params =>
    simpa [handleCommand] using triggerClean_neutral params
  | getJobStatus jobId =>
    simp only [handleCommand]
    simp
    intro record
    cases record <;> simp
  | reloadConfig loads =>
    simpa [handleCommand] using reloadConfig_neutral loads
  | stopDaemon =>
    simpa [handleCommand] using triggerShutdown_neutral.bind fun _ => by simp
  | cancel =>
    simpa [handleCommand, CancellationToken.cancel] using
      (cancelWithReason_neutral .manualCancel).bind fun _ => by simp
  | _ => simp [handleCommand]

theorem reconcileSysfs_neutral (turnedOn : Bool) : Neutral (reconcileSysfs turnedOn) := by
  have preempted := preemptCleaning_neutral "Screen turned ON"
  cases turnedOn <;> simp [reconcileSysfs, preempted]

theorem fallbackScreenOn_neutral : Neutral fallbackScreenOn := by
  simp [fallbackScreenOn, CancellationToken.cancel, CancellationToken.cancelWithReason]

theorem reclaimMemory_neutral (level : String) : Neutral (reclaimMemory level) := by
  simp [reclaimMemory]

theorem runMaintenance_neutral (shouldRun fstrimPartitions : Bool) :
    Neutral (runMaintenance shouldRun fstrimPartitions) := by
  have started := spawnMaintenanceWorker_neutral fstrimPartitions
  cases shouldRun <;> simp [runMaintenance, maintenanceDue, started]

theorem awaitWorker_neutral (polls : Nat) : Neutral (awaitWorker polls) := by
  induction polls with
  | zero => simp [awaitWorker]
  | succ polls ih => simpa [awaitWorker] using ih

theorem execute_working (worker : Worker) (job : Job) :
    protocol.Obeys (fun phase _ => phase = .working worker) (.working worker) (execute job) := by
  induction job with
  | done result => simp [execute]
  | abort => trivial
  | call request next ih => simpa [execute] using ih

theorem closeRecord_ends (worker : Worker) (result : Result CleanReport) :
    protocol.Obeys (fun phase _ => phase = .ended worker)
      (Phase.published worker) (closeRecord worker result) := by
  cases worker with
  | scheduled params => simp [closeRecord, Phase.published]
  | manual jobId params =>
    cases result <;> simp [closeRecord, Phase.published]

theorem work_ends (worker : Worker) (job : Job) :
    protocol.Obeys (fun phase _ => phase = .ended worker) (.working worker) (work worker job) := by
  have closed := closeRecord_ends worker
  simp only [work, act, Program.perform_bind]
  refine ⟨rfl, fun _ => (execute_working worker job).bind ?_⟩
  rintro phase result rfl
  cases result <;> simp [publish, closed]

theorem body_obeys (code : Code) :
    protocol.Obeys (fun phase _ => phase.final) (protocol.initial code) (body code) := by
  have idle {α : Type} {program : Routine α} (neutral : Neutral program) :
      protocol.Obeys (fun phase _ => phase.final) .idle program := by
    apply neutral.mono
    rintro phase value rfl
    rfl
  have silent {α : Type} {program : Routine α} (neutral : Neutral program) :
      Neutral (do let _ ← program; pure ()) :=
    neutral.bind fun _ => by simp
  cases code with
  | command command => exact idle (silent (handleCommand_neutral command))
  | worker worker job =>
    apply (work_ends worker job).mono
    rintro phase value rfl
    rfl
  | shutdownSignal => exact idle triggerShutdown_neutral
  | reloadSignal loads => exact idle (silent (reloadConfig_neutral loads))
  | preempt reason => exact idle (preemptCleaning_neutral reason)
  | reconcile turnedOn => exact idle (reconcileSysfs_neutral turnedOn)
  | fallbackScreen => exact idle fallbackScreenOn_neutral
  | reclaim level => exact idle (reclaimMemory_neutral level)
  | maintain shouldRun fstrim => exact idle (runMaintenance_neutral ..)
  | shutdownCleanup polls =>
    exact idle (triggerShutdown_neutral.bind fun _ =>
      awaitWorker_neutral polls)

end

end CacheCleaner.DaemonContext
