import CacheCleaner.Daemon.Cancellation

namespace CacheCleaner.DaemonContext

open Effect Daemon

variable {ι : Type}

variable {pool pool' : Daemons ι} {event : Happening ι}

/-- Requests that write the state or claim the flag without a look at
`shutdown_requested`. -/
def Touches : Action → Bool
  | .setState _ | .claimManual | .publishReport _ _ | .publishFailure => true
  | _ => false

/-- How requests are answered once shutdown is requested and nothing is being
cleaned. -/
def haltedReply : (action : Action) → Answer action → Prop
  | .isShutdownRequested, reply => reply = true
  | .isCleaning, reply => reply = false
  | .claimScheduled, reply => reply = false
  | _, _ => True

/-- The thread has no write of the state and no claim left to make, once
shutdown is requested. -/
def Harmless {α : Type} (program : Routine α) : Prop :=
  program.Confined haltedReply fun action => Touches action = false

section

attribute [local simp] act Program.perform Touches haltedReply

theorem triggerShutdown_harmless : Harmless triggerShutdown := by
  simp [Harmless, triggerShutdown, CancellationToken.cancel, CancellationToken.cancelWithReason]

theorem reloadConfig_harmless (loads : Except String String) : Harmless (reloadConfig loads) := by
  cases loads <;> simp [Harmless, reloadConfig]

theorem handleCommand_harmless (command : Command) : Harmless (handleCommand command) := by
  simp [Harmless, handleCommand]

theorem runMaintenance_harmless (shouldRun fstrimPartitions : Bool) :
    Harmless (runMaintenance shouldRun fstrimPartitions) := by
  cases shouldRun <;> simp [Harmless, runMaintenance, maintenanceDue]

theorem awaitWorker_harmless (polls : Nat) : Harmless (awaitWorker polls) := by
  cases polls <;> simp [Harmless, awaitWorker]

def Intrudes : Code → Bool
  | .reclaim _ | .preempt _ => true
  | _ => false

theorem body_harmless {code : Code} (begins : Intrudes code = false)
    (alone : ∀ worker job, code ≠ .worker worker job) : Harmless (body code) := by
  have silent {α : Type} {program : Routine α} (harmless : Harmless program) :
      Harmless (do let _ ← program; pure ()) :=
    harmless.bind fun _ => trivial
  cases code with
  | command command => exact silent (handleCommand_harmless command)
  | worker worker job => exact absurd rfl (alone worker job)
  | shutdownSignal => exact triggerShutdown_harmless
  | reloadSignal loads => exact silent (reloadConfig_harmless loads)
  | preempt reason => cases begins
  | reconcile turnedOn => simp [Harmless, body, reconcileSysfs]
  | fallbackScreen => simp [Harmless, body, fallbackScreenOn]
  | reclaim level => cases begins
  | maintain shouldRun fstrim => exact runMaintenance_harmless ..
  | shutdownCleanup polls =>
    exact triggerShutdown_harmless.bind fun _ => awaitWorker_harmless polls

end

def RequestsShutdown : Happening ι → Bool
  | .acted _ ⟨.requestShutdown, _⟩ => true
  | _ => false

def BeginsIntruding : Happening ι → Bool
  | .launched _ code => Intrudes code
  | _ => false

/-- When shutdown is requested nothing is being cleaned and no thread has a
write or claim left, and afterwards the loop begins no reclaim or preemption. -/
structure Composed (pool : Daemons ι) (event : Happening ι) (_ : Daemons ι) : Prop where
  requested : RequestsShutdown event = true → pool.shared.runtime.isCleaning = false ∧
      pool.All fun thread => Harmless thread.rest
  begun : BeginsIntruding event = true → pool.shared.runtime.shutdownRequested = false

/-- Once shutdown is requested the state is `ShuttingDown`, and the cleaning
flag is not set any more. -/
def Absorbing (before : Daemons ι) (_ : Happening ι) (after : Daemons ι) : Prop :=
  after.shared.runtime.shutdownRequested = true → after.shared.runtime.state = .shuttingDown ∧
    (before.shared.runtime.shutdownRequested = true → before.shared.runtime.isCleaning = false →
      after.shared.runtime.isCleaning = false)

section

variable {chance : Chance} {action : Action} {context after : DaemonContext} {reply : Answer action}

theorem haltedReply_of_answer (answered : answer chance action context = some (reply, after))
    (requested : context.runtime.shutdownRequested = true)
    (unclaimed : context.runtime.isCleaning = false) : haltedReply action reply := by
  cases action with
  | isShutdownRequested =>
    exact (guarded_some.mp answered).2.1.trans requested
  | isCleaning => exact (guarded_some.mp answered).2.1.trans unclaimed
  | claimScheduled =>
    have refused : (claimScheduled context.runtime).1 = false := by
      simp [claimScheduled, requested]
    exact (guarded_some.mp answered).2.1.trans refused
  | _ => trivial

theorem halted_of_answer (answered : answer chance action context = some (reply, after))
    (requested : context.runtime.shutdownRequested = true)
    (halted : context.runtime.state = .shuttingDown) (untouched : Touches action = false) :
    after.runtime.state = .shuttingDown ∧
      after.runtime.isCleaning = context.runtime.isCleaning := by
  cases action <;> simp [Touches] at untouched <;>
    simp [answer, guarded_some, claimScheduled, requested] at answered <;> grind

end

structure Halted (pool : Daemons ι) : Prop where
  requested : pool.shared.runtime.shutdownRequested = true
  state : pool.shared.runtime.state = .shuttingDown
  unclaimed : pool.shared.runtime.isCleaning = false
  harmless : pool.All fun thread => Harmless thread.rest

variable [DecidableEq ι]

theorem requested_step (requested : pool.shared.runtime.shutdownRequested = true)
    (orderly : Orderly pool) (step : system.Step pool event pool') :
    pool'.shared.runtime.shutdownRequested = true := by
  cases step with
  | launched free launched =>
    rw [Pool.shared_set, launch_frame launched]
    exact requested
  | @acted name thread action next chance reply shared found waits answered =>
    have turn := orderly.turn found waits answered
    generalize protocol.phase thread = phase at turn
    generalize protocol.phase _ = phase' at turn
    cases turn with
    | locks unlocked => rfl
    | stays quiet same =>
      rw [Pool.shared_set, same]
      exact requested
    | _ => exact requested

theorem Halted.step
    (halted : Halted pool) (coherent : Coherent pool) (step : system.Step pool event pool')
    (composed : Composed pool event pool') : Halted pool' := by
  have requested := requested_step halted.requested coherent.orderly step
  cases step with
  | @launched name code shared free launched =>
    have runtime : shared.runtime = pool.shared.runtime := by
      rw [launch_frame launched]
    refine ⟨requested, ?_, ?_, halted.harmless.set (body_harmless ?_ ?_)⟩
    · rw [Pool.shared_set, runtime, halted.state]
    · rw [Pool.shared_set, runtime, halted.unclaimed]
    · by_contra intrudes
      have running := composed.begun (by simpa [BeginsIntruding] using intrudes)
      cases running.symm.trans halted.requested
    · -- Nothing is being cleaned, so no worker has been created.
      rintro worker job rfl
      obtain ⟨owner, owned⟩ := coherent.owned
      obtain rfl : owner = none := by
        simpa [halted.unclaimed] using owned.cleaning
      have created := mem_of_launch job launched
      rw [owned.spawned] at created
      cases created
  | @acted name thread action next chance reply shared found waits answered =>
    have harmless : Harmless thread.rest := halted.harmless name thread found
    rw [waits] at harmless
    obtain ⟨state, cleaning⟩ := halted_of_answer answered halted.requested halted.state harmless.1
    refine ⟨requested, state, cleaning.trans halted.unclaimed,
      halted.harmless.set (harmless.2 reply ?_)⟩
    exact haltedReply_of_answer answered halted.requested halted.unclaimed

theorem Halted.of_requests (running : pool.shared.runtime.shutdownRequested = false)
    (coherent : Coherent pool) (step : system.Step pool event pool')
    (composed : Composed pool event pool')
    (requested : pool'.shared.runtime.shutdownRequested = true) : Halted pool' := by
  cases step with
  | launched free launched =>
    rw [Pool.shared_set, launch_frame launched] at requested
    cases running.symm.trans requested
  | @acted name thread action next chance reply shared found waits answered =>
    have turn := coherent.orderly.turn found waits answered
    generalize protocol.phase thread = phase at turn
    generalize protocol.phase _ = phase' at turn
    cases turn with
    | locks unlocked =>
      obtain ⟨unclaimed, harmless⟩ := composed.requested rfl
      have here : Harmless thread.rest := harmless name thread found
      rw [waits] at here
      exact ⟨rfl, rfl, unclaimed, harmless.set (here.2 () trivial)⟩
    | stays quiet same =>
      rw [Pool.shared_set, same] at requested
      cases running.symm.trans requested
    | _ => cases running.symm.trans requested

/-- Shutdown is absorbing in every run in which it comes to a composed daemon. -/
theorem shutdown_absorbing {events : List (Happening ι)} {pool : Daemons ι}
    (run : system.Run Composed (.start .new) events pool) :
    system.Run Absorbing (.start .new) events pool := by
  have both : system.Run Absorbing (.start .new) events pool ∧
      (pool.shared.runtime.shutdownRequested = true → Halted pool) := by
    induction run with
    | nil => exact ⟨.nil, fun requested => by cases requested⟩
    | @snoc events pool pool' event run step composed induction =>
      obtain ⟨absorbing, halted⟩ := induction
      have reached := coherent run
      have halted' (requested : pool'.shared.runtime.shutdownRequested = true) : Halted pool' := by
        cases before : pool.shared.runtime.shutdownRequested with
        | true => exact (halted before).step reached step composed
        | false => exact .of_requests before reached step composed requested
      exact ⟨.snoc absorbing step fun requested =>
        ⟨(halted' requested).state, fun _ _ => (halted' requested).unclaimed⟩,
        halted'⟩
  exact both.1

def checkThenStop : Schedule :=
  [.launch 0 (.command (.triggerClean plainParams)), .act 0 calm,
    .launch 1 (.command .stopDaemon)] ++ System.acts 1 calm 5

def shutDown : List (Happening (Fin 3)) × Daemons (Fin 3) :=
  system.replayed System.anyhow checkThenStop (.start .new) (by decide +kernel)

def claimedAfterwards : Daemons (Fin 3) :=
  ((system.play shutDown.2 (.act 0 calm)).get (by decide +kernel)).2

/-- A command that has passed its check claims the flag after shutdown, and the
state is not `ShuttingDown` any more. -/
theorem claim_after_shutdown : system.Run System.anyhow (.start .new) shutDown.1 shutDown.2 ∧
      shutDown.2.shared.runtime.shutdownRequested = true ∧
      shutDown.2.shared.runtime.state = .shuttingDown ∧
      shutDown.2.shared.runtime.isCleaning = false ∧
      system.Step shutDown.2 (.acted 0 ⟨.claimManual, true⟩) claimedAfterwards ∧
      claimedAfterwards.shared.runtime.isCleaning = true ∧
      claimedAfterwards.shared.runtime.state = .cleaningManual :=
  ⟨.replayed _ _, by decide +kernel, by decide +kernel, by decide +kernel,
    .of_play (.act 0 calm) rfl, by decide +kernel, by decide +kernel⟩

def stopOnly : List (System.Move (Fin 1) Code Chance) :=
  [.launch 0 (.command .stopDaemon), .act 0 calm]

def Uneventful (_ : Daemons (Fin 1)) (event : Happening (Fin 1)) (_ : Daemons (Fin 1)) : Prop :=
  RequestsShutdown event = false ∧ BeginsIntruding event = false

instance (pool : Daemons (Fin 1)) (event : Happening (Fin 1))
    (pool' : Daemons (Fin 1)) : Decidable (Uneventful pool event pool') :=
  inferInstanceAs (Decidable (_ ∧ _))

def aboutToStop : List (Happening (Fin 1)) × Daemons (Fin 1) :=
  system.replayed Uneventful stopOnly (.start .new) (by decide +kernel)

def stoppedAlone : Daemons (Fin 1) :=
  ((system.play aboutToStop.2 (.act 0 calm)).get (by decide +kernel)).2

theorem shutdown_absorbing_alone : system.Run Absorbing (.start .new)
        (aboutToStop.1 ++ [.acted 0 ⟨.requestShutdown, ()⟩]) stoppedAlone ∧
      stoppedAlone.shared.runtime.shutdownRequested = true := by
  refine ⟨shutdown_absorbing ?_, by decide +kernel⟩
  have before : system.Run Composed (.start .new) aboutToStop.1 aboutToStop.2 := by
    apply (System.Run.replayed stopOnly (by decide +kernel)).weaken
    intro pool event pool' uneventful
    constructor
    · intro requests
      cases uneventful.1.symm.trans requests
    · intro begins
      cases uneventful.2.symm.trans begins
  refine .snoc before (.of_play (.act 0 calm) rfl)
    ⟨fun _ => ⟨by decide +kernel, ?_⟩, fun begins => by cases begins⟩
  intro name thread found
  match name with
  | 0 =>
    cases found
    exact ⟨rfl, fun _ _ => ⟨rfl, fun _ _ => ⟨rfl, fun _ _ =>
      ⟨rfl, fun _ _ => trivial⟩⟩⟩⟩

end CacheCleaner.DaemonContext
