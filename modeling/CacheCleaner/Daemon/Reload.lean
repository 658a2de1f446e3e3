import CacheCleaner.Daemon.EventLoop

namespace CacheCleaner

open Effect

/-- The copy of the engine, with its generation, and the copy of the context. -/
structure ConfigCopies where
  engine : LoopConfig
  generation : ConfigGeneration
  shared : LoopConfig
  deriving DecidableEq

namespace Reload

/-- Each step is one no other thread can interrupt. -/
inductive Step where
  /-- `DaemonConfig::reload_from_path`. -/
  | readFile
  /-- `update_config` under the lock of the engine. -/
  | updateEngine (config : LoopConfig)
  /-- The assignment under the lock of `DaemonContext::config`. -/
  | writeShared (config : LoopConfig)

abbrev Outcome : Step → Type
  | .readFile => Except String LoopConfig
  | _ => Unit

def take (step : Step) : Program Step Outcome (Outcome step) := Program.perform step

def successText (path : Option String) : String :=
  match path with
  | some shown => s!"Configuration reloaded successfully from {shown}"
  | none => "Configuration reloaded successfully"

def failureText (error : String) : String :=
  s!"Failed to reload configuration: {error}. Keeping current config."

def reloadConfig (path : Option String) : Program Step Outcome (Except String String) := do
  match ← take .readFile with
  | .ok config => do
    take (.updateEngine config)
    take (.writeShared config)
    pure (.ok (successText path))
  | .error error => pure (.error (failureText error))

def respond (file : Except String LoopConfig) :
    (step : Step) → ConfigCopies → Outcome step × ConfigCopies
  | .readFile, copies => (file, copies)
  | .updateEngine config, copies => ((), { copies with
      engine := config
      generation := copies.generation.nextSaturating })
  | .writeShared config, copies => ((), { copies with shared := config })

def alone (path : Option String) (file : Except String LoopConfig)
    (copies : ConfigCopies) : Option (Except String String) × ConfigCopies :=
  (reloadConfig path).run ⟨respond file⟩ copies

end Reload

namespace EventLoop

inductive ReloadPath where
  | sighup
  | ipc
  deriving DecidableEq, Repr

def ReloadPath.batch : ReloadPath → Batch
  | .sighup => ⟨false, true, false, [], false⟩
  | .ipc => ⟨false, false, true, [], false⟩

/-- The surroundings of a reload at `time`: the signal, or the connection whose
command is handled, is the reload; all else is answered by `others`. -/
def reloading (time : Instant) (path : Option String) (file : Except String LoopConfig)
    (others : (request : LoopRequest) → LoopReply request) :
    Handler LoopRequest LoopReply ConfigCopies where
  respond
    | .batchNow, copies => (time, copies)
    | .readConfig, copies => (copies.shared, copies)
    | .readSignals, copies => ([.reload], copies)
    | .reloadConfig, copies =>
      let outcome := Reload.alone path file copies
      (outcome.1.getD (.error ""), outcome.2)
    | .acceptAndHandle, copies => ((), (Reload.alone path file copies).2)
    | request, copies => (others request, copies)

def deadlines (state : LoopState) : Instant × Option Instant × Option Instant :=
  (state.maintenanceDeadline, state.screenOffDeadline, state.retryDeadline)

/-- A new configuration starts a new interval, and a failed reload leaves the
deadlines alone. -/
def Rescheduled (time : Instant) (file : Except String LoopConfig)
    (before after : LoopState) : Prop :=
  match file with
  | .ok config =>
    after.maintenanceDeadline = time + fromSecs config.maintenanceIntervalSecs ∧
      after.retryDeadline = none
  | .error _ => deadlines after = deadlines before

/-- When it comes out so: the signal sets the deadlines from the old interval
whether or not the file loads, and a command never sets them. -/
def AsScheduled (path : ReloadPath) (time : Instant)
    (file : Except String LoopConfig) (old : LoopConfig) (before : LoopState) : Prop :=
  match path, file with
  | .sighup, .ok config =>
    old.maintenanceIntervalSecs = config.maintenanceIntervalSecs
  | .sighup, .error _ => before.maintenanceDeadline =
      time + fromSecs old.maintenanceIntervalSecs ∧ before.retryDeadline = none
  | .ipc, .ok config => before.maintenanceDeadline =
      time + fromSecs config.maintenanceIntervalSecs ∧ before.retryDeadline = none
  | .ipc, .error _ => True

def afterReload (kind : ReloadPath) (time : Instant) (old : LoopConfig)
    (isCleaning : Bool) (before : LoopState) : LoopState :=
  match kind with
  | .sighup => (before.reduce (.signal .reload)
      ⟨time, old.minScreenOffSecs, old.maintenanceIntervalSecs, isCleaning⟩).1
  | .ipc => before

theorem rescheduled_afterReload (kind : ReloadPath) (time : Instant)
    (file : Except String LoopConfig) (old : LoopConfig) (isCleaning : Bool) (before : LoopState) :
    Rescheduled time file before (afterReload kind time old isCleaning before) ↔
      AsScheduled kind time file old before := by
  cases kind with
  | sighup =>
    cases file with
    | ok config =>
      unfold Rescheduled AsScheduled afterReload
      simp only [LoopState.reduce, LoopState.resetRetryBackoff,
        Nat.add_left_cancel_iff, fromSecs_inj, and_true]
    | error error =>
      unfold Rescheduled AsScheduled afterReload deadlines
      simp only [LoopState.reduce, LoopState.resetRetryBackoff, Prod.mk.injEq, true_and]
      rw [eq_comm, @eq_comm _ none]
  | ipc =>
    cases file with
    | ok config =>
      unfold Rescheduled AsScheduled afterReload
      exact Iff.rfl
    | error error => exact iff_of_true rfl trivial

section

variable (time : Instant) (path : Option String) (file : Except String LoopConfig)
  (others : (request : LoopRequest) → LoopReply request) (uevents psi : Bool)
  (before : LoopState) (copies : ConfigCopies)

theorem handleBatch_reload (kind : ReloadPath) :
    (handleBatch ⟨true, uevents, true, psi⟩ kind.batch before).run
        (reloading time path file others) copies =
      (some (some (afterReload kind time copies.shared (others .isCleaning)
        before)), (Reload.alone path file copies).2) := by
  have armed : ∀ (state : LoopState) (copies : ConfigCopies), (do
          if ← call .isShutdownRequested then pure ()
          else call (.armTimer state.earliestDeadline)
          pure (some state) : Loop (Option LoopState)).run
        (reloading time path file others) copies = (some (some state), copies) := by
    intro state copies
    change (if others .isShutdownRequested then _ else _ : Loop _).run _ _ = _
    cases others .isShutdownRequested <;> rfl
  cases kind with
  | sighup => exact armed _ _
  | ipc => exact armed _ _

/-- A reload reschedules as it should exactly when the old interval or the old
deadlines happen to say the same. -/
theorem reload_reschedules_iff (kind : ReloadPath) : (∃ after kept,
      (handleBatch ⟨true, uevents, true, psi⟩ kind.batch before).run
        (reloading time path file others) copies = (some (some after), kept) ∧
      Rescheduled time file before after) ↔ AsScheduled kind time file copies.shared before := by
  rw [← rescheduled_afterReload kind time file copies.shared (others .isCleaning) before]
  have ran := handleBatch_reload time path file others uevents psi before copies kind
  constructor
  · rintro ⟨after, kept, same, holds⟩
    rw [ran, Prod.mk.injEq, Option.some.injEq, Option.some.injEq] at same
    rw [same.1]
    exact holds
  · exact fun holds => ⟨_, _, ran, holds⟩

end

def everySecs (interval : Nat) : LoopConfig :=
  { DaemonConfig.default with
    maintenanceIntervalSecs := interval
    requireScreenOff := true
    requireChargingForDeepClean := false
    psiCooldownSecs := 60 }

/-- From one hour to two at the five hundredth second: the signal schedules the
next maintenance after one hour, even if the file does not load, and the
command leaves it where it was. -/
theorem reload_keeps_old_interval :
    let before := LoopState.new 3600 0
    let old : ConfigCopies := ⟨everySecs 3600, .initial, everySecs 3600⟩
    let time := fromSecs 500
    ∀ others : (request : LoopRequest) → LoopReply request,
      let deadline := fun (kind : ReloadPath) (file : Except String LoopConfig) =>
        (((handleBatch ⟨true, true, true, true⟩ kind.batch before).run
          (reloading time none file others) old).1.bind id).map (·.maintenanceDeadline)
      deadline .sighup (.ok (everySecs 7200)) = some (fromSecs 4100) ∧
        deadline .ipc (.ok (everySecs 7200)) = some (fromSecs 3600) ∧
        deadline .sighup (.error "TOML parse error") = some (fromSecs 4100) ∧
        time + fromSecs 7200 = fromSecs 7700 := by
  intro before old time others deadline
  simp only [deadline, handleBatch_reload]
  simp [before, old, time, afterReload, LoopState.reduce, LoopState.new,
    LoopState.resetRetryBackoff, everySecs, fromSecs]

end EventLoop

end CacheCleaner
