import CacheCleaner.Daemon.Program
import CacheCleaner.Effect.Phases

namespace CacheCleaner

/-- Nanoseconds of the monotonic clock. -/
abbrev Instant := Nat

def fromSecs (secs : Nat) : Nat := 1000000000 * secs

theorem fromSecs_inj {left right : Nat} : fromSecs left = fromSecs right ↔ left = right :=
  Nat.mul_right_inj (by decide)

inductive ScreenState where
  | on | off | unknown
  deriving DecidableEq, Repr

inductive ChargerState where
  | charging | discharging | full | unknown
  deriving DecidableEq, Repr

inductive PsiPressureLevel where
  | normal | moderate | critical
  deriving DecidableEq, Repr

namespace PsiPressureLevel

def rank : PsiPressureLevel → Nat
  | .normal => 0
  | .moderate => 1
  | .critical => 2

def display : PsiPressureLevel → String
  | .normal => "Normal (Low Stall)"
  | .moderate => "Moderate (Elevated Stall)"
  | .critical => "Critical (Severe Stall / Thrashing)"

def strongest (levels : List PsiPressureLevel) : Option PsiPressureLevel :=
  levels.foldl (fun current level =>
    match current with
    | some kept => if level.rank ≤ kept.rank then some kept else some level
    | none => some level) none

end PsiPressureLevel

inductive SignalEvent where
  | shutdown | reload
  | other (number : Int)
  deriving DecidableEq, Repr

structure UeventMessage where
  subsystem : String
  deriving DecidableEq, Repr

inductive LoopEvent where
  | timerExpired
  | uevent (message : UeventMessage)
  | ueventBufferOverflow
  | signal (event : SignalEvent)
  | ipcReadable
  | psiPressure (level : PsiPressureLevel)
  | reconcileScreen (state : ScreenState)
  deriving DecidableEq, Repr

inductive LoopAction where
  | none
  | runMaintenance
  | preemptCleaning (reason : String)
  | shutdown
  | reloadConfig
  | handleIpc
  | reclaimMemory (level : PsiPressureLevel)
  | reconcileSysfs
  deriving DecidableEq, Repr

structure LoopState where
  screenState : ScreenState
  screenOffSince : Option Instant
  ueventOk : Bool
  maintenanceDeadline : Instant
  screenOffDeadline : Option Instant
  retryDeadline : Option Instant
  retryBackoffSecs : Nat
  deriving DecidableEq, Repr

namespace LoopState

def initialRetryBackoffSecs : Nat := 5

def maxRetryBackoffSecs : Nat := 60

def new (maintenanceIntervalSecs : Nat) (now : Instant) : LoopState where
  screenState := .unknown
  screenOffSince := .none
  ueventOk := true
  maintenanceDeadline := now + fromSecs maintenanceIntervalSecs
  screenOffDeadline := .none
  retryDeadline := .none
  retryBackoffSecs := initialRetryBackoffSecs

def sooner (earliest : Instant) : Option Instant → Instant
  | some deadline => if deadline < earliest then deadline else earliest
  | .none => earliest

variable (state : LoopState)

def earliestDeadline : Instant :=
  sooner (sooner state.maintenanceDeadline state.screenOffDeadline) state.retryDeadline

def resetRetryBackoff : LoopState :=
  { state with retryBackoffSecs := initialRetryBackoffSecs }

def displaySubsystems : List String := ["backlight", "leds", "graphics", "drm", "power_supply"]

/-- What the settings and the cleaning state are when an event is reduced. -/
structure Surroundings where
  now : Instant
  minScreenOffSecs : Nat
  maintenanceIntervalSecs : Nat
  isCleaning : Bool

def reconcile (seen : ScreenState) (given : Surroundings) :
    LoopState × List LoopAction :=
  let state := { state with ueventOk := true }
  match seen with
  | .on =>
    let wasOff := decide (state.screenState ≠ .on)
    ({ state with
        screenState := .on
        screenOffSince := .none
        screenOffDeadline := .none }.resetRetryBackoff,
      if wasOff && given.isCleaning then
        [.preemptCleaning "Screen turned ON"] else [])
  | .off =>
    if state.screenState ≠ .off then
      ({ state with
          screenState := .off
          screenOffSince := some given.now
          screenOffDeadline :=
            some (given.now + fromSecs given.minScreenOffSecs)
          }.resetRetryBackoff, [])
    else (state, [])
  | .unknown => (state, [])

def reduce (event : LoopEvent) (given : Surroundings) :
    LoopState × List LoopAction :=
  match event with
  | .timerExpired =>
    let passed := state.screenOffDeadline.any (· ≤ given.now)
    let maintenanceDue := decide (state.maintenanceDeadline ≤ given.now)
    let retryDue := state.retryDeadline.any (· ≤ given.now)
    (if passed then { state with screenOffDeadline := .none } else state,
      if maintenanceDue || retryDue then [.runMaintenance] else [])
  | .uevent message =>
    (state, if message.subsystem ∈ displaySubsystems then [.reconcileSysfs]
      else [])
  | .ueventBufferOverflow => ({ state with ueventOk := false }, [.reconcileSysfs])
  | .reconcileScreen seen => state.reconcile seen given
  | .signal .shutdown => (state, [.shutdown])
  | .signal .reload =>
    ({ state with
        maintenanceDeadline := given.now +
          fromSecs given.maintenanceIntervalSecs
        retryDeadline := .none }.resetRetryBackoff, [.reloadConfig])
  | .signal (.other _) => (state, [])
  | .ipcReadable => (state, [.handleIpc])
  | .psiPressure level => (state, [.reclaimMemory level])

def onMaintenanceSuccess (now : Instant) (intervalSecs : Nat) : LoopState :=
  let advanced := state.maintenanceDeadline + fromSecs intervalSecs
  { state with
    maintenanceDeadline :=
      if advanced < now then now + fromSecs intervalSecs else advanced
    retryDeadline := .none }.resetRetryBackoff

def onMaintenancePostponed (now : Instant) (intervalSecs : Nat) : LoopState :=
  { state with
    retryDeadline := some (now + fromSecs state.retryBackoffSecs)
    retryBackoffSecs := min (state.retryBackoffSecs * 2) maxRetryBackoffSecs
    maintenanceDeadline :=
      if state.maintenanceDeadline ≤ now then now + fromSecs intervalSecs
      else state.maintenanceDeadline }

end LoopState

/-- The configuration with the settings only the loop reads. -/
structure LoopConfig extends DaemonConfig where
  requireScreenOff : Bool
  requireChargingForDeepClean : Bool
  psiCooldownSecs : Nat
  deriving DecidableEq

def Temperature.exceeds (reading limit : Temperature) : Bool :=
  match limit with
  | .nan => false
  | .degrees value => reading.above value

structure ThermalReading where
  maxSocTempC : Temperature
  batteryTempC : Temperature
  deriving DecidableEq

structure Batch where
  timer : Bool
  signal : Bool
  ipc : Bool
  psi : List PsiPressureLevel
  uevent : Bool
  deriving DecidableEq, Repr

inductive Wakeup where
  | interrupted
  | failed
  | ready (batch : Batch)
  deriving DecidableEq, Repr

/-- What the loop asks of its context and of the system. -/
inductive LoopRequest where
  | isShutdownRequested | isCleaning
  | readConfig
  | epollWait
  /-- `Instant::now()` while the loop starts. -/
  | startupNow
  /-- `Instant::now()` after the wait, for the whole batch. -/
  | batchNow
  /-- `Instant::now()` in `since.elapsed()`. -/
  | triggerNow
  | drainTimer | readSignals | readUevents
  | getScreenState | getChargerState | readThermal
  | setScreenOffSince (since : Option Instant)
  | setState (state : DaemonState)
  | cancelForScreen
  | triggerShutdown | reloadConfig | acceptAndHandle
  | psiCanRespond (cooldown : Nat)
  | psiRecordResponse
  | psiDrain (level : PsiPressureLevel)
  | reclaimCgroupMemory (megabytes : Nat)
  | compactZram | compactMemory
  | spawnMaintenanceWorker
  | armTimer (deadline : Instant)
  deriving DecidableEq

abbrev LoopReply : LoopRequest → Type
  | .isShutdownRequested | .isCleaning | .psiCanRespond _ => Bool
  | .readConfig => LoopConfig
  | .epollWait => Wakeup
  | .startupNow | .batchNow | .triggerNow => Instant
  | .readSignals => List SignalEvent
  | .readUevents => List UeventMessage
  | .getScreenState => ScreenState
  | .getChargerState => ChargerState
  | .readThermal => ThermalReading
  | .reloadConfig => Except String String
  | _ => Unit

abbrev Loop := Effect.Program LoopRequest LoopReply

namespace EventLoop

open LoopState

def call (request : LoopRequest) : Loop (LoopReply request) := Effect.Program.perform request

structure Sources where
  signals : Bool
  uevents : Bool
  ipc : Bool
  psi : Bool
  deriving DecidableEq, Repr

def screenOffLongEnough (config : LoopConfig) (since : Option Instant) : Loop Bool :=
  if config.requireScreenOff then
    match since with
    | some start => do
      let now ← call .triggerNow
      pure (decide (fromSecs config.minScreenOffSecs ≤ now - start))
    | none => pure false
  else pure true

def chargingIfRequired (config : LoopConfig) : Loop Bool :=
  if config.requireChargingForDeepClean then do
    let charger ← call .getChargerState
    pure (decide (charger = .charging ∨ charger = .full))
  else pure true

def evaluateTriggers (since : Option Instant) : Loop Bool := do
  let config ← call .readConfig
  if ← screenOffLongEnough config since then
    if ← chargingIfRequired config then
      let thermal ← call .readThermal
      pure !(thermal.maxSocTempC.exceeds config.maxSocTempC ||
        thermal.batteryTempC.exceeds config.maxBatteryTempC)
    else pure false
  else pure false

def preempt (reason : String) : Loop Unit := do
  call .cancelForScreen
  call (.setState (.preempted reason))

/-- The sub-actions of a reconciliation: only preemptions are carried out. -/
def preemptAll : List LoopAction → Loop Unit
  | [] => pure ()
  | .preemptCleaning reason :: rest => do
    preempt reason
    preemptAll rest
  | _ :: rest => preemptAll rest

def reconcileSysfs (state : LoopState) (given : Surroundings) : Loop LoopState := do
  let seen ← call .getScreenState
  let isCleaning ← call .isCleaning
  let (state, actions) := state.reduce (.reconcileScreen seen) { given with isCleaning }
  call (.setScreenOffSince state.screenOffSince)
  preemptAll actions
  pure state

def reclaim : PsiPressureLevel → Loop Unit
  | .normal => pure ()
  | .moderate => call (.reclaimCgroupMemory 64)
  | .critical => do
    call (.reclaimCgroupMemory 128)
    call .compactZram
    call .compactMemory

def reclaimMemory (level : PsiPressureLevel) : Loop Unit := do
  let config ← call .readConfig
  if ← call (.psiCanRespond config.psiCooldownSecs) then
    if ← call .isCleaning then pure ()
    else
      call .psiRecordResponse
      call (.setState (.pressureReclaiming level.display))
      reclaim level
      if ← call .isCleaning then pure () else call (.setState .idle)
  else pure ()
  call (.psiDrain level)

def mayStart (since : Option Instant) : Loop Bool := do
  if ← evaluateTriggers since then
    if ← call .isCleaning then pure false
    else
      let stopping ← call .isShutdownRequested
      pure !stopping
  else pure false

def runMaintenance (state : LoopState) (given : Surroundings) : Loop LoopState := do
  if ← mayStart state.screenOffSince then
    call .spawnMaintenanceWorker
    pure (state.onMaintenanceSuccess given.now given.maintenanceIntervalSecs)
  else if ← call .isShutdownRequested then pure state
  else
    pure (state.onMaintenancePostponed given.now given.maintenanceIntervalSecs)

/-- One action; `none` leaves the loop. -/
def perform (sources : Sources) (given : Surroundings) (state : LoopState) :
    LoopAction → Loop (Option LoopState)
  | .none => pure (some state)
  | .shutdown => do
    call .triggerShutdown
    pure none
  | .reloadConfig => do
    let _ ← call .reloadConfig
    pure (some state)
  | .handleIpc => do
    if sources.ipc then call .acceptAndHandle else pure ()
    pure (some state)
  | .preemptCleaning reason => do
    preempt reason
    pure (some state)
  | .reconcileSysfs => do
    let state ← reconcileSysfs state given
    pure (some state)
  | .reclaimMemory level => do
    if sources.psi then reclaimMemory level else pure ()
    pure (some state)
  | .runMaintenance => do
    let state ← runMaintenance state given
    pure (some state)

def performAll (sources : Sources) (given : Surroundings) :
    List LoopAction → LoopState → Loop (Option LoopState)
  | [], state => pure (some state)
  | action :: rest, state => do
    match ← perform sources given state action with
    | some state => performAll sources given rest state
    | none => pure none

def processEvents (sources : Sources) (given : Surroundings) :
    List LoopEvent → LoopState → Loop (Option LoopState)
  | [], state => pure (some state)
  | event :: rest, state => do
    let (state, actions) := state.reduce event given
    call (.setScreenOffSince state.screenOffSince)
    match ← performAll sources given actions state with
    | some state => processEvents sources given rest state
    | none => pure none

def whenReady (ready : Bool) (request : LoopRequest)
    (items : LoopReply request → List α) : Loop (List α) :=
  if ready then do
    let reply ← call request
    pure (items reply)
  else pure []

def ueventEvents (messages : List UeventMessage) : List LoopEvent :=
  if messages.isEmpty then [.ueventBufferOverflow] else messages.map .uevent

def collectEvents (sources : Sources) (batch : Batch) : Loop (List LoopEvent) := do
  let timer ← whenReady batch.timer .drainTimer fun _ => [.timerExpired]
  let signals ← whenReady (batch.signal && sources.signals) .readSignals
    fun events => events.map LoopEvent.signal
  let ipc := if batch.ipc then [LoopEvent.ipcReadable] else []
  let psi := (PsiPressureLevel.strongest batch.psi).toList.map LoopEvent.psiPressure
  let uevents ← whenReady (batch.uevent && sources.uevents) .readUevents ueventEvents
  pure (timer ++ signals ++ ipc ++ psi ++ uevents)

def handleBatch (sources : Sources) (batch : Batch) (state : LoopState) :
    Loop (Option LoopState) := do
  let now ← call .batchNow
  let config ← call .readConfig
  let isCleaning ← call .isCleaning
  let events ← collectEvents sources batch
  let given : Surroundings := ⟨now, config.minScreenOffSecs,
    config.maintenanceIntervalSecs, isCleaning⟩
  match ← processEvents sources given events state with
  | none => pure none
  | some state => do
    if ← call .isShutdownRequested then pure ()
    else call (.armTimer state.earliestDeadline)
    pure (some state)

/-- One turn of `'event_loop`; `none` leaves it. -/
def turn (sources : Sources) (state : LoopState) : Loop (Option LoopState) := do
  if ← call .isShutdownRequested then pure none
  else
    match ← call .epollWait with
    | .interrupted => pure (some state)
    | .failed => pure none
    | .ready batch => handleBatch sources batch state

/-- `count` turns, or `none` once the loop has been left. -/
def turns (sources : Sources) : Nat → LoopState → Loop (Option LoopState)
  | 0, state => pure (some state)
  | count + 1, state => do
    match ← turn sources state with
    | some next => turns sources count next
    | none => pure none

def reconcileAtStart (given : Instant → Surroundings) (state : LoopState) : Loop LoopState := do
  let seen ← call .getScreenState
  let now ← call .startupNow
  let (state, _) := state.reduce (.reconcileScreen seen) (given now)
  call (.setScreenOffSince state.screenOffSince)
  pure state

def drainQueued (given : Instant → Surroundings) : List UeventMessage → LoopState → Loop LoopState
  | [], state => pure state
  | message :: rest, state => do
    let now ← call .startupNow
    let (state, actions) := state.reduce (.uevent message) (given now)
    if actions.contains .reconcileSysfs then
      let state ← reconcileAtStart given state
      drainQueued given rest state
    else drainQueued given rest state

def beforeLoop (config : LoopConfig) (now : Instant) : Surroundings :=
  ⟨now, config.minScreenOffSecs, config.maintenanceIntervalSecs, false⟩

def start (sources : Sources) : Loop LoopState := do
  let config ← call .readConfig
  let now ← call .startupNow
  let state ← reconcileAtStart (beforeLoop config) (.new config.maintenanceIntervalSecs now)
  let queued ← whenReady sources.uevents .readUevents id
  let state ← drainQueued (beforeLoop config) queued state
  call (.armTimer state.earliestDeadline)
  pure state

def runEpollLoop (sources : Sources) (count : Nat) : Loop (Option LoopState) := do
  let state ← start sources
  turns sources count state

end EventLoop

end CacheCleaner
