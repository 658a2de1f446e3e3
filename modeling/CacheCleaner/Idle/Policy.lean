import CacheCleaner.Daemon.EventLoop
import CacheCleaner.Ipc.Messages

namespace CacheCleaner

/-! The idle policy: what the sensors say, weighed and gated.  Readings are
rationals, durations nanoseconds. -/

open Ipc (IdleState ThermalHysteresisState MaintenanceEligibility IdleBlocker IdlePositive)

inductive SensorStatus where
  | available | temporarilyUnavailable | unsupported
  deriving DecidableEq, Repr

structure SensorReading where
  value : Option ℚ
  status : SensorStatus
  deriving DecidableEq

structure IdleContext where
  screen : ScreenState
  screenOffDuration : Option Nat
  charging : Bool
  batteryPercent : Nat
  cpuPsiPct : SensorReading
  ioPsiPct : SensorReading
  thermalCelsius : SensorReading
  stationary : Bool
  userActive : Bool
  deriving DecidableEq

structure IdleAssessment where
  score : Nat
  state : IdleState
  thermalState : ThermalHysteresisState
  standardMaintenance : MaintenanceEligibility
  heavyMaintenance : MaintenanceEligibility
  blockers : List IdleBlocker
  positives : List IdlePositive
  rateLimitOpsPerSec : Nat
  timeUntilNextTransition : Option Nat

namespace Ipc.ThermalHysteresisState

def nextState (current : ThermalHysteresisState) (tempC : ℚ) : ThermalHysteresisState :=
  if 50 ≤ tempC then .critical
  else if 45 ≤ tempC then .hot
  else if 40 < tempC then
    match current with
    | .hot => .hot
    | _ => .warm
  else .normal

def level : ThermalHysteresisState → Nat
  | .normal => 0
  | .warm => 1
  | .hot => 2
  | .critical => 3

end Ipc.ThermalHysteresisState

namespace Ipc.IdlePositive

def weight : IdlePositive → Nat
  | .screenOff => 25
  | .charging => 15
  | _ => 10

end Ipc.IdlePositive

/-- An entry of the tally: points for a positive, or a blocker. -/
inductive Mark where
  | credit (points : Nat) (positive : IdlePositive)
  | block (blocker : IdleBlocker)
  deriving DecidableEq, Repr

namespace Mark

def positive? : Mark → Option IdlePositive
  | .credit _ positive => some positive
  | .block _ => none

def blocker? : Mark → Option IdleBlocker
  | .credit _ _ => none
  | .block blocker => some blocker

def addTo (score : Nat) : Mark → Nat
  | .credit points _ => min (score + points) 255
  | .block _ => score

end Mark

namespace IdleContext

variable (ctx : IdleContext)

def isScreenOff : Bool := ctx.screen = .off

def screenOffDur : Nat := ctx.screenOffDuration.getD 0

def graceElapsed (gracePeriod : Nat) : Bool :=
  ctx.isScreenOff && decide (gracePeriod ≤ ctx.screenOffDur)

def screenMarks (gracePeriod : Nat) : List Mark :=
  if ctx.isScreenOff then
    .credit 25 .screenOff :: if ctx.graceElapsed gracePeriod then [.credit 10 .graceElapsed]
      else [.block .gracePeriodRemaining]
  else [.block .screenOn]

def powerMarks : List Mark :=
  (if ctx.charging then [.credit 15 .charging] else [.block .notCharging]) ++
  if 70 ≤ ctx.batteryPercent then [.credit 10 .highBattery]
  else if ctx.batteryPercent < 20 then [.block .batteryTooLow]
  else [.block .batteryBelowDeepThreshold]

def pressureMarks (reading : SensorReading) (low high : ℚ)
    (idle : IdlePositive) (pressed : IdleBlocker) : List Mark :=
  match reading.value with
  | some pct =>
    if pct < low then [.credit 10 idle]
    else if high ≤ pct then [.block pressed]
    else []
  | none =>
    if reading.status = .temporarilyUnavailable then
      [.block .sensorUnavailable]
    else []

def cpuMarks : List Mark :=
  pressureMarks ctx.cpuPsiPct 5 10 .cpuIdle .cpuPressureHigh

def ioMarks : List Mark :=
  pressureMarks ctx.ioPsiPct 3 8 .ioIdle .ioPressureHigh

def below (reading : SensorReading) (bound : ℚ) : Bool :=
  match reading.value with
  | some value => decide (value < bound)
  | none => true

def cpuLow : Bool := below ctx.cpuPsiPct 5

def ioLow : Bool := below ctx.ioPsiPct 3

def thermalSafe : Bool := below ctx.thermalCelsius 40

def thermalMarks (thermal : ThermalHysteresisState) : List Mark :=
  (match ctx.thermalCelsius.value with
    | some temp => if temp < 38 then [.credit 10 .thermalSafe] else []
    | none => []) ++
  match thermal with
  | .hot => [.block .thermalHot]
  | .critical => [.block .thermalCritical]
  | _ => []

def activityMarks : List Mark :=
  (if ctx.stationary && !ctx.userActive then [.credit 10 .stationary]
    else []) ++
  if ctx.userActive then [.block .recentActivity] else []

def marks (thermal : ThermalHysteresisState) (gracePeriod : Nat) : List Mark :=
  ctx.screenMarks gracePeriod ++ ctx.powerMarks ++ ctx.cpuMarks ++
    ctx.ioMarks ++ ctx.thermalMarks thermal ++ ctx.activityMarks

end IdleContext

namespace IdlePolicy

open IdleContext

variable (ctx : IdleContext)

section

variable (thermal : ThermalHysteresisState)

def nextState
    (gracePeriod : Nat) : IdleState :=
  if !ctx.isScreenOff || ctx.userActive || decide (thermal = .critical) then
    .active
  else if !ctx.graceElapsed gracePeriod then .idleCandidate
  else if ctx.charging && decide (70 ≤ ctx.batteryPercent) &&
      decide (thermal = .normal) && ctx.thermalSafe && ctx.cpuLow &&
      ctx.ioLow && !ctx.userActive then
    .deepIdle
  else .idle

def standardMaintenance
    (gracePeriod : Nat) (blockers : List IdleBlocker) : MaintenanceEligibility :=
  if thermal = .hot then .paused
  else if decide (thermal = .critical) || !ctx.isScreenOff ||
      !ctx.graceElapsed gracePeriod || ctx.userActive ||
      decide (ctx.batteryPercent < 20) ||
      blockers.contains .cpuPressureHigh ||
      blockers.contains .ioPressureHigh then
    .blocked
  else if nextState ctx thermal gracePeriod = .idle ∨
      nextState ctx thermal gracePeriod = .deepIdle then
    .allowed
  else .blocked

def heavyMaintenance
    (gracePeriod : Nat) (blockers : List IdleBlocker) : MaintenanceEligibility :=
  if thermal = .hot then .paused
  else if nextState ctx thermal gracePeriod = .deepIdle ∧
      standardMaintenance ctx thermal gracePeriod blockers = .allowed ∧
      ctx.charging = true ∧ 70 ≤ ctx.batteryPercent ∧ thermal = .normal then
    .allowed
  else .blocked

def rateLimitOpsPerSec (blockers : List IdleBlocker) : Nat :=
  match thermal with
  | .critical | .hot => 0
  | .warm => 300
  | .normal =>
    if blockers.contains .ioPressureHigh then 50
    else if blockers.contains .cpuPressureHigh then 150
    else 500

end

/-- `evaluate`; the current state is not read. -/
def evaluate (_current : IdleState)
    (thermal : ThermalHysteresisState) (gracePeriod : Nat) : IdleAssessment :=
  let marks := ctx.marks thermal gracePeriod
  let blockers := marks.filterMap Mark.blocker?
  let state := nextState ctx thermal gracePeriod
  { score := min (marks.foldl Mark.addTo 0) 100
    state
    thermalState := thermal
    standardMaintenance :=
      standardMaintenance ctx thermal gracePeriod blockers
    heavyMaintenance := heavyMaintenance ctx thermal gracePeriod blockers
    blockers
    positives := marks.filterMap Mark.positive?
    rateLimitOpsPerSec := rateLimitOpsPerSec thermal blockers
    timeUntilNextTransition :=
      if state = .idleCandidate then some (gracePeriod - ctx.screenOffDur)
      else none }

end IdlePolicy

end CacheCleaner
