import Mathlib

namespace CacheCleaner

/-! The token bucket behind `throttle_mutation`.  Tokens and seconds are
rationals; a sleep is a whole number of nanoseconds. -/

inductive ThrottleMode where
  | normal
  | warm
  | cpuPressure
  | ioPressure
  | paused
  deriving DecidableEq, Repr

def ThrottleMode.targetOpsPerSec : ThrottleMode → Nat
  | .normal => 500
  | .warm => 300
  | .cpuPressure => 150
  | .ioPressure => 50
  | .paused => 0

structure BucketState where
  opsPerSec : Nat
  capacity : ℚ
  tokens : ℚ
  lastRefill : ℚ

namespace BucketState

def maxBurstCapacity : ℚ := 32

def capacityOf (rate : Nat) : ℚ := max 1 (min rate maxBurstCapacity)

def new (mode : ThrottleMode) (now : ℚ) : BucketState :=
  ⟨mode.targetOpsPerSec, capacityOf mode.targetOpsPerSec, capacityOf mode.targetOpsPerSec, now⟩

def setMode (mode : ThrottleMode) (state : BucketState) : BucketState :=
  let capacity := capacityOf mode.targetOpsPerSec
  { state with
    opsPerSec := mode.targetOpsPerSec
    capacity := capacity
    tokens := if capacity < state.tokens then capacity else state.tokens }

/-- `Duration::from_secs_f64`: the nearest whole number of nanoseconds, and of two the
even one. -/
def wholeNanos (seconds : ℚ) : ℚ :=
  let below := ⌊seconds * 10 ^ 9⌋
  let beyond := seconds * 10 ^ 9 - below
  (if beyond < 1 / 2 ∨ beyond = 1 / 2 ∧ below % 2 = 0 then below else below + 1) / 10 ^ 9

/-- One look of `acquire` at the bucket, under its lock. -/
inductive Look where
  | paused
  | granted (state : BucketState)
  | asleep (state : BucketState) (duration : ℚ)

def look (now : ℚ) (state : BucketState) : Look :=
  if state.opsPerSec = 0 then .paused
  else
    let tokens := min (state.tokens + (now - state.lastRefill) * state.opsPerSec) state.capacity
    let refilled := { state with tokens, lastRefill := now }
    if 1 ≤ tokens then .granted { refilled with tokens := tokens - 1 }
    else .asleep refilled (wholeNanos (max ((1 - tokens) / state.opsPerSec) (1 / 1000)))

/-- `acquire`: before each look others may have set the mode.  It is still
asleep when the looks run out. -/
def acquire : List (List ThrottleMode × ℚ) → BucketState → Option (Bool × BucketState)
  | [], _ => none
  | (modes, now) :: rest, state =>
    let current := modes.foldl (fun state mode => state.setMode mode) state
    match current.look now with
    | .paused => some (false, current)
    | .granted state => some (true, state)
    | .asleep state _ => acquire rest state

/-- `throttle_mutation`, which drops the answer. -/
def throttleMutation (looks : List (List ThrottleMode × ℚ))
    (state : BucketState) : Option BucketState :=
  (acquire looks state).map Prod.snd

end BucketState

end CacheCleaner
