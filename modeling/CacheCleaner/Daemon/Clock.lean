import CacheCleaner.Daemon.Maintenance

namespace CacheCleaner

/-! The event loop's arithmetic on times: the value a timer is armed with, and
the sums that must stay within what an `Instant` holds. -/

open Effect

structure Timespec where
  tvSec : Int
  tvNsec : Int
  deriving DecidableEq, Repr

structure Itimerspec where
  itInterval : Timespec
  itValue : Timespec
  deriving DecidableEq, Repr

namespace Timespec

def nanos (time : Timespec) : Int := time.tvSec * 1000000000 + time.tvNsec

/-- What `CLOCK_MONOTONIC` reads: a time since boot. -/
structure IsReading (time : Timespec) : Prop where
  sinceBoot : 0 ≤ time.tvSec
  nonneg : 0 ≤ time.tvNsec
  normal : time.tvNsec < 1000000000

end Timespec

def asI64 (value : Nat) : Int := Int.bmod value (2 ^ 64)

def asU64 (value : Int) : Nat := (value % 2 ^ 64).toNat

def saturatingAddI64 (left right : Int) : Int := max (-(2 ^ 63)) (min (left + right) (2 ^ 63 - 1))

theorem asI64_of_lt {value : Nat} (small : value < 2 ^ 63) : asI64 value = value := by
  unfold asI64
  rw [Int.bmod_def]
  omega

theorem asU64_of_range {value : Int} (nonneg : 0 ≤ value) (small : value < 2 ^ 64) :
    asU64 value = value.toNat := by
  unfold asU64
  rw [Int.emod_eq_of_lt nonneg small]

theorem saturatingAddI64_of_range {left right : Int} (nonneg : 0 ≤ left + right)
    (small : left + right < 2 ^ 63) : saturatingAddI64 left right = left + right := by
  unfold saturatingAddI64
  omega

/-- What is left until a deadline, at least a nanosecond: zero would disarm. -/
def remaining (deadline now : Instant) : Nat := if now < deadline then deadline - now else 1

/-- `instant_to_itimerspec`, given what `clock_gettime` reads. -/
def instantToItimerspec (deadline now : Instant) (monoNow : Timespec) : Itimerspec :=
  let left := remaining deadline now
  let totalNsec := asU64 monoNow.tvNsec + left % 1000000000
  let carrySecs := asI64 (totalNsec / 1000000000)
  let remNsec := asI64 (totalNsec % 1000000000)
  let targetSec := saturatingAddI64
    (saturatingAddI64 monoNow.tvSec (asI64 (left / 1000000000))) carrySecs
  ⟨⟨0, 0⟩, ⟨targetSec, remNsec⟩⟩

theorem remaining_pos (deadline now : Instant) : 0 < remaining deadline now := by
  unfold remaining
  split
  · exact Nat.sub_pos_of_lt ‹_›
  · decide

theorem remaining_mono {earlier deadline : Instant} (now : Instant) (sooner : earlier ≤ deadline) :
    remaining earlier now ≤ remaining deadline now := by
  by_cases ahead : now < earlier
  · unfold remaining
    rw [if_pos ahead, if_pos (Nat.lt_of_lt_of_le ahead sooner)]
    exact Nat.sub_le_sub_right sooner now
  · have least : remaining earlier now = 1 := if_neg ahead
    rw [least]
    exact remaining_pos deadline now

theorem carry_eq (sec : Int) {nsec : Int} (nonneg : 0 ≤ nsec) (left : Nat) :
    sec + (left / 1000000000 : Nat) + ((nsec.toNat + left % 1000000000) / 1000000000 : Nat) =
      (sec * 1000000000 + nsec + left) / 1000000000 := by
  omega

theorem rest_eq (sec : Int) {nsec : Int} (nonneg : 0 ≤ nsec) (left : Nat) :
    ((nsec.toNat + left % 1000000000) % 1000000000 : Nat) =
      (sec * 1000000000 + nsec + left) % 1000000000 := by
  omega

theorem itValue_instantToItimerspec {deadline now : Instant} {reading : Timespec}
    (valid : reading.IsReading)
    (fits : (reading.nanos + remaining deadline now) / 1000000000 < 2 ^ 63) :
    (instantToItimerspec deadline now reading).itValue =
      ⟨(reading.nanos + remaining deadline now) / 1000000000,
        (reading.nanos + remaining deadline now) % 1000000000⟩ := by
  obtain ⟨sinceBoot, nonneg, normal⟩ := valid
  have secs := carry_eq reading.tvSec nonneg (remaining deadline now)
  have nsecs := rest_eq reading.tvSec nonneg (remaining deadline now)
  unfold Timespec.nanos at fits ⊢
  rw [← secs] at fits ⊢
  rw [← nsecs]
  unfold instantToItimerspec
  generalize remaining deadline now = left at fits ⊢
  have nsec : asU64 reading.tvNsec = reading.tvNsec.toNat := asU64_of_range nonneg (by omega)
  have first : saturatingAddI64 reading.tvSec (left / 1000000000 : Nat) =
      reading.tvSec + (left / 1000000000 : Nat) :=
    saturatingAddI64_of_range (by omega) (by omega)
  dsimp only
  rw [nsec, asI64_of_lt, asI64_of_lt, asI64_of_lt, first, saturatingAddI64_of_range]
  all_goals omega

theorem instantToItimerspec_exact (deadline now : Instant) (reading : Timespec)
    (valid : reading.IsReading)
    (fits : (reading.nanos + remaining deadline now) / 1000000000 < 2 ^ 63) :
    (instantToItimerspec deadline now reading).itInterval = ⟨0, 0⟩ ∧
      0 ≤ (instantToItimerspec deadline now reading).itValue.tvNsec ∧
      (instantToItimerspec deadline now reading).itValue.tvNsec < 1000000000 ∧
      (instantToItimerspec deadline now reading).itValue.nanos = reading.nanos +
        (if now < deadline then deadline - now else 1 : Nat) ∧
      (instantToItimerspec deadline now reading).itValue ≠ ⟨0, 0⟩ ∧
      ∀ earlier ≤ deadline, (instantToItimerspec earlier now reading).itValue.nanos ≤
        (instantToItimerspec deadline now reading).itValue.nanos := by
  have total : ∀ earlier ≤ deadline, (instantToItimerspec earlier now reading).itValue.nanos =
      reading.nanos + remaining earlier now := by
    intro earlier sooner
    have less := remaining_mono now sooner
    rw [itValue_instantToItimerspec valid (by omega)]
    exact Int.ediv_mul_add_emod _ _
  have positive := remaining_pos deadline now
  have since : 0 ≤ reading.nanos := by
    obtain ⟨sinceBoot, nonneg, -⟩ := valid
    unfold Timespec.nanos
    omega
  have nanos := total deadline (Nat.le_refl deadline)
  refine ⟨rfl, ?_, ?_, nanos, ?_, fun earlier sooner => ?_⟩
  · rw [itValue_instantToItimerspec valid fits]
    exact Int.emod_nonneg _ (by decide)
  · rw [itValue_instantToItimerspec valid fits]
    exact Int.emod_lt_of_pos _ (by decide)
  · intro disarmed
    rw [disarmed] at nanos
    change (0 : Int) = _ at nanos
    omega
  · rw [total earlier sooner, nanos]
    have less := remaining_mono now sooner
    omega

theorem instantToItimerspec_exact_carry :
    (instantToItimerspec 1999999999 0 ⟨7, 999999999⟩).itValue.nanos = 9999999998 :=
  (instantToItimerspec_exact 1999999999 0 ⟨7, 999999999⟩ ⟨by decide, by decide, by decide⟩
    (by decide)).2.2.2.1

/-! Sums of instants and durations.  Where the source panics on an overflow there
is no result. -/

def seconds (instant : Instant) : Nat := instant / 1000000000

def instantLimit : Nat := 2 ^ 63

def checkedAdd (instant : Instant) (duration : Nat) : Option Instant :=
  if seconds (instant + duration) < instantLimit then some (instant + duration) else none

def checkedMul (left right : Nat) : Option Nat :=
  if left * right < 2 ^ 64 then some (left * right) else none

@[simp] theorem seconds_add_fromSecs (instant : Instant) (secs : Nat) :
    seconds (instant + fromSecs secs) = seconds instant + secs :=
  Nat.add_mul_div_left _ _ (by decide)

theorem checkedAdd_fromSecs : checkedAdd instant (fromSecs secs) =
      if seconds instant + secs < instantLimit then some (instant + fromSecs secs) else none := by
  rw [checkedAdd, seconds_add_fromSecs]

namespace LoopState

def new? (maintenanceIntervalSecs : Nat) (now : Instant) : Option LoopState := do
  let deadline ← checkedAdd now (fromSecs maintenanceIntervalSecs)
  pure { new maintenanceIntervalSecs now with maintenanceDeadline := deadline }

def reduce? (state : LoopState) (event : LoopEvent) (given : Surroundings) :
    Option (LoopState × List LoopAction) :=
  match event with
  | .reconcileScreen .off =>
    if state.screenState ≠ .off then do
      let deadline ← checkedAdd given.now (fromSecs given.minScreenOffSecs)
      pure ({ state with
        ueventOk := true
        screenState := .off
        screenOffSince := some given.now
        screenOffDeadline := some deadline }.resetRetryBackoff, [])
    else pure (state.reduce event given)
  | .signal .reload => do
    let deadline ← checkedAdd given.now (fromSecs given.maintenanceIntervalSecs)
    pure ({ state with
      maintenanceDeadline := deadline
      retryDeadline := .none }.resetRetryBackoff, [.reloadConfig])
  -- The other arms add nothing.
  | event => pure (state.reduce event given)

def onMaintenanceSuccess? (state : LoopState) (now : Instant) (intervalSecs : Nat) :
    Option LoopState := do
  let advanced ← checkedAdd state.maintenanceDeadline (fromSecs intervalSecs)
  let deadline ← if advanced < now then checkedAdd now (fromSecs intervalSecs)
    else pure advanced
  pure { state with maintenanceDeadline := deadline, retryDeadline := .none }.resetRetryBackoff

def onMaintenancePostponed? (state : LoopState) (now : Instant) (intervalSecs : Nat) :
    Option LoopState := do
  let retry ← checkedAdd now (fromSecs state.retryBackoffSecs)
  let doubled ← checkedMul state.retryBackoffSecs 2
  let deadline ← if state.maintenanceDeadline ≤ now then checkedAdd now (fromSecs intervalSecs)
    else pure state.maintenanceDeadline
  pure { state with
    retryDeadline := some retry
    retryBackoffSecs := min doubled maxRetryBackoffSecs
    maintenanceDeadline := deadline }

/-- What happens to a loop: an event, or word of how a maintenance run went. -/
inductive Turn where
  | event (event : LoopEvent) (now : Instant) (isCleaning : Bool)
  | success (now : Instant)
  | postponed (now : Instant)

def Turn.now : Turn → Instant
  | .event _ now _ | .success now | .postponed now => now

section

variable (config : DaemonConfig)

def turn (state : LoopState) : Turn → LoopState
  | .event event now isCleaning => (state.reduce event
      ⟨now, config.minScreenOffSecs, config.maintenanceIntervalSecs, isCleaning⟩).1
  | .success now => state.onMaintenanceSuccess now config.maintenanceIntervalSecs
  | .postponed now => state.onMaintenancePostponed now config.maintenanceIntervalSecs

def turn? (state : LoopState) : Turn → Option LoopState
  | .event event now isCleaning => (state.reduce? event
      ⟨now, config.minScreenOffSecs, config.maintenanceIntervalSecs, isCleaning⟩).map Prod.fst
  | .success now => state.onMaintenanceSuccess? now config.maintenanceIntervalSecs
  | .postponed now => state.onMaintenancePostponed? now config.maintenanceIntervalSecs

def run? (start : Instant) (turns : List Turn) : Option LoopState := do
  let state ← new? config.maintenanceIntervalSecs start
  turns.foldlM (turn? config) state

def turning : Machine LoopState Turn Unit where
  step := fun state next => ((), state.turn config next)

def HasRoom (state : LoopState) : Turn → Prop
  | .event (.reconcileScreen .off) now _ =>
    state.screenState = .off ∨ seconds now + config.minScreenOffSecs < instantLimit
  | .event (.signal .reload) now _ =>
    seconds now + config.maintenanceIntervalSecs < instantLimit
  | .event _ _ _ => True
  | .success _ =>
    seconds state.maintenanceDeadline + config.maintenanceIntervalSecs < instantLimit
  | .postponed now => now < state.maintenanceDeadline ∨
      seconds now + config.maintenanceIntervalSecs < instantLimit

end

instance (config : DaemonConfig) (state : LoopState) (next : Turn) :
    Decidable (HasRoom config state next) := by
  unfold HasRoom
  split <;> infer_instance

def Prompt (state : LoopState) : Turn → Prop
  | .event _ _ _ => True
  | .success now | .postponed now => state.RunRequested now

variable {config : DaemonConfig} {state next : LoopState} {start : Instant} {turns : List Turn}

theorem onMaintenanceSuccess?_eq {now : Instant} (early : 2 * seconds now < instantLimit) :
    state.onMaintenanceSuccess? now interval =
      if seconds state.maintenanceDeadline + interval < instantLimit then
        some (state.onMaintenanceSuccess now interval) else none := by
  unfold onMaintenanceSuccess? onMaintenanceSuccess
  rw [checkedAdd_fromSecs]
  by_cases room : seconds state.maintenanceDeadline + interval < instantLimit
  · rw [if_pos room, if_pos room]
    by_cases late : state.maintenanceDeadline + fromSecs interval < now
    · -- The interval ends before the present, so it fits after it as well.
      have sum : seconds state.maintenanceDeadline + interval ≤ seconds now := by
        rw [← seconds_add_fromSecs]
        exact Nat.div_le_div_right (Nat.le_of_lt late)
      have fits : seconds now + interval < instantLimit := by omega
      simp [late, checkedAdd_fromSecs, fits]
    · simp [late]
  · rw [if_neg room, if_neg room]
    rfl

theorem onMaintenancePostponed?_eq {now : Instant} (early : seconds now + 60 < instantLimit)
    (backoff : state.retryBackoffSecs ≤ 60) : state.onMaintenancePostponed? now interval =
      if now < state.maintenanceDeadline ∨ seconds now + interval < instantLimit then
        some (state.onMaintenancePostponed now interval) else none := by
  have retry : seconds now + state.retryBackoffSecs < instantLimit := by omega
  have doubled : checkedMul state.retryBackoffSecs 2 = some (state.retryBackoffSecs * 2) :=
    if_pos (by omega)
  unfold onMaintenancePostponed? onMaintenancePostponed
  rw [checkedAdd_fromSecs, if_pos retry, doubled, checkedAdd_fromSecs]
  by_cases ahead : now < state.maintenanceDeadline
  · simp [ahead, Nat.not_le.mpr ahead]
  · by_cases room : seconds now + interval < instantLimit <;>
      simp [ahead, Nat.not_lt.mp ahead, room]

theorem turn?_eq (next : Turn) (backoff : state.retryBackoffSecs ≤ 60)
    (early : seconds next.now < 2 ^ 62) : state.turn? config next =
      if HasRoom config state next then some (state.turn config next) else none := by
  cases next with
  | event event now isCleaning =>
    cases event with
    | signal signal =>
      cases signal with
      | reload =>
        by_cases room : seconds now + config.maintenanceIntervalSecs < instantLimit <;>
          simp [turn?, reduce?, checkedAdd_fromSecs, HasRoom, room, turn, reduce]
      | _ => rfl
    | reconcileScreen seen =>
      cases seen with
      | off =>
        by_cases off : state.screenState = .off
        · simp [turn?, reduce?, HasRoom, off, turn]
        · by_cases room : seconds now + config.minScreenOffSecs < instantLimit <;>
            simp [turn?, reduce?, checkedAdd_fromSecs, HasRoom, off, room, turn, reduce, reconcile]
      | _ => rfl
    | _ => rfl
  | success now =>
    have early : seconds now < 2 ^ 62 := early
    exact onMaintenanceSuccess?_eq (by unfold instantLimit; omega)
  | postponed now =>
    have early : seconds now < 2 ^ 62 := early
    exact onMaintenancePostponed?_eq (by unfold instantLimit; omega) backoff

theorem reduce_kept (state : LoopState) (event : LoopEvent) :
    ((state.reduce event given).1.retryBackoffSecs = state.retryBackoffSecs ∨
        (state.reduce event given).1.retryBackoffSecs = initialRetryBackoffSecs) ∧
      ((state.reduce event given).1.retryDeadline = none ∨
        (state.reduce event given).1.retryDeadline = state.retryDeadline ∧
          (state.reduce event given).1.maintenanceDeadline = state.maintenanceDeadline) := by
  cases event with
  | timerExpired =>
    dsimp only [reduce]
    split <;> simp
  | reconcileScreen seen =>
    cases seen with
    | off =>
      dsimp only [reduce, reconcile]
      split <;> simp [resetRetryBackoff]
    | _ => simp [reduce, reconcile, resetRetryBackoff]
  | signal signal => cases signal <;> simp [reduce, resetRetryBackoff]
  | _ => simp [reduce]

theorem retryBackoffSecs_turn (next : Turn) (backoff : state.retryBackoffSecs ≤ 60) :
    (state.turn config next).retryBackoffSecs ≤ 60 := by
  cases next with
  | event event now isCleaning =>
    rcases (reduce_kept state event).1 with same | reset
    · exact same ▸ backoff
    · exact Nat.le_trans (Nat.le_of_eq reset) (by decide)
  | success now => exact show (5 : Nat) ≤ 60 by decide
  | postponed now => exact Nat.min_le_right _ _

def RetryNear (config : DaemonConfig) (state : LoopState) : Prop :=
  ∀ deadline, state.retryDeadline = some deadline →
    state.maintenanceDeadline ≤ deadline + fromSecs config.maintenanceIntervalSecs

theorem RunRequested.deadline_le {now : Instant} (near : RetryNear config state)
    (requested : state.RunRequested now) :
    state.maintenanceDeadline ≤ now + fromSecs config.maintenanceIntervalSecs := by
  rcases requested with due | ⟨deadline, retry, due⟩
  · exact Nat.le_trans due (Nat.le_add_right _ _)
  · exact Nat.le_trans (near deadline retry) (Nat.add_le_add_right due _)

theorem RetryNear.turn (near : RetryNear config state) (next : Turn) (prompt : Prompt state next) :
    RetryNear config (state.turn config next) := by
  intro deadline retry
  cases next with
  | event event now isCleaning =>
    rcases (reduce_kept state event).2 with dropped | ⟨same, kept⟩
    · rw [LoopState.turn, dropped] at retry
      cases retry
    · rw [LoopState.turn, same] at retry
      rw [LoopState.turn, kept]
      exact near deadline retry
  | success now => cases retry
  | postponed now =>
    cases retry
    have soon : (state.turn config (.postponed now)).maintenanceDeadline ≤
        now + fromSecs config.maintenanceIntervalSecs := by
      simp only [LoopState.turn, onMaintenancePostponed]
      split
      · exact Nat.le_refl _
      · exact RunRequested.deadline_le near prompt
    exact Nat.le_trans soon (Nat.add_le_add_right (Nat.le_add_right now _) _)

theorem HasRoom.of_prompt (near : RetryNear config state) {next : Turn} (prompt : Prompt state next)
    (early : seconds next.now < 2 ^ 62) (interval : config.maintenanceIntervalSecs ≤ 2 ^ 61)
    (screenOff : config.minScreenOffSecs ≤ 2 ^ 62) : HasRoom config state next := by
  unfold HasRoom instantLimit
  split
  · right
    exact Nat.add_lt_add_of_lt_of_le early screenOff
  · exact Nat.lt_of_lt_of_le (Nat.add_lt_add_of_lt_of_le early interval) (by decide)
  · trivial
  · rename_i now
    have early : seconds now < 2 ^ 62 := early
    have soon := Nat.div_le_div_right (c := 1000000000) (RunRequested.deadline_le near prompt)
    have whole := seconds_add_fromSecs now config.maintenanceIntervalSecs
    unfold seconds at *
    omega
  · rename_i now
    have early : seconds now < 2 ^ 62 := early
    right
    omega

theorem foldlM_turn?_isSome (backoff : state.retryBackoffSecs ≤ 60)
    (early : ∀ next ∈ turns, seconds next.now < 2 ^ 62) :
    (turns.foldlM (turn? config) state).isSome = true ↔
      ∀ entry ∈ (turning config).visits state turns, HasRoom config entry.1 entry.2 := by
  induction turns generalizing state with
  | nil => simp [Machine.visits]
  | cons next rest ih =>
    have kept : (state.turn config next).retryBackoffSecs ≤ 60 := retryBackoffSecs_turn next backoff
    have onward := ih kept fun later mem => early later (List.mem_cons_of_mem _ mem)
    rw [List.foldlM_cons, turn?_eq next backoff (early next List.mem_cons_self)]
    rw [Machine.visits, List.forall_mem_cons]
    refine Iff.trans ?_ (and_congr_right fun _ => onward)
    by_cases room : HasRoom config state next <;> simp [room]

theorem hasRoom_of_prompt (near : RetryNear config state)
    (early : ∀ next ∈ turns, seconds next.now < 2 ^ 62)
    (interval : config.maintenanceIntervalSecs ≤ 2 ^ 61)
    (screenOff : config.minScreenOffSecs ≤ 2 ^ 62)
    (prompt : ∀ entry ∈ (turning config).visits state turns, Prompt entry.1 entry.2) :
    ∀ entry ∈ (turning config).visits state turns, HasRoom config entry.1 entry.2 := by
  induction turns generalizing state with
  | nil => exact List.forall_mem_nil _
  | cons next rest ih =>
    obtain ⟨first, others⟩ := List.forall_mem_cons.mp prompt
    refine List.forall_mem_cons.mpr ⟨?_, ?_⟩
    · exact HasRoom.of_prompt near first (early next List.mem_cons_self) interval screenOff
    · exact ih (near.turn next first)
        (fun later mem => early later (List.mem_cons_of_mem _ mem)) others

/-- A run overflows nowhere exactly when each of its sums has room, which
moderate settings ensure as long as word of a run comes only when asked for. -/
theorem run?_isSome_iff (config : DaemonConfig) (start : Instant) (turns : List Turn)
    (early : seconds start < 2 ^ 62) (earlier : ∀ next ∈ turns, seconds next.now < 2 ^ 62) :
    ((run? config start turns).isSome = true ↔
        seconds start + config.maintenanceIntervalSecs < instantLimit ∧
          ∀ entry ∈ (turning config).visits (new config.maintenanceIntervalSecs start) turns,
            HasRoom config entry.1 entry.2) ∧
      (config.maintenanceIntervalSecs ≤ 2 ^ 61 → config.minScreenOffSecs ≤ 2 ^ 62 →
        (∀ entry ∈ (turning config).visits (new config.maintenanceIntervalSecs start) turns,
          Prompt entry.1 entry.2) → (run? config start turns).isSome = true) := by
  have exact : (run? config start turns).isSome = true ↔
      seconds start + config.maintenanceIntervalSecs < instantLimit ∧
        ∀ entry ∈ (turning config).visits (new config.maintenanceIntervalSecs start) turns,
          HasRoom config entry.1 entry.2 := by
    rw [← foldlM_turn?_isSome (show (5 : Nat) ≤ 60 by decide) earlier]
    unfold run? new?
    rw [checkedAdd_fromSecs]
    by_cases room : seconds start + config.maintenanceIntervalSecs < instantLimit
    · simp [room, new]
    · simp [room]
  refine ⟨exact, fun interval screenOff prompt => exact.mpr ⟨?_, ?_⟩⟩
  · unfold instantLimit
    omega
  · exact hasRoom_of_prompt (fun deadline retry => nomatch retry) earlier interval screenOff prompt

theorem run?_isSome_evening : (run? { DaemonConfig.default with maintenanceIntervalSecs := 30 } 0
      [.event (.reconcileScreen .off) (fromSecs 20) false, .postponed (fromSecs 30)]).isSome
        = true :=
  (run?_isSome_iff _ 0 [.event (.reconcileScreen .off) (fromSecs 20) false,
    .postponed (fromSecs 30)] (by decide) (by simp [Turn.now, seconds, fromSecs])).1.mpr (by decide)

/-- An accepted interval with which the loop panics as it starts, a second
after boot. -/
theorem long_interval_overflows :
    ∃ config : DaemonConfig, config.maintenanceIntervalSecs = 2 ^ 63 - 1 ∧
      config.validate = .ok () ∧ run? config (fromSecs 1) [] = none :=
  ⟨{ DaemonConfig.default with maintenanceIntervalSecs := 2 ^ 63 - 1 }, rfl,
    by decide +kernel, by decide⟩

end LoopState

end CacheCleaner
