import CacheCleaner.Daemon.EventLoop
import CacheCleaner.Effect.Machine

namespace CacheCleaner

open Effect

namespace LoopState

open LoopState (reconcile new)

variable {deadline now gap : Nat}

/-- An event, the time it is handled at, and how a maintenance run that it asks
for ends. -/
structure Handling where
  event : LoopEvent
  now : Instant
  minScreenOffSecs : Nat
  isCleaning : Bool
  succeeded : Bool
  deriving DecidableEq

def answer (interval : Nat) (handling : Handling) (state : LoopState)
    (actions : List LoopAction) : LoopState :=
  if .runMaintenance ∈ actions then
    if handling.succeeded then
      state.onMaintenanceSuccess handling.now interval
    else state.onMaintenancePostponed handling.now interval
  else state

def runs (interval : Nat) : Machine LoopState Handling (List LoopAction) where
  step := fun state handling =>
    let (next, actions) := state.reduce handling.event
      ⟨handling.now, handling.minScreenOffSecs, interval, handling.isCleaning⟩
    (actions, next.answer interval handling actions)

/-- The deadlines are ahead, the next maintenance within an interval. -/
structure Scheduled (interval : Nat) (now : Instant) (state : LoopState) : Prop where
  ahead : now < state.maintenanceDeadline
  within : state.maintenanceDeadline ≤ now + fromSecs interval
  screenOff : ∀ deadline, state.screenOffDeadline = some deadline → now < deadline
  retry : ∀ deadline, state.retryDeadline = some deadline → now < deadline
  backoff : 5 ≤ state.retryBackoffSecs ∧ state.retryBackoffSecs ≤ 60

def RunRequested (state : LoopState) (now : Instant) : Prop :=
  state.maintenanceDeadline ≤ now ∨ ∃ deadline, state.retryDeadline = some deadline ∧ deadline ≤ now

/-- A run that succeeds was due by the maintenance deadline and not late by
exactly an interval. -/
def InTime (interval : Nat) (state : LoopState) (handling : Handling) : Prop :=
  handling.event = .timerExpired → handling.succeeded = true → state.RunRequested handling.now →
    state.maintenanceDeadline ≤ handling.now ∧
      handling.now ≠ state.maintenanceDeadline + fromSecs interval

instance (state : LoopState) (now : Instant) : Decidable (state.RunRequested now) :=
  decidable_of_iff ((decide (state.maintenanceDeadline ≤ now) ||
      state.retryDeadline.any (· ≤ now)) = true) (by
    simp [RunRequested, Option.any_eq_true])

instance (interval : Nat) (state : LoopState) (handling : Handling) :
    Decidable (InTime interval state handling) := by
  unfold InTime
  infer_instance

variable {interval : Nat} {state : LoopState} {handling : Handling}

def clearScreenOff (state : LoopState) (now : Instant) : LoopState :=
  if state.screenOffDeadline.any (· ≤ now) then
    { state with screenOffDeadline := none }
  else state

theorem maintenanceDeadline_clearScreenOff (now : Instant) :
    (state.clearScreenOff now).maintenanceDeadline = state.maintenanceDeadline := by
  unfold clearScreenOff
  split <;> rfl

theorem retryDeadline_clearScreenOff :
    (state.clearScreenOff now).retryDeadline = state.retryDeadline := by
  unfold clearScreenOff
  split <;> rfl

theorem retryBackoffSecs_clearScreenOff :
    (state.clearScreenOff now).retryBackoffSecs = state.retryBackoffSecs := by
  unfold clearScreenOff
  split <;> rfl

theorem lt_of_clearScreenOff
    (left : (state.clearScreenOff now).screenOffDeadline = some deadline) : now < deadline := by
  unfold clearScreenOff at left
  split at left
  · cases left
  · rename_i active
    simpa [left] using active

theorem step_timer (expired : handling.event = .timerExpired) :
    ((runs interval).step state handling).2 = if state.RunRequested handling.now then
        if handling.succeeded then
          (state.clearScreenOff handling.now).onMaintenanceSuccess handling.now interval
        else (state.clearScreenOff handling.now).onMaintenancePostponed handling.now interval
      else state.clearScreenOff handling.now := by
  have asked : (decide (state.maintenanceDeadline ≤ handling.now) ||
      state.retryDeadline.any (· ≤ handling.now)) = decide (state.RunRequested handling.now) := by
    rw [Bool.eq_iff_iff, decide_eq_true_eq]
    simp [RunRequested, Option.any_eq_true]
  simp only [runs, reduce, expired, answer, asked, decide_eq_true_eq]
  by_cases requested : state.RunRequested handling.now
  · simp only [requested, if_true, List.mem_singleton]
    rfl
  · simp only [requested, if_false, List.not_mem_nil]
    rfl

theorem advanced_bounds (due : deadline ≤ now)
    (inexact : now ≠ deadline + gap) (positive : 0 < gap) :
    now < (if deadline + gap < now then now + gap else deadline + gap) ∧
      (if deadline + gap < now then now + gap else deadline + gap) ≤ now + gap := by
  split <;> omega

theorem bounds_advanced (ahead : now < if deadline + gap < now then now + gap else deadline + gap)
    (within : (if deadline + gap < now then now + gap else deadline + gap) ≤ now + gap) :
    deadline ≤ now ∧ now ≠ deadline + gap := by
  split at ahead <;> split at within <;> omega

theorem kept_bounds (within : deadline ≤ now + gap) (positive : 0 < gap) :
    now < (if deadline ≤ now then now + gap else deadline) ∧
      (if deadline ≤ now then now + gap else deadline) ≤ now + gap := by
  split <;> omega

theorem fromSecs_pos (positive : 0 < secs) : 0 < fromSecs secs := Nat.mul_pos (by decide) positive

theorem scheduled_success (positive : 0 < interval)
    (screenOff : ∀ deadline, state.screenOffDeadline = some deadline → now < deadline)
    (due : state.maintenanceDeadline ≤ now)
    (inexact : now ≠ state.maintenanceDeadline + fromSecs interval) :
    Scheduled interval now (state.onMaintenanceSuccess now interval) where
  ahead := (advanced_bounds due inexact (fromSecs_pos positive)).1
  within := (advanced_bounds due inexact (fromSecs_pos positive)).2
  screenOff := screenOff
  retry := fun _ none => nomatch none
  backoff := ⟨Nat.le_refl 5, Nat.le_add_right 5 55⟩

theorem scheduled_postponed (positive : 0 < interval)
    (screenOff : ∀ deadline, state.screenOffDeadline = some deadline → now < deadline)
    (within : state.maintenanceDeadline ≤ now + fromSecs interval)
    (backoff : 5 ≤ state.retryBackoffSecs ∧ state.retryBackoffSecs ≤ 60) :
    Scheduled interval now (state.onMaintenancePostponed now interval) where
  ahead := (kept_bounds within (fromSecs_pos positive)).1
  within := (kept_bounds within (fromSecs_pos positive)).2
  screenOff := screenOff
  retry := by
    intro deadline set
    rw [← Option.some.inj set]
    apply Nat.lt_add_of_pos_right
    apply fromSecs_pos
    omega
  backoff := by
    change 5 ≤ min (state.retryBackoffSecs * 2) 60 ∧ min (state.retryBackoffSecs * 2) 60 ≤ 60
    omega

structure Paced (interval : Nat) (last : Instant) (state : LoopState) : Prop where
  within : state.maintenanceDeadline ≤ last + fromSecs interval
  backoff : 5 ≤ state.retryBackoffSecs ∧ state.retryBackoffSecs ≤ 60

theorem Scheduled.paced (scheduled : Scheduled interval now state) : Paced interval now state :=
  ⟨scheduled.within, scheduled.backoff⟩

theorem Paced.later (paced : Paced interval last state)
    (ordered : last ≤ now) : Paced interval now state :=
  ⟨Nat.le_trans paced.within (Nat.add_le_add_right ordered _), paced.backoff⟩

theorem Paced.timer (positive : 0 < interval) (paced : Paced interval handling.now state)
    (expired : handling.event = .timerExpired) (inTime : InTime interval state handling) :
    Scheduled interval handling.now ((runs interval).step state handling).2 := by
  have screenOff : ∀ deadline,
      (state.clearScreenOff handling.now).screenOffDeadline = some deadline →
        handling.now < deadline :=
    fun deadline left => lt_of_clearScreenOff left
  rw [step_timer expired]
  split
  · rename_i requested
    split
    · rename_i succeeded
      obtain ⟨due, inexact⟩ := inTime expired succeeded requested
      rw [← maintenanceDeadline_clearScreenOff handling.now] at due inexact
      exact scheduled_success positive screenOff due inexact
    · apply scheduled_postponed positive screenOff
      · rw [maintenanceDeadline_clearScreenOff]
        exact paced.within
      · rw [retryBackoffSecs_clearScreenOff]
        exact paced.backoff
  · rename_i idle
    have later : handling.now < state.maintenanceDeadline :=
      Nat.lt_of_not_le fun due => idle (.inl due)
    refine ⟨?_, ?_, screenOff, ?_, ?_⟩
    · rw [maintenanceDeadline_clearScreenOff]
      exact later
    · rw [maintenanceDeadline_clearScreenOff]
      exact paced.within
    · intro deadline set
      rw [retryDeadline_clearScreenOff] at set
      exact Nat.lt_of_not_le fun due => idle (.inr ⟨deadline, set, due⟩)
    · rw [retryBackoffSecs_clearScreenOff]
      exact paced.backoff

section

variable {event : LoopEvent} {given : Surroundings} {seen : ScreenState}

theorem backoff_reset : 5 ≤ initialRetryBackoffSecs ∧ initialRetryBackoffSecs ≤ 60 := by
  decide

theorem Paced.reconcile (paced : Paced interval given.now state) :
    Paced interval given.now (state.reconcile seen given).1 := by
  cases seen with
  | on => exact ⟨paced.within, backoff_reset⟩
  | off =>
    unfold reconcile
    dsimp only
    split
    · exact ⟨paced.within, backoff_reset⟩
    · exact ⟨paced.within, paced.backoff⟩
  | unknown => exact ⟨paced.within, paced.backoff⟩

theorem Paced.reduce (given : Surroundings)
    (paced : Paced given.maintenanceIntervalSecs given.now state) (other : event ≠ .timerExpired) :
    Paced given.maintenanceIntervalSecs given.now (state.reduce event given).1 := by
  cases event with
  | timerExpired => exact absurd rfl other
  | uevent message => exact paced
  | ueventBufferOverflow => exact ⟨paced.within, paced.backoff⟩
  | signal received =>
    cases received with
    | reload => exact ⟨Nat.le_refl _, backoff_reset⟩
    | shutdown => exact paced
    | other number => exact paced
  | ipcReadable => exact paced
  | psiPressure level => exact paced
  | reconcileScreen seen => exact paced.reconcile

theorem not_mem_reconcile : .runMaintenance ∉ (state.reconcile seen given).2 := by
  cases seen with
  | on =>
    unfold reconcile
    dsimp only
    split <;> simp
  | off =>
    unfold reconcile
    dsimp only
    split <;> simp
  | unknown => exact List.not_mem_nil

theorem not_mem_reduce (other : event ≠ .timerExpired) :
    .runMaintenance ∉ (state.reduce event given).2 := by
  cases event with
  | timerExpired => exact absurd rfl other
  | uevent message =>
    simp only [LoopState.reduce]
    split <;> simp
  | signal received => cases received <;> simp [LoopState.reduce]
  | reconcileScreen seen => exact not_mem_reconcile
  | _ => simp [LoopState.reduce]

theorem Paced.other (paced : Paced interval handling.now state)
    (other : handling.event ≠ .timerExpired) :
    Paced interval handling.now ((runs interval).step state handling).2 := by
  simp only [runs, answer]
  rw [if_neg (not_mem_reduce other)]
  exact Paced.reduce ⟨handling.now, handling.minScreenOffSecs, interval,
    handling.isCleaning⟩ paced other

end

def Rescheduled (interval : Nat) (visits : List (LoopState × Handling)) : Prop :=
  ∀ visit ∈ visits, visit.2.event = .timerExpired → Scheduled interval visit.2.now
      ((runs interval).step visit.1 visit.2).2

theorem Paced.rescheduled (positive : 0 < interval) (paced : Paced interval last state)
    (ordered : (last :: made.map Handling.now).Pairwise (· ≤ ·))
    (inTime : ∀ visit ∈ (runs interval).visits state made, InTime interval visit.1 visit.2) :
    Rescheduled interval ((runs interval).visits state made) := by
  induction made generalizing state last with
  | nil => exact fun _ none => nomatch none
  | cons handling rest ih =>
    rw [List.map_cons, List.pairwise_cons] at ordered
    have now := paced.later (ordered.1 _ List.mem_cons_self)
    rw [Machine.visits, List.forall_mem_cons] at inTime
    have next : Paced interval handling.now ((runs interval).step state handling).2 := by
      by_cases expired : handling.event = .timerExpired
      · exact (now.timer positive expired inTime.1).paced
      · exact now.other expired
    rw [Machine.visits]
    intro visit mem
    rcases List.mem_cons.mp mem with rfl | later
    · exact fun expired => now.timer positive expired inTime.1
    · exact ih next ordered.2 inTime.2 visit later

theorem Scheduled.inTime (scheduled : handling.event = .timerExpired → Scheduled interval
      handling.now ((runs interval).step state handling).2) : InTime interval state handling := by
  intro expired succeeded requested
  obtain ⟨ahead, within, -⟩ := scheduled expired
  rw [step_timer expired, if_pos requested, if_pos succeeded] at ahead within
  simp only [onMaintenanceSuccess, resetRetryBackoff,
    maintenanceDeadline_clearScreenOff] at ahead within
  exact bounds_advanced ahead within

/-- Maintenance is rescheduled within one interval exactly when each run that
succeeds was due by its own deadline and not late by exactly an interval. -/
theorem rescheduled_iff (interval : Nat) (start : Instant)
    (made : List Handling) (least : 30 ≤ interval)
    (ordered : (start :: made.map Handling.now).Pairwise (· ≤ ·)) : Rescheduled interval
        ((runs interval).visits (new interval start) made) ↔
      ∀ visit ∈ (runs interval).visits (new interval start) made,
        InTime interval visit.1 visit.2 := by
  constructor
  · intro rescheduled visit member
    exact Scheduled.inTime (rescheduled visit member)
  · intro inTime
    have positive : 0 < interval := by omega
    have paced : Paced interval start (new interval start) :=
      ⟨Nat.le_refl _, backoff_reset⟩
    exact paced.rescheduled positive ordered inTime

theorem rescheduled_on_time : Rescheduled 3600 ((runs 3600).visits (new 3600 0)
      [⟨.timerExpired, fromSecs 3600, 180, false, true⟩,
        ⟨.timerExpired, fromSecs 7200, 180, false, false⟩]) :=
  (rescheduled_iff 3600 0 _ (by decide) (by decide)).mpr (by decide)

/-- Put off once and then done by the retry, maintenance is two intervals
away. -/
theorem retry_skips_interval : ¬ Rescheduled 3600 ((runs 3600).visits (new 3600 0)
      [⟨.timerExpired, fromSecs 3600, 180, false, false⟩,
        ⟨.timerExpired, fromSecs 3605, 180, false, true⟩]) := by
  intro rescheduled
  have scheduled := rescheduled _ (List.mem_cons_of_mem _ List.mem_cons_self) rfl
  exact absurd scheduled.within (by decide)

end LoopState

end CacheCleaner
