import CacheCleaner.Daemon.Reload

namespace CacheCleaner.EventLoop

open Effect LoopState

variable {minSecs : Nat}

/-- The states reconciled so far, each at the instant the reducer is given for
it: that of its batch, or, while the loop starts, the one read right after. -/
structure History where
  batch : Option Instant
  unstamped : Option ScreenState
  reconciled : List (Instant × ScreenState)
  checked : Option Instant
  settings : List LoopConfig

namespace History

def start : History := ⟨none, none, [], none, []⟩

def record (history : History) (time : Instant) (seen : ScreenState) : History :=
  { history with reconciled := history.reconciled ++ [(time, seen)] }

def hear (history : History) : Exchange LoopRequest LoopReply → History
  | ⟨.batchNow, time⟩ => { history with batch := some time }
  | ⟨.startupNow, time⟩ =>
    match history.unstamped with
    | some seen => { history with unstamped := none }.record time seen
    | none => history
  | ⟨.getScreenState, seen⟩ =>
    match history.batch with
    | some time => history.record time seen
    | none => { history with unstamped := some seen }
  | ⟨.triggerNow, time⟩ => { history with checked := some time }
  | ⟨.readConfig, config⟩ =>
    { history with settings := history.settings ++ [config] }
  | _ => history

def of (log : List (Exchange LoopRequest LoopReply)) : History := log.foldl hear start

/-- Every configuration read requires the screen to be off for the same time. -/
def Steady (minSecs : Nat) (history : History) : Prop :=
  ∀ config ∈ history.settings, config.requireScreenOff = true ∧ config.minScreenOffSecs = minSecs

def lastSeen (entries : List (Instant × ScreenState)) : ScreenState :=
  entries.foldl (fun last entry =>
    match entry.2 with
    | .unknown => last
    | seen => seen) .unknown

def OffSince (since : Instant) (entries : List (Instant × ScreenState)) : Prop :=
  ∃ earlier later, entries = earlier ++ (since, .off) :: later ∧ ∀ entry ∈ later, entry.2 ≠ .on

end History

namespace History.OffSince

variable {since : Instant} {entries : List (Instant × ScreenState)}

theorem began (time : Instant) (entries : List (Instant × ScreenState)) :
    OffSince time (entries ++ [(time, .off)]) :=
  ⟨entries, [], rfl, List.forall_mem_nil _⟩

theorem continues (off : OffSince since entries) (time : Instant) (still : seen ≠ .on) :
    OffSince since (entries ++ [(time, seen)]) := by
  obtain ⟨earlier, later, rfl, none⟩ := off
  refine ⟨earlier, later ++ [(time, seen)], by simp, fun entry mem => ?_⟩
  rcases List.mem_append.mp mem with old | last
  · exact none entry old
  · rw [List.mem_singleton.mp last]
    exact still

theorem lastSeen (off : OffSince since entries) : History.lastSeen entries = .off := by
  obtain ⟨earlier, later, rfl, none⟩ := off
  unfold History.lastSeen
  rw [List.foldl_append, List.foldl_cons]
  -- no later entry changes the result: unknown is skipped, and none is on
  induction later with
  | nil => rfl
  | cons entry rest ih =>
    obtain ⟨here, others⟩ := List.forall_mem_cons.mp none
    rw [List.foldl_cons]
    rcases entry with ⟨time, _ | _ | _⟩
    · exact absurd rfl here
    · exact ih others
    · exact ih others

theorem not_on (off : OffSince since entries) (ordered : (entries.map Prod.fst).Pairwise (· ≤ ·))
    (mem : entry ∈ entries)
    (after : since < entry.1) : entry.2 ≠ .on := by
  obtain ⟨earlier, later, rfl, none⟩ := off
  rw [List.map_append, List.pairwise_append] at ordered
  rcases List.mem_append.mp mem with old | recent
  · have before := ordered.2.2 entry.1 (List.mem_map_of_mem old) since (by simp)
    exact absurd after (Nat.not_lt.mpr before)
  · rcases List.mem_cons.mp recent with rfl | mem
    · simp
    · exact none entry mem

end History.OffSince

inductive Reachable (minSecs : Nat) : LoopState → Prop
  | new (interval : Nat) (now : Instant) : Reachable minSecs (.new interval now)
  | reduced {state : LoopState} (reached : Reachable minSecs state)
      (event : LoopEvent) (given : Surroundings) (same : given.minScreenOffSecs = minSecs) :
      Reachable minSecs (state.reduce event given).1
  | succeeded {state : LoopState} (reached : Reachable minSecs state)
      (now : Instant) (interval : Nat) : Reachable minSecs (state.onMaintenanceSuccess now interval)
  | postponed {state : LoopState} (reached : Reachable minSecs state)
      (now : Instant) (interval : Nat) :
      Reachable minSecs (state.onMaintenancePostponed now interval)

structure Coherent (minSecs : Nat) (state : LoopState) : Prop where
  since : state.screenOffSince.isSome = true ↔ state.screenState = .off
  deadline : ∀ deadline, state.screenOffDeadline = some deadline → state.screenState = .off ∧
      state.screenOffSince.map (· + fromSecs minSecs) = some deadline

structure SameScreen (before after : LoopState) : Prop where
  screen : after.screenState = before.screenState
  since : after.screenOffSince = before.screenOffSince
  deadline : after.screenOffDeadline = before.screenOffDeadline ∨ after.screenOffDeadline = none

theorem SameScreen.refl (state : LoopState) : SameScreen state state := ⟨rfl, rfl, .inl rfl⟩

theorem reduce_sameScreen (state : LoopState)
    (other : ∀ seen, event ≠ .reconcileScreen seen) (given : Surroundings) :
    SameScreen state (state.reduce event given).1 := by
  cases event with
  | timerExpired =>
    simp only [reduce]
    split
    · exact ⟨rfl, rfl, .inr rfl⟩
    · exact .refl state
  | signal signal => cases signal <;> exact ⟨rfl, rfl, .inl rfl⟩
  | reconcileScreen seen => exact absurd rfl (other seen)
  | _ => exact ⟨rfl, rfl, .inl rfl⟩

theorem Coherent.of_same (coherent : Coherent minSecs before) (same : SameScreen before after) :
    Coherent minSecs after := by
  refine ⟨?_, fun deadline set => ?_⟩
  · rw [same.since, same.screen]
    exact coherent.since
  · rw [same.since, same.screen]
    rcases same.deadline with kept | cleared
    · exact coherent.deadline deadline (kept ▸ set)
    · rw [cleared] at set
      cases set

theorem Coherent.reconcile
    (coherent : Coherent minSecs state) (seen : ScreenState)
    (same : given.minScreenOffSecs = minSecs) :
    Coherent minSecs (state.reconcile seen given).1 := by
  cases seen with
  | on => exact ⟨by simp [LoopState.reconcile, resetRetryBackoff],
      by simp [LoopState.reconcile, resetRetryBackoff]⟩
  | unknown => exact ⟨coherent.since, coherent.deadline⟩
  | off =>
    simp only [LoopState.reconcile]
    split
    · refine ⟨by simp [resetRetryBackoff], fun deadline set => ⟨rfl, ?_⟩⟩
      rw [← same]
      exact set
    · exact ⟨coherent.since, coherent.deadline⟩

theorem Reachable.coherent (reached : Reachable minSecs state) : Coherent minSecs state := by
  induction reached with
  | new interval now => exact ⟨by simp [LoopState.new], by simp [LoopState.new]⟩
  | reduced reached event given same ih =>
    cases event with
    | reconcileScreen seen => exact ih.reconcile seen same
    | _ => exact ih.of_same (reduce_sameScreen _ (by simp) given)
  | succeeded reached now interval ih =>
    exact ih.of_same ⟨rfl, rfl, .inl rfl⟩
  | postponed reached now interval ih =>
    exact ih.of_same ⟨rfl, rfl, .inl rfl⟩

def History.Waited (minSecs : Nat) (history : History) : Prop :=
  ∃ since checked, OffSince since history.reconciled ∧
    history.checked = some checked ∧ fromSecs minSecs ≤ checked - since

def patience (minSecs : Nat) : Protocol History Unit LoopRequest LoopReply where
  initial := fun _ => .start
  advance := History.hear
  permits := fun history request => request = .spawnMaintenanceWorker →
    history.Steady minSecs → history.Waited minSecs

def quiet : LoopRequest → Bool
  | .batchNow | .startupNow | .triggerNow | .getScreenState | .readConfig
  | .spawnMaintenanceWorker => false
  | _ => true

section

variable {minSecs : Nat} {history : History} {α β : Type}

variable {request : LoopRequest}

theorem hear_quiet (silent : quiet request = true)
    (reply : LoopReply request) : history.hear ⟨request, reply⟩ = history := by
  cases request <;> first | rfl | cases silent

theorem permits_of_ne (other : request ≠ .spawnMaintenanceWorker) :
    (patience minSecs).permits history request :=
  fun same => absurd same other

theorem quiet_ne (silent : quiet request = true) : request ≠ .spawnMaintenanceWorker := by
  rintro rfl
  cases silent

theorem call_quiet (silent : quiet request = true)
    (rest : ∀ reply, (patience minSecs).Obeys post history (next reply)) :
    (patience minSecs).Obeys post history (call request >>= next) := by
  refine .perform_bind (permits_of_ne (quiet_ne silent)) fun reply => ?_
  change (patience minSecs).Obeys post (history.hear ⟨request, reply⟩) _
  rw [hear_quiet silent]
  exact rest reply

abbrev Silent {α : Type} (program : Loop α) : Prop :=
  program.Issues fun request => quiet request = true

theorem Silent.before_yields (silent : Silent program)
    (yields : program.Yields values) (rest : ∀ value, values value →
      (patience minSecs).Obeys post history (next value)) :
    (patience minSecs).Obeys post history (program >>= next) := by
  induction program with
  | done value => exact rest value yields
  | abort => trivial
  | call request continuation ih =>
    refine call_quiet silent.1 fun reply => ?_
    exact ih reply (silent.2 reply) (yields reply)

theorem Silent.before (silent : Silent program)
    (rest : ∀ value, (patience minSecs).Obeys post history (next value)) :
    (patience minSecs).Obeys post history (program >>= next) :=
  silent.before_yields (.any program) fun value _ => rest value

end

structure History.Reads (before after : History) : Prop where
  batch : after.batch = before.batch
  reconciled : after.reconciled = before.reconciled
  settings : before.settings ⊆ after.settings

namespace History.Reads

theorem refl (history : History) : Reads history history := ⟨rfl, rfl, List.Subset.refl _⟩

theorem trans (first : Reads before middle) (second : Reads middle after) : Reads before after :=
  ⟨second.batch.trans first.batch, second.reconciled.trans first.reconciled,
    List.Subset.trans first.settings second.settings⟩

theorem steady (reads : Reads before after) (steady : after.Steady minSecs) :
    before.Steady minSecs :=
  fun config mem => steady config (reads.settings mem)

end History.Reads

section

variable {minSecs : Nat} {history : History}

def Passed (minSecs : Nat) (since : Option Instant) (history : History) : Prop :=
  history.Steady minSecs → ∃ start checked, since = some start ∧
    history.checked = some checked ∧ fromSecs minSecs ≤ checked - start

theorem screenOffLongEnough_obeys
    (read : config ∈ history.settings) (since : Option Instant) : (patience minSecs).Obeys
      (fun after passed => history.Reads after ∧ (passed = true → Passed minSecs since after))
      history (screenOffLongEnough config since) := by
  unfold screenOffLongEnough
  split
  · cases since with
    | none => exact ⟨.refl history, nofun⟩
    | some start =>
      refine .perform_bind (permits_of_ne nofun) fun now => ?_
      refine ⟨⟨rfl, rfl, List.Subset.refl _⟩, fun passed steady => ?_⟩
      refine ⟨start, now, rfl, rfl, ?_⟩
      rw [← (steady config read).2]
      exact of_decide_eq_true passed
  · rename_i optional
    refine ⟨.refl history, fun _ steady => ?_⟩
    exact absurd (steady config read).1 optional

theorem chargingIfRequired_silent (config : LoopConfig) : Silent (chargingIfRequired config) := by
  unfold chargingIfRequired
  split
  · exact ⟨rfl, fun _ => trivial⟩
  · trivial

theorem evaluateTriggers_obeys (since : Option Instant) : (patience minSecs).Obeys
      (fun after passed => history.Reads after ∧ (passed = true → Passed minSecs since after))
      history (evaluateTriggers since) := by
  refine .perform_bind (permits_of_ne nofun) fun config => ?_
  have reads : history.Reads (history.hear ⟨.readConfig, config⟩) :=
    ⟨rfl, rfl, List.subset_append_left _ _⟩
  have listed : config ∈ (history.hear ⟨.readConfig, config⟩).settings :=
    List.mem_append_right _ (List.mem_singleton_self _)
  refine (screenOffLongEnough_obeys listed since).bind ?_
  rintro after passed ⟨later, holds⟩
  cases passed with
  | false => exact ⟨reads.trans later, nofun⟩
  | true =>
    refine (chargingIfRequired_silent config).before fun charging => ?_
    cases charging with
    | false => exact ⟨reads.trans later, nofun⟩
    | true => exact call_quiet rfl fun thermal =>
      ⟨reads.trans later, fun _ => holds rfl⟩

theorem mayStart_obeys (since : Option Instant) : (patience minSecs).Obeys
      (fun after passed => history.Reads after ∧ (passed = true → Passed minSecs since after))
      history (mayStart since) := by
  refine (evaluateTriggers_obeys since).bind ?_
  rintro after passed ⟨reads, holds⟩
  cases passed with
  | false => exact ⟨reads, nofun⟩
  | true =>
    refine call_quiet rfl fun cleaning => ?_
    cases cleaning with
    | true => exact ⟨reads, nofun⟩
    | false => exact call_quiet rfl fun stopping => ⟨reads, fun _ => holds rfl⟩

end

structure Tracked (minSecs : Nat) (history : History) (state : LoopState) : Prop where
  follows : ∀ since, state.screenOffSince = some since → History.OffSince since history.reconciled
  reached : history.Steady minSecs → Reachable minSecs state

/-- Within a batch: the instant and the minimum it is handled with are those heard. -/
structure Under (minSecs : Nat) (given : Surroundings) (history : History) (state : LoopState) :
    Prop extends Tracked minSecs history state where
  batch : history.batch = some given.now
  settings : history.Steady minSecs → given.minScreenOffSecs = minSecs

def Still (holds : History → LoopState → Prop) (after : History) (next : Option LoopState) : Prop :=
  ∀ state ∈ next, holds after state

theorem Still.some (held : holds after state) : Still holds after (some state) := by
  rintro _ ⟨⟩
  exact held

section

variable {minSecs : Nat} {history : History} {state : LoopState} {given : Surroundings}

theorem Under.reads (under : Under minSecs given history state) (reads : history.Reads after) :
    Under minSecs given after state :=
  ⟨⟨fun since off => reads.reconciled ▸ under.follows since off,
    fun steady => under.reached (reads.steady steady)⟩, reads.batch.trans under.batch,
    fun steady => under.settings (reads.steady steady)⟩

theorem Tracked.reduce (tracked : Tracked minSecs history state)
    (other : ∀ seen, event ≠ .reconcileScreen seen)
    (same : history.Steady minSecs → given.minScreenOffSecs = minSecs) :
    Tracked minSecs history (state.reduce event given).1 := by
  refine ⟨fun since off => ?_, fun steady =>
    .reduced (tracked.reached steady) event given (same steady)⟩
  rw [(reduce_sameScreen state other given).since] at off
  exact tracked.follows since off

theorem Tracked.reconcile (tracked : Tracked minSecs history state) (given : Surroundings)
    (seen : ScreenState) (same : history.Steady minSecs → given.minScreenOffSecs = minSecs) :
    Tracked minSecs (history.record given.now seen)
      (state.reduce (.reconcileScreen seen) given).1 := by
  refine ⟨?_, fun steady => .reduced (tracked.reached steady) _ given (same steady)⟩
  intro since off
  cases seen with
  | on => simp [LoopState.reduce, LoopState.reconcile, resetRetryBackoff] at off
  | unknown => exact (tracked.follows since off).continues _ (by decide)
  | off =>
    simp only [LoopState.reduce, LoopState.reconcile] at off
    split at off
    · cases off
      exact .began _ _
    · exact (tracked.follows since off).continues _ (by decide)

theorem preemptAll_silent : Silent (preemptAll actions) := by
  induction actions with
  | nil => trivial
  | cons action rest ih =>
    cases action with
    | preemptCleaning reason => exact ⟨rfl, fun _ => ⟨rfl, fun _ => ih⟩⟩
    | _ => exact ih

theorem reconcileSysfs_obeys (under : Under minSecs given history state) :
    (patience minSecs).Obeys (Under minSecs given) history (reconcileSysfs state given) := by
  refine .perform_bind (permits_of_ne nofun) fun seen => ?_
  have heard : (patience minSecs).advance history ⟨.getScreenState, seen⟩ =
      history.record given.now seen := by
    simp only [patience, History.hear, under.batch]
  rw [heard]
  refine call_quiet rfl fun isCleaning => call_quiet rfl fun _ => ?_
  refine preemptAll_silent.before fun _ => ?_
  exact ⟨under.toTracked.reconcile { given with isCleaning } seen under.settings, under.batch,
    under.settings⟩

theorem reclaim_silent (level : PsiPressureLevel) : Silent (reclaim level) := by
  cases level with
  | normal => trivial
  | moderate => exact ⟨rfl, fun _ => trivial⟩
  | critical => exact ⟨rfl, fun _ => ⟨rfl, fun _ => ⟨rfl, fun _ => trivial⟩⟩⟩

theorem reclaimMemory_obeys (level : PsiPressureLevel) :
    (patience minSecs).Obeys (fun after _ => history.Reads after) history
      (reclaimMemory level) := by
  refine .perform_bind (permits_of_ne nofun) fun config => ?_
  have reads : history.Reads (history.hear ⟨.readConfig, config⟩) :=
    ⟨rfl, rfl, List.subset_append_left _ _⟩
  refine call_quiet rfl fun allowed => ?_
  cases allowed with
  | false => exact call_quiet rfl fun _ => reads
  | true =>
    refine call_quiet rfl fun cleaning => ?_
    cases cleaning with
    | true => exact call_quiet rfl fun _ => reads
    | false =>
      refine call_quiet rfl fun _ => call_quiet rfl fun _ => ?_
      refine (reclaim_silent level).before fun _ => ?_
      refine call_quiet rfl fun cleaning => ?_
      cases cleaning with
      | true => exact call_quiet rfl fun _ => reads
      | false => exact call_quiet rfl fun _ => call_quiet rfl fun _ => reads

theorem runMaintenance_obeys (under : Under minSecs given history state) :
    (patience minSecs).Obeys (Under minSecs given) history (runMaintenance state given) := by
  refine (mayStart_obeys state.screenOffSince).bind ?_
  rintro after passed ⟨reads, holds⟩
  have under := under.reads reads
  cases passed with
  | true =>
    -- the only place where a worker is spawned
    have waited : after.Steady minSecs → after.Waited minSecs := by
      intro steady
      obtain ⟨start, checked, off, looked, long⟩ := holds rfl steady
      exact ⟨start, checked, under.follows start off, looked, long⟩
    exact .perform_bind (fun _ => waited) fun _ => ⟨⟨under.follows, fun steady =>
      .succeeded (under.reached steady) _ _⟩, under.batch, under.settings⟩
  | false =>
    refine call_quiet rfl fun stopping => ?_
    cases stopping with
    | true => exact under
    | false => exact ⟨⟨under.follows, fun steady =>
      .postponed (under.reached steady) _ _⟩, under.batch, under.settings⟩

variable (sources : Sources)

theorem perform_obeys (under : Under minSecs given history state) (action : LoopAction) :
    (patience minSecs).Obeys (Still (Under minSecs given)) history
      (perform sources given state action) := by
  have stays : Still (Under minSecs given) history (some state) := .some under
  cases action with
  | none => exact stays
  | shutdown => exact call_quiet rfl fun _ => nofun
  | reloadConfig => exact call_quiet rfl fun _ => stays
  | handleIpc =>
    simp only [perform]
    split
    · exact call_quiet rfl fun _ => stays
    · exact stays
  | preemptCleaning reason =>
    exact call_quiet rfl fun _ => call_quiet rfl fun _ => stays
  | reconcileSysfs =>
    exact (reconcileSysfs_obeys under).bind fun _ _ under => Still.some under
  | reclaimMemory level =>
    simp only [perform]
    split
    · exact (reclaimMemory_obeys level).bind fun _ _ reads => Still.some (under.reads reads)
    · exact stays
  | runMaintenance =>
    exact (runMaintenance_obeys under).bind fun _ _ under => Still.some under

theorem performAll_obeys (under : Under minSecs given history state) :
    (patience minSecs).Obeys (Still (Under minSecs given)) history
      (performAll sources given actions state) := by
  induction actions generalizing state history with
  | nil => exact Still.some under
  | cons action rest ih =>
    refine (perform_obeys sources under action).bind fun after next held => ?_
    cases next with
    | none => exact nofun
    | some state => exact ih (held state rfl)

def Unread (events : List LoopEvent) : Prop :=
  ∀ event ∈ events, ∀ seen, event ≠ .reconcileScreen seen

theorem processEvents_obeys (unread : Unread events) (under : Under minSecs given history state) :
    (patience minSecs).Obeys (Still (Under minSecs given)) history
      (processEvents sources given events state) := by
  induction events generalizing state history with
  | nil => exact Still.some under
  | cons event rest ih =>
    obtain ⟨here, others⟩ := List.forall_mem_cons.mp unread
    refine call_quiet rfl fun _ => ?_
    refine (performAll_obeys sources ⟨under.reduce here under.settings, under.batch,
      under.settings⟩).bind fun after next held => ?_
    cases next with
    | none => exact nofun
    | some state => exact ih others (held state rfl)

theorem Unread.append (first : Unread front) (second : Unread back) : Unread (front ++ back) := by
  intro event mem
  rcases List.mem_append.mp mem with left | right
  · exact first event left
  · exact second event right

theorem Unread.map {α : Type} {wrap : α → LoopEvent}
    (other : ∀ item seen, wrap item ≠ .reconcileScreen seen) (items : List α) :
    Unread (items.map wrap) := by
  intro event mem
  obtain ⟨item, -, rfl⟩ := List.mem_map.mp mem
  exact other item

theorem whenReady_silent (silent : quiet request = true) :
    Silent (whenReady ready request items) := by
  cases ready with
  | false => trivial
  | true => exact ⟨silent, fun _ => trivial⟩

theorem whenReady_yields
    {items : LoopReply request → List LoopEvent} (unread : ∀ reply, Unread (items reply)) :
    (whenReady ready request items).Yields Unread := by
  cases ready with
  | false => exact List.forall_mem_nil _
  | true => exact unread

theorem collectEvents_silent (batch : Batch) :
    Silent (collectEvents sources batch) :=
  (whenReady_silent rfl).bind fun _ => (whenReady_silent rfl).bind
    fun _ => (whenReady_silent rfl).bind fun _ => trivial

theorem collectEvents_yields (batch : Batch) :
    (collectEvents sources batch).Yields Unread := by
  refine (whenReady_yields fun _ => by simp [Unread]).bind fun timer timerUnread => ?_
  refine (whenReady_yields fun _ => .map nofun _).bind fun signals signalsUnread => ?_
  refine (whenReady_yields fun messages => ?_).bind fun uevents ueventsUnread => ?_
  · unfold ueventEvents
    split
    · simp [Unread]
    · exact .map nofun _
  · have ipc : Unread (if batch.ipc then [.ipcReadable] else []) := by
      split <;> simp [Unread]
    exact (((timerUnread.append signalsUnread).append ipc).append
      (.map nofun _)).append ueventsUnread

end

section

variable {minSecs : Nat} {history : History} {state : LoopState}

theorem handleBatch_obeys (sources : Sources) (batch : Batch)
    (tracked : Tracked minSecs history state) : (patience minSecs).Obeys
      (Still (Tracked minSecs)) history (handleBatch sources batch state) := by
  refine .perform_bind (permits_of_ne nofun) fun now => ?_
  refine .perform_bind (permits_of_ne nofun) fun config => ?_
  refine call_quiet rfl fun isCleaning => ?_
  refine (collectEvents_silent sources batch).before_yields
    (collectEvents_yields sources batch) fun events unread => ?_
  have under : Under minSecs ⟨now, config.minScreenOffSecs,
      config.maintenanceIntervalSecs, isCleaning⟩
      ((history.hear ⟨.batchNow, now⟩).hear ⟨.readConfig, config⟩) state :=
    ⟨⟨tracked.follows, fun steady => tracked.reached fun config mem =>
      steady config (List.mem_append_left _ mem)⟩, rfl,
      fun steady => (steady config (List.mem_append_right _ (List.mem_singleton_self _))).2⟩
  refine (processEvents_obeys sources unread under).bind fun after next held => ?_
  have held : Still (Tracked minSecs) after next := fun state left => (held state left).toTracked
  cases next with
  | none => exact nofun
  | some state =>
    refine call_quiet rfl fun stopping => ?_
    cases stopping with
    | true => exact held
    | false => exact call_quiet rfl fun _ => held

theorem turn_obeys (sources : Sources) (tracked : Tracked minSecs history state) :
    (patience minSecs).Obeys (Still (Tracked minSecs)) history (turn sources state) := by
  refine call_quiet rfl fun stopping => ?_
  cases stopping with
  | true => exact nofun
  | false =>
    refine call_quiet rfl fun wakeup => ?_
    cases wakeup with
    | interrupted => exact Still.some tracked
    | failed => exact nofun
    | ready batch => exact handleBatch_obeys sources batch tracked

theorem turns_obeys (sources : Sources) (count : Nat) (tracked : Tracked minSecs history state) :
    (patience minSecs).Obeys (Still (Tracked minSecs)) history (turns sources count state) := by
  induction count generalizing state history with
  | zero => exact Still.some tracked
  | succ count ih =>
    refine (turn_obeys sources tracked).bind fun after next held => ?_
    cases next with
    | none => exact nofun
    | some state => exact ih (held state rfl)

structure Starting (history : History) : Prop where
  batch : history.batch = none
  unstamped : history.unstamped = none

theorem reconcileAtStart_obeys (starting : Starting history) (clock : ∀ now, (given now).now = now)
    (same : history.Steady minSecs → ∀ now, (given now).minScreenOffSecs = minSecs)
    (tracked : Tracked minSecs history state) : (patience minSecs).Obeys
      (fun after next => Starting after ∧ (after.Steady minSecs → history.Steady minSecs) ∧
        Tracked minSecs after next) history (reconcileAtStart given state) := by
  refine .perform_bind (permits_of_ne nofun) fun seen => ?_
  refine .perform_bind (permits_of_ne nofun) fun now => ?_
  have heard : (patience minSecs).advance ((patience minSecs).advance history
      ⟨.getScreenState, seen⟩) ⟨.startupNow, now⟩ = history.record (given now).now seen := by
    obtain ⟨batch, unstamped⟩ := starting
    simp [patience, History.hear, History.record, batch, unstamped, clock]
  rw [heard]
  refine call_quiet rfl fun _ => ?_
  exact ⟨⟨starting.batch, starting.unstamped⟩, id,
    tracked.reconcile (given now) seen fun steady => same steady now⟩

theorem Starting.clock (starting : Starting history) (now : Instant) :
    (patience minSecs).advance history ⟨.startupNow, now⟩ = history := by
  simp [patience, History.hear, starting.unstamped]

theorem drainQueued_obeys (given : Instant → Surroundings)
    (clock : ∀ now, (given now).now = now) (messages : List UeventMessage)
    (starting : Starting history) (same : history.Steady minSecs →
      ∀ now, (given now).minScreenOffSecs = minSecs) (tracked : Tracked minSecs history state) :
    (patience minSecs).Obeys (Tracked minSecs) history (drainQueued given messages state) := by
  induction messages generalizing state history with
  | nil => exact tracked
  | cons message rest ih =>
    refine .perform_bind (permits_of_ne nofun) fun now => ?_
    rw [starting.clock]
    have reduced : Tracked minSecs history (state.reduce (.uevent message) (given now)).1 :=
      tracked.reduce nofun fun steady => same steady now
    simp only
    split
    · refine (reconcileAtStart_obeys starting clock same reduced).bind ?_
      exact fun after state ⟨starting, earlier, tracked⟩ =>
        ih starting (fun steady => same (earlier steady)) tracked
    · exact ih starting same reduced

theorem start_obeys (sources : Sources) :
    (patience minSecs).Obeys (Tracked minSecs) .start (start sources) := by
  refine .perform_bind (permits_of_ne nofun) fun config => ?_
  have starting : Starting (History.start.hear ⟨.readConfig, config⟩) := ⟨rfl, rfl⟩
  refine .perform_bind (permits_of_ne nofun) fun now => ?_
  have fixed : (patience minSecs).advance ((patience minSecs).advance
      History.start ⟨.readConfig, config⟩) ⟨.startupNow, now⟩ =
      History.start.hear ⟨.readConfig, config⟩ := starting.clock now
  rw [fixed]
  have same : (History.start.hear ⟨.readConfig, config⟩).Steady minSecs →
      config.minScreenOffSecs = minSecs :=
    fun steady => (steady config (List.mem_singleton_self _)).2
  have fresh : Tracked minSecs (History.start.hear ⟨.readConfig, config⟩)
      (.new config.maintenanceIntervalSecs now) :=
    ⟨fun _ => nofun, fun _ => .new _ _⟩
  refine (reconcileAtStart_obeys starting (fun _ => rfl)
    (fun steady _ => same steady) fresh).bind ?_
  rintro after state ⟨starting, earlier, tracked⟩
  refine (whenReady_silent rfl).before fun queued => ?_
  refine (drainQueued_obeys (beforeLoop config) (fun _ => rfl) queued starting
    (fun steady _ => same (earlier steady)) tracked).bind ?_
  exact fun _ _ tracked => call_quiet rfl fun _ => tracked

theorem runEpollLoop_obeys (sources : Sources) (count : Nat) : (patience minSecs).Obeys
      (Still (Tracked minSecs)) .start (runEpollLoop sources count) :=
  (start_obeys sources).bind fun _ _ tracked => turns_obeys sources count tracked

end

/-- What holds when a worker is spawned: the last state seen was off, a period
without an on state has lasted since `since`, and, with a clock that does not
run backwards, no state seen within the minimum before the check was on. -/
def History.OffLongEnough (minSecs : Nat) (history : History) : Prop :=
  lastSeen history.reconciled = .off ∧ ∃ since checked,
    history.checked = some checked ∧ OffSince since history.reconciled ∧
      fromSecs minSecs ≤ checked - since ∧ ((history.reconciled.map Prod.fst).Pairwise (· ≤ ·) →
        ∀ entry ∈ history.reconciled, checked - entry.1 < fromSecs minSecs → entry.2 ≠ .on)

theorem History.Waited.offLongEnough {history : History}
    (waited : history.Waited minSecs) : history.OffLongEnough minSecs := by
  obtain ⟨since, checked, off, looked, long⟩ := waited
  refine ⟨off.lastSeen, since, checked, looked, off, long, ?_⟩
  intro ordered entry mem recent
  refine off.not_on ordered mem (Nat.lt_of_not_le fun early => ?_)
  have longer := Nat.sub_le_sub_left early checked
  exact Nat.not_lt.mpr (long.trans longer) recent

/-- In every state the loop reaches its fields about the screen belong together,
and in every run it spawns a worker only after the screen has been off for the
configured time, as long as every configuration it reads requires that time. -/
theorem maintenance_after_screen_off (minSecs : Nat) : (∀ state, Reachable minSecs state →
      (state.screenOffSince.isSome = true ↔ state.screenState = .off) ∧
      ∀ deadline, state.screenOffDeadline = some deadline → state.screenState = .off ∧
          state.screenOffSince.map (· + fromSecs minSecs) = some deadline) ∧
    ∀ {σ : Type} (handler : Handler LoopRequest LoopReply σ) (world : σ)
      (sources : Sources) (count : Nat),
      let loop := runEpollLoop sources count
      (∀ (reached : Nat),
        let history := History.of ((loop.log handler world).take reached)
        history.Steady minSecs →
        (loop.trace handler world)[reached]? = some .spawnMaintenanceWorker →
        history.OffLongEnough minSecs) ∧
      ∀ (state : LoopState) (world' : σ), loop.run handler world = (some (some state), world') →
        (History.of (loop.log handler world)).Steady minSecs → Reachable minSecs state := by
  refine ⟨fun state reached => ⟨reached.coherent.since, reached.coherent.deadline⟩, ?_⟩
  intro σ handler world sources count loop
  have obeys : (patience minSecs).Obeys (Still (Tracked minSecs)) .start loop :=
    runEpollLoop_obeys sources count
  refine ⟨?_, ?_⟩
  · intro reached history steady next
    exact (obeys.permitted handler next rfl steady).offLongEnough
  · intro state world' ran steady
    exact (obeys.returned handler ran state rfl).reached steady

def resting : Handler LoopRequest LoopReply Unit where
  respond
    | .isShutdownRequested, _ | .isCleaning, _ | .psiCanRespond _, _ => (false, ())
    | .readConfig, _ => (everySecs 3600, ())
    | .epollWait, _ => (.ready ⟨true, false, false, [], false⟩, ())
    | .startupNow, _ => (0, ())
    | .batchNow, _ | .triggerNow, _ => (fromSecs 3600, ())
    | .readSignals, _ => ([], ())
    | .readUevents, _ => ([], ())
    | .getScreenState, _ => (.off, ())
    | .getChargerState, _ => (.unknown, ())
    | .readThermal, _ => (⟨.degrees 30, .degrees 30⟩, ())
    | .reloadConfig, _ => (.error "", ())
    | .drainTimer, _ | .setScreenOffSince _, _ | .setState _, _
    | .cancelForScreen, _ | .triggerShutdown, _ | .acceptAndHandle, _
    | .psiRecordResponse, _ | .psiDrain _, _ | .reclaimCgroupMemory _, _
    | .compactZram, _ | .compactMemory, _ | .spawnMaintenanceWorker, _
    | .armTimer _, _ => ((), ())

theorem resting_device_cleaned :
    let loop := runEpollLoop ⟨true, true, true, true⟩ 1
    (loop.trace resting ())[19]? = some .spawnMaintenanceWorker ∧
      (History.of ((loop.log resting ()).take 19)).OffLongEnough 180 := by
  have spawned : ((runEpollLoop ⟨true, true, true, true⟩ 1).trace resting ())[19]? =
      some .spawnMaintenanceWorker := by decide +kernel
  refine ⟨spawned, ((maintenance_after_screen_off 180).2 resting () _ 1).1 19 ?_ spawned⟩
  unfold History.Steady
  decide +kernel

end CacheCleaner.EventLoop
