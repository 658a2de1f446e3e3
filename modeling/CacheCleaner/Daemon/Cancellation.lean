import CacheCleaner.Daemon.Ownership

namespace CacheCleaner.DaemonContext

open Effect Daemon

variable {ι : Type}

variable {pool pool' : Daemons ι} {event : Happening ι}

/-- The thread has claimed the cleaning flag and is still to reset the token. -/
def Resetting (thread : Thread Code Action Answer) : Prop := protocol.phase thread = .claimed

instance : DecidablePred Resetting :=
  fun thread => inferInstanceAs (Decidable (protocol.phase thread = .claimed))

def Cancels : Happening ι → Bool
  | .acted _ ⟨.storeCancelled value, _⟩ => value
  | _ => false

def Grants : Happening ι → Bool
  | .acted _ ⟨.claimManual, granted⟩ => granted
  | .acted _ ⟨.claimScheduled, granted⟩ => granted
  | _ => false

def ClaimsManually : Happening ι → Bool
  | .acted _ ⟨.claimManual, granted⟩ => granted
  | _ => false

def Publishes : Happening ι → Bool
  | .launched _ _ => false
  | .acted _ exchange => exchange.1.publishes

/-- A cancellation of a claimed job comes after the reset of the token, and no
command claims the flag once shutdown is requested. -/
structure Timely (pool : Daemons ι) (event : Happening ι) (_ : Daemons ι) : Prop where
  cancels : Cancels event = true → pool.shared.runtime.isCleaning = true → pool.Nobody Resetting
  claims : ClaimsManually event = true → pool.shared.runtime.shutdownRequested = false

instance [Fintype ι] (pool : Daemons ι) (event : Happening ι)
    (pool' : Daemons ι) : Decidable (Timely pool event pool') :=
  decidable_of_iff ((Cancels event = true → pool.shared.runtime.isCleaning = true →
      pool.Nobody Resetting) ∧ (ClaimsManually event = true →
        pool.shared.runtime.shutdownRequested = false)) ⟨fun ⟨cancels, claims⟩ => ⟨cancels, claims⟩,
      fun timely => ⟨timely.cancels, timely.claims⟩⟩

theorem free_of_grants (answered : answer chance action context = some (reply, after))
    (grants : Grants (.acted name ⟨action, reply⟩ : Happening ι) = true) :
    context.runtime.isCleaning = false ∧ (context.runtime.shutdownRequested = false ∨
        ClaimsManually (.acted name ⟨action, reply⟩ : Happening ι) = true) := by
  cases action <;> simp [Grants] at grants
  · simp [answer, guarded_some, claimManual] at answered
    grind [ClaimsManually]
  · simp [answer, guarded_some, claimScheduled] at answered
    grind

structure Cancelled (pool : Daemons ι) : Prop where
  token : pool.shared.cancelled = true
  settled : pool.Nobody Resetting

variable [DecidableEq ι]

theorem settled_step (settled : pool.Nobody Resetting) (orderly : Orderly pool)
    (step : system.Step pool event pool') (ungranted : Grants event = false) :
    pool'.Nobody Resetting := by
  cases step with
  | @launched name code shared free launched =>
    apply settled.set
    cases code <;> exact Phase.noConfusion
  | @acted name thread action next chance reply shared found waits answered =>
    apply settled.set
    intro claimed
    have turn := orderly.turn found waits answered
    rw [Resetting] at claimed
    generalize before : protocol.phase thread = phase at turn
    generalize protocol.phase _ = phase' at turn claimed
    cases turn with
    | claimsManual free | claimsScheduled free running => cases ungranted
    | cancels advances =>
      rcases advances with ⟨-, rfl⟩ | ⟨-, rfl⟩ <;> cases claimed
    | @publishesReport worker | @publishesFailure worker =>
      cases worker <;> cases claimed
    | stays quiet same =>
      exact settled name thread found (before.trans claimed)
    | _ => cases claimed

theorem Cancelled.step (cancelled : Cancelled pool) (orderly : Orderly pool)
    (step : system.Step pool event pool') (ungranted : Grants event = false) : Cancelled pool' := by
  refine ⟨?_, settled_step cancelled.settled orderly step ungranted⟩
  cases step with
  | launched free launched =>
    rw [Pool.shared_set, launch_frame launched]
    exact cancelled.token
  | @acted name thread action next chance reply shared found waits answered =>
    have turn := orderly.turn found waits answered
    generalize before : protocol.phase thread = phase at turn
    generalize protocol.phase _ = phase' at turn
    cases turn with
    | resets => exact absurd before (cancelled.settled name thread found)
    | cancels advances => rfl
    | stays quiet same =>
      rw [Pool.shared_set, same]
      exact cancelled.token
    | _ => exact cancelled.token

theorem Cancelled.reply {reply : Bool} (cancelled : Cancelled pool)
    (checks : system.Step pool (.acted name ⟨.loadCancelled, reply⟩) pool') : reply = true := by
  cases checks with
  | acted found waits answered =>
    cases answered
    exact cancelled.token

theorem cleaning_step (cleaning : pool.shared.runtime.isCleaning = true) (orderly : Orderly pool)
    (step : system.Step pool event pool') (unpublished : Publishes event = false) :
    pool'.shared.runtime.isCleaning = true := by
  cases step with
  | launched free launched =>
    rw [Pool.shared_set, launch_frame launched]
    exact cleaning
  | @acted name thread action next chance reply shared found waits answered =>
    have turn := orderly.turn found waits answered
    generalize protocol.phase thread = phase at turn
    generalize protocol.phase _ = phase' at turn
    cases turn with
    | claimsManual free | claimsScheduled free running => rfl
    | publishesReport | publishesFailure => cases unpublished
    | stays quiet same =>
      rw [Pool.shared_set, same]
      exact cleaning
    | _ => exact cleaning

theorem ungranted_of_cleaning (cleaning : pool.shared.runtime.isCleaning = true)
    (step : system.Step pool event pool') : Grants event = false := by
  cases step with
  | launched free launched => rfl
  | @acted name thread action next chance reply shared found waits answered =>
    by_contra granted
    obtain ⟨free, -⟩ := free_of_grants answered (by simpa using granted)
    cases free.symm.trans cleaning

theorem Cancelled.until_published
    {events : List (Happening ι)} (coherent : Coherent pool) (cancelled : Cancelled pool)
    (cleaning : pool.shared.runtime.isCleaning = true) (run : system.Run allowed pool events pool')
    (unpublished : ∀ event ∈ events, Publishes event = false) : Cancelled pool' := by
  suffices Coherent pool' ∧ Cancelled pool' ∧ pool'.shared.runtime.isCleaning = true from this.2.1
  induction run with
  | nil => exact ⟨coherent, cancelled, cleaning⟩
  | @snoc events pool₁ pool₂ event run step meets ih =>
    obtain ⟨coherent, cancelled, cleaning⟩ := ih fun event mem =>
      unpublished event (List.mem_append_left _ mem)
    exact ⟨coherent.step step, cancelled.step coherent.orderly step
        (ungranted_of_cleaning cleaning step), cleaning_step cleaning coherent.orderly step
        (unpublished event (by simp))⟩

theorem Cancelled.of_cancels {name : ι} (coherent : Coherent pool)
    (step : system.Step pool (.acted name ⟨.storeCancelled true, ()⟩) pool')
    (timely : Timely pool (.acted name ⟨.storeCancelled true, ()⟩) pool') : Cancelled pool' := by
  have settled : pool.Nobody Resetting := by
    cases cleaning : pool.shared.runtime.isCleaning with
    | true => exact timely.cancels rfl cleaning
    | false =>
      obtain ⟨owner, owned⟩ := coherent.owned
      obtain rfl : owner = none := by simpa [cleaning] using owned.cleaning
      intro name thread found claimed
      apply owned.engaged.nobody name thread found
      rw [Engaged, show protocol.phase thread = .claimed from claimed]
      rfl
  refine ⟨?_, settled_step settled coherent.orderly step rfl⟩
  cases step with
  | acted found waits answered =>
    cases answered
    rfl

def Stopped (thread : Thread Code Action Answer) : Prop := protocol.phase thread = .stopped

/-- Once shutdown is requested, and as soon as the thread that requested it has
cancelled the token, the token is cancelled for good. -/
def Halting (pool : Daemons ι) : Prop :=
  pool.shared.runtime.shutdownRequested = true →
  (pool.shared.runtimeLocked = false ∨ ¬ pool.Nobody Stopped) → Cancelled pool

theorem ungranted_of_requested (requested : pool.shared.runtime.shutdownRequested = true)
    (step : system.Step pool event pool') (timely : Timely pool event pool') :
    Grants event = false := by
  cases step with
  | launched free launched => rfl
  | @acted name thread action next chance reply shared found waits answered =>
    by_contra granted
    obtain ⟨-, running⟩ := free_of_grants answered (by simpa using granted)
    rcases running with running | manual
    · cases running.symm.trans requested
    · cases (timely.claims manual).symm.trans requested

theorem Halting.step (halting : Halting pool) (coherent : Coherent pool)
    (step : system.Step pool event pool') (timely : Timely pool event pool') : Halting pool' := by
  intro requested unlocked
  -- Where the premises held before the step, the cancellation carries over.
  have carry (requested : pool.shared.runtime.shutdownRequested = true)
      (unlocked : pool.shared.runtimeLocked = false ∨ ¬ pool.Nobody Stopped) : Cancelled pool' :=
    (halting requested unlocked).step coherent.orderly step
      (ungranted_of_requested requested step timely)
  cases step with
  | @launched name code shared free launched =>
    rw [Pool.shared_set, launch_frame launched] at requested unlocked
    refine carry requested (unlocked.imp_right (mt fun nobody => ?_))
    exact nobody.set (by cases code <;> exact Phase.noConfusion)
  | @acted name thread action next chance reply shared found waits answered =>
    have turn := coherent.orderly.turn found waits answered
    generalize before : protocol.phase thread = phase at turn
    generalize arrived : protocol.phase _ = phase' at turn
    -- No thread gets past its cancellation, if this one does not.
    have still (unstopped : phase' ≠ .stopped) (nobody : pool.Nobody Stopped) :
        (pool.set shared name (thread.resume action reply (next reply))).Nobody Stopped :=
      nobody.set fun stopped => unstopped (arrived.symm.trans stopped)
    cases turn with
    | locks free =>
      obtain ⟨holder, held⟩ := coherent.held
      obtain rfl : holder = none := by simpa [free] using held.locked
      have nobody : pool.Nobody Stopped := by
        intro name thread found stopped
        apply held.locking.nobody name thread found
        rw [Locking, show protocol.phase thread = .stopped from stopped]
        rfl
      rcases unlocked with unlocked | stopped
      · cases unlocked
      · exact absurd (still Phase.noConfusion nobody) stopped
    | cancels advances =>
      exact .of_cancels coherent (.acted found waits answered) timely
    | unlocks =>
      exact carry requested (.inr fun nobody =>
        nobody name thread found before)
    | stays quiet same =>
      rw [Pool.shared_set, same] at requested unlocked
      refine carry requested (unlocked.imp_right (mt fun nobody => ?_))
      exact nobody.set fun stopped =>
        nobody name thread found (before.trans (arrived.symm.trans stopped))
    | @publishesReport worker | @publishesFailure worker =>
      refine carry requested (unlocked.imp_right (mt (still ?_)))
      cases worker <;> exact Phase.noConfusion
    | _ =>
      exact carry requested (unlocked.imp_right (mt (still Phase.noConfusion)))

theorem halting {pool : Daemons ι}
    (run : system.Run Timely (.start .new) events pool) : Halting pool := by
  have both : Coherent pool ∧ Halting pool := by
    apply run.invariant
    · exact ⟨.start, fun requested => by cases requested⟩
    · rintro pool event pool' ⟨coherent, halting⟩ step timely
      exact ⟨coherent.step step, halting.step coherent step timely⟩
  exact both.2

/-- Cancellations that come in time are not lost: every check finds the token
cancelled until the job's outcome is published, and after shutdown for ever. -/
theorem timely_cancellation_not_lost {events : List (Happening ι)}
    {pool : Daemons ι} (run : system.Run Timely (.start .new) events pool) :
    (∀ {canceller checker : ι} {pool₁ pool₂ pool₃ : Daemons ι}
        {later : List (Happening ι)} {reply : Bool}, pool.shared.runtime.isCleaning = true →
      system.Step pool (.acted canceller ⟨.storeCancelled true, ()⟩) pool₁ →
      Timely pool (.acted canceller ⟨.storeCancelled true, ()⟩) pool₁ →
      system.Run Timely pool₁ later pool₂ → (∀ event ∈ later, Publishes event = false) →
      system.Step pool₂ (.acted checker ⟨.loadCancelled, reply⟩) pool₃ → reply = true) ∧
    (∀ {checker : ι} {pool' : Daemons ι} {reply : Bool},
      pool.shared.runtime.shutdownRequested = true → pool.shared.runtimeLocked = false →
      system.Step pool (.acted checker ⟨.loadCancelled, reply⟩) pool' → reply = true) := by
  have reached := coherent run
  constructor
  · intro canceller checker pool₁ pool₂ pool₃ later reply cleaning cancels
      timely after unpublished checks
    have cancelled := Cancelled.of_cancels reached cancels timely
    have cleaning' := cleaning_step cleaning reached.orderly cancels rfl
    exact (cancelled.until_published (reached.step cancels) cleaning' after
      unpublished).reply checks
  · intro checker pool' reply requested unlocked checks
    exact (halting run requested (.inl unlocked)).reply checks

abbrev Schedule := List (System.Move (Fin 3) Code Chance)

def calm : Chance := ⟨true, 0⟩

def plainParams : CleanParams := ⟨false, false, false⟩

def briefJob : Job := .call () fun _ => .done (.ok ⟨0, 0, 0, 0, false, none⟩)

def claimThenStop : Schedule :=
  .launch 0 (.command (.triggerClean plainParams)) :: System.acts 0 calm 2 ++
    .launch 1 (.command .stopDaemon) :: System.acts 1 calm 2

def claimed : List (Happening (Fin 3)) × Daemons (Fin 3) :=
  system.replayed System.anyhow claimThenStop (.start .new) (by decide +kernel)

def resetAndWork : Schedule :=
  System.acts 1 calm 2 ++ System.acts 0 calm 5 ++
    [.launch 2 (.worker (.manual 1 plainParams) briefJob), .act 2 calm]

def cancelledEarly : Daemons (Fin 3) :=
  ((system.play claimed.2 (.act 1 calm)).get (by decide +kernel)).2

def workingOn : List (Happening (Fin 3)) × Daemons (Fin 3) :=
  system.replayed System.anyhow resetAndWork cancelledEarly (by decide +kernel)

/-- The cancellation of a shutdown between claim and reset is lost: the job runs
with its token not cancelled. -/
theorem shutdown_before_reset_lost : ∃ (events later : List (Happening (Fin 3)))
      (pool pool₁ pool₂ pool₃ : Daemons (Fin 3)),
      system.Run System.anyhow (.start .new) events pool ∧ pool.shared.runtime.isCleaning = true ∧
      system.Step pool (.acted 1 ⟨.storeCancelled true, ()⟩) pool₁ ∧
      system.Run System.anyhow pool₁ later pool₂ ∧ (∀ event ∈ later, Publishes event = false) ∧
      pool₂.shared.runtime.shutdownRequested = true ∧ pool₂.shared.runtimeLocked = false ∧
      system.Step pool₂ (.acted 2 ⟨.loadCancelled, false⟩) pool₃ :=
  ⟨claimed.1, workingOn.1, claimed.2, cancelledEarly, workingOn.2, _,
    .replayed _ _, by decide +kernel, .of_play (.act 1 calm) rfl,
    .replayed _ _, by decide +kernel, by decide +kernel, by decide +kernel,
    .of_play (.act 2 calm) rfl⟩

def workThenCancel : Schedule :=
  .launch 0 (.command (.triggerClean plainParams)) :: System.acts 0 calm 7 ++
    [.launch 2 (.worker (.manual 1 plainParams) briefJob), .act 2 calm,
      .launch 1 (.command .cancel), .act 1 calm]

def atWork : List (Happening (Fin 3)) × Daemons (Fin 3) :=
  system.replayed Timely workThenCancel (.start .new) (by decide +kernel)

def cancelledAtWork : Daemons (Fin 3) :=
  ((system.play atWork.2 (.act 1 calm)).get (by decide +kernel)).2

theorem job_sees_cancellation_at_work : ∃ (reply : Bool) (pool : Daemons (Fin 3)),
      system.Step cancelledAtWork (.acted 2 ⟨.loadCancelled, reply⟩) pool ∧ reply = true := by
  have checks : system.Step cancelledAtWork (.acted 2 ⟨.loadCancelled, true⟩) _ :=
    .of_play (.act 2 calm) rfl
  refine ⟨_, _, checks, ?_⟩
  apply (timely_cancellation_not_lost (.replayed workThenCancel (by decide +kernel))).1
  · exact (by decide +kernel : atWork.2.shared.runtime.isCleaning = true)
  · exact .of_play (.act 1 calm) rfl
  · exact (by decide +kernel :
      Timely atWork.2 (.acted 1 ⟨.storeCancelled true, ()⟩) cancelledAtWork)
  · exact .nil
  · simp
  · exact checks

end CacheCleaner.DaemonContext
