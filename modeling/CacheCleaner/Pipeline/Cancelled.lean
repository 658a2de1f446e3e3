import CacheCleaner.Effect.Log
import CacheCleaner.Pipeline.Session
import CacheCleaner.Store.Log

namespace CacheCleaner

open Effect Effect.Program

def observesCancellation : Exchange Request Reply → Bool
  | ⟨.isCancelled, found⟩ => found
  | _ => false

structure CarriedThrough (job : JobId) (attempt : AttemptId) (store : Store) : Prop where
  completed : ∀ row, store.jobs.find job = some row → row.state = .completed
  success : ∀ row, store.attempts.find attempt = some row → row.state = .success

theorem CarriedThrough.of_set (store : Store) (job : JobId) (attempt : AttemptId) (total : Nat) :
    CarriedThrough job attempt
      ((store.setJobState job .completed total).setAttemptState attempt .success) where
  completed := by
    intro row found
    change (store.setJobState job .completed total).jobs.find job = some row at found
    rw [Store.setJobState, Table.find_update_of_selected _ (by simp),
      Option.map_eq_some_iff] at found
    obtain ⟨earlier, -, rfl⟩ := found
    rfl
  success := by
    intro row found
    rw [Store.setAttemptState, Table.find_update_of_selected _ (by simp),
      Option.map_eq_some_iff] at found
    obtain ⟨earlier, -, rfl⟩ := found
    rfl

/-- A run with these exchanges tells of its cancellation, in its report and in
the rows of its job and attempt. -/
structure TellsOfCancellation (reason : CancelReason) (log : List (Exchange Request Reply))
    (report : CleanReport) (job : JobId) (attempt : AttemptId) (store : Store) : Prop where
  observed : log.any observesCancellation = true → report.cancelReason = some reason ∧
    (∀ row, store.jobs.find job = some row → row.state ≠ .completed) ∧
    ∀ row, store.attempts.find attempt = some row → row.state ≠ .success
  unobserved : log.any observesCancellation = false → report.cancelReason = none

namespace AuthoritativeCleanPipeline

variable {pipeline : Pipeline} {orders : HashOrders} {env : Env}
  {world after : World}

def Unreasoned (result : Result CleanReport) : Prop :=
  ∀ report, result = .ok report → report.cancelReason = none

theorem carryOut_unreasoned :
    Yields Unreasoned (carryOut pipeline admission attempt authorized) := by
  refine (Yields.any (perform _ _ _ _)).bind fun performed _ => ?_
  cases performed with
  | error error => exact nofun
  | ok job =>
    have reported : Yields (fun report => report.cancelReason = none) (report admission job) :=
      (Yields.any (trimMounts admission)).bind fun _ _ _ => rfl
    refine reported.bind fun finished none => ?_
    rintro _ ⟨⟩
    exact none

theorem planAndRun_unreasoned (pipeline : Pipeline) (orders : HashOrders)
    (admission : JobAdmissionRequest) (attempt : AttemptId) (allowed : List PolicyPermit)
    (counters : Counters) : Yields (fun outcome => Unreasoned outcome.1)
      (planAndRun pipeline orders admission attempt allowed counters) := by
  unfold planAndRun
  split
  · exact nofun
  · intro now
    dsimp only [Program.bind]
    split
    · exact nofun
    · exact carryOut_unreasoned.bind fun result plain => plain

theorem runPipelineJob_unreasoned : Yields (fun outcome => Unreasoned outcome.1)
      (runPipelineJob pipeline orders admission attempt) := by
  unfold runPipelineJob
  split
  · trivial
  · exact nofun
  · intro frozenUids now
    exact (Yields.any (scanTargets _ _)).bind fun _ _ => planAndRun_unreasoned _ _ _ _ _ _

theorem closeJob_carriedThrough (plain : Unreasoned result) :
    Spec env.handler (fun _ _ => True) (fun _ => True) (fun closed after => Unreasoned closed ∧
        ∀ report, closed = .ok report → CarriedThrough admission.jobId attempt after.store)
      (closeJob pipeline admission attempt result) world := by
  cases result with
  | error error =>
    refine Spec.call trivial fun _ => (Spec.top (pipeline.workerPool.finishAttempt attempt
      admission.jobId (.failedWith error.display)) _).bind fun _ _ _ => ?_
    exact Spec.done trivial ⟨plain, nofun⟩
  | ok finished =>
    simp only [closeJob]
    split
    · trivial
    · rename_i total _
      refine Rules.write trivial (fun _ _ => Spec.done trivial ⟨nofun, nofun⟩) ?_
      intro counted _ updated
      obtain rfl := Store.updateJobState_ok updated
      refine Rules.write trivial (fun _ _ => Spec.done trivial ⟨nofun, nofun⟩) ?_
      intro closed _ updated
      obtain rfl := Store.updateAttemptState_ok updated
      have carried := CarriedThrough.of_set world.store admission.jobId attempt total
      refine Rules.write trivial (fun _ _ => Spec.done trivial ⟨plain, fun _ _ => carried⟩) ?_
      rintro _ _ ⟨⟩
      exact Spec.done trivial ⟨plain, fun _ _ => ⟨carried.completed, carried.success⟩⟩

theorem execute_carriedThrough (fresh : pipeline.scheduler.queue = []) (params : CleanParams) :
    Spec env.handler (fun _ _ => True) (fun _ => True) (fun outcome after =>
        Unreasoned outcome.1 ∧ ∀ report, outcome.1 = .ok report → CarriedThrough
          ⟨pipeline.scheduler.jobCounter⟩ ⟨pipeline.workerPool.attemptCounter⟩ after.store)
      (execute pipeline orders params) world := by
  refine Rules.quiet rfl trivial fun view _ _ => ?_
  refine ((pipeline.scheduler.admitJob_yields params _ _).spec (Spec.top _ _)).bind ?_
  rintro ⟨admitted, scheduler⟩ between ⟨admission, -⟩
  cases admission with
  | coalesced queued => simp [fresh] at queued
  | refused error idle => exact Spec.done trivial ⟨nofun, nofun⟩
  | opened now idle =>
    refine ((pipeline.workerPool.claimAttempt_yields _ 300).spec (Spec.top _ _)).bind ?_
    rintro ⟨claimed, pool⟩ between ⟨⟨rfl, own⟩, -⟩
    cases claimed with
    | error error => exact Spec.done trivial ⟨nofun, nofun⟩
    | ok attempt =>
      obtain rfl := own attempt rfl
      refine (runPipelineJob_unreasoned.spec (Spec.top _ _)).bind ?_
      rintro ⟨result, counters⟩ between ⟨plain, -⟩
      refine (closeJob_carriedThrough plain).bind fun closed after carried => ?_
      exact Spec.done trivial carried

/-- A call that returns a report tells of its cancellation exactly when there
was none to observe: a report names no reason, and its job is completed and its
attempt a success. -/
theorem tellsOfCancellation_iff {params : CleanParams} {report : CleanReport}
    {left : Pipeline} (fresh : pipeline.scheduler.queue = [])
    (ran : (execute pipeline orders params).run env.handler world =
      (some (.ok report, left), after)) (reason : CancelReason) :
    (TellsOfCancellation reason ((execute pipeline orders params).log env.handler world) report
        ⟨pipeline.scheduler.jobCounter⟩ ⟨pipeline.workerPool.attemptCounter⟩ after.store ↔
      ((execute pipeline orders params).log env.handler world).any observesCancellation = false) ∧
    CarriedThrough ⟨pipeline.scheduler.jobCounter⟩ ⟨pipeline.workerPool.attemptCounter⟩
      after.store := by
  obtain ⟨plain, carried⟩ := (execute_carriedThrough fresh params).run_post
    (Answered.always _ _ fun _ _ => trivial) ran
  have unreasoned : report.cancelReason = none := plain report rfl
  refine ⟨⟨fun tells => ?_, fun unobserved => ⟨fun observed => ?_, fun _ => unreasoned⟩⟩,
    carried report rfl⟩
  · by_contra seen
    have reasoned := (tells.observed (by simpa using seen)).1
    rw [unreasoned] at reasoned
    cases reasoned
  · rw [unobserved] at observed
    cases observed

end AuthoritativeCleanPipeline

open Device AuthoritativeCleanPipeline in
theorem tellsOfCancellation_device : ∃ report left after,
    (start.execute orders realCall).run env.handler origin = (some (.ok report, left), after) ∧
    TellsOfCancellation .manualCancel ((start.execute orders realCall).log env.handler origin)
      report ⟨1⟩ ⟨1⟩ after.store := by
  have returned : ((start.execute orders realCall).run env.handler origin).1.map Prod.fst =
      some (.ok ⟨5, 1, 0, 0, false, none⟩) := by decide +kernel
  rcases ran : (start.execute orders realCall).run env.handler origin with
    ⟨_ | ⟨result, left⟩, after⟩
  · simp [ran] at returned
  · obtain rfl : result = .ok _ := by simpa [ran] using returned
    exact ⟨_, left, after, rfl,
      (tellsOfCancellation_iff rfl ran .manualCancel).1.mpr (by decide +kernel)⟩

open Device AuthoritativeCleanPipeline in
/-- The token is cancelled before the first target: the report names no reason,
the job is completed and the attempt a success. -/
theorem cancelled_run_completes :
    let cancelled : Env := { env with cancelled := fun _ => true }
    let program := start.execute orders realCall
    (program.log cancelled.handler origin).any observesCancellation = true ∧
      ((program.run cancelled.handler origin).1.map fun outcome =>
        outcome.1.map CleanReport.cancelReason) = some (.ok none) ∧
      ((program.run cancelled.handler origin).2.store.jobs.find ⟨1⟩).map JobRow.state =
        some .completed ∧
      ((program.run cancelled.handler origin).2.store.attempts.find ⟨1⟩).map AttemptRow.state =
        some .success := by
  decide +kernel

end CacheCleaner
