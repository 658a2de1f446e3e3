import CacheCleaner.Executor.Loop
import CacheCleaner.Pipeline.Session

namespace CacheCleaner

open Effect Effect.Program

namespace AuthoritativeCleanPipeline

structure Drafted (job : JobId) (authorized : AuthorizedPlan) : Prop where
  job : authorized.plan.jobId = job
  ids : ∃ seen, CleanupPlanner.checkOperations [] authorized.plan.operations = .ok seen

/-- What an execution does to the store it starts with: `during` at every
point, `done` once it has returned. -/
structure Work (env : Env) (answers : (request : Request) → Reply request → Prop)
    (during done : JobId → AttemptId → Store → Store → Prop) : Prop where
  started : ∀ job attempt store, done job attempt store store
  passing : ∀ {job attempt before after}, done job attempt before after →
    during job attempt before after
  executes : ∀ {authorized : AuthorizedPlan} {job : JobId},
    Drafted job authorized → ∀ catalog config attempt world, Spec env.handler answers
      (fun after => during job attempt world.store after.store)
      (fun _ after => done job attempt world.store after.store)
      (CleanupExecutor.executePlan authorized catalog config attempt) world

section

variable (pipeline : Pipeline) (params : CleanParams)
  (during done : JobId → AttemptId → Store → Store → Prop) (before : Store)

inductive Booked (request : JobAdmissionRequest) (after : Store) : Prop
  | queued (busy : pipeline.scheduler.queue ≠ []) (kept : before.Kept after)
  | registered (row : JobRow) (idle : pipeline.scheduler.queue = [])
      (job : row.jobId = request.jobId) (registers : Store.Registers before row after)

def Begun (request : JobAdmissionRequest) (after : Store) : Prop :=
  ∃ middle, Booked pipeline before request middle ∧
    Store.Claims middle ⟨⟨pipeline.workerPool.attemptCounter⟩, request.jobId,
      pipeline.workerPool.workerId, .running⟩ after

structure Closed (job : JobId) (attempt : AttemptId) (jobState : Option (JobRowState × Nat))
    (attemptState : Option AttemptState) (open_ after : Store) : Prop where
  jobs : after.jobs = match jobState with
    | none => open_.jobs
    | some (state, total) => (open_.setJobState job state total).jobs
  attempts : after.attempts = match attemptState with
    | none => open_.attempts
    | some state => (open_.setAttemptState attempt state).attempts
  intents : after.intents = open_.intents
  operations : after.operations = open_.operations

inductive CallStage (after : Store) : Prop
  | waiting (kept : before.Kept after)
  | booked (request : JobAdmissionRequest) (admits : pipeline.Admits params request)
      (booked : Booked pipeline before request after)
  | working (request : JobAdmissionRequest) (base : Store) (admits : pipeline.Admits params request)
      (begun : Begun pipeline before request base)
      (working : during request.jobId ⟨pipeline.workerPool.attemptCounter⟩ base after)
  | closing (request : JobAdmissionRequest) (base open_ : Store)
      (jobState : Option (JobRowState × Nat)) (attemptState : Option AttemptState)
      (admits : pipeline.Admits params request) (begun : Begun pipeline before request base)
      (worked : done request.jobId ⟨pipeline.workerPool.attemptCounter⟩ base open_)
      (closed : Closed request.jobId ⟨pipeline.workerPool.attemptCounter⟩
        jobState attemptState open_ after)

inductive Concluded (result : Result CleanReport)
    (left : Pipeline) (after : Store) : Prop
  | refused (error : CleanerError) (same : result = .error error) (kept : before.Kept after)
      (counted : left.workerPool = pipeline.workerPool)
  | unclaimed (error : CleanerError) (same : result = .error error)
      (request : JobAdmissionRequest) (admits : pipeline.Admits params request)
      (booked : Booked pipeline before request after) (counted : left.workerPool.attemptCounter =
        pipeline.workerPool.attemptCounter + 1)
  | closed (request : JobAdmissionRequest) (base open_ : Store)
      (jobState : Option (JobRowState × Nat)) (attemptState : Option AttemptState)
      (admits : pipeline.Admits params request) (begun : Begun pipeline before request base)
      (worked : done request.jobId ⟨pipeline.workerPool.attemptCounter⟩ base open_)
      (closed : Closed request.jobId ⟨pipeline.workerPool.attemptCounter⟩
        jobState attemptState open_ after) (reported : ∀ report, result = .ok report →
        jobState = some (.completed, report.totalFreedBytes))
      (counted : left.workerPool.attemptCounter = pipeline.workerPool.attemptCounter + 1)

end

section

variable {pipeline : Pipeline}
  {request : JobAdmissionRequest} {before middle after : Store}

theorem Booked.kept (booked : Booked pipeline before request middle)
    (kept : middle.Kept after) : Booked pipeline before request after := by
  cases booked with
  | queued busy same => exact .queued busy (same.trans kept)
  | registered row idle job registers =>
    exact .registered row idle job (kept.registers registers)

theorem Closed.kept
    (closed : Closed job attempt jobState attemptState before middle) (kept : middle.Kept after) :
    Closed job attempt jobState attemptState before after :=
  ⟨kept.jobs.trans closed.jobs, kept.attempts.trans closed.attempts,
    kept.intents.trans closed.intents, kept.operations.trans closed.operations⟩

end

section

variable {env : Env} {answers : (request : Request) → Reply request → Prop}
  {pipeline : Pipeline} {params : CleanParams}
  {during done : JobId → AttemptId → Store → Store → Prop} {before : Store} {world : World}

theorem admitJob_books (catalog : CatalogGeneration) (kept : before.Kept world.store) :
    Spec env.handler answers (fun after =>
        CallStage pipeline params during done before after.store)
      (fun outcome after =>
        match outcome.1 with
        | .error _ => before.Kept after.store
        | .ok request => pipeline.Admits params request ∧
            Booked pipeline before request after.store)
      (pipeline.scheduler.admitJob params.trigger params.deep params.trim
        params.dryRun catalog pipeline.configGeneration) world := by
  cases queued : pipeline.scheduler.queue with
  | cons existing rest =>
    simp only [SchedulerService.admitJob, queued]
    exact Spec.done (.waiting kept) ⟨⟨catalog, _, .coalesced queued⟩,
      .queued (by simp [queued]) kept⟩
  | nil =>
    simp only [SchedulerService.admitJob, queued]
    refine Rules.write (.waiting kept) ?_ ?_
    · exact fun error _ => Spec.done (.waiting kept) kept
    · intro store _ registered
      have registers := Store.registerJob_ok registered
      have booked : ∀ now, Booked pipeline before
          ⟨⟨pipeline.scheduler.jobCounter⟩, params.trigger, params.deep,
            params.trim, params.dryRun, catalog, pipeline.configGeneration, now⟩ store := by
        intro now
        refine .registered _ queued rfl ⟨registers.bound, fun other => ?_,
          registers.attempts.trans kept.attempts, registers.intents.trans kept.intents,
          registers.operations.trans kept.operations⟩
        rw [registers.jobs other, kept.jobs]
      have admits : ∀ now, pipeline.Admits params
          ⟨⟨pipeline.scheduler.jobCounter⟩, params.trigger, params.deep,
            params.trim, params.dryRun, catalog, pipeline.configGeneration, now⟩ :=
        fun now => ⟨catalog, _, .opened now queued⟩
      refine Rules.quiet rfl (.booked _ (admits 0) (booked 0)) ?_
      intro now _ _
      exact Spec.done (.booked _ (admits now) (booked now)) ⟨admits now, booked now⟩

theorem claimAttempt_books (admits : pipeline.Admits params request)
    (booked : Booked pipeline before request world.store)
    (work : Work env answers during done) (lease : Nat) : Spec env.handler answers (fun after =>
        CallStage pipeline params during done before after.store)
      (fun outcome after =>
        match outcome.1 with
        | .error _ => Booked pipeline before request after.store
        | .ok attempt => attempt = ⟨pipeline.workerPool.attemptCounter⟩ ∧
            Begun pipeline before request after.store)
      (pipeline.workerPool.claimAttempt request.jobId lease) world := by
  refine Rules.lease (.booked _ admits booked) ?_ ?_
  · exact fun error _ => Spec.done (.booked _ admits booked) booked
  · intro acquired store decided
    have leased := booked.kept (.acquireLease decided)
    cases acquired with
    | false => exact Spec.done (.booked _ admits leased) leased
    | true =>
      refine Rules.write (.booked _ admits leased) ?_ ?_
      · exact fun error _ => Spec.done (.booked _ admits leased) leased
      · intro store' _ created
        have begun : Begun pipeline before request store' :=
          ⟨_, leased, Store.createAttempt_ok created⟩
        exact Spec.done (.working _ _ admits begun (work.passing (work.started _ _ _))) ⟨rfl, begun⟩

def Worked (pipeline : Pipeline)
    (done : JobId → AttemptId → Store → Store → Prop) (before : Store)
    (request : JobAdmissionRequest) (after : Store) : Prop :=
  ∃ base, Begun pipeline before request base ∧
    done request.jobId ⟨pipeline.workerPool.attemptCounter⟩ base after

section

variable {request : JobAdmissionRequest}

variable {current : Pipeline} {after : Store}

theorem Begun.worked (work : Work env answers during done)
    (begun : Begun pipeline before request after) : Worked pipeline done before request after :=
  ⟨after, begun, work.started _ _ _⟩

variable (admits : pipeline.Admits params request)
include admits

theorem Worked.stage (worked : Worked pipeline done before request after) :
    CallStage pipeline params during done before after := by
  obtain ⟨base, begun, ended⟩ := worked
  exact .closing request base after none none admits begun ended ⟨rfl, rfl, rfl, rfl⟩

variable (work : Work env answers during done)
include work

theorem Begun.stage (begun : Begun pipeline before request after) :
    CallStage pipeline params during done before after :=
  .working _ _ admits begun (work.passing (work.started _ _ _))

theorem perform_books (planned : Drafted request.jobId authorized)
    (begun : Begun pipeline before request world.store) : Spec env.handler answers (fun after =>
        CallStage pipeline params during done before after.store)
      (fun _ after => Worked pipeline done before request after.store)
      (perform current request ⟨pipeline.workerPool.attemptCounter⟩ authorized)
      world := by
  unfold perform
  split
  · exact Spec.done (begun.stage admits work) (begun.worked work)
  · exact (work.executes planned _ _ _ world).mono
      (fun after working => .working _ _ admits begun working)
      fun _ after ended => ⟨_, begun, ended⟩

omit work in
theorem report_books (worked : Worked pipeline done before request world.store) :
    Spec env.handler answers (fun after =>
        CallStage pipeline params during done before after.store)
      (fun _ after => Worked pipeline done before request after.store)
      (report request job) world := by
  have audited : ∀ after : World, after.store = world.store → ∀ trimmed, Spec env.handler answers
        (fun after =>
          CallStage pipeline params during done before after.store)
        (fun _ after => Worked pipeline done before request after.store)
        (ask (.recordAudit job) >>= fun _ => pure (⟨job.totalReclaimed,
          job.successfulOperations, job.skippedOperations,
          job.failedOperations, trimmed, none⟩ : CleanReport)) after := by
    intro after same trimmed
    have here : Worked pipeline done before request after.store := same ▸ worked
    refine Spec.call (here.stage admits) fun _ => ?_
    have kept : (env.handler.respond (.recordAudit job) after).2.store = after.store := by
      change (env.respond (.recordAudit job) after).2.store = _
      simp only [Env.respond]
      split <;> rfl
    have there : Worked pipeline done before request
        (env.handler.respond (.recordAudit job) after).2.store := kept ▸ here
    exact Spec.done (there.stage admits) there
  unfold report trimMounts
  split
  · exact Rules.quiet rfl (worked.stage admits) fun trimmed _ _ =>
      audited world.advance rfl trimmed
  · exact audited world rfl false

theorem carryOut_books (planned : Drafted request.jobId authorized)
    (begun : Begun pipeline before request world.store) : Spec env.handler answers (fun after =>
        CallStage pipeline params during done before after.store)
      (fun _ after => Worked pipeline done before request after.store)
      (carryOut current request ⟨pipeline.workerPool.attemptCounter⟩ authorized)
      world := by
  refine Spec.bind (perform_books admits work planned begun) ?_
  intro outcome after worked
  cases outcome with
  | error error => exact Spec.done (worked.stage admits) worked
  | ok job =>
    refine Spec.bind (report_books admits worked) ?_
    exact fun finished after worked =>
      Spec.done (worked.stage admits) worked

theorem planAndRun_books (permits : List PolicyPermit) (counters : Counters)
    (begun : Begun pipeline before request world.store) : Spec env.handler answers (fun after =>
        CallStage pipeline params during done before after.store)
      (fun _ after => Worked pipeline done before request after.store)
      (planAndRun current orders request
        ⟨pipeline.workerPool.attemptCounter⟩ permits counters) world := by
  unfold planAndRun
  split
  · exact Spec.done (begun.stage admits work) (begun.worked work)
  · rename_i plan built
    have plans := CleanupPlanner.buildPlan_plans built
    refine Rules.quiet rfl (begun.stage admits work) fun now _ _ => ?_
    obtain ⟨authorized, granted, authorizes⟩ :=
      AuthorizationEngine.authorizePlan_current ⟨counters.grant⟩ now 300 plans.catalog plans.config
    rw [granted]
    have planned : Drafted request.jobId authorized :=
      ⟨authorizes.same ▸ plans.job, authorizes.same ▸ plans.ids⟩
    exact Spec.bind (carryOut_books admits work planned begun)
      fun result after worked => Spec.done (worked.stage admits) worked

theorem runPipelineJob_books (begun : Begun pipeline before request world.store) :
    Spec env.handler answers (fun after =>
        CallStage pipeline params during done before after.store)
      (fun _ after => Worked pipeline done before request after.store)
      (runPipelineJob current orders request ⟨pipeline.workerPool.attemptCounter⟩) world := by
  unfold runPipelineJob
  split
  · exact begun.stage admits work
  · exact Spec.done (begun.stage admits work) (begun.worked work)
  · refine Rules.quiet rfl (begun.stage admits work) fun frozenUids _ _ =>
      Rules.quiet rfl (begun.stage admits work) fun now _ _ => ?_
    have later : Begun pipeline before request world.advance.advance.store := begun
    refine Spec.bind ((Rules.keeps_store (Begun pipeline before request)
      ((scanTargets_looks _ _).mono fun _ => Request.quiet_of_looks)
      later).mono (fun after here => here.stage admits work) fun _ _ here => here) ?_
    rintro ⟨scanned, nextId⟩ after here
    exact planAndRun_books admits work _ _ here

structure Settles (pipeline : Pipeline)
    (done : JobId → AttemptId → Store → Store → Prop) (before : Store)
    (request : JobAdmissionRequest) (jobState : Option (JobRowState × Nat))
    (attemptState : Option AttemptState) (after : Store) : Prop where
  worked : ∃ open_, Worked pipeline done before request open_ ∧
    Closed request.jobId ⟨pipeline.workerPool.attemptCounter⟩ jobState attemptState open_ after

section

variable {jobState : Option (JobRowState × Nat)} {attemptState : Option AttemptState}

omit work in
theorem Settles.stage (settles : Settles pipeline done before request jobState attemptState after) :
    CallStage pipeline params during done before after := by
  obtain ⟨open_, ⟨base, begun, ended⟩, closed⟩ := settles.worked
  exact .closing request base open_ jobState attemptState admits begun ended closed

omit work in
theorem finishAttempt_books {pool : WorkerPool}
    (settles : Settles pipeline done before request jobState none world.store) :
    Spec env.handler answers (fun after =>
        CallStage pipeline params during done before after.store)
      (fun _ after => ∃ attemptState, Settles pipeline done before request
        jobState attemptState after.store)
      (pool.finishAttempt ⟨pipeline.workerPool.attemptCounter⟩ request.jobId state) world := by
  refine Rules.write (settles.stage admits) ?_ ?_
  · exact fun error _ => Spec.done (settles.stage admits) ⟨none, settles⟩
  · intro store _ updated
    have after := Store.updateAttemptState_ok updated
    have finished : Settles pipeline done before request jobState (some state) store := by
      obtain ⟨open_, worked, closed⟩ := settles.worked
      refine ⟨open_, worked, ?_, ?_, ?_, ?_⟩
      · rw [after]
        exact closed.jobs
      · rw [after]
        simp only [Store.setAttemptState]
        rw [show world.store.attempts = open_.attempts from closed.attempts]
      · rw [after]
        exact closed.intents
      · rw [after]
        exact closed.operations
    refine Rules.write (finished.stage admits) ?_ ?_
    · exact fun error _ =>
        Spec.done (finished.stage admits) ⟨some state, finished⟩
    · intro store' _ released
      have kept : store.Kept store' := by
        cases released
        exact ⟨rfl, rfl, rfl, rfl⟩
      obtain ⟨open_, worked, closed⟩ := finished.worked
      have released : Settles pipeline done before request jobState
          (some state) store' := ⟨open_, worked, closed.kept kept⟩
      exact Spec.done (released.stage admits) ⟨some state, released⟩

end

omit work in
theorem closeJob_books {result : Result CleanReport}
    (worked : Worked pipeline done before request world.store) : Spec env.handler answers
      (fun after =>
        CallStage pipeline params during done before after.store)
      (fun closed after => ∃ jobState attemptState,
        Settles pipeline done before request jobState attemptState after.store ∧
        ∀ report, closed = .ok report → jobState = some (.completed, report.totalFreedBytes))
      (closeJob current request ⟨pipeline.workerPool.attemptCounter⟩ result)
      world := by
  have unclosed : Settles pipeline done before request none none
      world.store := ⟨_, worked, rfl, rfl, rfl, rfl⟩
  have updated : ∀ {state total store}, (StoreWrite.updateJobState
      request.jobId state total).statement (env.now world.tick) world.store = .ok ((), store) →
      Settles pipeline done before request (some (state, total)) none store := by
    intro state total store updated
    rw [Store.updateJobState_ok updated]
    exact ⟨_, worked, rfl, rfl, rfl, rfl⟩
  cases result with
  | error error =>
    have finish : ∀ {jobState : Option (JobRowState × Nat)} {after : World},
        Settles pipeline done before request jobState none after.store → Spec env.handler answers
          (fun after =>
            CallStage pipeline params during done before after.store)
          (fun closed after => ∃ jobState attemptState,
            Settles pipeline done before request jobState attemptState after.store ∧
            ∀ report, closed = .ok report → jobState = some (.completed, report.totalFreedBytes))
          (current.workerPool.finishAttempt ⟨pipeline.workerPool.attemptCounter⟩ request.jobId
              (.failedWith error.display) >>= fun _ =>
            (pure (.error error) : Act (Result CleanReport))) after := by
      intro jobState after settles
      refine Spec.bind (finishAttempt_books admits settles) ?_
      rintro _ ended ⟨attemptState, settles⟩
      exact Spec.done (settles.stage admits) ⟨jobState, attemptState, settles, by rintro report ⟨⟩⟩
    refine Rules.write (unclosed.stage admits) ?_ ?_
    · exact fun _ _ => finish unclosed
    · exact fun store _ done => finish (updated done)
  | ok finished =>
    simp only [closeJob]
    cases checked : ByteCount.new? finished.totalFreedBytes with
    | none => exact unclosed.stage admits
    | some total =>
      have exact_ : total = finished.totalFreedBytes := by
        unfold ByteCount.new? at checked
        split at checked
        · exact (Option.some.inj checked).symm
        · cases checked
      refine Rules.write (unclosed.stage admits) ?_ ?_
      · exact fun error _ => Spec.done (unclosed.stage admits)
          ⟨none, none, unclosed, by rintro report ⟨⟩⟩
      · intro store _ done
        refine Spec.bind (finishAttempt_books admits (updated done)) ?_
        rintro ended after ⟨attemptState, settles⟩
        cases ended with
        | error error =>
          exact Spec.done (settles.stage admits) ⟨_, attemptState, settles, by rintro report ⟨⟩⟩
        | ok done =>
          refine Spec.done (settles.stage admits) ⟨_, attemptState, settles, ?_⟩
          rintro report ⟨⟩
          rw [exact_]

end

theorem execute_books (work : Work env answers during done) : Spec env.handler answers (fun after =>
        CallStage pipeline params during done world.store after.store)
      (fun outcome after =>
        Concluded pipeline params done world.store outcome.1 outcome.2 after.store)
      (execute pipeline orders params) world := by
  have same : world.store.Kept world.advance.store := .refl _
  refine Rules.quiet rfl (.waiting same) fun view _ _ => ?_
  refine Spec.bind (admitJob_books _ same).post_safe ?_
  rintro ⟨admitted, scheduler⟩ after ⟨stage, opened⟩
  cases admitted with
  | error error => exact Spec.done stage (.refused error rfl opened rfl)
  | ok request =>
    obtain ⟨admits, booked⟩ := opened
    refine Spec.bind ((pipeline.workerPool.claimAttempt_yields request.jobId
      300).spec (claimAttempt_books admits booked work 300).post_safe) ?_
    rintro ⟨claimed, pool⟩ after ⟨⟨advanced, -⟩, stage, opened⟩
    have counted : pool.attemptCounter = pipeline.workerPool.attemptCounter + 1 := by
      rw [show pool = _ from advanced]
    cases claimed with
    | error error =>
      exact Spec.done stage (.unclaimed error rfl request admits opened counted)
    | ok attempt =>
      obtain ⟨rfl, begun⟩ := opened
      refine Spec.bind (runPipelineJob_books admits work begun) ?_
      rintro ⟨result, counters⟩ after worked
      refine Spec.bind (closeJob_books admits worked) ?_
      rintro closed after ⟨jobState, attemptState, settles, reported⟩
      obtain ⟨open_, ⟨base, begun, ended⟩, closing⟩ := settles.worked
      exact Spec.done (settles.stage admits) (.closed request base open_
        jobState attemptState admits begun ended closing reported counted)

end

end AuthoritativeCleanPipeline

end CacheCleaner
