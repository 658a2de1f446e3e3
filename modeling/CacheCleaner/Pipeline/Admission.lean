import CacheCleaner.Pipeline.Requests

namespace CacheCleaner

/-! One pipeline called again and again.  Nothing takes an admitted request out
of the scheduler's queue but `pop_next_job`, so a call may run under a request
that earlier calls have shaped. -/

open Effect Effect.Program

inductive Admission (scheduler : SchedulerService) (params : CleanParams)
    (catalog : CatalogGeneration) (config : ConfigGeneration) :
    Result JobAdmissionRequest → SchedulerService → Prop
  | coalesced
      (queued : scheduler.queue = existing :: rest) : Admission scheduler params catalog config
        (.ok (SchedulerService.coalesce existing params.deep params.trim params.dryRun))
        ⟨SchedulerService.coalesce existing params.deep params.trim
          params.dryRun :: rest, scheduler.jobCounter⟩
  | refused (error : CleanerError) (idle : scheduler.queue = []) :
      Admission scheduler params catalog config (.error error) ⟨[], scheduler.jobCounter + 1⟩
  | opened (now : UnixTimestamp) (idle : scheduler.queue = []) :
      Admission scheduler params catalog config
        (.ok ⟨⟨scheduler.jobCounter⟩, params.trigger, params.deep, params.trim,
          params.dryRun, catalog, config, now⟩)
        ⟨[⟨⟨scheduler.jobCounter⟩, params.trigger, params.deep, params.trim,
          params.dryRun, catalog, config, now⟩], scheduler.jobCounter + 1⟩

theorem SchedulerService.admitJob_yields (scheduler : SchedulerService)
    (params : CleanParams) (catalog : CatalogGeneration) (config : ConfigGeneration) :
    Yields (fun outcome =>
        Admission scheduler params catalog config outcome.1 outcome.2)
      (scheduler.admitJob params.trigger params.deep params.trim params.dryRun catalog config) := by
  cases queued : scheduler.queue with
  | cons existing rest =>
    simp only [admitJob, queued]
    exact .coalesced queued
  | nil =>
    simp only [admitJob, queued]
    intro registered
    cases registered with
    | error error => exact .refused error queued
    | ok done => exact fun now => .opened now queued

variable {allowed : Request → Prop}

theorem SchedulerService.admitJob_issues (register : ∀ job jobType catalog config,
      allowed (.write (.registerJob job jobType catalog config))) (clock : allowed .now) :
    Issues allowed (admitJob scheduler source deep trim dryRun catalog config) := by
  unfold admitJob
  split
  · trivial
  · refine asks (register ..) fun registered => ?_
    cases registered with
    | error error => trivial
    | ok done => exact asks clock fun now => trivial

namespace WorkerPool

theorem claimAttempt_issues
    (lease : ∀ resource worker ttl, allowed (.acquireLease resource worker ttl))
    (create : ∀ attempt job worker ttl, allowed (.write (.createAttempt attempt job worker ttl))) :
    Issues allowed (claimAttempt pool job ttl) := by
  refine asks (lease ..) fun acquired => ?_
  rcases acquired with error | (_ | _)
  · trivial
  · trivial
  · refine asks (create ..) fun created => ?_
    cases created <;> trivial

theorem claimAttempt_yields (pool : WorkerPool) (job : JobId) (lease : Nat) : Yields (fun outcome =>
        outcome.2 = { pool with attemptCounter := pool.attemptCounter + 1 } ∧
          ∀ attempt, outcome.1 = .ok attempt → attempt = ⟨pool.attemptCounter⟩)
      (pool.claimAttempt job lease) := by
  intro acquired
  rcases acquired with error | (_ | _)
  · exact ⟨rfl, by simp⟩
  · exact ⟨rfl, by simp⟩
  · intro created
    cases created with
    | error error => exact ⟨rfl, by simp⟩
    | ok done => exact ⟨rfl, by simp [eq_comm]⟩

theorem finishAttempt_issues (update : allowed (.write (.updateAttemptState attempt state)))
    (release : ∀ resource worker, allowed (.write (.releaseLease resource worker))) :
    Issues allowed (finishAttempt pool attempt job state) := by
  refine asks update fun updated => ?_
  cases updated with
  | error error => trivial
  | ok done => exact asks (release ..) fun _ => trivial

end WorkerPool

namespace AuthoritativeCleanPipeline

variable {pipeline pipeline' : Pipeline}
  {orders : HashOrders} {params : CleanParams}

structure Kept (before after : Pipeline) : Prop where
  config : after.config = before.config
  catalog : after.catalog = before.catalog
  scheduler : after.scheduler = before.scheduler
  configGeneration : after.configGeneration = before.configGeneration
  attempts : after.workerPool.attemptCounter = before.workerPool.attemptCounter + 1

theorem runAdmitted_yields (orders : HashOrders) (admission : JobAdmissionRequest) :
    Yields (fun outcome => Kept pipeline outcome.2) (runAdmitted pipeline orders admission) := by
  refine (pipeline.workerPool.claimAttempt_yields admission.jobId 300).bind ?_
  rintro ⟨claimed, pool⟩ ⟨rfl, -⟩
  cases claimed with
  | error error => exact ⟨rfl, rfl, rfl, rfl, rfl⟩
  | ok attempt =>
    refine (Yields.any (runPipelineJob _ _ _ _)).bind fun ran _ => ?_
    refine (Yields.any (closeJob _ _ _ _)).bind fun closed _ => ?_
    exact ⟨rfl, rfl, rfl, rfl, rfl⟩

structure Ran (params : CleanParams) (before after : Pipeline) : Prop where
  config : after.config = before.config
  configGeneration : after.configGeneration = before.configGeneration
  admission : ∃ admitted, Admission before.scheduler params
    after.catalog.generation before.configGeneration admitted after.scheduler
  attempts : before.workerPool.attemptCounter ≤ after.workerPool.attemptCounter

theorem execute_yields (orders : HashOrders) (params : CleanParams) :
    Yields (fun outcome => Ran params pipeline outcome.2) (execute pipeline orders params) := by
  intro view
  refine (pipeline.scheduler.admitJob_yields params _ pipeline.configGeneration).bind ?_
  rintro ⟨admitted, scheduler⟩ admission
  cases admitted with
  | error error => exact ⟨rfl, rfl, ⟨_, admission⟩, Nat.le_refl _⟩
  | ok request =>
    refine (runAdmitted_yields orders request).mono fun outcome kept => ?_
    exact ⟨kept.config, kept.configGeneration,
      ⟨_, by rw [kept.catalog, kept.scheduler]; exact admission⟩,
      by rw [kept.attempts]; exact Nat.le_succ _⟩

def Admits (pipeline : Pipeline) (params : CleanParams)
    (admission : JobAdmissionRequest) : Prop :=
  ∃ catalog scheduler, Admission pipeline.scheduler params catalog
    pipeline.configGeneration (.ok admission) scheduler

theorem closeJob_issues
    (fails : allowed (.write (.updateJobState admission.jobId .failed 0)))
    (completes : ∀ report, result = .ok report →
      allowed (.write (.updateJobState admission.jobId .completed report.totalFreedBytes)))
    (update : ∀ state, state ≠ .running → allowed (.write (.updateAttemptState attempt state)))
    (release : ∀ resource worker, allowed (.write (.releaseLease resource worker))) :
    Issues allowed (closeJob pipeline admission attempt result) := by
  unfold closeJob
  cases result with
  | error error =>
    exact asks fails fun _ =>
      (WorkerPool.finishAttempt_issues (update (.failedWith _) nofun) release).bind fun _ => trivial
  | ok finished =>
    dsimp only
    unfold ByteCount.new?
    split
    · trivial
    · rename_i accepted
      obtain ⟨-, ⟨⟩⟩ := Option.ite_none_right_eq_some.mp accepted
      refine asks (completes finished rfl) fun updated => ?_
      cases updated with
      | error error => trivial
      | ok done =>
        refine (WorkerPool.finishAttempt_issues (update .success nofun) release).bind
          fun closed => ?_
        cases closed <;> trivial

section

variable {admission : JobAdmissionRequest} {attempt : AttemptId} {job : JobResult}
  (trims : admission.trim = true → admission.dryRun = false → allowed .trimMounts)
  (audit : ∀ result, allowed (.recordAudit result))
include trims audit

theorem report_issues : Issues allowed (report admission job) := by
  have trimmed : Issues allowed (trimMounts admission) := by
    unfold trimMounts
    split
    · rename_i chosen
      simp only [Bool.and_eq_true, Bool.not_eq_true'] at chosen
      exact Issues.perform (trims chosen.1 chosen.2)
    · trivial
  exact trimmed.bind fun _ => asks (audit _) fun _ => trivial

theorem carryOut_issues {authorized : AuthorizedPlan}
    (executes : admission.dryRun = false → Issues allowed (CleanupExecutor.executePlan authorized
      pipeline.catalog pipeline.configGeneration attempt)) :
    Issues allowed (carryOut pipeline admission attempt authorized) := by
  have performed : Issues allowed (perform pipeline admission attempt authorized) := by
    unfold perform
    split
    · trivial
    · rename_i real
      exact executes (by simpa using real)
  refine performed.bind fun outcome => ?_
  cases outcome with
  | error error => trivial
  | ok job => exact (report_issues trims audit).bind fun _ => trivial

variable (executes : ∀ authorized : AuthorizedPlan, admission.dryRun = false →
    authorized.plan.catalogGeneration = pipeline.catalog.generation →
    authorized.plan.configGeneration = admission.configGeneration →
    Issues allowed (CleanupExecutor.executePlan authorized pipeline.catalog
      pipeline.configGeneration attempt))
  (clock : allowed .now)
include executes clock

theorem planAndRun_issues (permits : List PolicyPermit) (counters : Counters) : Issues allowed
      (planAndRun pipeline orders admission attempt permits counters) := by
  unfold planAndRun
  split
  · trivial
  · rename_i plan built
    have plans := CleanupPlanner.buildPlan_plans built
    refine asks clock fun now => ?_
    obtain ⟨authorized, granted, authorizes⟩ :=
      AuthorizationEngine.authorizePlan_current ⟨counters.grant⟩ now 300 plans.catalog plans.config
    rw [granted]
    refine (carryOut_issues trims audit fun real => ?_).bind fun _ => trivial
    exact executes authorized real (authorizes.same ▸ plans.catalog)
      (authorizes.same ▸ plans.config)

theorem runPipelineJob_issues (look : ∀ request, request.looks = true → allowed request)
    (freeze : allowed .frozenUids) :
    Issues allowed (runPipelineJob pipeline orders admission attempt) := by
  unfold runPipelineJob
  split
  · trivial
  · trivial
  · refine asks freeze fun frozenUids => asks clock fun now => ?_
    refine ((scanTargets_looks _ _).mono look).bind ?_
    rintro ⟨scanned, nextId⟩
    exact planAndRun_issues trims audit executes clock _ _

end

theorem execute_issues (tame : ∀ request, request.tame = true → allowed request)
    (entered : ∀ admission authorized catalog attempt,
      Admits pipeline params admission → admission.dryRun = false →
      authorized.plan.catalogGeneration = catalog →
      authorized.plan.configGeneration = admission.configGeneration →
      allowed (.enterExecutePlan authorized catalog pipeline.configGeneration attempt))
    (trims : ∀ admission, Admits pipeline params admission →
      admission.trim = true → admission.dryRun = false → allowed .trimMounts) :
    Issues allowed (execute pipeline orders params) := by
  refine asks (tame _ rfl) fun view => ?_
  refine (SchedulerService.admitJob_issues (fun _ _ _ _ => tame _ rfl) (tame _ rfl)).bind_yields
    (pipeline.scheduler.admitJob_yields params _ pipeline.configGeneration) ?_
  rintro ⟨admitted, scheduler⟩ admission
  cases admitted with
  | error error => trivial
  | ok request =>
    have admits : Admits pipeline params request := ⟨_, _, admission⟩
    refine (WorkerPool.claimAttempt_issues (fun _ _ _ => tame _ rfl)
      fun _ _ _ _ => tame _ rfl).bind ?_
    rintro ⟨claimed, pool⟩
    cases claimed with
    | error error => trivial
    | ok attempt =>
      refine Issues.bind (runPipelineJob_issues (trims request admits) (fun _ => tame _ rfl)
        (fun authorized real catalog config => CleanupExecutor.executePlan_issues tame
          (entered request authorized _ attempt admits real catalog config)) (tame _ rfl)
        (fun _ looks => tame _ (Request.tame_of_looks looks)) (tame _ rfl)) fun ran => ?_
      refine (closeJob_issues (tame _ rfl) (fun _ _ => tame _ rfl) (fun state ended => tame _ ?_)
        fun _ _ => tame _ rfl).bind fun _ => trivial
      cases state <;> first | rfl | exact absurd rfl ended

end AuthoritativeCleanPipeline

end CacheCleaner
