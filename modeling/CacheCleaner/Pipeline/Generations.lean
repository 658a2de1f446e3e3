import CacheCleaner.Executor.Loop
import CacheCleaner.Pipeline.Session

namespace CacheCleaner

open Effect Effect.Program

/-- The errors of `authorize_plan` and of the check that opens
`execute_plan`. -/
def CleanerError.rejectsPlan : CleanerError → Bool
  | .safetyViolation (.planCatalogStale _ _)
  | .safetyViolation (.planConfigStale _ _)
  | .safetyViolation .executionRejected => true
  | _ => false

def Accepted (result : Result α) : Prop :=
  ∀ error, result = .error error → error.rejectsPlan = false

theorem Accepted.ok (value : α) : Accepted (.ok value) := by
  rintro error ⟨⟩

theorem Accepted.error {error : CleanerError} (other : error.rejectsPlan = false) :
    Accepted (.error error : Result α) := by
  rintro _ ⟨⟩
  exact other

def Plain : (request : Request) → Reply request → Prop
  | .write _, reply => Accepted reply
  | .acquireLease _ _ _, reply => Accepted reply
  | _, _ => True

theorem Env.respond_plain (env : Env) (request : Request) (world : World) :
    Plain request (env.handler.respond request world).1 := by
  cases request with
  | write write =>
    change Accepted (env.execute world write).1
    unfold Env.execute
    dsimp only
    generalize (if env.writeFault world.tick write then _ else _) = outcome
    cases outcome with
    | ok done => exact .ok ()
    | error failure => exact .error rfl
  | acquireLease resource worker ttl =>
    change Accepted (env.lease world resource worker ttl).1
    unfold Env.lease
    dsimp only
    generalize (if env.queryFault world.tick then _ else _) = outcome
    cases outcome with
    | ok done => exact .ok done.1
    | error failure => exact .error rfl
  | _ => trivial

/-- The clock advances less than `seconds` in the time of a call. -/
def Env.Steady (env : Env) (seconds : Nat) : Prop :=
  ∀ earlier later, earlier ≤ later → env.now later < env.now earlier + seconds

abbrev Approves (env : Env) (outcome : α → Result β) (program : Act α) (world : World) : Prop :=
  Spec env.handler Plain (fun _ => True) (fun value _ => Accepted (outcome value)) program world

variable {env : Env} {world : World}

theorem SchedulerService.admitJob_accepts (scheduler : SchedulerService)
    (source : TriggerSource) (deep trim dryRun : Bool)
    (catalog : CatalogGeneration) (config : ConfigGeneration) : Approves env Prod.fst
      (scheduler.admitJob source deep trim dryRun catalog config) world := by
  unfold admitJob
  split
  · exact Spec.done trivial (.ok _)
  · refine Rules.write trivial ?_ ?_
    · exact fun error answered => Spec.done trivial (.error (answered _ rfl))
    · exact fun store _ _ => Rules.quiet rfl trivial fun now _ _ =>
        Spec.done trivial (.ok _)

namespace WorkerPool

theorem claimAttempt_accepts (pool : WorkerPool) (job : JobId) (lease : Nat) :
    Approves env Prod.fst (pool.claimAttempt job lease) world := by
  refine Rules.lease trivial ?_ ?_
  · exact fun error answered => Spec.done trivial (.error (answered _ rfl))
  · intro acquired store _
    cases acquired with
    | false => exact Spec.done trivial (.error rfl)
    | true =>
      refine Rules.write trivial ?_ ?_
      · exact fun error answered =>
          Spec.done trivial (.error (answered _ rfl))
      · exact fun store _ _ => Spec.done trivial (.ok _)

theorem finishAttempt_accepts (pool : WorkerPool) (attempt : AttemptId)
    (job : JobId) (state : AttemptState) :
    Approves env id (pool.finishAttempt attempt job state) world := by
  refine Rules.write trivial ?_ ?_
  · exact fun error answered => Spec.done trivial (.error (answered _ rfl))
  · exact fun store _ _ => Rules.write trivial (fun _ _ => Spec.done trivial (.ok ()))
      fun _ _ _ => Spec.done trivial (.ok ())

end WorkerPool

namespace CleanupExecutor

theorem accepting_invariant (origin : Fs) (context : Context) :
    Invariant env Plain origin context (fun _ _ _ => True) (fun _ => True)
      (fun error _ => error.rejectsPlan = false) where
  safe := fun _ => trivial
  stages := fun _ _ _ => trivial
  turns := fun _ _ _ _ => trivial
  halts := by
    intro done op progress before error after _ _ _ turn
    cases turn with
    | stopped _ state refused => exact refused error rfl

theorem executePlan_accepts (current : authorized.isAuthorizedForExecution (env.now world.tick)
      catalog.generation config = true) (attempt : AttemptId) :
    Approves env id (executePlan authorized catalog config attempt) world := by
  refine Rules.quiet rfl trivial fun now _ asked => ?_
  change now = env.now world.tick at asked
  rw [asked, current]
  refine Spec.bind (executeOperations_spec
    (accepting_invariant world.advance.fs ⟨authorized, catalog, attempt⟩)
    (List.nil_append _).symm (Ready.start _ world.advance) trivial) ?_
  intro result after finished
  cases result with
  | error error => exact Spec.done trivial (.error finished)
  | ok progress => exact Spec.done trivial (.ok _)

end CleanupExecutor

namespace AuthoritativeCleanPipeline

variable {pipeline : Pipeline} {orders : HashOrders}
  {admission : JobAdmissionRequest} {attempt : AttemptId}

theorem authorized_at_next_tick (steady : env.Steady 300)
    (authorizes : AuthorizationEngine.Authorizes (env.now world.tick) plan 300 authorized) :
    authorized.isAuthorizedForExecution (env.now world.advance.tick)
      plan.catalogGeneration plan.configGeneration = true := by
  have late : env.now (world.tick + 1) ≤ saturatingAdd (env.now world.tick) 300 :=
    Nat.le_min.mpr ⟨Nat.le_of_lt (steady _ _ (Nat.le_succ _)), env.nowBounded _⟩
  simp [AuthorizedPlan.isAuthorizedForExecution, CapabilityGrant.isValidAt,
    authorizes.same, authorizes.catalog, authorizes.config, authorizes.expires, late]

theorem closeJob_accepts {result : Result CleanReport} (accepted : Accepted result) :
    Approves env id (closeJob pipeline admission attempt result) world := by
  cases result with
  | error error =>
    have closed : ∀ world, Approves env id (do
        let _ ← pipeline.workerPool.finishAttempt attempt admission.jobId
          (.failedWith error.display)
        pure (.error error) : Act (Result CleanReport)) world := fun world =>
      Spec.bind (WorkerPool.finishAttempt_accepts _ _ _ _) fun _ _ _ =>
        Spec.done trivial accepted
    exact Rules.write trivial (fun _ _ => closed _) fun _ _ _ => closed _
  | ok finished =>
    simp only [closeJob]
    split
    · trivial
    · refine Rules.write trivial ?_ ?_
      · exact fun error answered =>
          Spec.done trivial (.error (answered _ rfl))
      · intro store _ _
        refine Spec.bind (WorkerPool.finishAttempt_accepts _ _ _ _) ?_
        intro closed after ended
        cases closed with
        | error error => exact Spec.done trivial (.error (ended _ rfl))
        | ok done => exact Spec.done trivial (.ok _)

section

variable (steady : env.Steady 300)
  (current : admission.configGeneration = pipeline.configGeneration)
include steady current

theorem planAndRun_accepts (permits : List PolicyPermit) (counters : Counters) :
    Approves env Prod.fst
      (planAndRun pipeline orders admission attempt permits counters) world := by
  unfold planAndRun
  split
  · rename_i refused
    rw [CleanupPlanner.buildPlan_error refused]
    exact Spec.done trivial (.error rfl)
  · rename_i plan built
    have plans := CleanupPlanner.buildPlan_plans built
    refine Rules.quiet rfl trivial fun now _ asked => ?_
    change now = env.now world.tick at asked
    obtain ⟨authorized, granted, authorizes⟩ :=
      AuthorizationEngine.authorizePlan_current ⟨counters.grant⟩ now 300 plans.catalog plans.config
    rw [granted]
    rw [asked] at authorizes
    have valid := authorized_at_next_tick steady authorizes
    rw [plans.catalog, plans.config, current] at valid
    have performed : Approves env id
        (perform pipeline admission attempt authorized) world.advance := by
      unfold perform
      split
      · exact Spec.done trivial (.ok _)
      · exact CleanupExecutor.executePlan_accepts valid attempt
    have carried : Approves env id
        (carryOut pipeline admission attempt authorized) world.advance := by
      refine Spec.bind performed fun outcome after ended => ?_
      cases outcome with
      | error error => exact Spec.done trivial (.error (ended _ rfl))
      | ok job =>
        exact Spec.bind (Spec.top (report admission job) after)
          fun finished _ _ => Spec.done trivial (.ok _)
    exact Spec.bind carried fun result _ ended => Spec.done trivial ended

theorem runPipelineJob_accepts :
    Approves env Prod.fst (runPipelineJob pipeline orders admission attempt) world := by
  unfold runPipelineJob
  split
  · trivial
  · rename_i rejected
    obtain ⟨message, rfl⟩ := ValidatedConfig.fromRaw_error rejected
    exact Spec.done trivial (.error rfl)
  · refine Rules.quiet rfl trivial fun frozenUids _ _ =>
      Rules.quiet rfl trivial fun now _ _ => ?_
    refine Spec.bind ((scanTargets_looks _ _).spec (fun _ _ _ safe => safe) trivial) ?_
    rintro ⟨scanned, nextId⟩ after -
    exact planAndRun_accepts steady current _ _

end

theorem execute_accepts (steady : env.Steady 300) {params : CleanParams}
    (current : ∀ admission, Admits pipeline params admission →
      admission.configGeneration = pipeline.configGeneration) :
    Approves env Prod.fst (execute pipeline orders params) world := by
  refine Rules.quiet rfl trivial fun view _ _ => ?_
  refine Spec.bind ((pipeline.scheduler.admitJob_yields params _ pipeline.configGeneration).spec
      (SchedulerService.admitJob_accepts _ _ _ _ _ _ _)) ?_
  rintro ⟨admitted, scheduler⟩ after ⟨admission, accepted⟩
  cases admitted with
  | error error => exact Spec.done trivial (.error (accepted _ rfl))
  | ok request =>
    refine Spec.bind (WorkerPool.claimAttempt_accepts _ _ _) ?_
    rintro ⟨claimed, pool⟩ after accepted
    cases claimed with
    | error error => exact Spec.done trivial (.error (accepted _ rfl))
    | ok attempt =>
      refine Spec.bind (runPipelineJob_accepts steady (current request ⟨_, _, admission⟩)) ?_
      rintro ⟨result, counters⟩ after accepted
      exact Spec.bind (closeJob_accepts accepted) fun closed _ ended =>
        Spec.done trivial ended

end AuthoritativeCleanPipeline

def Unchanged (pending : List Pending) (config : ConfigGeneration) : Prop :=
  ∀ call ∈ pending, call.configGeneration = config

theorem Unchanged.current (unchanged : Unchanged pending config)
    (shaped : Shaped (pending ++ [⟨params, config⟩]) request) :
    request.configGeneration = config := by
  obtain ⟨call, mem, same⟩ := shaped.generation
  rw [← same]
  rcases List.mem_append.mp mem with earlier | own
  · exact unchanged call earlier
  · rw [List.mem_singleton.mp own]

/-- In every run, a call with no change of configuration since the pending ones
is not turned away: its plan has the generations in force when it is executed,
and it returns no rejection. -/
theorem session_call_not_rejected {start : Pipeline}
    {origin : World} {calls : List Call} {pending : List Pending}
    {pipeline : Pipeline} {world : World}
    (session : Session start origin calls pending pipeline world)
    (unchanged : Unchanged pending pipeline.configGeneration)
    {env : Env} (steady : env.Steady 300) (orders : HashOrders) (params : CleanParams) :
    (∀ authorized catalog config attempt,
      Request.enterExecutePlan authorized catalog config attempt ∈
        (pipeline.execute orders params).trace env.handler world →
      authorized.plan.catalogGeneration = catalog ∧ authorized.plan.configGeneration = config ∧
        config = pipeline.configGeneration) ∧ ∀ result pipeline' world',
      (pipeline.execute orders params).run env.handler world =
        (some (result, pipeline'), world') → Accepted result := by
  have current : ∀ admission, pipeline.Admits params admission →
      admission.configGeneration = pipeline.configGeneration :=
    fun admission admits => unchanged.current (session.shaped admits)
  constructor
  · have issues : Issues (fun request => ∀ authorized catalog config attempt,
        request = .enterExecutePlan authorized catalog config attempt →
        authorized.plan.catalogGeneration = catalog ∧ authorized.plan.configGeneration = config ∧
          config = pipeline.configGeneration) (pipeline.execute orders params) := by
      refine AuthoritativeCleanPipeline.execute_issues ?_ ?_ ?_
      · rintro request tame authorized catalog config attempt rfl
        cases tame
      · rintro admission authorized catalog attempt admits _ rfl config _ _ _ _ ⟨⟩
        exact ⟨rfl, config.trans (current admission admits), rfl⟩
      · rintro admission admits _ _ _ _ _ _ ⟨⟩
    intro authorized catalog config attempt member
    exact issues.mem_trace _ member authorized catalog config attempt rfl
  · intro result pipeline' world' ran
    have accepts : Approves env Prod.fst (pipeline.execute orders params) world :=
      AuthoritativeCleanPipeline.execute_accepts steady current
    exact accepts.run_post (Answered.of_respond env.respond_plain _ _) ran

theorem Device.env_steady : Device.env.Steady 300 :=
  fun _ _ _ => Nat.lt_add_of_pos_right (by decide)

open Device in
theorem second_call_not_rejected : Unchanged [⟨realCall, .initial⟩] used.configGeneration ∧
    (∀ authorized catalog config attempt,
      Request.enterExecutePlan authorized catalog config attempt ∈
        (used.execute orders realCall).trace Device.env.handler refilled →
      authorized.plan.catalogGeneration = catalog ∧ authorized.plan.configGeneration = config ∧
        config = used.configGeneration) ∧ ∀ result pipeline' world',
      (used.execute orders realCall).run Device.env.handler refilled =
        (some (result, pipeline'), world') → Accepted result := by
  have unchanged : Unchanged [⟨realCall, .initial⟩] used.configGeneration := by
    simp only [Unchanged, List.mem_singleton, forall_eq]
    decide +kernel
  exact ⟨unchanged, session_call_not_rejected first_session unchanged env_steady orders realCall⟩

open Device in
/-- A call after a change of configuration that every validator accepts. -/
theorem reconfigured_call_is_rejected : Session start origin [first] [⟨realCall, .initial⟩]
      (used.updateConfig config) refilled ∧ config.validate.isOk = true ∧
    ((ValidatedConfig.fromRaw (config.toRaw false)).map Except.isOk) = some true ∧
    Device.env.Steady 300 ∧
    ((execute (used.updateConfig config) realCall refilled).1.map fun returned =>
      match returned.1 with
      | .error error => error.rejectsPlan
      | .ok _ => false) = some true := by
  refine ⟨.reconfigured first_session config, ?_, ?_, env_steady, ?_⟩ <;> decide +kernel

end CacheCleaner
