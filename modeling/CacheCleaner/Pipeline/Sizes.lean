import CacheCleaner.Executor.Accounts
import CacheCleaner.Pipeline.Protected

namespace CacheCleaner

/-! Which trees a clean survives: `ByteCount::new` ends the process on a file
above 10 GiB and on a total above 10 GiB. -/

open Effect Effect.Program CandidateScanner
open CleanupPlanner (isDirectory removal buildPlan buildPlan_plans planningOrder
  defaultMaxOperationsPerPlan buildPlan_ok)
open ValidatedConfig (fromRaw checkRanges checkWhitelist)
open TargetCatalog (discoverAllTargets)
open ByteCount (maxSafe new?)

def permitSizes (permits : List PolicyPermit) : List Nat :=
  permits.map fun permit => permit.candidate.candidate.sizeBytes

namespace AuthoritativeCleanPipeline

section

variable {config : EffectiveConfig} {now : UnixTimestamp}
  {frozenUids : List Nat} {target : TargetDescriptor}

theorem permit?_unnumbered (candidate : Candidate) :
    (permit? config now isFrozen target candidate.unnumbered).map
        (fun permit => permit.candidate.candidate.sizeBytes) =
      (permit? config now isFrozen target candidate).map
        (fun permit => permit.candidate.candidate.sizeBytes) := by
  ext size
  simp only [Option.map_eq_some_iff, permit?_eq_some_iff]
  constructor <;> rintro ⟨_, ⟨own, unopposed, rfl⟩, rfl⟩ <;>
    exact ⟨_, ⟨own, unopposed, rfl⟩, rfl⟩

theorem permitSizes_unnumbered (candidates : List Candidate) :
    permitSizes (permitted config now frozenUids target (candidates.map Candidate.unnumbered)) =
      permitSizes (permitted config now frozenUids target candidates) := by
  unfold permitSizes permitted
  rw [List.filterMap_map, List.map_filterMap, List.map_filterMap]
  exact List.filterMap_congr fun candidate _ => permit?_unnumbered candidate

theorem permitSizes_permits_cons :
    permitSizes (permits config now frozenUids ((target, candidates) :: scanned)) =
      permitSizes (permitted config now frozenUids target candidates) ++
        permitSizes (permits config now frozenUids scanned) :=
  List.map_append

end

def chosen (choice : TargetDescriptor → List Found) (target : TargetDescriptor) :
    TargetDescriptor × List Candidate :=
  (target, (choice target).map (Found.candidate target))

section

variable {fs : Fs} {openat2 : Bool} {targets : List TargetDescriptor}
  {scanned : List (TargetDescriptor × List Candidate)}
  (config : EffectiveConfig) (now : UnixTimestamp) (frozenUids : List Nat)

theorem permitSizes_chosen {choice : TargetDescriptor → List Found}
    (shown : candidates.map Candidate.unnumbered = (choice target).map (Found.candidate target))
    (later : permitSizes (permits config now frozenUids others) =
      permitSizes (permits config now frozenUids (rest.map (chosen choice)))) :
    permitSizes (permits config now frozenUids ((target, candidates) :: others)) =
      permitSizes (permits config now frozenUids ((target :: rest).map (chosen choice))) := by
  rw [List.map_cons, chosen, permitSizes_permits_cons, permitSizes_permits_cons, later, ← shown,
    permitSizes_unnumbered]

theorem Gathered.choice (gathered : Gathered fs openat2 targets scanned)
    (distinct : targets.Nodup) : ∃ choice : TargetDescriptor → List Found,
      (∀ target ∈ targets, fs.TargetPart openat2 target (choice target)) ∧
      ∀ config now frozenUids, permitSizes (permits config now frozenUids scanned) =
        permitSizes (permits config now frozenUids (targets.map (chosen choice))) := by
  induction gathered with
  | @stopped targets =>
    refine ⟨fun _ => [], fun _ _ => ⟨Or.inl rfl, Nat.zero_le _⟩, fun config now frozenUids => ?_⟩
    clear distinct
    induction targets with
    | nil => rfl
    | cons target rest ih => exact ih
  | @scanned seen rest _ _ target part shown _ ih =>
    obtain ⟨apart, distinct⟩ := List.nodup_cons.mp distinct
    obtain ⟨choice, parts, same⟩ := ih distinct
    have kept (other) (mem : other ∈ rest) :
        Function.update choice target seen other = choice other := by
      refine Function.update_of_ne ?_ ..
      rintro rfl
      exact apart mem
    refine ⟨Function.update choice target seen, ?_, fun config now frozenUids => ?_⟩
    · refine List.forall_mem_cons.mpr ⟨?_, fun other mem => ?_⟩
      · rwa [Function.update_self]
      · rw [kept other mem]
        exact parts other mem
    · refine permitSizes_chosen config now frozenUids (by rwa [Function.update_self]) ?_
      rw [same]
      congr 2
      exact List.map_congr_left fun other mem => by rw [chosen, chosen, kept other mem]

theorem Gathered.directories (gathered : Gathered fs openat2 targets scanned) :
    ∀ permit ∈ permits config now frozenUids scanned, isDirectory permit = true →
        permit.candidate.candidate.sizeBytes = 0 := by
  induction gathered with
  | stopped => exact List.forall_mem_nil _
  | scanned _ shown _ ih =>
    refine List.forall_mem_append.mpr ⟨?_, ih⟩
    intro permit mem isDir
    obtain ⟨candidate, inside, allowed⟩ := List.mem_filterMap.mp mem
    obtain ⟨-, -, rfl⟩ := permit?_eq_some_iff.mp allowed
    have listed := List.mem_map_of_mem (f := Candidate.unnumbered) inside
    rw [shown] at listed
    obtain ⟨found, -, same⟩ := List.mem_map.mp listed
    have kind : found.isDirectory = true := (congrArg Candidate.isDir same).trans isDir
    have size : found.size = candidate.sizeBytes := congrArg Candidate.sizeBytes same
    rw [← size, Found.size, if_pos kind]

end

theorem estimatedSize_removal (directory : isDirectory permit = true →
      permit.candidate.candidate.sizeBytes = 0) :
    (removal permit.candidate.candidate).estimatedSize =
      permit.candidate.candidate.sizeBytes := by
  unfold removal
  split
  · rename_i isDir
    exact (directory isDir).symm
  · rfl

theorem buildPlan_estimate {catalog : CatalogGeneration} {config : ConfigGeneration}
    {permits : List PolicyPermit}
    (built : buildPlan iteration job catalog config permits = .ok plan)
    (directories : ∀ permit ∈ permits, isDirectory permit = true →
        permit.candidate.candidate.sizeBytes = 0) :
    plan.totalEstimatedReclaim = min (permitSizes permits).sum u64Max := by
  have removals := (buildPlan_plans built).removals
  have sizes : (plan.operations.map fun op => op.opType.estimatedSize) =
      permitSizes (planningOrder permits) := by
    have mapped := congrArg (List.map OperationType.estimatedSize) removals
    rw [List.map_map, List.map_map] at mapped
    refine mapped.trans (List.map_congr_left fun permit mem => ?_)
    exact estimatedSize_removal (directories permit (CleanupPlanner.mem_planningOrder.mp mem))
  rw [CleanupPlanner.buildPlan_total built, saturatingSum_eq_min, sizes]
  congr 1
  exact ((CleanupPlanner.planningOrder_perm permits).map _).sum_eq

section

variable {env : Env} {world : World}

variable {targets : List TargetDescriptor}

theorem ends_conceal {program : Act α} {hidden : Nat → String → Bool}
    (ends : Ends env.handler post aborted program world)
    (same : ∀ moment, world.tick ≤ moment → hidden moment = env.hidden moment) :
    Ends (env.conceal hidden).handler post aborted program world := by
  unfold Ends at ends ⊢
  cases ran : program.run env.handler world with
  | mk outcome final =>
    rw [Env.run_conceal ran fun moment late _ => same moment late]
    rwa [ran] at ends

theorem exists_scanTargets (enters : env.Enters) (continues : ∀ tick, env.cancelled tick = false)
    {choice : TargetDescriptor → List Found}
    (parts : ∀ target ∈ targets, world.fs.TargetPart env.openat2 target (choice target))
    (nextId : Nat) : ∃ hidden, Ends (env.conceal hidden).handler (fun result _ =>
        (∀ target ∈ targets, Fit (choice target)) ∧
        Gathered world.fs env.openat2 targets result.1 ∧ ∀ config now frozenUids,
          permitSizes (permits config now frozenUids result.1) =
            permitSizes (permits config now frozenUids (targets.map (chosen choice))))
      (¬ ∀ target ∈ targets, Fit (choice target)) (scanTargets targets nextId) world := by
  induction targets generalizing nextId world with
  | nil => exact ⟨env.hidden, List.forall_mem_nil _, .stopped, fun _ _ _ => rfl⟩
  | cons target rest ih =>
    obtain ⟨part, later⟩ := List.forall_mem_cons.mp parts
    obtain ⟨hidden, seen⟩ := exists_glimpsed enters part (world.tick + 1)
    have ends := scanTargetWithResource_glimpses (env.conceal hidden) target world.advance nextId
    change Ends _ (fun _ _ => _ ∧ Fit (glimpsed _ world.fs _ (world.tick + 1)) ∧
      _ = (glimpsed _ world.fs _ (world.tick + 1)).map _)
      (¬ Fit (glimpsed _ world.fs _ (world.tick + 1))) _ _ at ends
    rw [seen] at ends
    cases ran : (scanTargetWithResource target nextId).run (env.conceal hidden).handler
        world.advance with
    | mk outcome middle =>
      unfold Ends at ends
      rw [ran] at ends
      cases outcome with
      | none =>
        refine ⟨hidden, Rules.quiet_ends rfl fun cancelled replied => ?_⟩
        rw [replied.trans (continues world.tick)]
        change Ends _ _ _ (scanTargetWithResource target nextId >>= _) _
        rw [Ends, run_bind, ran]
        exact fun fit => ends (List.forall_mem_cons.mp fit).1
      | some scanned =>
        obtain ⟨fs, fit, shown⟩ := ends
        rw [← world.fs_advance, ← fs] at later
        obtain ⟨hidden', ends'⟩ := ih later scanned.2
        refine ⟨fun moment => if moment < middle.tick then hidden moment else hidden' moment,
          Rules.quiet_ends rfl fun cancelled replied => ?_⟩
        rw [replied.trans (continues world.tick)]
        have again := Env.run_conceal ran fun moment _ soon =>
          (if_pos soon : (if moment < middle.tick then hidden moment else hidden' moment) = _)
        have onward := ends_conceal ends' fun moment late =>
          (if_neg late.not_gt : (if moment < middle.tick then hidden moment else
            hidden' moment) = _)
        refine Ends.after again (Ends.bind (onward.mono (fun _ _ ended => ended) ?_) ?_)
        · exact fun unfit fit => unfit (List.forall_mem_cons.mp fit).2
        · rintro ⟨others, nextId'⟩ final ⟨fits, gathered, same⟩
          rw [fs] at gathered
          exact ⟨List.forall_mem_cons.mpr ⟨fit, fits⟩, .scanned part shown gathered,
            fun config now frozenUids =>
              permitSizes_chosen config now frozenUids shown (same config now frozenUids)⟩

end

/-- What the policy permits of a scan is no more than 10 GiB, if it is few enough for
a plan. -/
def PlanFits (config : EffectiveConfig) (now : UnixTimestamp) (frozenUids : List Nat)
    (scanned : List (TargetDescriptor × List Candidate)) : Prop :=
  (permits config now frozenUids scanned).length ≤ defaultMaxOperationsPerPlan →
    (permitSizes (permits config now frozenUids scanned)).sum ≤ maxSafe

/-- The sizes of a tree that a clean can take: each file, and each part of the tree
whenever the policy is asked. -/
structure SizesFit (fs : Fs) (openat2 : Bool) (targets : List TargetDescriptor)
    (config : DaemonConfig) (generation : ConfigGeneration) : Prop where
  files : ∀ target ∈ targets, Fit (fs.reachTarget openat2 target)
  total : ∀ dryRun validated, fromRaw (config.toRaw dryRun) = some (.ok validated) →
    ∀ now ≤ u64Max, ∀ frozenUids (choice : TargetDescriptor → List Found),
      (∀ target ∈ targets, fs.TargetPart openat2 target (choice target)) →
      PlanFits ⟨generation, validated⟩ now frozenUids (targets.map (chosen choice))

/-- The configuration is refused, or a clean can take the sizes. -/
def Manageable (fs : Fs) (openat2 : Bool) (targets : List TargetDescriptor)
    (config : DaemonConfig) (generation : ConfigGeneration) : Prop :=
  (∃ validated, fromRaw (config.toRaw true) = some (.ok validated)) →
    SizesFit fs openat2 targets config generation

theorem permits_order_perm (config : EffectiveConfig) (order : IterationOrder TargetDescriptor)
    (targets : List TargetDescriptor) (choice : TargetDescriptor → List Found) :
    (permitSizes (permits config now frozenUids ((order.order targets).map (chosen choice)))).Perm
      (permitSizes (permits config now frozenUids (targets.map (chosen choice)))) :=
  (((order.perm targets).map _).flatMap_right _).map _

theorem length_permitSizes (permits : List PolicyPermit) :
    (permitSizes permits).length = permits.length :=
  List.length_map ..

theorem fromRaw_toRaw_dryRun (config : DaemonConfig) (dryRun : Bool) :
    ∃ result, fromRaw (config.toRaw dryRun) = some result ∧
      fromRaw (config.toRaw true) =
        some (result.map fun validated => { validated with dryRun := true }) := by
  unfold fromRaw DaemonConfig.toRaw
  simp only [Option.getD_some]
  cases checkRanges config.maintenanceIntervalSecs
      config.minScreenOffSecs config.maxSocTempC config.maxBatteryTempC with
  | error error => exact ⟨_, rfl, rfl⟩
  | ok accepted =>
    have threshold : new? (saturatingMul 50 (1024 * 1024)) = some 52428800 := by decide
    simp only [threshold]
    cases checkWhitelist config.safety.whitelistPackages with
    | error error => exact ⟨_, rfl, rfl⟩
    | ok accepted =>
      cases addProtectedPaths config.safety.protectedDirectoryNames
          platformInvariantProtectedPaths with
      | error error => exact ⟨_, rfl, rfl⟩
      | ok protectedPaths => exact ⟨_, rfl, rfl⟩

section

variable {env : Env} {world : World} {pipeline : Pipeline}
  {admission : JobAdmissionRequest} {attempt : AttemptId}

variable {orders : HashOrders}

def Payable (result : Result CleanReport) : Prop :=
  ∀ report, result = .ok report → report.totalFreedBytes ≤ maxSafe

theorem executePlan_total (authorized : AuthorizedPlan)
    (catalog : CatalogSnapshot) (config : ConfigGeneration) :
    Total (CleanupExecutor.executePlan authorized catalog config attempt) := by
  refine .next fun now => ?_
  split
  · trivial
  · refine (CleanupExecutor.executeOperations_total _ _).bind fun result => ?_
    cases result <;> trivial

theorem report_returns (job : JobResult) : Returns env.handler
      (fun report _ => report.totalFreedBytes = job.totalReclaimed)
      (report admission job) world := by
  unfold report trimMounts
  split
  · exact Returns.call (Returns.call (Returns.done rfl))
  · exact Returns.call (Returns.done rfl)

variable {iteration : IterationOrder ((TargetId × String) × OperationId)}
  {job : JobId} {catalog : CatalogGeneration} {config : ConfigGeneration}
  {allowed : List PolicyPermit} {authorized : AuthorizedPlan}

theorem perform_returns (built : buildPlan iteration job catalog config allowed =
      .ok authorized.plan) : Returns env.handler (fun result _ => ∀ done, result = .ok done →
        done.totalReclaimed ≤ authorized.plan.totalEstimatedReclaim)
      (perform pipeline admission attempt authorized) world := by
  unfold perform
  split
  · refine Returns.done ?_
    rintro _ ⟨⟩
    exact le_refl _
  · obtain ⟨result, final, ran⟩ := (executePlan_total authorized
      pipeline.catalog pipeline.configGeneration).exists_run env.handler world
    refine ⟨result, final, ran, ?_⟩
    rintro done rfl
    exact executePlan_total_le ran built

theorem carryOut_returns (built : buildPlan iteration job catalog config allowed =
      .ok authorized.plan) (small : authorized.plan.totalEstimatedReclaim ≤ maxSafe) :
    Returns env.handler (fun result _ => Payable result)
      (carryOut pipeline admission attempt authorized) world := by
  refine Returns.bind (perform_returns built) ?_
  rintro result middle bounded
  cases result with
  | error error => exact Returns.done nofun
  | ok done =>
    refine Returns.bind (report_returns done) ?_
    rintro finished final total
    refine Returns.done ?_
    rintro _ ⟨⟩
    rw [total]
    exact (bounded done rfl).trans small

theorem planAndRun_returns {counters : Counters}
    (small : allowed.length ≤ defaultMaxOperationsPerPlan →
      (permitSizes allowed).sum ≤ maxSafe) (directories : ∀ permit ∈ allowed,
      isDirectory permit = true → permit.candidate.candidate.sizeBytes = 0) :
    Returns env.handler (fun result _ => Payable result.1)
      (planAndRun pipeline orders admission attempt allowed counters) world := by
  unfold planAndRun
  cases built : buildPlan orders.paths admission.jobId
      pipeline.catalog.generation admission.configGeneration allowed with
  | error error => exact Returns.done nofun
  | ok plan =>
    refine Rules.quiet_returns rfl fun now _ => ?_
    have plans := buildPlan_plans built
    obtain ⟨authorized, granted, authorizes⟩ :=
      AuthorizationEngine.authorizePlan_current ⟨counters.grant⟩ now 300 plans.catalog plans.config
    rw [granted]
    rw [← authorizes.same] at built
    have estimate : authorized.plan.totalEstimatedReclaim ≤ maxSafe := by
      rw [buildPlan_estimate built directories]
      exact (Nat.min_le_left _ _).trans (small (CleanupPlanner.buildPlan_bounded built))
    refine Returns.bind (carryOut_returns built estimate) ?_
    exact fun result final payable => Returns.done payable

theorem runPipelineJob_returns (fits : Manageable world.fs env.openat2 pipeline.catalog.targets.rows
      pipeline.config pipeline.configGeneration) :
    Returns env.handler (fun result _ => Payable result.1)
      (runPipelineJob pipeline orders admission attempt) world := by
  obtain ⟨checked, read, dry⟩ := fromRaw_toRaw_dryRun pipeline.config admission.dryRun
  unfold runPipelineJob
  rw [read]
  cases checked with
  | error error => exact Returns.done nofun
  | ok validated =>
    have fits := fits ⟨_, dry⟩
    refine Rules.quiet_returns rfl fun frozenUids _ => ?_
    refine Rules.quiet_returns rfl fun now told => ?_
    have clock : now ≤ u64Max := told ▸ env.nowBounded _
    have files : ∀ target ∈ orders.targets.order pipeline.catalog.targets.rows,
        Fit (world.advance.advance.fs.reachTarget env.openat2 target) :=
      fun target mem =>
        fits.files target (orders.targets.mem_order.mp mem)
    refine Returns.bind (scanTargets_ends.returns (not_not_intro files)) ?_
    rintro ⟨scanned, nextId⟩ middle ⟨-, gathered⟩
    have distinct : (orders.targets.order pipeline.catalog.targets.rows).Nodup :=
      (orders.targets.perm _).nodup_iff.mpr (List.Nodup.of_map _ pipeline.catalog.targets.distinct)
    obtain ⟨choice, parts, same⟩ := gathered.choice distinct
    have sizes := (same ⟨pipeline.configGeneration, validated⟩ now frozenUids) ▸
      permits_order_perm _ orders.targets pipeline.catalog.targets.rows choice
    refine planAndRun_returns (fun few => ?_) (gathered.directories _ _ _)
    rw [sizes.sum_eq]
    refine fits.total _ validated read now clock frozenUids choice
      (fun target mem => parts target (orders.targets.mem_order.mpr mem)) ?_
    rwa [← length_permitSizes, ← sizes.length_eq, length_permitSizes]

theorem finishAttempt_total : Total (WorkerPool.finishAttempt pool attempt job state) := by
  refine .next fun updated => ?_
  cases updated with
  | error error => trivial
  | ok done => exact fun _ => trivial

theorem closeJob_total (payable : Payable result) :
    Total (closeJob pipeline admission attempt result) := by
  cases result with
  | error error =>
    refine .next fun _ => Total.bind finishAttempt_total ?_
    exact fun _ => trivial
  | ok finished =>
    have taken : new? finished.totalFreedBytes =
        some finished.totalFreedBytes := if_pos (payable finished rfl)
    simp only [closeJob, taken]
    refine .next fun updated => ?_
    cases updated with
    | error error => trivial
    | ok done =>
      refine Total.bind finishAttempt_total fun closed => ?_
      cases closed <;> trivial

theorem runClaimed_returns (fits : Manageable world.fs env.openat2 pipeline.catalog.targets.rows
      pipeline.config pipeline.configGeneration) : Returns env.handler (fun _ _ => True)
      (runClaimed pipeline orders admission attempt) world := by
  refine Returns.bind (runPipelineJob_returns fits) ?_
  rintro ⟨result, counters⟩ middle payable
  obtain ⟨closed, final, ran⟩ := (closeJob_total payable).exists_run env.handler middle
  exact ⟨_, final, run_bind_some _ ran, trivial⟩

theorem keeping_returns (keeps : (env.respond request world).2.fs = world.fs)
    (rest : ∀ reply (after : World), after.fs = world.fs →
      Returns env.handler post (next reply) after) :
    Returns env.handler post (ask request >>= next) world :=
  Returns.call (rest _ _ keeps)

theorem fs_execute (env : Env) (world : World) (write : StoreWrite) :
    (env.execute world write).2.fs = world.fs := by
  unfold Env.execute
  dsimp only
  split <;> rfl

theorem fs_lease (env : Env) (world : World) (resource : String) (worker : WorkerId) (ttl : Nat) :
    (env.lease world resource worker ttl).2.fs = world.fs := by
  unfold Env.lease
  dsimp only
  split <;> rfl

theorem runAdmitted_returns (fits : Manageable world.fs env.openat2 pipeline.catalog.targets.rows
      pipeline.config pipeline.configGeneration) : Returns env.handler (fun _ _ => True)
      (runAdmitted pipeline orders admission) world := by
  refine keeping_returns (fs_lease ..) fun acquired middle fs => ?_
  cases acquired with
  | error error => exact Returns.done trivial
  | ok held =>
    cases held with
    | false => exact Returns.done trivial
    | true =>
      refine keeping_returns (fs_execute ..) fun created after same => ?_
      cases created with
      | error error => exact Returns.done trivial
      | ok done =>
        rw [← fs, ← same] at fits
        exact runClaimed_returns fits

theorem execute_returns (fits : Manageable world.fs env.openat2
      (discoverAllTargets (env.platform world.tick) pipeline.catalog).targets.rows
      pipeline.config pipeline.configGeneration) :
    Returns env.handler (fun _ _ => True) (execute pipeline orders params) world := by
  refine Rules.quiet_returns rfl fun view seen => ?_
  cases (seen : view = env.platform world.tick)
  change Returns _ _ (pipeline.scheduler.admitJob _ _ _ _ _ _ >>= _) _
  unfold SchedulerService.admitJob
  cases pipeline.scheduler.queue with
  | cons existing rest =>
    refine runAdmitted_returns ?_
    exact fits
  | nil =>
    refine keeping_returns (fs_execute ..) fun registered middle fs => ?_
    cases registered with
    | error error => exact Returns.done trivial
    | ok done =>
      refine Rules.quiet_returns rfl fun now _ => ?_
      refine runAdmitted_returns ?_
      change Manageable middle.fs ..
      rw [fs]
      exact fits

end

section

variable {env : Env} {world : World} {pipeline : Pipeline}
  {admission : JobAdmissionRequest} {attempt : AttemptId} {orders : HashOrders}

theorem closeJob_aborts {report : CleanReport}
    (large : maxSafe < report.totalFreedBytes) :
    Aborts env.handler (closeJob pipeline admission attempt (.ok report)) world := by
  have refused : new? report.totalFreedBytes = none := if_neg (Nat.not_le.mpr large)
  simp only [closeJob, refused]
  rfl

theorem carryOut_dry (dry : admission.dryRun = true) (authorized : AuthorizedPlan) :
    Returns env.handler (fun result _ => ∃ report, result = .ok report ∧
        report.totalFreedBytes = authorized.plan.totalEstimatedReclaim)
      (carryOut pipeline admission attempt authorized) world := by
  unfold carryOut perform
  rw [if_pos dry]
  simp only [pure_eq, done_bind]
  refine Returns.bind (report_returns _) ?_
  exact fun report final total => Returns.done ⟨report, rfl, total⟩

theorem planAndRun_dry (dry : admission.dryRun = true) {counters : Counters}
    (few : allowed.length ≤ defaultMaxOperationsPerPlan)
    (directories : ∀ permit ∈ allowed, isDirectory permit = true →
        permit.candidate.candidate.sizeBytes = 0) : Returns env.handler
      (fun result _ => ∃ report, result.1 = .ok report ∧
        report.totalFreedBytes = min (permitSizes allowed).sum u64Max)
      (planAndRun pipeline orders admission attempt allowed counters) world := by
  obtain ⟨plan, built, plans⟩ := buildPlan_ok orders.paths few
    admission.jobId pipeline.catalog.generation admission.configGeneration
  unfold planAndRun
  rw [built]
  refine Rules.quiet_returns rfl fun now _ => ?_
  obtain ⟨authorized, authorizes, authorization⟩ :=
    AuthorizationEngine.authorizePlan_current ⟨counters.grant⟩ now 300 plans.catalog plans.config
  rw [authorizes]
  refine Returns.bind (carryOut_dry dry authorized) ?_
  rintro _ final ⟨report, rfl, total⟩
  refine Returns.done ⟨report, rfl, total.trans ?_⟩
  rw [authorization.same, buildPlan_estimate built directories]

theorem runPipelineJob_dry (dry : admission.dryRun = true) {validated : ValidatedConfig}
    (read : fromRaw (pipeline.config.toRaw true) = some (.ok validated))
    {holds : List (TargetDescriptor × List Candidate) → Prop}
    (scans : Returns env.handler (fun result _ => holds result.1)
      (scanTargets (orders.targets.order pipeline.catalog.targets.rows)
        pipeline.counters.candidate) world.advance.advance)
    (plannable : ∀ scanned, holds scanned →
      let permitted := permits ⟨pipeline.configGeneration, validated⟩ (env.now (world.tick + 1))
        (env.frozenUids world.tick) scanned
      permitted.length ≤ defaultMaxOperationsPerPlan ∧ ∀ permit ∈ permitted,
        isDirectory permit = true → permit.candidate.candidate.sizeBytes = 0) :
    Returns env.handler (fun result _ => ∃ scanned report, holds scanned ∧ result.1 = .ok report ∧
        report.totalFreedBytes = min (permitSizes (permits ⟨pipeline.configGeneration, validated⟩
          (env.now (world.tick + 1)) (env.frozenUids world.tick) scanned)).sum u64Max)
      (runPipelineJob pipeline orders admission attempt) world := by
  unfold runPipelineJob
  rw [dry, read]
  refine Rules.quiet_returns rfl fun frozenUids frozen => ?_
  cases (frozen : frozenUids = env.frozenUids world.tick)
  refine Rules.quiet_returns rfl fun now told => ?_
  cases (told : now = env.now (world.tick + 1))
  refine Returns.bind scans ?_
  rintro ⟨scanned, nextId⟩ middle held
  obtain ⟨few, directories⟩ := plannable scanned held
  obtain ⟨result, final, ran, report, same, total⟩ := @planAndRun_dry env middle pipeline admission
    attempt orders _ dry { pipeline.counters with candidate := nextId } few directories
  exact ⟨result, final, ran, scanned, report, held, same, total⟩

theorem exists_runClaimed (enters : env.Enters) (continues : ∀ tick, env.cancelled tick = false)
    (dry : admission.dryRun = true) {validated : ValidatedConfig}
    (read : fromRaw (pipeline.config.toRaw true) = some (.ok validated))
    {choice : TargetDescriptor → List Found} (parts : ∀ target ∈ pipeline.catalog.targets.rows,
      world.fs.TargetPart env.openat2 target (choice target))
    (unfit : ¬ ((∀ target ∈ pipeline.catalog.targets.rows, Fit (choice target)) ∧
      PlanFits ⟨pipeline.configGeneration, validated⟩ (env.now (world.tick + 1))
        (env.frozenUids world.tick) (pipeline.catalog.targets.rows.map (chosen choice)))) :
    ∃ hidden, Aborts (env.conceal hidden).handler
      (runClaimed pipeline orders admission attempt) world := by
  obtain ⟨hidden, ends⟩ := @exists_scanTargets env world.advance.advance
    (orders.targets.order pipeline.catalog.targets.rows) enters continues choice
    (fun target mem => parts target (orders.targets.mem_order.mp mem)) pipeline.counters.candidate
  refine ⟨hidden, ?_⟩
  by_cases fit : ∀ target ∈ pipeline.catalog.targets.rows, Fit (choice target)
  · obtain ⟨few, large⟩ := Classical.not_imp.mp (not_and.mp unfit fit)
    obtain ⟨result, final, ran, -, gathered, same⟩ := ends.returns
      (not_not_intro fun target mem => fit target (orders.targets.mem_order.mp mem))
    have sizes := (same ⟨pipeline.configGeneration, validated⟩ (env.now (world.tick + 1))
      (env.frozenUids world.tick)) ▸
        permits_order_perm _ orders.targets pipeline.catalog.targets.rows choice
    refine Aborts.after (@runPipelineJob_dry (env.conceal hidden) world pipeline admission attempt
      orders dry validated read (· = result.1) ⟨result, final, ran, rfl⟩ ?_) ?_
    · rintro _ rfl
      refine ⟨?_, gathered.directories _ _ _⟩
      rw [← length_permitSizes]
      exact (sizes.length_eq.trans (length_permitSizes _)).trans_le few
    · rintro ⟨_, counters⟩ middle ⟨_, report, rfl, rfl, total⟩
      refine Aborts.bind (closeJob_aborts ?_)
      rw [total]
      exact lt_min ((Nat.not_le.mp large).trans_eq sizes.sum_eq.symm) (by decide)
  · refine Aborts.bind ?_
    unfold runPipelineJob
    rw [dry, read]
    refine Rules.quiet_aborts rfl fun _ _ => Rules.quiet_aborts rfl fun _ _ => ?_
    refine Aborts.bind (ends.aborts fun _ _ ended => fit fun target mem => ?_)
    exact ended.1 target (orders.targets.mem_order.mpr mem)

section

variable (holds : Option α × World → Prop)

theorem write_runs (store : Store) (works : env.writeFault world.tick write = false)
    (succeeds : write.statement (env.now world.tick) world.store = .ok ((), store))
    (rest : holds ((next (.ok ())).run env.handler (world.advance.withStore store))) :
    holds ((ask (.write write) >>= next).run env.handler world) := by
  change holds ((next (env.execute world write).1).run env.handler (env.execute world write).2)
  unfold Env.execute
  simp only [works, succeeds]
  exact rest

theorem lease_runs (store : Store) (works : env.queryFault world.tick = false)
    (succeeds : Store.acquireLease resource worker ttl (env.now world.tick)
      world.store = .ok (true, store)) (rest : holds ((next (.ok true)).run env.handler
      (world.advance.withStore store))) :
    holds ((ask (.acquireLease resource worker ttl) >>= next).run env.handler world) := by
  change holds ((next (env.lease world resource worker ttl).1).run env.handler
    (env.lease world resource worker ttl).2)
  unfold Env.lease
  simp only [works, succeeds]
  exact rest

end

def probe (view : PlatformView) (openat2 : Bool) (now : UnixTimestamp)
    (bounded : now ≤ u64Max) (frozenUids : List Nat) : Env :=
  { Env.calm 0 view (Nat.zero_le _) with
    now := fun tick => if tick = 4 then now else 0
    nowBounded := fun tick => by split <;> simp [bounded]
    frozenUids := fun _ => frozenUids
    openat2 }

def queued (catalog : CatalogSnapshot) (config : DaemonConfig) (generation : ConfigGeneration) :
    Pipeline where
  config := config
  catalog := catalog
  scheduler :=
    ⟨[⟨⟨1⟩, .periodicMaintenance, false, false, true, catalog.generation, generation, 0⟩], 2⟩
  workerPool := ⟨⟨1⟩, 1⟩
  configGeneration := generation
  counters := ⟨1, 1⟩

def ledger : Store :=
  { Store.empty with jobs := .single ⟨⟨1⟩, "", .admitted, ⟨1⟩, ⟨1⟩, 0⟩ }

theorem exists_execute {fs : Fs} {openat2 : Bool} {catalog : CatalogSnapshot}
    {config : DaemonConfig} {generation : ConfigGeneration} {view : PlatformView}
    {validated : ValidatedConfig}
    (read : fromRaw (config.toRaw true) = some (.ok validated))
    (bounded : now ≤ u64Max) (frozenUids : List Nat) {choice : TargetDescriptor → List Found}
    (parts : ∀ target ∈ (discoverAllTargets view catalog).targets.rows,
      fs.TargetPart openat2 target (choice target))
    (unfit : ¬ ((∀ target ∈ (discoverAllTargets view catalog).targets.rows,
        Fit (choice target)) ∧ PlanFits ⟨generation, validated⟩ now frozenUids
          ((discoverAllTargets view catalog).targets.rows.map (chosen choice)))) :
    ∃ env : Env, env.platform 0 = view ∧ env.openat2 = openat2 ∧ Aborts env.handler
      (execute (queued catalog config generation) ⟨.inserted _, .inserted _⟩ ⟨false, false, true⟩)
      ⟨0, fs, ledger, []⟩ := by
  let calm := probe view openat2 now bounded frozenUids
  let leased : Store := { ledger with leases := .single ⟨resourceForJob ⟨1⟩, ⟨1⟩, 300⟩ }
  let created : Store := { leased with attempts := .single ⟨⟨1⟩, ⟨1⟩, ⟨1⟩, .running⟩ }
  obtain ⟨hidden, aborts⟩ := @exists_runClaimed calm ⟨3, fs, created, []⟩
    { queued catalog config generation with
      catalog := discoverAllTargets view catalog
      workerPool := ⟨⟨1⟩, 2⟩ }
    ⟨⟨1⟩, .periodicMaintenance, false, false, true, catalog.generation, generation, 0⟩ ⟨1⟩
    ⟨.inserted _, .inserted _⟩ ⟨fun _ => rfl, fun _ => rfl, fun _ => rfl⟩ (fun _ => rfl) rfl
    validated read choice parts unfit
  refine ⟨calm.conceal hidden, rfl, rfl, ?_⟩
  refine Rules.quiet_aborts rfl fun _ seen => ?_
  cases seen
  refine lease_runs (fun ran => ran.1 = none) leased rfl
    (rfl : Store.acquireLease (resourceForJob ⟨1⟩) ⟨1⟩ 300 0 ledger = _) ?_
  refine write_runs (fun ran => ran.1 = none) created rfl
    (rfl : Store.createAttempt ⟨1⟩ ⟨1⟩ ⟨1⟩ 300 0 leased = _) ?_
  exact aborts

end

/-- A clean of a tree comes back, whatever fails, whatever the time and whatever was
cleaned before. -/
def Survives (fs : Fs) (view : PlatformView) (openat2 : Bool) (catalog : CatalogSnapshot)
    (config : DaemonConfig) (generation : ConfigGeneration) : Prop :=
  ∀ pipeline : Pipeline, pipeline.catalog = catalog → pipeline.config = config →
    pipeline.configGeneration = generation →
    ∀ (env : Env) (world : World) (orders : HashOrders) (params : CleanParams),
      env.platform world.tick = view → env.openat2 = openat2 → world.fs = fs →
      ∃ result final, (execute pipeline orders params).run env.handler world = (some result, final)

/-- A clean survives the sizes of a tree exactly when its configuration is refused or
takes them. -/
theorem no_size_panic_iff (fs : Fs) (view : PlatformView) (openat2 : Bool)
    (catalog : CatalogSnapshot) (config : DaemonConfig) (generation : ConfigGeneration) :
    Survives fs view openat2 catalog config generation ↔ Manageable fs openat2
      (discoverAllTargets view catalog).targets.rows config generation := by
  constructor
  · rintro survives ⟨validated, read⟩
    have fits : ∀ now ≤ u64Max, ∀ frozenUids (choice : TargetDescriptor → List Found),
        (∀ target ∈ (discoverAllTargets view catalog).targets.rows,
          fs.TargetPart openat2 target (choice target)) →
        (∀ target ∈ (discoverAllTargets view catalog).targets.rows,
          Fit (choice target)) ∧ PlanFits ⟨generation, validated⟩ now frozenUids
            ((discoverAllTargets view catalog).targets.rows.map (chosen choice)) := by
      intro now bounded frozenUids choice parts
      by_contra unfit
      obtain ⟨env, platform, mode, aborts⟩ :=
        exists_execute read bounded frozenUids parts unfit
      obtain ⟨result, final, ran⟩ := survives (queued catalog config generation) rfl rfl rfl env
        ⟨0, fs, ledger, []⟩ ⟨.inserted _, .inserted _⟩ ⟨false, false, true⟩ platform mode rfl
      rw [Aborts, ran] at aborts
      cases aborts
    refine ⟨fun target mem found inside => ?_, ?_⟩
    · obtain ⟨part, some, there⟩ := Fs.exists_targetPart inside
      have parts : ∀ other ∈ (discoverAllTargets view catalog).targets.rows,
          fs.TargetPart openat2 other (if other = target then part else []) := by
        intro other _
        split
        · rename_i same
          rwa [same]
        · exact ⟨Or.inl rfl, Nat.zero_le _⟩
      have small := (fits 0 (Nat.zero_le _) [] _ parts).1 target mem
      rw [if_pos rfl] at small
      exact small found there
    · intro dryRun other readOther now bounded frozenUids choice parts
      obtain ⟨_, checked, same⟩ := fromRaw_toRaw_dryRun config dryRun
      rw [readOther] at checked
      cases checked
      rw [read] at same
      cases same
      exact (fits now bounded frozenUids choice parts).2
  · rintro fits pipeline rfl rfl rfl env world orders params rfl rfl rfl
    obtain ⟨result, final, ran, -⟩ := execute_returns fits
    exact ⟨result, final, ran⟩

end AuthoritativeCleanPipeline

namespace Device

open AuthoritativeCleanPipeline

def filled (first second : Nat) : Fs :=
  { fs with
    inode := fun id =>
      if id = ⟨1, 4⟩ then some ⟨.directory, 0, 0, ⟨1, 3⟩,
        ⟨[("f", ⟨⟨1, 5⟩, false⟩), ("g", ⟨⟨1, 6⟩, false⟩)], by decide⟩⟩
      else if id = ⟨1, 5⟩ then some (.file ⟨1, 4⟩ first 0)
      else if id = ⟨1, 6⟩ then some (.file ⟨1, 4⟩ second 0)
      else fs.inode id }

/-- One file above 10 GiB ends the process, and so do two files of 6 GiB. -/
theorem large_files_abort : ((start.execute orders dryCall).run env.handler
      ⟨4, filled (maxSafe + 1) 0, .empty, []⟩).1 = none ∧
    ((start.execute orders realCall).run env.handler
      ⟨4, filled (6 * 1024 ^ 3) (6 * 1024 ^ 3), .empty, []⟩).1 = none := by
  constructor <;> decide +kernel

end Device

end CacheCleaner
