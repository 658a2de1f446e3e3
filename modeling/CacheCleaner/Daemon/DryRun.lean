import CacheCleaner.Daemon.Program
import CacheCleaner.Pipeline.Losses
import CacheCleaner.Pipeline.Sizes

namespace CacheCleaner

open Effect Effect.Program

namespace DaemonContext

open Daemon

def publishOutcome (now : UnixTimestamp) (result : Result CleanReport)
    (runtime : DaemonRuntimeState) : DaemonRuntimeState :=
  match result with
  | .ok report => publishReport now report.totalFreedBytes runtime
  | .error _ => publishFailure runtime

/-- `TriggerClean` from the command to the end of its thread, with nothing else
going on; `created` says whether the thread came into being. -/
def cleanManually (pipeline : Pipeline) (orders : HashOrders)
    (params : CleanParams) (created : Bool) (runtime : DaemonRuntimeState) :
    Act (DaemonRuntimeState × Pipeline) :=
  if runtime.shutdownRequested then pure (runtime, pipeline)
  else
    match claimManual runtime with
    | (false, runtime) => pure (runtime, pipeline)
    | (true, runtime) =>
      if created then do
        let (result, pipeline) ← pipeline.execute orders params
        let now ← ask .now
        pure (publishOutcome now result runtime, pipeline)
      else pure (runtime, pipeline)

end DaemonContext

def Store.reclaimed (store : Store) : Nat := (store.jobs.rows.map JobRow.totalReclaimedBytes).sum

namespace AuthoritativeCleanPipeline

/-- Requests about one job that leave the tree and the intents alone and set
totals of one kind only. -/
def Rehearses (job : JobId) (total : Nat → Prop) : Request → Prop
  | .write (.registerJob other _ _ _) => other = job
  | .write (.updateJobState other _ bytes) => other = job ∧ total bytes
  | .write (.createAttempt _ _ _ _) | .write (.updateAttemptState _ _)
  | .write (.releaseLease _ _) => True
  | .write _ | .unlink _ _ | .rmdir _ _ => False
  | _ => True

section

variable {job : JobId} {total : Nat → Prop}

variable {request : Request}

theorem Rehearses.of_quiet (quiet : request.quiet = true) : Rehearses job total request := by
  cases request with
  | write write => cases quiet
  | unlink directory name => cases quiet
  | rmdir directory name => cases quiet
  | _ => trivial

variable {pipeline : Pipeline} {orders : HashOrders}
  {admission : JobAdmissionRequest} {attempt : AttemptId}

theorem execute_rehearses
    (idle : pipeline.scheduler.queue = []) (dry : params.dryRun = true) (zero : total 0)
    (reported : ∀ catalog scheduler workerPool admission attempt,
      Yields (fun outcome => ∀ report, outcome.1 = .ok report → total report.totalFreedBytes)
        (runPipelineJob { pipeline with catalog, scheduler, workerPool } orders
          admission attempt)) : Issues (Rehearses ⟨pipeline.scheduler.jobCounter⟩ total)
      (pipeline.execute orders params) := by
  unfold execute SchedulerService.admitJob
  rw [idle]
  refine asks trivial fun view => ?_
  refine asks rfl fun registered => ?_
  cases registered with
  | error error => trivial
  | ok done =>
    refine asks trivial fun now => ?_
    refine (WorkerPool.claimAttempt_issues (fun _ _ _ => trivial)
      fun _ _ _ _ => trivial).bind fun claim => ?_
    obtain ⟨claimed, pool⟩ := claim
    cases claimed with
    | error error => trivial
    | ok attempt =>
      refine Issues.bind_yields (runPipelineJob_issues (fun _ _ => trivial) (fun _ => trivial)
        (fun _ real => nomatch dry.symm.trans real) trivial (fun _ looks => .of_quiet
          (Request.quiet_of_looks looks)) trivial) (reported ..) fun outcome holds => ?_
      refine Issues.bind (closeJob_issues ⟨rfl, zero⟩ (fun report ok => ⟨rfl, holds report ok⟩)
        (fun _ _ => trivial) fun _ _ => trivial) fun _ => ?_
      trivial

end

end AuthoritativeCleanPipeline

namespace AuthoritativeCleanPipeline

variable {pipeline : Pipeline}

section

variable {job : JobId} {total : Nat → Prop} {request : Request}

theorem Rehearses.fs (rehearses : Rehearses job total request) (env : Env)
    (world : World) : (env.respond request world).2.fs = world.fs := by
  cases request with
  | write write => exact fs_execute env world write
  | acquireLease resource worker ttl => exact fs_lease env world resource worker ttl
  | unlink directory name => exact rehearses.elim
  | rmdir directory name => exact rehearses.elim
  | recordAudit result =>
    simp only [Env.respond]
    split <;> rfl
  | _ => rw [env.respond_quiet rfl world, World.fs_advance]

variable {now : UnixTimestamp} {before after : Store} {reply : Reply request}

theorem Rehearses.intents (rehearses : Rehearses job total request)
    (effected : Effected now before after ⟨request, reply⟩) : after.intents = before.intents := by
  rcases effected with ⟨-, kept⟩ | ⟨write, written, executed⟩
  · exact kept.intents
  · obtain rfl := request_of_written written
    cases write with
    | commitOperationIntent intent => exact rehearses.elim
    | updateIntentState attempt op state => exact rehearses.elim
    | _ => exact (StoreWrite.frames executed).intents nofun

def Blank (job : JobId) (store : Store) : Prop :=
  ∀ row ∈ store.jobs.rows, row.jobId = job → row.totalReclaimedBytes = 0

theorem registerJob_rows {other : JobId} {jobType : String}
    {catalog : CatalogGeneration} {config : ConfigGeneration}
    (registered : Store.registerJob other jobType catalog config now before = .ok ((), after)) :
    after.jobs.rows = before.jobs.rows ∨ after.jobs.rows =
      before.jobs.rows ++ [⟨other, jobType, .admitted, catalog, config, 0⟩] := by
  unfold Store.registerJob at registered
  split at registered
  · split at registered
    · rename_i inserted
      cases registered
      exact .inr (Table.insert_some inserted).2
    · cases registered
      exact .inl rfl
  · cases registered

theorem reclaimed_setJobState (blank : Blank job store) (state : JobRowState) :
    (store.setJobState job state 0).jobs.rows.map JobRow.totalReclaimedBytes =
      store.jobs.rows.map JobRow.totalReclaimedBytes := by
  simp only [Store.setJobState, Table.update, List.map_map]
  refine List.map_congr_left fun row mem => ?_
  by_cases own : row.jobId = job
  · simp [own, blank row mem own]
  · simp [own]

theorem Rehearses.reclaimed (rehearses : Rehearses job (· = 0) request)
    (effected : Effected now before after ⟨request, reply⟩) (blank : Blank job before) :
    after.reclaimed = before.reclaimed ∧ Blank job after := by
  have same : after.jobs = before.jobs → after.reclaimed = before.reclaimed ∧ Blank job after := by
    intro jobs
    rw [Store.reclaimed, Blank, jobs]
    exact ⟨rfl, blank⟩
  rcases effected with ⟨-, kept⟩ | ⟨write, written, executed⟩
  · exact same kept.jobs
  · obtain rfl := request_of_written written
    cases write with
    | registerJob other jobType catalog config =>
      rcases registerJob_rows executed with rows | rows
      · exact same (Table.ext rows)
      · rw [Store.reclaimed, Blank, rows, List.map_append, List.sum_append]
        refine ⟨rfl, fun row mem own => ?_⟩
        rcases List.mem_append.mp mem with old | new
        · exact blank row old own
        · rw [List.mem_singleton.mp new]
    | updateJobState other state bytes =>
      obtain ⟨rfl, rfl⟩ := rehearses
      rw [Store.updateJobState_ok executed]
      refine ⟨congrArg List.sum (reclaimed_setJobState blank state), ?_⟩
      intro row mem own
      obtain ⟨old, inside, rfl⟩ := List.mem_map.mp mem
      split at own
      · rename_i chosen
        simp [chosen]
      · rename_i other
        rw [if_neg other]
        exact blank old inside own
    | _ => exact same ((StoreWrite.frames executed).jobs nofun)

end

def ReadsJobs (request : Request) (reply : Reply request) : Prop :=
  match request, reply with
  | .maxJobId, .error _ => False
  | _, _ => True

def Started (config : DaemonConfig) (pipeline : Pipeline)
    (world : World) : Prop :=
  ∃ (env : Env) (boot : World), (∀ count, Answered env.handler ReadsJobs count (new config) boot) ∧
    (new config).run env.handler boot = (some pipeline, world)

structure Unused (config : DaemonConfig) (pipeline : Pipeline)
    (store : Store) : Prop where
  config : pipeline.config = config
  idle : pipeline.scheduler.queue = []
  blank : Blank ⟨pipeline.scheduler.jobCounter⟩ store

theorem new_unused (env : Env) (config : DaemonConfig) (world : World) :
    Spec env.handler ReadsJobs (fun _ => True)
      (fun pipeline after => Unused config pipeline after.store) (new config) world := by
  refine Rules.quiet rfl trivial fun view _ _ => ?_
  refine Spec.bind (Spec.top _ _) fun recovered after _ => ?_
  refine Rules.quiet rfl trivial fun jobs answered asked => ?_
  cases jobs with
  | error error => exact answered.elim
  | ok largest =>
    refine Rules.quiet rfl trivial fun attempts _ _ => ?_
    refine Spec.done trivial ⟨rfl, rfl, ?_⟩
    intro row mem own
    have read : largest = after.store.maxJobId := Env.query_ok asked
    have below : row.jobId.val ≤ after.store.maxJobId := Store.le_maxJobId mem
    rw [own, ← read] at below
    exact absurd below (Nat.not_succ_le_self largest)

theorem Started.unused {config : DaemonConfig}
    (started : Started config pipeline world) : Unused config pipeline world.store := by
  obtain ⟨env, boot, answered, ran⟩ := started
  exact (new_unused env config boot).run_post answered ran

def Accepts (config : DaemonConfig) : Prop :=
  ∃ validated, ValidatedConfig.fromRaw (config.toRaw true) = some (.ok validated)

theorem runPipelineJob_refuses {config : DaemonConfig} (same : pipeline.config = config)
    (refused : ¬ Accepts config) (orders : HashOrders)
    (admission : JobAdmissionRequest) (attempt : AttemptId) :
    Yields (fun outcome => ∀ report, outcome.1 ≠ .ok report)
      (runPipelineJob pipeline orders admission attempt) := by
  subst same
  obtain ⟨result, read, dry⟩ := fromRaw_toRaw_dryRun pipeline.config admission.dryRun
  unfold runPipelineJob
  rw [read]
  cases result with
  | error error => exact fun report => nofun
  | ok validated => exact absurd ⟨_, dry⟩ refused

theorem closeJob_refuses
    (admission : JobAdmissionRequest) (attempt : AttemptId) (error : CleanerError) :
    Yields (fun returned => ∀ report, returned ≠ .ok report)
      (closeJob pipeline admission attempt (.error error)) := by
  refine Yields.bind (Yields.any (ask _)) fun _ _ => ?_
  refine Yields.bind (Yields.any (WorkerPool.finishAttempt ..)) fun _ _ => ?_
  exact fun report => nofun

theorem finishAttempt_succeeds {env : Env} (reliable : env.Reliable)
    (pool : WorkerPool) (job : JobId)
    (bound : attempt.val ≤ sqliteMax) (state : AttemptState) (world : World) :
    Returns env.handler (fun finished _ => finished = .ok ())
      (pool.finishAttempt attempt job state) world := by
  refine Rules.write_returns reliable (if_pos ?_) ?_
  · simpa [Store.bindable] using ⟨reliable.clock _, bound⟩
  · exact Rules.write_returns reliable rfl (Returns.done rfl)

theorem closeJob_succeeds {env : Env} (reliable : env.Reliable)
    (job : admission.jobId.val ≤ sqliteMax)
    (bound : attempt.val ≤ sqliteMax) {report : CleanReport}
    (fits : report.totalFreedBytes ≤ ByteCount.maxSafe) (world : World) :
    Returns env.handler (fun closed _ => closed = .ok report)
      (closeJob pipeline admission attempt (.ok report)) world := by
  have total : ByteCount.new? report.totalFreedBytes = some report.totalFreedBytes := if_pos fits
  have booked : report.totalFreedBytes ≤ sqliteMax := Nat.le_trans fits (by decide)
  simp only [closeJob, total]
  refine Rules.write_returns reliable (if_pos ?_) ?_
  · simpa [Store.bindable] using ⟨booked, reliable.clock _, job⟩
  · refine Returns.bind (finishAttempt_succeeds reliable _ _ bound _ _) ?_
    rintro _ _ rfl
    exact Returns.done rfl

theorem execute_refuses
    (refused : ¬ Accepts pipeline.config) (orders : HashOrders) (params : CleanParams) :
    Yields (fun outcome => ∀ report, outcome.1 ≠ .ok report) (pipeline.execute orders params) := by
  intro view
  refine (Yields.any (SchedulerService.admitJob ..)).bind fun outcome _ => ?_
  obtain ⟨admitted, scheduler⟩ := outcome
  cases admitted with
  | error error => exact fun report => nofun
  | ok admission =>
    refine (Yields.any (WorkerPool.claimAttempt ..)).bind fun claim _ => ?_
    obtain ⟨claimed, workerPool⟩ := claim
    cases claimed with
    | error error => exact fun report => nofun
    | ok attempt =>
      refine Yields.bind (runPipelineJob_refuses (by rfl) refused orders
        admission attempt) fun outcome fails => ?_
      obtain ⟨result, counters⟩ := outcome
      cases result with
      | ok report => exact absurd rfl (fails report)
      | error error =>
        exact Yields.bind (closeJob_refuses admission attempt error) fun _ fails => fails

end AuthoritativeCleanPipeline

namespace DaemonContext

open Daemon AuthoritativeCleanPipeline

section

variable {pipeline : Pipeline} {orders : HashOrders}
  {params : CleanParams} {created : Bool} {runtime : DaemonRuntimeState}

def TurnedAway (runtime : DaemonRuntimeState) : Prop :=
  runtime.shutdownRequested = true ∨ runtime.isCleaning = true

theorem cleanManually_turnedAway (away : TurnedAway runtime) :
    cleanManually pipeline orders params created runtime = pure (runtime, pipeline) := by
  unfold cleanManually
  split
  · rfl
  · rename_i running
    rw [claimManual, if_pos (away.resolve_left running)]

theorem cleanManually_taken (taken : ¬ TurnedAway runtime) :
    cleanManually pipeline orders params true runtime =
      (pipeline.execute orders params >>= fun ran =>
        ask .now >>= fun now => pure (publishOutcome now ran.1
          { runtime with isCleaning := true, state := .cleaningManual }, ran.2)) := by
  rw [TurnedAway, not_or] at taken
  rw [cleanManually, if_neg taken.1, claimManual, if_neg taken.2]
  rfl

theorem cleanManually_unborn (taken : ¬ TurnedAway runtime) :
    cleanManually pipeline orders params false runtime = pure
      ({ runtime with isCleaning := true, state := .cleaningManual }, pipeline) := by
  rw [TurnedAway, not_or] at taken
  rw [cleanManually, if_neg taken.1, claimManual, if_neg taken.2]
  rfl

theorem cleanManually_rehearses
    (executes : Issues (Rehearses job total) (pipeline.execute orders params)) :
    Issues (Rehearses job total) (cleanManually pipeline orders params created runtime) := by
  by_cases away : TurnedAway runtime
  · rw [cleanManually_turnedAway away]
    trivial
  · cases created with
    | true =>
      rw [cleanManually_taken away]
      exact executes.bind fun _ => asks trivial fun _ => trivial
    | false =>
      rw [cleanManually_unborn away]
      trivial

end

structure Intact (before after : World) : Prop where
  objects : after.fs = before.fs
  intents : after.store.intents = before.store.intents

/-- Nothing was removed or meant to be, and nothing says that bytes were
freed. -/
structure Traceless (runtime : DaemonRuntimeState) (before : World)
    (ran : Option (DaemonRuntimeState × Pipeline) × World) : Prop where
  intact : Intact before ran.2
  reclaimed : ran.2.store.reclaimed = before.store.reclaimed
  counters : ∀ after ∈ ran.1, after.1.totalFreedBytes = runtime.totalFreedBytes ∧
      after.1.lastFreedBytes = runtime.lastFreedBytes ∧
      after.1.lastCleanedTs = runtime.lastCleanedTs

/-- A dry run on a daemon just started leaves no trace, whatever happens around
it. -/
def LeavesNoTrace (config : DaemonConfig) (fs : Fs) (runtime : DaemonRuntimeState) : Prop :=
  ∀ pipeline world, Started config pipeline world → world.fs = fs →
    ∀ (env : Env) (orders : HashOrders) (params : CleanParams) (created : Bool),
      params.dryRun = true → Traceless runtime world
        ((cleanManually pipeline orders params created runtime).run env.handler world)

section

variable {config : DaemonConfig} {pipeline : Pipeline}
  {orders : HashOrders} {world : World} {runtime : DaemonRuntimeState} {params : CleanParams}

theorem Intact.respond (rehearses : Rehearses job total request) (env : Env)
    (intact : Intact world after) : Intact world (env.handler.respond request after).2 where
  objects := (rehearses.fs env after).trans intact.objects
  intents := (rehearses.intents (env.respond_effected request after)).trans intact.intents

theorem dry_run_intact (unused : Unused config pipeline world.store)
    (dry : params.dryRun = true) (env : Env) (orders : HashOrders)
    (created : Bool) (runtime : DaemonRuntimeState) :
    Intact world ((cleanManually pipeline orders params created runtime).run
      env.handler world).2 := by
  have executes : Issues (Rehearses ⟨pipeline.scheduler.jobCounter⟩
      fun _ => True) (pipeline.execute orders params) :=
    execute_rehearses unused.idle dry trivial fun _ _ _ _ _ =>
      (Yields.any _).mono fun _ _ _ _ => trivial
  have start : Intact world world := ⟨rfl, rfl⟩
  exact (cleanManually_rehearses executes).run_keeps
    (fun _ _ rehearses intact => intact.respond rehearses env) start

theorem cleanManually_fails (fails : Yields (fun outcome : Result CleanReport ×
        Pipeline => ∀ report, outcome.1 ≠ .ok report)
      (pipeline.execute orders params)) (created : Bool) :
    Yields (fun after => after.1.totalFreedBytes = runtime.totalFreedBytes ∧
        after.1.lastFreedBytes = runtime.lastFreedBytes ∧
        after.1.lastCleanedTs = runtime.lastCleanedTs)
      (cleanManually pipeline orders params created runtime) := by
  by_cases away : TurnedAway runtime
  · rw [cleanManually_turnedAway away]
    exact ⟨rfl, rfl, rfl⟩
  · cases created with
    | true =>
      rw [cleanManually_taken away]
      refine fails.bind fun outcome failed now => ?_
      obtain ⟨result, pipeline⟩ := outcome
      cases result with
      | ok report => exact absurd rfl (failed report)
      | error error => exact ⟨rfl, rfl, rfl⟩
    | false =>
      rw [cleanManually_unborn away]
      exact ⟨rfl, rfl, rfl⟩

structure Unbooked (job : JobId) (before after : World) : Prop where
  intact : Intact before after
  reclaimed : after.store.reclaimed = before.store.reclaimed
  blank : Blank job after.store

theorem Unbooked.respond (rehearses : Rehearses job (· = 0) request) (env : Env)
    (unbooked : Unbooked job world after) :
    Unbooked job world (env.handler.respond request after).2 := by
  obtain ⟨same, blank⟩ := rehearses.reclaimed (env.respond_effected request after) unbooked.blank
  exact ⟨unbooked.intact.respond rehearses env, same.trans unbooked.reclaimed, blank⟩

theorem refused_traceless (unused : Unused config pipeline world.store)
    (dry : params.dryRun = true) (refused : ¬ Accepts config) (env : Env)
    (orders : HashOrders) (created : Bool) : Traceless runtime world
      ((cleanManually pipeline orders params created runtime).run env.handler world) := by
  rw [← unused.config] at refused
  have executes : Issues (Rehearses ⟨pipeline.scheduler.jobCounter⟩ (· = 0))
      (pipeline.execute orders params) := by
    refine execute_rehearses unused.idle dry rfl fun _ _ _ admission attempt => ?_
    exact (runPipelineJob_refuses (by rfl) refused orders admission
      attempt).mono fun _ fails report same => absurd same (fails report)
  have start : Unbooked ⟨pipeline.scheduler.jobCounter⟩ world world :=
    ⟨⟨rfl, rfl⟩, rfl, unused.blank⟩
  have final : Unbooked ⟨pipeline.scheduler.jobCounter⟩ world
      ((cleanManually pipeline orders params created runtime).run env.handler
        world).2 := (cleanManually_rehearses executes).run_keeps
    (fun _ _ rehearses unbooked => unbooked.respond rehearses env) start
  refine ⟨final.intact, final.reclaimed, fun after returned => ?_⟩
  exact (cleanManually_fails (execute_refuses refused orders params)
    created).run (Prod.ext returned rfl)

def bare : PlatformView := ⟨[], fun _ => .unencrypted, fun _ => none, fun _ => none, fun _ => none⟩

def still (time : Fin 2) : Env :=
  .calm time.val bare (le_trans (Nat.le_of_lt time.isLt) (by decide))

def idlePipeline (config : DaemonConfig) : Pipeline where
  config := config
  catalog := TargetCatalog.discoverAllTargets bare TargetCatalog.new
  scheduler := ⟨[], 1⟩
  workerPool := ⟨⟨1⟩, 1⟩
  configGeneration := .initial
  counters := ⟨1, 1⟩

theorem started_idle (config : DaemonConfig) (fs : Fs) :
    Started config (idlePipeline config) ⟨4, fs, .empty, []⟩ := by
  refine ⟨still 0, ⟨0, fs, .empty, []⟩, ?_, rfl⟩
  refine Answered.of_respond (fun request world => ?_) _ _
  cases request <;> trivial

theorem still_reliable (time : Fin 2) : (still time).Reliable :=
  Env.calm_reliable (Nat.le_trans (Nat.le_of_lt time.isLt) (by decide))

theorem idle_executes (accepted : Accepts config) (time : Fin 2) (orders : HashOrders) (fs : Fs) :
    Returns (still time).handler (fun outcome _ => ∃ report, outcome.1 = .ok report)
      ((idlePipeline config).execute orders ⟨false, false, true⟩) ⟨4, fs, .empty, []⟩ := by
  obtain ⟨validated, read⟩ := accepted
  let known : Store :=
    { Store.empty with jobs := .single ⟨⟨1⟩, "PeriodicMaintenance", .admitted, ⟨3⟩, ⟨1⟩, 0⟩ }
  let leased : Store :=
    { known with leases := .single ⟨resourceForJob ⟨1⟩, ⟨1⟩, time.val + 300⟩ }
  let created : Store := { leased with attempts := .single ⟨⟨1⟩, ⟨1⟩, ⟨1⟩, .running⟩ }
  have registers : Store.registerJob ⟨1⟩ "PeriodicMaintenance" ⟨3⟩ ⟨1⟩ time.val .empty =
      .ok ((), known) := by fin_cases time <;> rfl
  have leases : Store.acquireLease (resourceForJob ⟨1⟩) ⟨1⟩ 300 time.val known =
      .ok (true, leased) := by fin_cases time <;> rfl
  have creates : Store.createAttempt ⟨1⟩ ⟨1⟩ ⟨1⟩ 300 time.val leased = .ok ((), created) := by
    fin_cases time <;> rfl
  have reliable := still_reliable time
  refine Rules.quiet_returns rfl fun _ seen => ?_
  cases seen
  refine Rules.write_returns reliable registers (Rules.quiet_returns rfl fun now _ => ?_)
  refine lease_runs (fun ran => ∃ outcome : Result CleanReport × Pipeline,
    ∃ final, ran = (some outcome, final) ∧ ∃ report, outcome.1 = .ok report) leased rfl leases ?_
  refine Rules.write_returns reliable creates ?_
  change Returns _ _ (runClaimed _ orders _ ⟨1⟩) _
  have none : orders.targets.order [] = [] := (orders.targets.perm []).eq_nil
  refine Returns.bind (@runPipelineJob_dry _ _ _ _ _ _ rfl _ read (· = []) ?_ ?_) ?_
  · change Returns _ _ (scanTargets (orders.targets.order []) 1) _
    rw [none]
    exact Returns.done rfl
  · rintro _ rfl
    exact ⟨Nat.zero_le _, List.forall_mem_nil _⟩
  rintro ⟨_, counters⟩ middle ⟨_, report, rfl, rfl, total⟩
  have fits : report.totalFreedBytes ≤ ByteCount.maxSafe := by
    rw [total]
    exact Nat.le_trans (Nat.min_le_left _ _) (Nat.zero_le _)
  have one : 1 ≤ sqliteMax := by decide
  refine Returns.bind (closeJob_succeeds reliable one one fits middle) ?_
  rintro _ final rfl
  exact Returns.done ⟨report, rfl⟩

theorem idle_publishes (taken : ¬ TurnedAway runtime)
    (accepted : Accepts config) (time : Fin 2) (orders : HashOrders) (fs : Fs) :
    Returns (still time).handler (fun after _ => after.1.lastCleanedTs = some time.val)
      (cleanManually (idlePipeline config) orders ⟨false, false, true⟩ true
        runtime) ⟨4, fs, .empty, []⟩ := by
  rw [cleanManually_taken taken]
  refine Returns.bind (idle_executes accepted time orders fs) ?_
  rintro ⟨_, pipeline⟩ middle ⟨report, rfl⟩
  refine Rules.quiet_returns rfl fun now told => ?_
  cases (told : now = time.val)
  exact Returns.done rfl

end

theorem started_device : Started Device.config Device.start Device.origin := by
  refine ⟨Device.env, Device.boot, ?_, rfl⟩
  refine Answered.of_respond (fun request world => ?_) _ _
  cases request <;> trivial

/-- A dry run removes nothing and means to remove nothing. It leaves the
counters and the totals alone exactly when no job comes of it, or one that
rejects the configuration. -/
theorem dry_run_traceless_iff (config : DaemonConfig) (fs : Fs) (runtime : DaemonRuntimeState) :
    (∀ pipeline world, Started config pipeline world →
      ∀ (env : Env) (orders : HashOrders) (params : CleanParams)
        (created : Bool), params.dryRun = true →
        Intact world ((cleanManually pipeline orders params created
          runtime).run env.handler world).2) ∧ (LeavesNoTrace config fs runtime ↔
        TurnedAway runtime ∨ ¬ Accepts config) := by
  refine ⟨?_, ?_, ?_⟩
  · intro pipeline world started env orders params created dry
    exact dry_run_intact started.unused dry env orders created runtime
  · intro traceless
    by_contra neither
    obtain ⟨taken, accepted⟩ := not_or.mp neither
    -- Of two times one is not the time of the last clean.
    obtain ⟨time, other⟩ : ∃ time : Fin 2, runtime.lastCleanedTs ≠ some time.val := by
      by_cases zero : runtime.lastCleanedTs = some 0
      · exact ⟨1, by simp [zero]⟩
      · exact ⟨0, zero⟩
    obtain ⟨after, final, ran, published⟩ := idle_publishes taken
      (not_not.mp accepted) time ⟨.inserted _, .inserted _⟩ fs
    have left := traceless _ _ (started_idle config fs) rfl (still time)
      ⟨.inserted _, .inserted _⟩ ⟨false, false, true⟩ true rfl
    rw [ran] at left
    have kept := (left.counters after rfl).2.2
    exact other (kept.symm.trans published)
  · rintro (away | refused) pipeline world started same env orders params created dry
    · rw [cleanManually_turnedAway away]
      refine ⟨⟨rfl, rfl⟩, rfl, ?_⟩
      rintro after ⟨⟩
      exact ⟨rfl, rfl, rfl⟩
    · exact refused_traceless started.unused dry refused env orders created

/-- A daemon that is stopping leaves no trace, the one on the device does. -/
theorem device_traceless_iff_stopping :
    Intact Device.origin ((cleanManually Device.start Device.orders
      Device.dryCall true .default).run Device.env.handler Device.origin).2 ∧
    LeavesNoTrace Device.config Device.fs
      { DaemonRuntimeState.default with shutdownRequested := true } ∧
    ¬ LeavesNoTrace Device.config Device.fs .default := by
  refine ⟨?_, ?_, ?_⟩
  · exact (dry_run_traceless_iff Device.config Device.fs .default).1 _ _
      started_device Device.env Device.orders Device.dryCall true rfl
  · exact (dry_run_traceless_iff Device.config Device.fs _).2.mpr (Or.inl (Or.inl rfl))
  · rw [(dry_run_traceless_iff Device.config Device.fs .default).2]
    rintro ((stopping | cleaning) | refused)
    · cases stopping
    · cases cleaning
    · exact refused (Device.accepted true)

/-- The dry run on the device books the five bytes of the file that is still
there. -/
theorem dry_run_books_bytes : Started Device.config Device.start Device.origin ∧
    let ran := (cleanManually Device.start Device.orders Device.dryCall true
      .default).run Device.env.handler Device.origin
    (ran.1.map fun after => (after.1.totalFreedBytes, after.1.lastFreedBytes,
        after.1.lastCleanedTs)) = some (5, 5, some 1000000) ∧
      Device.origin.store.reclaimed = 0 ∧ ran.2.store.reclaimed = 5 ∧
      (ran.2.fs.inode ⟨1, 5⟩).isSome = true :=
  ⟨started_device, by decide +kernel⟩

end DaemonContext

end CacheCleaner
