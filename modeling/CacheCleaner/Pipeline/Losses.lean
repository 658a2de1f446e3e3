import CacheCleaner.Executor.Removals
import CacheCleaner.Pipeline.Books
import CacheCleaner.Pipeline.Protected

namespace CacheCleaner

open Effect Effect.Program CleanupExecutor

namespace AuthoritativeCleanPipeline

open CleanupExecutor.Account (start observe setTotal told? completed? foldl_observe foldl_aside)

def audits (result : JobResult) (reply : Bool) : Exchange Request Reply :=
  ⟨.recordAudit result, reply⟩

def updates (job : JobId) (state : JobRowState) (total : Nat)
    (reply : Result Unit) : Exchange Request Reply :=
  ⟨.write (.updateJobState job state total), reply⟩

def rowTotal (job : JobId) (store : Store) : Option Nat :=
  (store.jobs.find job).map fun row => row.totalReclaimedBytes

theorem told_rowTotal (job : JobId) : Told (rowTotal job) (setTotal job) where
  lease := fun kept => by rw [rowTotal, rowTotal, kept.jobs]
  statement := by
    intro write now before after succeeded
    unfold rowTotal
    cases write with
    | registerJob other jobType catalog config =>
      rw [(Store.registerJob_ok succeeded).jobs]
      by_cases same : other = job
      · subst same
        cases before.jobs.find other <;> simp [setTotal]
      · simp [setTotal, same, Ne.symm same]
    | updateJobState other state total =>
      rw [Store.updateJobState_ok succeeded]
      by_cases same : other = job
      · subst same
        cases found : before.jobs.find other with
        | none => simp [setTotal, Store.setJobState, Table.find_update, found]
        | some row =>
          obtain ⟨after, found', total⟩ := Store.exists_find_setJobState found state total
          simp [setTotal, found', total]
      · rw [Store.find_setJobState_of_ne _ _ _ (Ne.symm same)]
        simp [setTotal, same]
    | _ =>
      rw [(StoreWrite.frames succeeded).jobs (by simp [StoreWrite.table])]
      rfl

section

variable {pipeline : Pipeline}
  {admission : JobAdmissionRequest} {attempt : AttemptId} {orders : HashOrders}
  {front log : Exchanges}

def opened : Account := ⟨.start, false, some 0, [], []⟩

inductive Executed (job : JobId) : Result JobResult → Account → Prop
  | refused {error : CleanerError} : Executed job (.error error) opened
  | halted {error : CleanerError} (committed : Option OperationIntent)
      (sure unsure : List OperationIntent) :
      Executed job (.error error) (opened.learn committed sure unsure true)
  | finished {result : JobResult} (committed : Option OperationIntent)
      (sure unsure : List OperationIntent) (is : result.jobId = job)
      (sum : result.totalReclaimed = saturatingSum (bytes sure)) :
      Executed job (.ok result) (opened.learn committed sure unsure false)

theorem executePlan_executed (authorized : AuthorizedPlan)
    (catalog : CatalogSnapshot) (config : ConfigGeneration) (attempt : AttemptId) :
    Paths (fun log result => Executed authorized.plan.jobId result
        (log.foldl (observe authorized.plan.jobId) opened))
      (executePlan authorized catalog config attempt) := by
  refine ⟨trivial, fun now => ?_⟩
  change Paths _ (authorizedRun authorized catalog config attempt now)
  unfold authorizedRun
  split
  · exact .refused
  · refine (executeOperations_course ..).bind ?_
    rintro log result ⟨records, course, rfl⟩
    obtain ⟨committed, sure, unsure, learned, total⟩ :=
      course.learned (Nat.zero_le _) authorized.plan.jobId (rfl : opened.watch.awaited = none)
    have known : (⟨.enterExecutePlan authorized catalog.generation config attempt, now⟩ ::
        (records.flatMap TurnRecord.log ++ [])).foldl (observe authorized.plan.jobId) opened = _ :=
      (congrArg _ (List.append_nil _)).trans learned
    cases result with
    | error error =>
      change Executed _ _ (List.foldl _ _ (_ :: (_ ++ [])))
      rw [known]
      exact .halted ..
    | ok progress =>
      change Executed _ _ (List.foldl _ _ (_ :: (_ ++ [])))
      rw [known]
      exact .finished committed sure unsure rfl (total _ rfl)

def plannedSizes (plan : PlannedPlan) : List Nat :=
  plan.operations.map fun op => op.opType.estimatedSize

inductive Tells (dryRun : Bool) (job : JobId) (planned : Option PlannedPlan) :
    Result CleanReport → Account → Prop
  | refused {error : CleanerError} : Tells dryRun job planned (.error error) opened
  | halted {error : CleanerError} (real : dryRun = false) (committed : Option OperationIntent)
      (sure unsure : List OperationIntent) :
      Tells dryRun job planned (.error error) (opened.learn committed sure unsure true)
  | rehearsed {report : CleanReport} (dry : dryRun = true) (plan : PlannedPlan)
      (made : planned = some plan)
      (sum : report.totalFreedBytes = saturatingSum (plannedSizes plan)) (result : JobResult) :
      Tells dryRun job planned (.ok report) { opened with told := [result] }
  | finished {report : CleanReport} {result : JobResult} (real : dryRun = false)
      (committed : Option OperationIntent) (sure unsure : List OperationIntent)
      (is : result.jobId = job) (sum : report.totalFreedBytes = saturatingSum (bytes sure))
      (told : result.totalReclaimed = report.totalFreedBytes) :
      Tells dryRun job planned (.ok report)
        { opened.learn committed sure unsure false with told := [result] }

def Works (admission : JobAdmissionRequest) (planned : Option PlannedPlan) (log : Exchanges)
    (result : Result CleanReport) : Prop :=
  Tells admission.dryRun admission.jobId planned result
    (log.foldl (observe admission.jobId) opened)

theorem report_log (admission : JobAdmissionRequest) (job : JobResult) :
    Paths (fun log finished => finished.totalFreedBytes = job.totalReclaimed ∧ ∀ account : Account,
        account.watch.awaited = none → log.foldl (observe admission.jobId) account =
          { account with told := account.told ++ [job] }) (report admission job) := by
  have trimmed : Paths (fun log _ => Silent log) (trimMounts admission) := by
    unfold trimMounts
    split
    · exact ⟨trivial, fun trimmed => Silent.nil.snoc rfl⟩
    · exact Silent.nil
  refine trimmed.bind fun trims trimmed silent =>
    ⟨trivial, fun reply => ⟨rfl, fun account idle => ?_⟩⟩
  rw [List.foldl_append, silent.observed idle]
  simp [observe, Watch.observe, isLost, written?, told?, completed?]

theorem carryOut_log (before : front.foldl (observe admission.jobId) opened = opened)
    (planned : authorized.plan.jobId = admission.jobId)
    (total : authorized.plan.totalEstimatedReclaim =
      saturatingSum (plannedSizes authorized.plan)) :
    Paths (fun log => Works admission (some authorized.plan) (front ++ log))
      (carryOut pipeline admission attempt authorized) := by
  unfold carryOut perform
  split
  · rename_i dry
    refine (report_log admission _).after fun log finished told => Ways.last ?_
    rw [Works, List.foldl_append, before, told.2 opened rfl]
    exact .rehearsed dry _ rfl (told.1.trans total) _
  · rename_i real
    rw [Bool.not_eq_true] at real
    refine (executePlan_executed authorized pipeline.catalog
      pipeline.configGeneration attempt).after fun log result executed => ?_
    rw [planned] at executed
    generalize known : log.foldl (observe admission.jobId) opened = account at executed
    have upTo : (front ++ log).foldl (observe admission.jobId) opened = account := by
      rw [List.foldl_append, before, known]
    cases executed with
    | refused =>
      refine Ways.last ?_
      rw [Works, upTo]
      exact .refused
    | halted committed sure unsure =>
      refine Ways.last ?_
      rw [Works, upTo]
      exact .halted real ..
    | finished committed sure unsure is sum =>
      refine (report_log admission _).after fun later finished told => Ways.last ?_
      rw [Works, List.foldl_append, upTo, told.2 _ rfl]
      exact .finished real committed sure unsure is (told.1.trans sum) told.1.symm

theorem foldl_silent (before : front.foldl (observe job) opened = opened) (silent : Silent log) :
    (front ++ log).foldl (observe job) opened = opened := by
  rw [List.foldl_append, before, silent.observed rfl]

def WorkLog (admission : JobAdmissionRequest) (planned : Option PlannedPlan) (log : Exchanges)
    (outcome : Result CleanReport × Counters) : Prop :=
  Works admission planned log outcome.1

theorem planAndRun_log (before : front.foldl (observe admission.jobId) opened = opened)
    (allowed : List PolicyPermit) (counters : Counters) :
    Paths (fun log => WorkLog admission
        (CleanupPlanner.buildPlan orders.paths admission.jobId pipeline.catalog.generation
          admission.configGeneration allowed).toOption (front ++ log))
      (planAndRun pipeline orders admission attempt allowed counters) := by
  unfold planAndRun
  cases built : CleanupPlanner.buildPlan orders.paths admission.jobId pipeline.catalog.generation
      admission.configGeneration allowed with
  | error error =>
    refine Ways.last ?_
    change Tells _ _ _ _ (front.foldl _ _)
    rw [before]
    exact .refused
  | ok plan =>
    have plans := CleanupPlanner.buildPlan_plans built
    dsimp only [Except.toOption]
    refine Ways.next trivial fun now => ?_
    obtain ⟨authorized, granted, authorizes⟩ :=
      AuthorizationEngine.authorizePlan_current ⟨counters.grant⟩ now 300 plans.catalog plans.config
    rw [granted]
    have asked : Silent [⟨.now, now⟩] := List.forall_mem_singleton.mpr rfl
    have total := CleanupPlanner.buildPlan_total built
    rw [← authorizes.same] at total
    refine (carryOut_log (foldl_silent before asked)
      (authorizes.same ▸ plans.job) total).bind fun log result works => ?_
    change Works admission (some plan) (front ++ [⟨.now, now⟩] ++ (log ++ [])) _
    rw [List.append_nil, ← authorizes.same]
    exact works

theorem survey_silent (pipeline : Pipeline) (orders : HashOrders)
    (admission : JobAdmissionRequest) :
    Paths (fun log _ => Silent log) (survey pipeline orders admission) := by
  have quiet : Issues (fun request => request.quiet = true)
      (survey pipeline orders admission) := by
    unfold survey
    split
    · trivial
    · trivial
    · refine asks rfl fun frozenUids => asks rfl fun now => ?_
      exact ((scanTargets_looks ..).mono fun _ => Request.quiet_of_looks).bind fun _ => trivial
  exact Paths.of_issues quiet

def plannedFor (pipeline : Pipeline) (orders : HashOrders)
    (admission : JobAdmissionRequest) : Act (Option PlannedPlan) := do
  match ← survey pipeline orders admission with
  | .error _ => pure none
  | .ok survey => pure (survey.plan pipeline orders admission).toOption

theorem runPipelineJob_log : Begins (WorkLog admission) (plannedFor pipeline orders admission)
      (runPipelineJob pipeline orders admission attempt) := by
  rw [runPipelineJob_eq_survey]
  -- both begin with the survey
  refine Begins.bind (survey_silent pipeline orders admission) fun log surveyed silent => ?_
  have before : log.foldl (observe admission.jobId) opened = opened := silent.observed rfl
  cases surveyed with
  | error error =>
    refine Begins.last ?_
    change Tells _ _ _ _ (log.foldl _ _)
    rw [before]
    exact .refused
  | ok survey => exact planAndRun_log before survey.permits _

theorem aside_paths {program : Act α}
    (issues : Issues (fun request => request.aside = true) program) :
    Paths (fun log _ => ∀ exchange ∈ log, exchange.1.aside = true) program :=
  Paths.of_issues issues

inductive Closing (account : Account) : Result CleanReport → Account → Prop
  | failed {error : CleanerError} : Closing account (.error error) account
  | unwritten {report : CleanReport} (fits : report.totalFreedBytes ≤ ByteCount.maxSafe) :
      Closing account (.ok report) account
  | written {report : CleanReport} (fits : report.totalFreedBytes ≤ ByteCount.maxSafe) :
      Closing account (.ok report)
        { account with
          total := some report.totalFreedBytes
          completed := account.completed ++ [report.totalFreedBytes] }

def Closes (job : JobId) (result : Result CleanReport) (log : Exchanges)
    (_ : Result CleanReport) : Prop :=
  ∀ account : Account, account.watch.awaited = none → account.total = some 0 →
    Closing account result (log.foldl (observe job) account)

theorem closeJob_log (pipeline : Pipeline) (admission : JobAdmissionRequest)
    (attempt : AttemptId) (result : Result CleanReport) :
    Paths (fun log => Closes admission.jobId result ([] ++ log))
      (closeJob pipeline admission attempt result) := by
  unfold closeJob
  cases result with
  | error error =>
    refine Ways.next trivial fun reply => ?_
    refine (aside_paths (WorkerPool.finishAttempt_issues rfl fun _ _ => rfl)).after
      fun back _ aside => Ways.last fun ⟨watch, lost, total, told, paid⟩ idle zero => ?_
    cases zero
    have kept : observe admission.jobId ⟨watch, lost, some 0, told, paid⟩
        ⟨.write (.updateJobState admission.jobId .failed 0), reply⟩ =
          ⟨watch, lost, some 0, told, paid⟩ := by
      cases reply <;> simp [observe, Watch.observe, isLost, written?, setTotal, told?, completed?]
    rw [List.nil_append, List.singleton_append, List.foldl_cons, kept, foldl_aside idle aside]
    exact .failed
  | ok finished =>
    dsimp only
    unfold ByteCount.new?
    split
    · trivial
    · rename_i total accepted
      obtain ⟨fits, ⟨⟩⟩ := Option.ite_none_right_eq_some.mp accepted
      refine Ways.next trivial fun reply => ?_
      cases reply with
      | error error =>
        refine Ways.last fun account idle total => ?_
        simp only [List.nil_append, List.foldl_cons, List.foldl_nil, observe, Watch.observe, isLost,
          written?, told?, completed?, Bool.or_false, Option.toList_none, List.append_nil]
        exact .unwritten fits
      | ok done =>
        refine (aside_paths (WorkerPool.finishAttempt_issues rfl fun _ _ => rfl)).after
          fun back updated aside => ?_
        have closes : ∀ returned, Closes admission.jobId (.ok finished) ([] ++ [⟨.write
            (.updateJobState admission.jobId .completed finished.totalFreedBytes), .ok ()⟩] ++ back)
            returned := by
          intro returned account idle total
          have paid : account.observe admission.jobId ⟨.write (.updateJobState
              admission.jobId .completed finished.totalFreedBytes), .ok ()⟩ =
              { account with
                total := some finished.totalFreedBytes
                completed := account.completed ++ [finished.totalFreedBytes] } := by
            simp [observe, Watch.observe, isLost, written?, setTotal, told?, completed?, total]
          rw [List.nil_append, List.singleton_append, List.foldl_cons, paid,
            foldl_aside (by exact idle) aside]
          exact .written fits
        cases updated <;> exact Ways.last (closes _)

end

def removedBytes (log : Exchanges) : Nat := (bytes (watched log).removed).sum

def Audited (job : JobId) (log : Exchanges) : Prop :=
  ∃ result reply, audits result reply ∈ log ∧ result.jobId = job ∧
    result.totalReclaimed = removedBytes log

/-- The row of the job holds what was removed, and the audit log is not kept
from it. -/
structure Accounted (job : JobId) (log : Exchanges) (total : Option Nat) : Prop where
  row : ∀ bytes, total = some bytes → bytes = removedBytes log
  audit : (watched log).removed ≠ [] → Audited job log

def Completes (job : JobId) (log : Exchanges) : Prop :=
  ∃ total, updates job .completed total (.ok ()) ∈ log

/-- Nothing is lost of what a run removed: every update of an intent succeeds,
every file is confirmed to be gone, and the row is written.  The last two
matter for files that are not empty only. -/
structure NothingLost (job : JobId) (log : Exchanges) : Prop where
  marked : log.any isLost = false
  confirmed : ∀ size ∈ bytes (watched log).doubtful, size = 0
  written : Completes job log ∨ ∀ size ∈ bytes (watched log).confirmed, size = 0

/-- When the accounts of a call can be trusted.  A dry run writes the sizes of the planned
files where the bytes removed belong. -/
def Accountable (dryRun : Bool) (job : JobId) (planned : Option PlannedPlan)
    (log : Exchanges) : Prop :=
  if dryRun then
    ∀ plan, planned = some plan → Completes job log → ∀ size ∈ plannedSizes plan, size = 0
  else (watched log).removed = [] ∨ NothingLost job log

section

variable {dryRun : Bool} {job : JobId} {log : Exchanges} {account : Account}
  {planned : Option PlannedPlan}

def leftTotal (job : JobId) (log : Exchanges) : Option Nat :=
  (statements log).foldl (setTotal job) none

def Accounts (dryRun : Bool) (job : JobId) (planned : Option PlannedPlan) (log : Exchanges) :
    Prop :=
  Accounted job log (leftTotal job log) ↔ Accountable dryRun job planned log

structure Sums (job : JobId) (log : Exchanges) (account : Account) : Prop where
  watch : watched log = account.watch
  lost : log.any isLost = account.lost
  left : leftTotal job log = account.total
  told : ∀ result, (∃ reply, audits result reply ∈ log) ↔ result ∈ account.told
  completed : ∀ total, updates job .completed total (.ok ()) ∈ log ↔ total ∈ account.completed

theorem sums (known : log.foldl (observe job) start = account) : Sums job log account := by
  rw [foldl_observe] at known
  subst known
  refine ⟨rfl, (Bool.false_or _).symm, rfl, fun result => ?_, fun total => ?_⟩
  · simp only [start, List.nil_append, List.mem_filterMap]
    constructor
    · rintro ⟨reply, mem⟩
      exact ⟨_, mem, rfl⟩
    · rintro ⟨⟨request, reply⟩, mem, told⟩
      cases request <;> cases told
      exact ⟨reply, mem⟩
  · simp only [start, List.nil_append, List.mem_filterMap]
    constructor
    · exact fun mem => ⟨_, mem, if_pos rfl⟩
    · rintro ⟨exchange, mem, completed⟩
      unfold completed? at completed
      split at completed
      · obtain ⟨rfl, ⟨⟩⟩ := Option.ite_none_right_eq_some.mp completed
        exact mem
      · cases completed

theorem Sums.accounts_of_nothing (sums : Sums job log account) (kept : account.watch.removed = [])
    (zero : ∀ total, account.total = some total → total = 0)
    (uncompleted : account.completed = []) : Accounts dryRun job planned log := by
  have kept : (watched log).removed = [] := sums.watch ▸ kept
  refine iff_of_true ⟨fun total left => ?_, fun removed => absurd kept removed⟩ ?_
  · rw [zero total (sums.left ▸ left), removedBytes, kept]
    rfl
  · unfold Accountable
    split
    · rintro plan - ⟨total, mem⟩
      rw [sums.completed, uncompleted] at mem
      cases mem
    · exact Or.inl kept

theorem Sums.accounts_of_lost (sums : Sums job log account) (lost : account.lost = true)
    (untold : account.told = []) (removed : (watched log).removed ≠ []) :
    Accounts false job planned log := by
  refine iff_of_false (fun accounted => ?_) fun accountable => ?_
  · obtain ⟨result, reply, mem, -⟩ := accounted.audit removed
    have told := (sums.told result).mp ⟨reply, mem⟩
    rw [untold] at told
    cases told
  · rcases accountable with nothing | fine
    · exact removed nothing
    · cases (fine.marked.symm.trans sums.lost).trans lost

theorem total_eq_sum
    (sum : total = saturatingSum sizes) (fits : total ≤ ByteCount.maxSafe) : total = sizes.sum := by
  rw [saturatingSum_eq_min] at sum
  rcases Nat.le_total sizes.sum u64Max with below | above
  · rwa [Nat.min_eq_left below] at sum
  · rw [Nat.min_eq_right above] at sum
    rw [sum] at fits
    exact absurd fits (by decide)

theorem Sums.accounted_iff {result : JobResult} (sums : Sums job log account)
    (left : account.total = some total) (told : account.told = [result])
    (is : result.jobId = job) : Accounted job log (leftTotal job log) ↔ total = removedBytes log ∧
        ((watched log).removed ≠ [] → result.totalReclaimed = removedBytes log) := by
  rw [← sums.left] at left
  constructor
  · rintro ⟨row, audit⟩
    refine ⟨row total left, fun removed => ?_⟩
    obtain ⟨other, reply, mem, -, right⟩ := audit removed
    have mem := (sums.told other).mp ⟨reply, mem⟩
    rw [told] at mem
    cases List.mem_singleton.mp mem
    exact right
  · rintro ⟨right, same⟩
    refine ⟨fun bytes here => ?_, fun removed => ?_⟩
    · cases left.symm.trans here
      exact right
    · obtain ⟨reply, mem⟩ := (sums.told result).mpr (told ▸ List.mem_singleton_self _)
      exact ⟨result, reply, mem, is, same removed⟩

theorem Sums.accounts_of_finished {result : JobResult} (sums : Sums job log account)
    (idle : account.watch.awaited = none) (kept : account.lost = false)
    (sum : result.totalReclaimed = saturatingSum (bytes account.watch.confirmed))
    (told : account.told = [result]) (is : result.jobId = job)
    (fits : result.totalReclaimed ≤ ByteCount.maxSafe) (left : account.total = some total)
    (written : total = result.totalReclaimed ∧ account.completed ≠ [] ∨
      total = 0 ∧ account.completed = []) : Accounts false job planned log := by
  have sizes : removedBytes log =
      (bytes (watched log).confirmed).sum + (bytes (watched log).doubtful).sum := by
    rw [removedBytes, sums.watch, Watch.removed, idle, Option.toList_none,
      List.append_nil, bytes, List.map_append, List.sum_append]
    rfl
  rw [← sums.watch] at sum
  have gone := total_eq_sum sum fits
  rw [Accounts, sums.accounted_iff left told is]
  constructor
  · rintro ⟨right, told⟩
    by_cases removed : (watched log).removed = []
    · exact Or.inl removed
    · have all := told removed
      refine Or.inr ⟨sums.lost.trans kept, List.sum_eq_zero_iff.mp (by omega), ?_⟩
      rcases written with ⟨-, completes⟩ | ⟨rfl, -⟩
      · obtain ⟨total, mem⟩ := List.exists_mem_of_ne_nil _ completes
        exact Or.inl ⟨total, (sums.completed total).mpr mem⟩
      · exact Or.inr (List.sum_eq_zero_iff.mp (by omega))
  · rintro (nothing | fine)
    · have none : removedBytes log = 0 := by
        rw [removedBytes, nothing]
        rfl
      refine ⟨?_, fun removed => absurd nothing removed⟩
      rcases written with ⟨rfl, -⟩ | ⟨rfl, -⟩ <;> omega
    · have unsure := List.sum_eq_zero_iff.mpr fine.confirmed
      have right : result.totalReclaimed = removedBytes log := by
        rw [gone, sizes, unsure, Nat.add_zero]
      refine ⟨?_, fun _ => right⟩
      rcases written with ⟨rfl, -⟩ | ⟨rfl, uncompleted⟩
      · omega
      · have never : ¬ Completes job log := by
          rintro ⟨total, mem⟩
          rw [sums.completed, uncompleted] at mem
          cases mem
        have sure := List.sum_eq_zero_iff.mpr (fine.written.resolve_left never)
        omega

theorem Tells.left (tells : Tells dryRun job planned result account) :
    account.watch.awaited = none ∧ account.total = some 0 := by
  cases tells <;> exact ⟨rfl, rfl⟩

theorem accounts_of_work (tells : Tells dryRun job planned result worked)
    (closing : Closing worked result account) (sums : Sums job log account) :
    Accounts dryRun job planned log := by
  cases tells with
  | refused =>
    cases closing with
    | failed =>
      refine sums.accounts_of_nothing rfl ?_ rfl
      rintro total ⟨⟩
      rfl
  | halted real committed sure unsure =>
    cases closing with
    | failed =>
      by_cases kept : (watched log).removed = []
      · refine sums.accounts_of_nothing (sums.watch ▸ kept) ?_ rfl
        rintro total ⟨⟩
        rfl
      · rw [real]
        exact sums.accounts_of_lost rfl rfl kept
  | rehearsed dry plan made sum result =>
    cases closing with
    | unwritten fits =>
      refine sums.accounts_of_nothing rfl ?_ rfl
      rintro total ⟨⟩
      rfl
    | written fits =>
      have kept : (watched log).removed = [] := sums.watch ▸ rfl
      have none : removedBytes log = 0 := by
        rw [removedBytes, kept]
        rfl
      have total := total_eq_sum sum fits
      rw [dry]
      constructor
      · intro accounted other here _
        cases made.symm.trans here
        rw [← List.sum_eq_zero_iff, ← total, accounted.row _ sums.left, none]
      · intro empty
        refine ⟨fun bytes same => ?_, fun removed => absurd kept removed⟩
        cases sums.left.symm.trans same
        rw [none, total, List.sum_eq_zero_iff]
        exact empty plan made ⟨_, (sums.completed _).mpr (List.mem_singleton_self _)⟩
  | finished real committed sure unsure is sum told =>
    rw [real]
    rw [← told] at sum
    cases closing with
    | unwritten fits =>
      exact sums.accounts_of_finished rfl rfl sum rfl is (told ▸ fits) rfl (Or.inr ⟨rfl, rfl⟩)
    | written fits =>
      exact sums.accounts_of_finished rfl rfl sum rfl is (told ▸ fits) rfl
        (Or.inl ⟨told.symm, List.cons_ne_nil _ _⟩)

theorem foldl_registering {view : PlatformView} {now : UnixTimestamp} : List.foldl (observe job)
      start ([] ++ [⟨.discover, view⟩] ++ [⟨.write (.registerJob job jobType snapshot settings),
        .ok ()⟩] ++ [⟨.now, now⟩]) = opened := by
  simp [observe, start, opened, Watch.observe, isLost, written?, setTotal, told?, completed?]

def executePlanned (pipeline : Pipeline) (orders : HashOrders)
    (params : CleanParams) : Act (Option PlannedPlan) := do
  let view ← ask .discover
  let catalog := TargetCatalog.discoverAllTargets view pipeline.catalog
  let (admitted, scheduler) ← pipeline.scheduler.admitJob params.trigger
    params.deep params.trim params.dryRun catalog.generation pipeline.configGeneration
  let pipeline := { pipeline with catalog, scheduler }
  match admitted with
  | .error _ => pure none
  | .ok admission =>
    let (claimed, workerPool) ← pipeline.workerPool.claimAttempt admission.jobId 300
    match claimed with
    | .error _ => pure none
    | .ok _ => plannedFor { pipeline with workerPool } orders admission

def Called (dryRun : Bool) (job : JobId) (planned : Option PlannedPlan) (log : Exchanges)
    (_ : Result CleanReport × Pipeline) : Prop :=
  Accounts dryRun job planned log

theorem execute_log {pipeline : Pipeline}
    (fresh : pipeline.scheduler.queue = []) :
    Begins (fun planned log =>
        Called params.dryRun ⟨pipeline.scheduler.jobCounter⟩ planned ([] ++ log))
      (executePlanned pipeline orders params) (pipeline.execute orders params) := by
  unfold execute executePlanned SchedulerService.admitJob
  rw [fresh]
  refine Begins.next fun view => ?_
  refine Begins.next fun registered => ?_
  cases registered with
  | error error => exact Begins.last ((sums rfl).accounts_of_nothing rfl nofun rfl)
  | ok done =>
    refine Begins.next fun now => ?_
    refine Begins.after (aside_paths (WorkerPool.claimAttempt_issues (fun _ _ _ => rfl)
      fun _ _ _ _ => rfl)) fun claim claimed aside => ?_
    have known {front : Exchanges}
        (upTo : front.foldl (observe ⟨pipeline.scheduler.jobCounter⟩) start = opened) :
        (front ++ claim).foldl (observe ⟨pipeline.scheduler.jobCounter⟩) start = opened := by
      rw [List.foldl_append, upTo, foldl_aside rfl aside]
    obtain ⟨claimed, pool⟩ := claimed
    cases claimed with
    | error error =>
      refine Begins.last ((sums (known foldl_registering)).accounts_of_nothing rfl ?_ rfl)
      rintro total ⟨⟩
      rfl
    | ok attempt =>
      refine runPipelineJob_log.extend fun work planned outcome tells => ?_
      refine (closeJob_log ..).after fun closing returned closes => Ways.last ?_
      obtain ⟨idle, zero⟩ := tells.left
      refine accounts_of_work tells (closes _ idle zero) (sums ?_)
      rw [List.foldl_append, List.foldl_append, known foldl_registering]
      rfl

end

end AuthoritativeCleanPipeline

open AuthoritativeCleanPipeline

/-- The accounts of a call on a new job are right exactly when nothing was lost
of what it removed. -/
theorem failed_call_accounts_for_removals {env : Env}
    {pipeline after : Pipeline} {orders : HashOrders}
    {params : CleanParams} {world final : World} {result : Result CleanReport}
    (fresh : pipeline.scheduler.queue = [])
    (unknown : world.store.jobs.find ⟨pipeline.scheduler.jobCounter⟩ = none)
    (ran : (pipeline.execute orders params).run env.handler world = (some (result, after), final)) :
    let job : JobId := ⟨pipeline.scheduler.jobCounter⟩
    let log := (pipeline.execute orders params).log env.handler world
    ∃ plan?, ((executePlanned pipeline orders params).run env.handler world).1 = some plan? ∧
      (Accounted job log (rowTotal job final.store) ↔
        Accountable params.dryRun job plan? log) := by
  intro job log
  obtain ⟨plan?, made, called⟩ := (execute_log fresh).run ran
  refine ⟨plan?, made, ?_⟩
  have total := (told_rowTotal job).run env (pipeline.execute orders params) world
  have none : rowTotal job world.store = none := by
    rw [rowTotal, unknown]
    rfl
  rw [ran, none] at total
  rw [show rowTotal job final.store = leftTotal job log from total]
  exact called

namespace Device

def realLog (env : Env) : Exchanges := (start.execute orders realCall).log env.handler origin

def forgetful : Env :=
  { env with
    writeFault := fun _ write =>
      match write with
      | .updateIntentState _ _ .verifiedSuccess => true
      | _ => false }

theorem realCall_completes : Completes ⟨1⟩ (realLog env) := by
  have paid : 5 ∈ ((realLog env).foldl (Account.observe ⟨1⟩) Account.start).completed := by
    decide +kernel
  exact ⟨5, ((sums rfl).completed 5).mpr paid⟩

end Device

theorem realCall_accounts : removedBytes (Device.realLog Device.env) = 5 ∧
      Accounted ⟨1⟩ (Device.realLog Device.env) (rowTotal ⟨1⟩
        (Device.execute Device.start Device.realCall Device.origin).2.store) := by
  refine ⟨by decide +kernel, ?_⟩
  have ran : (Device.start.execute Device.orders Device.realCall).run
      Device.env.handler Device.origin =
        (some ((Device.execute Device.start Device.realCall Device.origin).1.get
          Device.realCall_returns),
          (Device.execute Device.start Device.realCall Device.origin).2) :=
    Prod.ext (Option.some_get Device.realCall_returns).symm rfl
  obtain ⟨plan?, -, accounts⟩ := failed_call_accounts_for_removals rfl rfl ran
  refine accounts.mpr ?_
  have doubtful : (watched (Device.realLog Device.env)).doubtful = [] := by
    decide +kernel
  refine Or.inr ⟨by decide +kernel, ?_, Or.inl Device.realCall_completes⟩
  change ∀ size ∈ bytes (watched (Device.realLog Device.env)).doubtful, size = 0
  rw [doubtful]
  exact List.forall_mem_nil _

/-- One store write fails after the file is gone: the call returns an error,
its row says that nothing was reclaimed and the audit log is never told. -/
theorem failed_update_hides_removal : ((Device.realLog Device.forgetful).filter fun exchange =>
        !isStored exchange).length = 1 ∧
      removedBytes (Device.realLog Device.forgetful) = 5 ∧
      rowTotal ⟨1⟩ ((Device.start.execute Device.orders Device.realCall).run
        Device.forgetful.handler Device.origin).2.store = some 0 ∧
      ((Device.start.execute Device.orders Device.realCall).run
        Device.forgetful.handler Device.origin).2.audit = [] ∧
      ¬ Accounted ⟨1⟩ (Device.realLog Device.forgetful) (rowTotal ⟨1⟩
        ((Device.start.execute Device.orders Device.realCall).run
          Device.forgetful.handler Device.origin).2.store) := by
  have removed : removedBytes (Device.realLog Device.forgetful) = 5 := by
    decide +kernel
  have left : rowTotal ⟨1⟩ ((Device.start.execute Device.orders
      Device.realCall).run Device.forgetful.handler
      Device.origin).2.store = some 0 := by decide +kernel
  refine ⟨by decide +kernel, removed, left, by decide +kernel, ?_⟩
  intro accounted
  have same := accounted.row 0 left
  rw [removed] at same
  cases same

end CacheCleaner
