import CacheCleaner.Executor.Program
import CacheCleaner.Effect.Log
import CacheCleaner.Runtime.Rules

namespace CacheCleaner

open Effect Effect.Program
open SafeDirHandle (removeChild)

variable {request : Request}

def Request.opens : Request → Bool
  | .acquireFdPermit | .openRoot _ _ | .openChild _ _ _ => true
  | _ => false

def Request.handles : Request → Bool
  | .statChild _ _ | .unlink _ _ | .rmdir _ _ => true
  | _ => false

/-- What a deletion asks for once its throttle step is through. -/
def Request.deletes : Request → Bool
  | .acquireTargetLock _ _ | .now | .write (.commitOperationIntent _)
  | .write (.updateIntentState _ _ _) | .write (.recordOperationResult _) => true
  | request => request.opens || request.handles

def Request.operates : Request → Bool
  | .isCancelled | .throttleMutation => true
  | request => request.deletes

theorem Request.quiet_of_opens (opens : request.opens = true) :
    request.quiet = true := by
  cases request <;> first | rfl | cases opens

theorem Request.deletes_of_opens (opens : request.opens = true) :
    request.deletes = true := by
  cases request <;> first | rfl | cases opens

theorem Request.deletes_of_handles (handles : request.handles = true) :
    request.deletes = true := by
  cases request <;> first | rfl | cases handles

theorem Request.operates_of_deletes (deletes : request.deletes = true) :
    request.operates = true := by
  cases request <;> first | rfl | exact deletes

namespace CleanupExecutor

variable {operations : List PlannedOperation}

abbrev Exchanges := List (Exchange Request Reply)

structure TurnRecord where
  log : Exchanges
  result : Result Progress

def turns (env : Env) (context : Context) :
    List PlannedOperation → Progress → World → List TurnRecord
  | [], _, _ => []
  | op :: rest, progress, world =>
    let turn := executeOperation context op progress
    match turn.run env.handler world with
    | (some (.ok progress'), after) =>
      ⟨turn.log env.handler world, .ok progress'⟩ :: turns env context rest progress' after
    | (some (.error error), _) =>
      [⟨turn.log env.handler world, .error error⟩]
    | (none, _) => []

def Silent (log : Exchanges) : Prop := ∀ exchange ∈ log, exchange.1.quiet = true

theorem Silent.nil : Silent [] := fun _ mem => nomatch mem

theorem Silent.append (first : Silent front) (second : Silent back) : Silent (front ++ back) :=
  List.forall_mem_append.mpr ⟨first, second⟩

theorem Silent.snoc {log : Exchanges}
    (silent : Silent log) (quiet : exchange.1.quiet = true) : Silent (log ++ [exchange]) :=
  silent.append (List.forall_mem_singleton.mpr quiet)

def commits (context : Context) (op : OperationId) (deletion : Deletion)
    (now : UnixTimestamp) (reply : Result Unit) : Exchange Request Reply :=
  ⟨.write (.commitOperationIntent (intentOf context op deletion now)), reply⟩

def marks (context : Context) (op : OperationId) (state : IntentState)
    (reply : Result Unit) : Exchange Request Reply :=
  ⟨.write (.updateIntentState context.attempt op state), reply⟩

def records (context : Context) (deletion : Deletion)
    (result : OperationFinalResult) (reply : Result Unit) : Exchange Request Reply :=
  ⟨.write (.recordOperationResult (resultRow context deletion result)), reply⟩

def removes (kind : RemovalKind) (parent : FileIdentity) (leaf : String)
    (reply : Except Errno Unit) : Exchange Request Reply :=
  match kind with
  | .file => ⟨.unlink parent leaf, reply⟩
  | .directory => ⟨.rmdir parent leaf, reply⟩

def verifies (parent : FileIdentity) (leaf : String)
    (reply : Except Errno FileIdentity) : Exchange Request Reply :=
  ⟨.statChild parent leaf, reply⟩

inductive Removal (kind : RemovalKind) (parent : FileIdentity)
    (leaf : String) : Exchanges → Result Unit → Prop
  | refused {log : Exchanges} {error : CleanerError} (silent : Silent log) :
      Removal kind parent leaf log (.error error)
  | called {front : Exchanges} (silent : Silent front) (reply : Except Errno Unit) :
      Removal kind parent leaf (front ++ [removes kind parent leaf reply])
        (reply.mapError CleanerError.io)

def Fulfilled (op : PlannedOperation) (progress : Progress) : Prop :=
  ∀ dependency ∈ op.dependencies, dependency ∈ progress.successfulOpIds

def settled (op : PlannedOperation) (settlement : Settlement) : OperationFinalResult :=
  ⟨op.opId, settlement.status, settlement.reclaimed⟩

/-- The exchanges up to the mutation of an operation, whose intent is committed
and marked. -/
inductive Marked (context : Context) (op : PlannedOperation)
    (deletion : Deletion) : Exchanges → Prop
  | intro (now : UnixTimestamp)
      (before : Silent gates) (after : Silent opens) : Marked context op deletion (gates ++
        [commits context op.opId deletion now (.ok ())] ++
        [marks context op.opId .mutating (.ok ())] ++ opens)

inductive Report (context : Context) (op : PlannedOperation)
    (progress : Progress) : Exchanges → Result Progress → Prop
  | skipped {log : Exchanges} (status : OperationStatus)
      (unsuccessful : status ≠ .success) (silent : Silent log) :
      Report context op progress log (.ok (progress.skip op.opId status))
  | failed {log : Exchanges} (error : String) (silent : Silent log) :
      Report context op progress log (.ok (progress.fail op.opId error))
  | uncommitted {gates : Exchanges} (deletion : Deletion)
      (now : UnixTimestamp) (refusal : CleanerError) (error : String)
      (fulfilled : Fulfilled op progress) (silent : Silent gates) : Report context op progress
        (gates ++ [commits context op.opId deletion now (.error refusal)])
        (.ok (progress.fail op.opId error))
  | unmarked {gates : Exchanges} (deletion : Deletion) (now : UnixTimestamp)
      (error : CleanerError) (fulfilled : Fulfilled op progress) (silent : Silent gates) :
      Report context op progress (gates ++ [commits context op.opId deletion now (.ok ())] ++
          [marks context op.opId .mutating (.error error)]) (.error error)
  | abandoned {front : Exchanges} (deletion : Deletion) (error : String)
      (fulfilled : Fulfilled op progress) (marked : Marked context op deletion front) :
      Report context op progress front (.ok (progress.fail op.opId error))
  | unsettled {front middle : Exchanges} (deletion : Deletion)
      (parent : FileIdentity) (leaf : String) (mutation : Result Unit)
      (seen : Except Errno FileIdentity) (state : IntentState)
      (error : CleanerError) (fulfilled : Fulfilled op progress)
      (asks : deletion? op.opType = some deletion) (marked : Marked context op deletion front)
      (removal : Removal deletion.kind parent leaf middle mutation) : Report context op progress
        (front ++ middle ++ [verifies parent leaf seen] ++
          [marks context op.opId state (.error error)]) (.error error)
  | finished {front middle : Exchanges} (deletion : Deletion)
      (parent : FileIdentity) (leaf : String) (mutation : Result Unit)
      (seen : Except Errno FileIdentity) (settlement : Settlement)
      (cache : Option ActiveDirCache) (reply : Result Unit) (fulfilled : Fulfilled op progress)
      (asks : deletion? op.opType = some deletion) (marked : Marked context op deletion front)
      (removal : Removal deletion.kind parent leaf middle mutation)
      (settles : settlement = settle deletion mutation
        (PostconditionVerifier.classifyStat deletion.expected seen)) : Report context op progress
        (front ++ middle ++ [verifies parent leaf seen] ++
          [marks context op.opId settlement.state (.ok ())] ++
          [records context deletion (settled op settlement) reply])
        (.ok (progress.record (settled op settlement) cache))

theorem openDescendant_opens (directory : FileIdentity) :
    Sure (·.opens = true) (fun _ _ => True) (openDescendant directory names) := by
  induction names generalizing directory with
  | nil => trivial
  | cons name rest ih =>
    refine ⟨rfl, fun _ => ⟨rfl, fun opened => ?_⟩⟩
    cases opened with
    | error errno => trivial
    | ok child => exact ih child

theorem getOrOpenParentDir_opens (cache : Option ActiveDirCache) (target : TargetDescriptor)
    (path : RelativePath) :
    Sure (·.opens = true) (fun _ _ => True) (getOrOpenParentDir cache target path) := by
  unfold getOrOpenParentDir
  split
  · trivial
  · split
    · trivial
    · refine ⟨rfl, fun _ => ⟨rfl, fun opened => ?_⟩⟩
      cases opened with
      | error errno => trivial
      | ok root =>
        refine (openDescendant_opens root).bind fun _ parent _ => ?_
        cases parent <;> trivial

theorem removeChild_removal (kind : RemovalKind) (parent : FileIdentity)
    (leaf : String) (expected : FileIdentity) :
    Sure (·.handles = true) (fun log => Removal kind parent leaf ([] ++ log))
      (removeChild kind parent leaf expected) := by
  unfold removeChild
  split
  · refine Ways.next rfl fun seen => ?_
    have silent : Silent ([] ++ [⟨.statChild parent leaf, seen⟩]) := Silent.nil.snoc rfl
    cases seen with
    | error errno => exact Ways.last (.refused silent)
    | ok current =>
      simp only
      split
      · exact Ways.last (.refused silent)
      · cases kind <;> refine Ways.next rfl fun reply => ?_
        · cases reply <;> exact Ways.last (.called silent _)
        · cases reply <;> exact Ways.last (.called silent _)
  · exact Ways.last (.refused .nil)

section

variable {context : Context} {op : PlannedOperation} {progress : Progress} {deletion : Deletion}

theorem removeAndVerify_report (fulfilled : Fulfilled op progress)
    (asks : deletion? op.opType = some deletion)
    (marked : Marked context op deletion front) (parent : FileIdentity)
    (leaf : String) (cache : Option ActiveDirCache) :
    Sure (·.deletes = true) (fun log => Report context op progress (front ++ log))
      (removeAndVerify context op.opId deletion progress parent leaf cache) := by
  refine ((removeChild_removal ..).mono id (fun _ => Request.deletes_of_handles)
    fun _ _ => id).after fun middle mutation removal => ?_
  refine Ways.next rfl fun seen => Ways.next rfl fun updated => ?_
  cases updated with
  | error error =>
    exact Ways.last (.unsettled deletion parent leaf mutation seen _ error
      fulfilled asks marked removal)
  | ok done =>
    refine Ways.next rfl fun reply => Ways.last ?_
    exact .finished deletion parent leaf mutation seen _ _ reply fulfilled asks marked removal rfl

theorem mutate_report (silent : Silent gates)
    (now : UnixTimestamp) (fulfilled : Fulfilled op progress)
    (asks : deletion? op.opType = some deletion) : Sure (·.deletes = true)
      (fun log => Report context op progress
        (gates ++ [commits context op.opId deletion now (.ok ())] ++ log))
      (mutate context op.opId deletion progress target) := by
  refine Ways.next rfl fun updated => ?_
  cases updated with
  | error error =>
    exact Ways.last (.unmarked deletion now error fulfilled silent)
  | ok done =>
    refine ((getOrOpenParentDir_opens ..).heard.mono id (fun _ => Request.deletes_of_opens)
      fun _ _ => id).after fun opens opened opening => ?_
    have marked : Marked context op deletion
        (gates ++ [commits context op.opId deletion now (.ok ())] ++
          [marks context op.opId .mutating (.ok ())] ++ opens) :=
      .intro now silent fun exchange mem => Request.quiet_of_opens (opening exchange mem)
    cases opened with
    | error error =>
      exact Ways.last (.abandoned deletion _ fulfilled marked)
    | ok found => exact removeAndVerify_report fulfilled asks marked ..

theorem executeDeletion_report {gates : Exchanges} (silent : Silent gates)
    (fulfilled : Fulfilled op progress) (asks : deletion? op.opType = some deletion) :
    Sure (·.deletes = true) (fun log => Report context op progress (gates ++ log))
      (executeDeletion context op.opId deletion progress) := by
  unfold executeDeletion
  split
  · exact Ways.last (.failed _ silent)
  · refine Ways.next rfl fun lock => ?_
    cases lock with
    | error error => exact Ways.last (.failed _ (silent.snoc rfl))
    | ok acquired =>
      refine Ways.next rfl fun now => ?_
      have gated : Silent (gates ++ [⟨.acquireTargetLock deletion.targetId context.attempt,
            .ok acquired⟩] ++ [⟨.now, now⟩]) :=
        (silent.snoc rfl).snoc rfl
      split
      · exact Ways.last (.failed _ gated)
      · refine Ways.next rfl fun committedAt => Ways.next rfl fun committed => ?_
        cases committed with
        | error error =>
          exact Ways.last (.uncommitted deletion committedAt error _ fulfilled (gated.snoc rfl))
        | ok done =>
          exact mutate_report (gated.snoc rfl) committedAt fulfilled asks

theorem executeOperation_report (context : Context) (op : PlannedOperation) (progress : Progress) :
    Sure (·.operates = true) (fun log => Report context op progress ([] ++ log))
      (executeOperation context op progress) := by
  refine Ways.next rfl fun cancelled => ?_
  have silent : Silent ([] ++ [⟨.isCancelled, cancelled⟩]) := Silent.nil.snoc rfl
  split
  · exact Ways.last (.skipped _ (by simp) silent)
  · split
    · exact Ways.last (.skipped _ (by simp) silent)
    · rename_i unfulfilled
      have fulfilled : Fulfilled op progress := by
        simpa [Fulfilled] using unfulfilled
      split
      · exact Ways.last (.failed _ silent)
      · refine Ways.next rfl fun throttled => ?_
        split
        · exact (executeDeletion_report (silent.snoc rfl) fulfilled ‹_›).mono id
            (fun _ => Request.operates_of_deletes) fun _ _ => id
        · exact Ways.last (.skipped _ (by simp) (silent.snoc rfl))

theorem Report.of_run {env : Env}
    (ran : (executeOperation context op progress).run env.handler world = (some result, after)) :
    Report context op progress
      ((executeOperation context op progress).log env.handler world) result :=
  (executeOperation_report context op progress).run ran

end

inductive Course (context : Context) : List PlannedOperation → Progress →
    List TurnRecord → Result Progress → Prop
  | done (progress : Progress) : Course context [] progress [] (.ok progress)
  | turn {op : PlannedOperation} {rest : List PlannedOperation}
      {progress middle : Progress} {log : Exchanges}
      {records : List TurnRecord} {result : Result Progress}
      (report : Report context op progress log (.ok middle))
      (later : Course context rest middle records result) :
      Course context (op :: rest) progress (⟨log, .ok middle⟩ :: records) result
  | halt {op : PlannedOperation} {rest : List PlannedOperation}
      {progress : Progress} {log : Exchanges} {error : CleanerError}
      (report : Report context op progress log (.error error)) :
      Course context (op :: rest) progress [⟨log, .error error⟩] (.error error)

variable {env : Env} {context : Context}

theorem course {progress : Progress}
    (ran : (executeOperations context operations progress).run env.handler
      world = (some result, final)) : Course context operations progress
      (turns env context operations progress world) result := by
  induction operations generalizing progress world with
  | nil =>
    cases ran
    exact .done progress
  | cons op rest ih =>
    obtain ⟨value, middle, first, later⟩ := exists_of_run_bind _ ran
    rw [turns, first]
    cases value with
    | error error =>
      cases later
      exact .halt (.of_run first)
    | ok progress' => exact .turn (.of_run first) (ih later)

theorem executeOperations_log (ran : (executeOperations context operations progress).run env.handler
      world = (some result, final)) :
    (executeOperations context operations progress).log env.handler world =
      (turns env context operations progress world).flatMap TurnRecord.log := by
  induction operations generalizing progress world with
  | nil => rfl
  | cons op rest ih =>
    obtain ⟨value, middle, first, later⟩ := exists_of_run_bind _ ran
    rw [turns, first, executeOperations, log_bind_some first]
    cases value with
    | error error => rfl
    | ok progress' =>
      rw [List.flatMap_cons, ← ih later]

theorem executeOperations_total (operations : List PlannedOperation) (progress : Progress) :
    Total (executeOperations context operations progress) := by
  induction operations generalizing progress with
  | nil => trivial
  | cons op rest ih =>
    refine (executeOperation_report context op progress).total.bind fun result => ?_
    cases result with
    | error error => trivial
    | ok progress => exact ih progress

def executionTurns (env : Env) (authorized : AuthorizedPlan)
    (catalog : CatalogSnapshot) (config : ConfigGeneration)
    (attempt : AttemptId) (world : World) : List TurnRecord :=
  if authorized.isAuthorizedForExecution (env.now world.tick) catalog.generation config then
    turns env ⟨authorized, catalog, attempt⟩ authorized.plan.operations Progress.start world.advance
  else []

section

variable {authorized : AuthorizedPlan} {catalog : CatalogSnapshot}
  {config : ConfigGeneration} {attempt : AttemptId} {world : World}

def authorizedRun (authorized : AuthorizedPlan) (catalog : CatalogSnapshot)
    (config : ConfigGeneration) (attempt : AttemptId) (now : UnixTimestamp) :
    Act (Result JobResult) :=
  if !authorized.isAuthorizedForExecution now catalog.generation config then
    pure (.error (.safetyViolation .executionRejected))
  else
    executeOperations ⟨authorized, catalog, attempt⟩ authorized.plan.operations
      Progress.start >>= fun
      | .error error => pure (.error error)
      | .ok progress =>
        pure (.ok (jobResult ⟨authorized, catalog, attempt⟩ progress))

theorem executePlan_log : (executePlan authorized catalog config attempt).log env.handler world =
      ⟨.enterExecutePlan authorized catalog.generation config attempt, env.now world.tick⟩ ::
        (executionTurns env authorized catalog config attempt world).flatMap TurnRecord.log := by
  have entered : (executePlan authorized catalog config attempt).log env.handler world =
        ⟨.enterExecutePlan authorized catalog.generation config attempt, env.now world.tick⟩ ::
        (authorizedRun authorized catalog config attempt
          (env.now world.tick)).log env.handler world.advance := rfl
  rw [entered, authorizedRun, executionTurns]
  cases authorized.isAuthorizedForExecution (env.now world.tick) catalog.generation config with
  | false => rfl
  | true =>
    obtain ⟨result, final, ran⟩ := (executeOperations_total
      authorized.plan.operations Progress.start).exists_run env.handler world.advance
    rw [if_neg (by simp), if_pos rfl, log_bind_some ran, executeOperations_log ran]
    cases result <;> exact congrArg (List.cons _) (List.append_nil _)

theorem executionTurns_course : executionTurns env authorized catalog config attempt world = [] ∨
      ∃ result, Course ⟨authorized, catalog, attempt⟩ authorized.plan.operations Progress.start
        (executionTurns env authorized catalog config attempt world) result := by
  unfold executionTurns
  split
  · obtain ⟨result, final, ran⟩ := (executeOperations_total
      authorized.plan.operations Progress.start).exists_run env.handler world.advance
    exact Or.inr ⟨result, course ran⟩
  · exact Or.inl rfl

theorem executePlan_course (ran : (executePlan authorized catalog config attempt).run env.handler
      world = (some (.ok job), final)) : ∃ progress, Course ⟨authorized, catalog, attempt⟩
        authorized.plan.operations Progress.start
        (executionTurns env authorized catalog config attempt world) (.ok progress) ∧
      job = jobResult ⟨authorized, catalog, attempt⟩ progress := by
  have entered : (authorizedRun authorized catalog config attempt
      (env.now world.tick)).run env.handler world.advance = (some (.ok job), final) := ran
  rw [authorizedRun] at entered
  rw [executionTurns]
  cases allowed : authorized.isAuthorizedForExecution (env.now world.tick)
      catalog.generation config with
  | false =>
    rw [allowed] at entered
    cases entered
  | true =>
    rw [allowed, if_neg (by simp)] at entered
    obtain ⟨outcome, last, looped, closing⟩ := exists_of_run_bind _ entered
    cases outcome with
    | error error => cases closing
    | ok progress =>
      cases closing
      exact ⟨progress, course looped, rfl⟩

end

end CleanupExecutor

end CacheCleaner
