import CacheCleaner.Effect.Phases
import CacheCleaner.Executor.Record
import CacheCleaner.Pipeline.Intents
import CacheCleaner.Runtime.Tables

namespace CacheCleaner

open Effect Effect.Program

structure Keys where
  attempts : List AttemptId
  intents : List (AttemptId × OperationId)
  deriving DecidableEq

def Store.keys (store : Store) : Keys :=
  ⟨store.attempts.rows.map AttemptRow.attemptId, store.intents.rows.map IntentRow.key⟩

namespace Keys

def insert (keys : Keys) : StoreWrite → Keys
  | .createAttempt attempt _ _ _ =>
    if attempt ∈ keys.attempts then keys
    else { keys with attempts := keys.attempts ++ [attempt] }
  | .commitOperationIntent intent =>
    { keys with intents := keys.intents ++ [(intent.attemptId, intent.opId)] }
  | _ => keys

end Keys

theorem Store.keys_congr {before after : Store} (attempts : after.attempts = before.attempts)
    (intents : after.intents = before.intents) : after.keys = before.keys := by
  simp only [keys, attempts, intents]

theorem Store.keys_setAttemptState (store : Store) (attempt : AttemptId) (state : AttemptState) :
    (store.setAttemptState attempt state).keys = store.keys :=
  congrArg (Keys.mk · _) (Table.map_key_update store.attempts
    (fun row => row.attemptId = attempt) (fun row => { row with state }) fun _ => rfl)

theorem Store.keys_setIntentState (store : Store) (attempt : AttemptId)
    (op : OperationId) (state : IntentState) (now : UnixTimestamp) :
    (store.setIntentState attempt op state now).keys = store.keys :=
  congrArg (Keys.mk _) (Table.map_key_update store.intents
    (fun row => row.attemptId = attempt ∧ row.opId = op)
    (fun row => { row with state, resolvedAt := some now }) fun _ => rfl)

theorem told_keys : Told Store.keys Keys.insert where
  lease := fun kept => Store.keys_congr kept.attempts kept.intents
  statement := by
    intro write now before after succeeded
    cases write with
    | createAttempt attempt job worker lease =>
      have claims := Store.createAttempt_ok succeeded
      rcases claims.attempts with ⟨known, set⟩ | ⟨unknown, -, rows⟩
      · have listed : attempt ∈ before.keys.attempts := by
          obtain ⟨row, found⟩ := Option.isSome_iff_exists.mp known
          obtain ⟨mem, own⟩ := Table.find_some found
          exact List.mem_map.mpr ⟨row, mem, own⟩
        rw [Keys.insert, if_pos listed]
        rw [Store.keys_congr set claims.intents, Store.keys_setAttemptState]
      · have fresh : attempt ∉ before.keys.attempts := by
          intro listed
          obtain ⟨row, mem, own⟩ := List.mem_map.mp listed
          exact Table.find_eq_none.mp unknown row mem own
        rw [Keys.insert, if_neg fresh]
        simp only [Store.keys, rows, claims.intents, List.map_append, List.map_cons, List.map_nil]
    | updateAttemptState attempt state =>
      rw [Store.updateAttemptState_ok succeeded]
      exact Store.keys_setAttemptState ..
    | commitOperationIntent intent =>
      have logs := Store.commitOperationIntent_ok succeeded
      simp only [Store.keys, Keys.insert, logs.attempts, logs.intents,
        List.map_append, List.map_cons, List.map_nil]
      rfl
    | updateIntentState attempt op state =>
      rw [Store.updateIntentState_ok succeeded]
      exact Store.keys_setIntentState ..
    | _ =>
      have frames := StoreWrite.frames succeeded
      exact Store.keys_congr (frames.attempts nofun) (frames.intents nofun)

/-- Whether the attempt of the call exists, and then the operations whose
intents it has tried to commit. -/
abbrev Keying := Option (List OperationId)

namespace Keying

def hear (phase : Keying) : Exchange Request Reply → Keying
  | ⟨.write (.createAttempt _ _ _ _), .ok ()⟩ => some []
  | ⟨.write (.commitOperationIntent intent), _⟩ => phase.map (intent.opId :: ·)
  | _ => phase

def permits (attempt : AttemptId) (phase : Keying) : Request → Prop
  | .write (.createAttempt id _ _ _) => id = attempt ∧ phase = none
  | .write (.commitOperationIntent intent) => intent.attemptId = attempt ∧
      ∃ done, phase = some done ∧ intent.opId ∉ done
  | .write (.updateIntentState id _ _) => id = attempt ∧ phase.isSome = true
  | _ => True

def protocol (attempt : AttemptId) : Protocol Keying Unit Request Reply where
  initial := fun _ => none
  advance := hear
  permits := permits attempt

end Keying

def Request.keyless : Request → Bool
  | .write (.createAttempt _ _ _ _) | .write (.commitOperationIntent _)
  | .write (.updateIntentState _ _ _) => false
  | _ => true

namespace Keying

variable {attempt : AttemptId} {phase : Keying}

variable {request : Request}

theorem keyless_permits (keyless : request.keyless = true) : permits attempt phase request := by
  cases request with
  | write write => cases write <;> trivial
  | _ => trivial

theorem keyless_hear (keyless : request.keyless = true)
    (reply : Reply request) : phase.hear ⟨request, reply⟩ = phase := by
  cases request with
  | write write => cases write <;> first | rfl | cases keyless
  | _ => rfl

abbrev Keyless {α : Type} (program : Act α) : Prop :=
  Issues (fun request => request.keyless = true) program

theorem Keyless.obeys (keyless : Keyless program) :
    (protocol attempt).Obeys (fun after _ => after = phase) phase program :=
  .of_issues keyless (fun _ => keyless_permits) fun _ _ quiet =>
    keyless_hear quiet _

theorem quiet_keyless (quiet : request.quiet = true) : request.keyless = true := by
  cases request with
  | write write => cases quiet
  | _ => rfl

theorem ask_keyless (keyless : request.keyless = true)
    (rest : ∀ reply, (protocol attempt).Obeys post phase (next reply)) :
    (protocol attempt).Obeys post phase (ask request >>= next) := by
  refine .perform_bind (keyless_permits keyless) fun reply => ?_
  change (protocol attempt).Obeys post (phase.hear ⟨request, reply⟩) _
  rw [keyless_hear keyless]
  exact rest reply

theorem Keyless.before (keyless : Keyless program)
    (rest : ∀ value, (protocol attempt).Obeys post phase (next value)) :
    (protocol attempt).Obeys post phase (program >>= next) :=
  keyless.obeys.bind fun _ value same => same ▸ rest value

end Keying

namespace CleanupExecutor

open Keying

variable {context : Context} {done : List OperationId}

theorem mutate_obeys (op : OperationId) (deletion : Deletion) (progress : Progress) :
    (protocol context.attempt).Obeys (fun after _ => after = some done)
      (some done) (mutate context op deletion progress target) := by
  refine .perform_bind ⟨rfl, rfl⟩ fun updated => ?_
  cases updated with
  | error error => exact rfl
  | ok marked =>
    have opens : Keyless (getOrOpenParentDir progress.activeDirCache target deletion.relPath) :=
      (getOrOpenParentDir_opens ..).issues.mono fun _ opens =>
        quiet_keyless (Request.quiet_of_opens opens)
    refine opens.before fun opened => ?_
    cases opened with
    | error error => exact rfl
    | ok found =>
      obtain ⟨parent, leaf, cache⟩ := found
      have handles :
          Keyless (SafeDirHandle.removeChild deletion.kind parent leaf deletion.expected) :=
        (removeChild_removal ..).issues.mono fun request handles => by
          cases request <;> first | rfl | cases handles
      refine handles.before fun mutation => ?_
      refine ask_keyless rfl fun seen => ?_
      refine .perform_bind ⟨rfl, rfl⟩ fun updated => ?_
      cases updated with
      | error error => exact rfl
      | ok resolved => exact ask_keyless rfl fun _ => rfl

theorem executeDeletion_obeys
    (progress : Progress) (fresh : op ∉ done) : (protocol context.attempt).Obeys
      (fun after _ => after = some done ∨ after = some (op :: done))
      (some done) (executeDeletion context op deletion progress) := by
  unfold executeDeletion
  split
  · exact Or.inl rfl
  · refine ask_keyless rfl fun lock => ?_
    cases lock with
    | error error => exact Or.inl rfl
    | ok acquired =>
      refine ask_keyless rfl fun now => ?_
      split
      · exact Or.inl rfl
      · refine ask_keyless rfl fun committedAt => ?_
        refine .perform_bind ⟨rfl, done, rfl, fresh⟩ fun committed => ?_
        cases committed with
        | error error => exact Or.inr rfl
        | ok written =>
          exact (mutate_obeys op deletion progress).mono fun _ _ same => Or.inr same

theorem executeOperation_obeys (op : PlannedOperation) (progress : Progress)
    (fresh : op.opId ∉ done) : (protocol context.attempt).Obeys
      (fun after _ => after = some done ∨ after = some (op.opId :: done))
      (some done) (executeOperation context op progress) := by
  refine ask_keyless rfl fun cancelled => ?_
  split
  · exact Or.inl rfl
  · split
    · exact Or.inl rfl
    · split
      · exact Or.inl rfl
      · refine ask_keyless rfl fun _ => ?_
        split
        · exact executeDeletion_obeys progress fresh
        · exact Or.inl rfl

theorem executeOperations_obeys (progress : Progress) (fresh : ∀ op ∈ operations, op.opId ∉ done)
    (distinct : (operations.map PlannedOperation.opId).Nodup) :
    (protocol context.attempt).Obeys (fun after _ => after.isSome = true)
      (some done) (executeOperations context operations progress) := by
  induction operations generalizing done progress with
  | nil => exact rfl
  | cons op rest ih =>
    obtain ⟨here, later⟩ := List.forall_mem_cons.mp fresh
    rw [List.map_cons, List.nodup_cons] at distinct
    refine (executeOperation_obeys op progress here).bind ?_
    intro phase result reached
    have next : ∀ progress, (protocol context.attempt).Obeys
        (fun after _ => after.isSome = true) phase (executeOperations context rest progress) := by
      intro progress
      rcases reached with rfl | rfl
      · exact ih progress later distinct.2
      · refine ih progress (fun other mem => ?_) distinct.2
        rw [List.mem_cons, not_or]
        refine ⟨fun same => distinct.1 ?_, later other mem⟩
        rw [← same]
        exact List.mem_map_of_mem mem
    cases result with
    | error error => rcases reached with rfl | rfl <;> exact rfl
    | ok progress => exact next progress

theorem executePlan_obeys (planned : AuthoritativeCleanPipeline.Drafted job authorized) :
    (protocol attempt).Obeys (fun after _ => after.isSome = true) (some [])
      (executePlan authorized catalog config attempt) := by
  obtain ⟨seen, checked⟩ := planned.ids
  have distinct := (CleanupPlanner.checkOperations_distinct checked).2
  refine ask_keyless rfl fun now => ?_
  simp only
  split
  · exact rfl
  · let context : Context := ⟨authorized, catalog, attempt⟩
    have executed : (protocol context.attempt).Obeys (fun after _ => after.isSome = true)
        (some []) (executeOperations context authorized.plan.operations Progress.start) :=
      executeOperations_obeys Progress.start (fun _ _ => List.not_mem_nil) distinct
    refine executed.bind ?_
    intro phase result reached
    cases result with
    | error error => exact reached
    | ok progress => exact reached

end CleanupExecutor

namespace AuthoritativeCleanPipeline

open Keying

variable {attempt : AttemptId} {admission : JobAdmissionRequest}
  {pipeline : Pipeline} {orders : HashOrders}

theorem carryOut_obeys (planned : Drafted admission.jobId authorized) :
    (protocol attempt).Obeys (fun after _ => after.isSome = true) (some [])
      (carryOut pipeline admission attempt authorized) := by
  have performs : (protocol attempt).Obeys (fun after _ => after.isSome = true)
      (some []) (perform pipeline admission attempt authorized) := by
    unfold perform
    split
    · exact rfl
    · exact CleanupExecutor.executePlan_obeys planned
  refine performs.bind fun phase outcome reached => ?_
  cases outcome with
  | error error => exact reached
  | ok job => exact Keyless.before (report_issues (fun _ _ => rfl) fun _ => rfl) fun _ => reached

theorem planAndRun_obeys (permits : List PolicyPermit) (counters : Counters) :
    (protocol attempt).Obeys (fun after _ => after.isSome = true) (some [])
      (planAndRun pipeline orders admission attempt permits counters) := by
  unfold planAndRun
  split
  · exact rfl
  · rename_i plan built
    have plans := CleanupPlanner.buildPlan_plans built
    refine ask_keyless rfl fun now => ?_
    obtain ⟨authorized, granted, authorizes⟩ :=
      AuthorizationEngine.authorizePlan_current ⟨counters.grant⟩ now 300 plans.catalog plans.config
    rw [granted]
    have planned : Drafted admission.jobId authorized :=
      ⟨authorizes.same ▸ plans.job, authorizes.same ▸ plans.ids⟩
    exact (carryOut_obeys planned).bind fun _ _ reached => reached

theorem runPipelineJob_obeys :
    (protocol attempt).Obeys (fun after _ => after.isSome = true) (some [])
      (runPipelineJob pipeline orders admission attempt) := by
  unfold runPipelineJob
  split
  · trivial
  · exact rfl
  · refine ask_keyless rfl fun frozenUids => ask_keyless rfl fun now => ?_
    have scans := (scanTargets_looks (orders.targets.order pipeline.catalog.targets.rows)
      pipeline.counters.candidate).mono fun request looks =>
        quiet_keyless (Request.quiet_of_looks looks)
    refine Keyless.before scans ?_
    rintro ⟨scanned, nextId⟩
    exact planAndRun_obeys _ _

theorem claimAttempt_obeys (pool : WorkerPool) (job : JobId) (lease : Nat) :
    (protocol ⟨pool.attemptCounter⟩).Obeys (fun after outcome =>
        outcome.2 = { pool with attemptCounter := pool.attemptCounter + 1 } ∧
          ∀ attempt, outcome.1 = .ok attempt → attempt = ⟨pool.attemptCounter⟩ ∧ after = some [])
      none (pool.claimAttempt job lease) := by
  refine ask_keyless rfl fun acquired => ?_
  rcases acquired with error | (_ | _)
  · exact ⟨rfl, by simp⟩
  · exact ⟨rfl, by simp⟩
  · refine .perform_bind ⟨rfl, rfl⟩ fun created => ?_
    cases created with
    | error error => exact ⟨rfl, by simp⟩
    | ok done =>
      refine ⟨rfl, fun attempt same => ?_⟩
      cases same
      exact ⟨rfl, rfl⟩

theorem execute_obeys (params : CleanParams) : (protocol ⟨pipeline.workerPool.attemptCounter⟩).Obeys
      (fun after outcome => pipeline.workerPool.attemptCounter ≤
          outcome.2.workerPool.attemptCounter ∧
        (after.isSome = true → pipeline.workerPool.attemptCounter <
          outcome.2.workerPool.attemptCounter)) none (execute pipeline orders params) := by
  refine ask_keyless rfl fun view => ?_
  refine Keyless.before (SchedulerService.admitJob_issues (fun _ _ _ _ => rfl) rfl) ?_
  rintro ⟨admitted, scheduler⟩
  cases admitted with
  | error error => exact ⟨Nat.le_refl _, by simp⟩
  | ok request =>
    refine (claimAttempt_obeys pipeline.workerPool request.jobId 300).bind ?_
    rintro phase ⟨claimed, pool⟩ ⟨counted, own⟩
    have advanced : pool.attemptCounter = pipeline.workerPool.attemptCounter + 1 :=
      congrArg WorkerPool.attemptCounter counted
    have grown : pipeline.workerPool.attemptCounter < pool.attemptCounter :=
      advanced ▸ Nat.lt_succ_self _
    cases claimed with
    | error error => exact ⟨Nat.le_of_lt grown, fun _ => grown⟩
    | ok attempt =>
      obtain ⟨rfl, rfl⟩ := own attempt rfl
      refine runPipelineJob_obeys.bind ?_
      rintro phase ⟨result, counters⟩ reached
      refine Keyless.before (closeJob_issues rfl (fun _ _ => rfl) (fun _ _ => rfl)
        fun _ _ => rfl) fun closed => ?_
      exact ⟨Nat.le_of_lt grown, fun _ => grown⟩

end AuthoritativeCleanPipeline

end CacheCleaner
