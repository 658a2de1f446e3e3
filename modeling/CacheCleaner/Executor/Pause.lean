import CacheCleaner.Executor.Effect
import CacheCleaner.Executor.Record
import CacheCleaner.Runtime.RateLimiter

namespace CacheCleaner

open Effect Effect.Program

def Request.removes : Request → Bool
  | .unlink _ _ => true
  | .rmdir _ _ => true
  | _ => false

/-- How each throttle step goes, by the number of its request: the limiter as it
finds it, the modes set and the looks taken meanwhile, and the limiter as it leaves
it. -/
structure Schedule where
  before : Nat → BucketState
  looks : Nat → List (List ThrottleMode × ℚ)
  after : Nat → BucketState
  returns : ∀ tick, (before tick).throttleMutation (looks tick) = some (after tick)

/-- The step ends in a pause: the limiter gives no token. -/
def Schedule.paused (schedule : Schedule) (tick : Nat) : Bool :=
  (schedule.after tick).opsPerSec == 0

namespace CleanupExecutor

/-- Requests from a tick on, of which none removes anything after a throttle step
that took place in a pause. -/
def Heeds (schedule : Schedule) : Nat → Bool → List Request → Prop
  | _, _, [] => True
  | tick, paused, request :: rest =>
    (request.removes = true → paused = false) ∧ match request with
      | .throttleMutation => Heeds schedule (tick + 1) (schedule.paused tick) rest
      | _ => Heeds schedule (tick + 1) paused rest

section

variable {schedule : Schedule}

theorem heeds_iff (unthrottled : .throttleMutation ∉ requests) (tick : Nat) (paused : Bool) :
    Heeds schedule tick paused requests ↔
      (paused = true → ∀ request ∈ requests, request.removes = false) := by
  induction requests generalizing tick with
  | nil => simp [Heeds]
  | cons request rest ih =>
    rw [List.mem_cons, not_or] at unthrottled
    obtain ⟨other, others⟩ := unthrottled
    have step : Heeds schedule tick paused (request :: rest) ↔
        (request.removes = true → paused = false) ∧ Heeds schedule (tick + 1) paused rest := by
      cases request <;> first | rfl | exact absurd rfl other
    rw [step, ih others]
    cases paused <;> simp

def pausedAfter (schedule : Schedule) : Nat → Bool → List Request → Bool
  | _, paused, [] => paused
  | tick, _, .throttleMutation :: rest =>
    pausedAfter schedule (tick + 1) (schedule.paused tick) rest
  | tick, paused, _ :: rest => pausedAfter schedule (tick + 1) paused rest

theorem heeds_append (front back : List Request) (tick : Nat) (paused : Bool) :
    Heeds schedule tick paused (front ++ back) ↔ Heeds schedule tick paused front ∧
      Heeds schedule (tick + front.length) (pausedAfter schedule tick paused front) back := by
  induction front generalizing tick paused with
  | nil => simp [Heeds, pausedAfter]
  | cons request rest ih =>
    have shifted : tick + (request :: rest).length = tick + 1 + rest.length := by
      rw [List.length_cons]
      omega
    rw [shifted]
    cases request <;> simp only [List.cons_append, Heeds, pausedAfter, ih, and_assoc]

end

def Removing (env : Env) (program : Act α) (world : World) : Prop :=
  ∃ request ∈ program.trace env.handler world, request.removes = true

section

variable {env : Env} {world : World} {next : α → Act β}

theorem Issues.not_removing {program : Act α} (keeps : Issues (·.removes = false) program)
    (world : World) : ¬ Removing env program world := by
  rintro ⟨request, mem, removes⟩
  cases removes.symm.trans (keeps.mem_trace request mem)

theorem not_removing_pure (value : α) (world : World) :
    ¬ Removing env (pure value : Act α) world := by
  rintro ⟨request, mem, -⟩
  cases mem

theorem removing_call (request : Request) (next : Reply request → Act β) :
    Removing env (ask request >>= next) world ↔ request.removes = true ∨
      Removing env (next (env.respond request world).1) (env.respond request world).2 := by
  exact List.exists_mem_cons_iff ..

theorem removing_quiet {next : Reply request → Act β} (silent : request.quiet = true) :
    Removing env (ask request >>= next) world ↔
      Removing env (next (env.respond request world).1) world.advance := by
  have keeps : request.removes = false := by cases request <;> first | rfl | cases silent
  rw [removing_call, env.respond_quiet silent, keeps]
  simp

def written (env : Env) (tick : Nat) (write : StoreWrite) (store : Store) : Option Store :=
  if env.writeFault tick write then none
  else
    match write.statement (env.now tick) store with
    | .ok (_, after) => some after
    | .error _ => none

theorem removing_write {next : Result Unit → Act β} {write : StoreWrite}
    (fails : ∀ error world, ¬ Removing env (next (.error error)) world) :
    Removing env (ask (.write write) >>= next) world ↔
      ∃ store, written env world.tick write world.store = some store ∧
        Removing env (next (.ok ())) (world.advance.withStore store) := by
  rw [removing_call]
  change false = true ∨ Removing env (next (env.execute world write).1)
    (env.execute world write).2 ↔ _
  unfold Env.execute written
  cases env.writeFault world.tick write with
  | true => simp [fails]
  | false =>
    cases write.statement (env.now world.tick) world.store with
    | error failure => simp [fails]
    | ok done => simp

end

section

variable {env : Env}

/-- The directory that names lead to when the first open has the number `tick`, and
the number after the last. -/
def opened? (env : Env) (fs : Fs) : Nat → FileIdentity → List String → Option (FileIdentity × Nat)
  | tick, directory, [] => some (directory, tick)
  | tick, directory, name :: rest =>
    match Env.guarded (env.openFault (tick + 1)) (fs.openChild env.openat2 directory name) with
    | .error _ => none
    | .ok child => opened? env fs (tick + 2) child rest

/-- What `get_or_open_parent_dir` returns when its first request has the number `tick`,
and the number after its last. -/
def parent? (env : Env) (fs : Fs) (cache : Option ActiveDirCache) (target : TargetDescriptor)
    (path : RelativePath) (tick : Nat) :
    Option ((FileIdentity × String × Option ActiveDirCache) × Nat) :=
  path.leafName?.bind fun leaf =>
    match cache.filter fun cached =>
        cached.targetId == target.targetId && decide (cached.parentNames = path.parentNames) with
    | some cached => some ((cached.handle, leaf, cache), tick)
    | none =>
      match Env.guarded (env.openFault (tick + 1)) (fs.openRoot target.basePath) with
      | .error _ => none
      | .ok root => (opened? env fs (tick + 2) root path.parentNames).map fun (parent, after) =>
          ((parent, leaf, some ⟨target.targetId, path.parentNames, parent⟩), after)

theorem removing_openDescendant {next : Result FileIdentity → Act β}
    (fails : ∀ error world, ¬ Removing env (next (.error error)) world)
    (directory : FileIdentity) (names : List String) (world : World) :
    Removing env (openDescendant directory names >>= next) world ↔
      ∃ parent tick, opened? env world.fs world.tick directory names = some (parent, tick) ∧
        Removing env (next (.ok parent)) { world with tick } := by
  induction names generalizing directory world with
  | nil => simp [openDescendant, opened?]
  | cons name rest ih =>
    unfold opened?
    refine (removing_quiet rfl).trans ((removing_quiet rfl).trans ?_)
    have answered : (env.respond (.openChild .executor directory name) world.advance).1 =
        Env.guarded (env.openFault (world.tick + 1))
          (world.fs.openChild env.openat2 directory name) := rfl
    rw [answered]
    cases Env.guarded (env.openFault (world.tick + 1))
        (world.fs.openChild env.openat2 directory name) with
    | error errno => exact iff_of_false (fails (.io errno) _) (by simp)
    | ok child => exact ih child world.advance.advance

theorem removing_getOrOpenParentDir
    {next : Result (FileIdentity × String × Option ActiveDirCache) → Act β}
    (fails : ∀ error world, ¬ Removing env (next (.error error)) world)
    (cache : Option ActiveDirCache) (target : TargetDescriptor) (path : RelativePath)
    (world : World) : Removing env (getOrOpenParentDir cache target path >>= next) world ↔
      ∃ found tick, parent? env world.fs cache target path world.tick = some (found, tick) ∧
        Removing env (next (.ok found)) { world with tick } := by
  unfold getOrOpenParentDir parent?
  cases path.leafName? with
  | none => exact iff_of_false (fails _ _) (by simp)
  | some leaf =>
    rw [Option.bind_some]
    cases cache.filter fun cached => cached.targetId == target.targetId &&
        decide (cached.parentNames = path.parentNames) with
    | some cached => simp
    | none =>
      refine (removing_quiet rfl).trans ((removing_quiet rfl).trans ?_)
      have answered : (env.respond (.openRoot .executor target.basePath) world.advance).1 =
          Env.guarded (env.openFault (world.tick + 1)) (world.fs.openRoot target.basePath) := rfl
      rw [answered]
      cases Env.guarded (env.openFault (world.tick + 1)) (world.fs.openRoot target.basePath) with
      | error errno => exact iff_of_false (fails (.io errno) _) (by simp)
      | ok root =>
        change Removing env ((openDescendant root path.parentNames >>= _) >>= next) _ ↔ _
        rw [bind_assoc]
        refine (removing_openDescendant (fun error => ?_) root path.parentNames
          world.advance.advance).trans ?_
        · exact fails error
        · simp only [Option.map_eq_some_iff, Prod.exists]
          constructor
          · rintro ⟨parent, tick, found, removing⟩
            exact ⟨_, _, _, tick, ⟨parent, tick, found, rfl⟩, removing⟩
          · rintro ⟨_, _, _, _, ⟨parent, tick, found, same⟩, removing⟩
            cases same
            exact ⟨_, _, found, removing⟩

end

section

variable {env : Env} {context : Context} {op : PlannedOperation} {deletion : Deletion}
  {progress : Progress} {target : TargetDescriptor}

theorem concludeDeletion_keeps (cache : Option ActiveDirCache) (settlement : Settlement) :
    Issues (·.removes = false)
      (concludeDeletion context op.opId deletion progress cache settlement) := by
  refine ⟨rfl, fun updated => ?_⟩
  cases updated with
  | error error => trivial
  | ok done => exact ⟨rfl, fun _ => trivial⟩

def Matches (env : Env) (fs : Fs) (deletion : Deletion) (parent : FileIdentity) (leaf : String)
    (tick : Nat) : Prop :=
  Fs.validateSingleComponent leaf = true ∧
    env.stat tick (fs.statChild parent leaf) = .ok deletion.expected

theorem removing_removeAndVerify (parent : FileIdentity) (leaf : String)
    (cache : Option ActiveDirCache) (world : World) :
    Removing env (removeAndVerify context op.opId deletion progress parent leaf cache) world ↔
      Matches env world.fs deletion parent leaf world.tick := by
  -- once the removal is refused, nothing is removed by the verification and the records
  have refused (error : CleanerError) (world : World) :
      ¬ Removing env (pure (.error error) >>= fun mutation =>
        PostconditionVerifier.verifyWithParentHandle parent leaf deletion.expected >>=
          fun outcome => concludeDeletion context op.opId deletion progress
            (cacheAfter deletion.kind cache) (settle deletion mutation outcome)) world := by
    intro removing
    exact Issues.not_removing (concludeDeletion_keeps ..) _ ((removing_quiet rfl).1 removing)
  unfold removeAndVerify SafeDirHandle.removeChild Matches
  by_cases valid : Fs.validateSingleComponent leaf = true
  · simp only [valid, if_true, true_and]
    refine (removing_quiet rfl).trans ?_
    have answered : (env.respond (.statChild parent leaf) world).1 =
        env.stat world.tick (world.fs.statChild parent leaf) := rfl
    rw [answered]
    cases env.stat world.tick (world.fs.statChild parent leaf) with
    | error errno => exact iff_of_false (refused (.io errno) _) (by simp)
    | ok current =>
      change Removing env ((if current ≠ deletion.expected then _ else _) >>= _) _ ↔ _
      by_cases same : current = deletion.expected
      · refine iff_of_true ?_ (congrArg _ same)
        rw [if_neg (not_not_intro same)]
        cases deletion.kind with
        | file => exact ⟨.unlink parent leaf, List.mem_cons_self, rfl⟩
        | directory => exact ⟨.rmdir parent leaf, List.mem_cons_self, rfl⟩
      · rw [if_pos same]
        exact iff_of_false (refused _ _) (by simpa using same)
  · rw [if_neg valid]
    exact iff_of_false (refused _ _) fun found => valid found.1

/-- What stands between a deletion and its removal: the target, the lock, the safety
boundary, the two writes of the intent, the parent and the object itself. -/
def Removable (env : Env) (context : Context) (op : PlannedOperation) (deletion : Deletion)
    (progress : Progress) (world : World) : Prop :=
  ∃ target checked committed marked parent leaf cache tick,
    context.catalog.get deletion.targetId = some target ∧
    env.lockHolder world.tick = none ∧
    SafetyGate.validateMutationBoundary target deletion.relPath deletion.expected op.opId
      context.catalog.generation context.authorized.grant.configGeneration
      (env.now (world.tick + 1)) = .ok checked ∧
    written env (world.tick + 3) (.commitOperationIntent
      (intentOf context op.opId deletion (env.now (world.tick + 2)))) world.store =
        some committed ∧
    written env (world.tick + 4) (.updateIntentState context.attempt op.opId .mutating)
      committed = some marked ∧
    parent? env world.fs progress.activeDirCache target deletion.relPath (world.tick + 5) =
      some ((parent, leaf, cache), tick) ∧
    Matches env world.fs deletion parent leaf tick

theorem removing_mutate (world : World) :
    Removing env (mutate context op.opId deletion progress target) world ↔
      ∃ marked parent leaf cache tick,
        written env world.tick (.updateIntentState context.attempt op.opId .mutating)
          world.store = some marked ∧
        parent? env world.fs progress.activeDirCache target deletion.relPath (world.tick + 1) =
          some ((parent, leaf, cache), tick) ∧
        Matches env world.fs deletion parent leaf tick := by
  refine (removing_write ?_).trans (exists_congr fun marked => ?_)
  · exact fun error => not_removing_pure _
  · simp only [exists_and_left]
    refine and_congr_right fun _ => ?_
    refine (removing_getOrOpenParentDir ?_ progress.activeDirCache target deletion.relPath
      (world.advance.withStore marked)).trans ?_
    · exact fun error => not_removing_pure _
    · simp only [Prod.exists]
      refine exists_congr fun parent => exists_congr fun leaf => exists_congr fun cache => ?_
      exact exists_congr fun tick => and_congr_right fun _ => removing_removeAndVerify ..

theorem removing_executeDeletion (world : World) :
    Removing env (executeDeletion context op.opId deletion progress) world ↔
      Removable env context op deletion progress world := by
  unfold executeDeletion Removable
  cases context.catalog.get deletion.targetId with
  | none => exact iff_of_false (not_removing_pure _ world) (by simp)
  | some target =>
    refine (removing_quiet rfl).trans ?_
    cases held : env.lockHolder world.tick with
    | some holder =>
      have answered : (env.respond (.acquireTargetLock deletion.targetId context.attempt)
          world).1 = .error (.safetyViolation (.lockCollision deletion.targetId holder)) := by
        simp only [Env.respond, held]
      rw [answered]
      exact iff_of_false (not_removing_pure _ _) (by simp)
    | none =>
      have answered : (env.respond (.acquireTargetLock deletion.targetId context.attempt)
          world).1 = .ok () := by
        simp only [Env.respond, held]
      rw [answered]
      refine (removing_quiet rfl).trans ?_
      have told : (env.respond .now world.advance).1 = env.now (world.tick + 1) := rfl
      rw [told]
      cases checked : SafetyGate.validateMutationBoundary target deletion.relPath
          deletion.expected op.opId context.catalog.generation
          context.authorized.grant.configGeneration (env.now (world.tick + 1)) with
      | error refusal => exact iff_of_false (not_removing_pure _ _) (by simp [checked])
      | ok boundary =>
        refine (removing_quiet rfl).trans ((removing_write ?_).trans ?_)
        · exact fun error => not_removing_pure _
        · constructor
          · rintro ⟨committed, done, removing⟩
            obtain ⟨marked, parent, leaf, cache, tick, marks, found, fits⟩ :=
              (removing_mutate _).1 removing
            exact ⟨target, boundary, committed, marked, parent, leaf, cache, tick, rfl, rfl,
              checked, done, marks, found, fits⟩
          · rintro ⟨_, _, committed, marked, parent, leaf, cache, tick, same, -, -, done, marks,
              found, fits⟩
            cases same
            exact ⟨committed, done,
              (removing_mutate _).2 ⟨marked, parent, leaf, cache, tick, marks, found, fits⟩⟩

structure Throttled (env : Env) (context : Context) (op : PlannedOperation)
    (progress : Progress) (tick : Nat) : Prop where
  running : env.cancelled tick = false
  ready : ∀ dependency ∈ op.dependencies, dependency ∈ progress.successfulOpIds
  granted : context.authorized.grant.grants op.opType.capability = true

/-- Nothing but the throttle step is left to stop the operation. -/
structure Unhindered (env : Env) (context : Context) (op : PlannedOperation)
    (progress : Progress) (world : World) : Prop
    extends Throttled env context op progress world.tick where
  removable : ∃ deletion, deletion? op.opType = some deletion ∧
    Removable env context op deletion progress world.advance.advance

def proceed (context : Context) (op : PlannedOperation) (progress : Progress) :
    Act (Result Progress) :=
  match deletion? op.opType with
  | some deletion => executeDeletion context op.opId deletion progress
  | none => pure (.ok (progress.skip op.opId (.skipped (skipReason op.opType))))

theorem executeOperation_trace (env : Env) (context : Context) (op : PlannedOperation)
    (progress : Progress) (world : World) :
    ¬ Throttled env context op progress world.tick ∧
      (executeOperation context op progress).trace env.handler world = [.isCancelled] ∨
    Throttled env context op progress world.tick ∧
      (executeOperation context op progress).trace env.handler world =
        .isCancelled :: .throttleMutation ::
          (proceed context op progress).trace env.handler world.advance.advance := by
  unfold executeOperation
  change _ ∧ .isCancelled :: (if env.cancelled world.tick = true then _ else _ : Act _).trace _ _ =
    _ ∨ _ ∧ .isCancelled :: (if env.cancelled world.tick = true then _ else _ : Act _).trace _ _ = _
  split
  · rename_i cancelled
    exact .inl ⟨fun throttled => by simp [throttled.running] at cancelled, rfl⟩
  · rename_i running
    split
    · rename_i unready
      refine .inl ⟨fun throttled => ?_, rfl⟩
      obtain ⟨dependency, mem, missing⟩ := List.any_eq_true.mp unready
      exact of_decide_eq_true missing (throttled.ready dependency mem)
    · rename_i ready
      split
      · rename_i denied
        exact .inl ⟨fun throttled => by simp [throttled.granted] at denied, rfl⟩
      · rename_i granted
        refine .inr ⟨⟨by simpa using running, ?_, by simpa using granted⟩, rfl⟩
        simpa using ready

theorem removing_proceed (world : World) :
    Removing env (proceed context op progress) world ↔ ∃ deletion,
      deletion? op.opType = some deletion ∧ Removable env context op deletion progress world := by
  unfold proceed
  cases deletion? op.opType with
  | none => exact iff_of_false (not_removing_pure _ world) (by simp)
  | some deletion => simpa using removing_executeDeletion world

theorem proceed_unthrottled (fulfilled : Fulfilled op progress) :
    Issues (· ≠ .throttleMutation) (proceed context op progress) := by
  unfold proceed
  split
  · refine (executeDeletion_report .nil fulfilled ‹_›).issues.mono fun request deletes => ?_
    rintro rfl
    cases deletes
  · trivial

theorem heeds_executeOperation (schedule : Schedule) (paused : Bool) (world : World) :
    Heeds schedule world.tick paused
        ((executeOperation context op progress).trace env.handler world) ↔
      (schedule.paused (world.tick + 1) = true → ¬ Unhindered env context op progress world) := by
  rcases executeOperation_trace env context op progress world with
    ⟨refused, traced⟩ | ⟨throttled, traced⟩
  · rw [traced]
    exact iff_of_true ⟨nofun, trivial⟩ fun _ free => refused free.toThrottled
  · have unthrottled : .throttleMutation ∉
        (proceed context op progress).trace env.handler world.advance.advance :=
      fun mem => (proceed_unthrottled throttled.ready).mem_trace _ mem rfl
    have removes : Unhindered env context op progress world ↔
        Removing env (proceed context op progress) world.advance.advance :=
      ⟨fun free => (removing_proceed _).2 free.removable,
        fun removing => ⟨throttled, (removing_proceed _).1 removing⟩⟩
    rw [traced, removes]
    refine Iff.trans (b := Heeds schedule (world.tick + 1 + 1) (schedule.paused (world.tick + 1))
      ((proceed context op progress).trace env.handler world.advance.advance)) ?_ ?_
    · simp [Heeds, Request.removes]
    · rw [heeds_iff unthrottled]
      simp [Removing]

end

section

variable {env : Env} {context : Context}

structure Coming where
  op : PlannedOperation
  progress : Progress
  world : World

def comings (env : Env) (context : Context) :
    List PlannedOperation → Progress → World → List Coming
  | [], _, _ => []
  | op :: rest, progress, world =>
    ⟨op, progress, world⟩ ::
      match (executeOperation context op progress).run env.handler world with
      | (some (.ok progress), after) => comings env context rest progress after
      | _ => []

theorem heeds_executeOperations (schedule : Schedule) (operations : List PlannedOperation)
    (progress : Progress) (paused : Bool) (world : World) : Heeds schedule world.tick paused
        ((executeOperations context operations progress).trace env.handler world) ↔
      ∀ coming ∈ comings env context operations progress world,
        schedule.paused (coming.world.tick + 1) = true →
          ¬ Unhindered env context coming.op coming.progress coming.world := by
  induction operations generalizing progress paused world with
  | nil => exact iff_of_true trivial (List.forall_mem_nil _)
  | cons op rest ih =>
    have clocked : ((executeOperation context op progress).run env.handler world).2.tick =
        world.tick + ((executeOperation context op progress).trace env.handler world).length :=
      clock_run env.tick_respond _ world
    rw [executeOperations, trace_bind, heeds_append, heeds_executeOperation, ← clocked, comings,
      List.forall_mem_cons]
    refine and_congr_right fun _ => ?_
    generalize (executeOperation context op progress).run env.handler world = ran
    obtain ⟨result, after⟩ := ran
    cases result with
    | none => exact iff_of_true trivial (List.forall_mem_nil _)
    | some outcome =>
      cases outcome with
      | error error => exact iff_of_true trivial (List.forall_mem_nil _)
      | ok progress => exact ih progress _ after

/-- A run of a plan keeps to the schedule exactly when no operation that has its
throttle step in a pause meets all the other conditions for its removal. -/
theorem pause_heeded_iff (schedule : Schedule) (env : Env) (authorized : AuthorizedPlan)
    (catalog : CatalogSnapshot) (config : ConfigGeneration) (attempt : AttemptId)
    (world : World) : Heeds schedule world.tick false
        ((executePlan authorized catalog config attempt).trace env.handler world) ↔
      (authorized.isAuthorizedForExecution (env.now world.tick) catalog.generation config = true →
        ∀ coming ∈ comings env ⟨authorized, catalog, attempt⟩ authorized.plan.operations .start
            world.advance,
          schedule.paused (coming.world.tick + 1) = true →
            ¬ Unhindered env ⟨authorized, catalog, attempt⟩ coming.op coming.progress
              coming.world) := by
  unfold executePlan
  change _ ∧ Heeds schedule (world.tick + 1) false ((if (!authorized.isAuthorizedForExecution
    (env.now world.tick) catalog.generation config) = true then _ else _ : Act _).trace
    env.handler world.advance) ↔ _
  cases authorized.isAuthorizedForExecution (env.now world.tick) catalog.generation config with
  | false => exact iff_of_true ⟨nofun, trivial⟩ nofun
  | true =>
    rw [if_neg (by decide), trace_bind_silent]
    · simpa [Request.removes] using heeds_executeOperations schedule authorized.plan.operations
        .start false world.advance
    · rintro (error | progress) after <;> rfl

end

def Sample.pausedAlways : Schedule where
  before := fun _ => .new .paused 0
  looks := fun _ => [([], 0)]
  after := fun _ => .new .paused 0
  returns := fun _ => rfl

theorem unlink_in_pause : ¬ Heeds Sample.pausedAlways Sample.world.tick false
    ((executePlan Sample.authorized Sample.snapshot ⟨1⟩ ⟨1⟩).trace
      Sample.calmEnv.handler Sample.world) := by
  intro heeds
  -- the throttle step is the third request and the unlink the twelfth
  have running : Sample.pausedAlways.paused 2 = false := heeds.2.2.2.2.2.2.2.2.2.2.2.1 rfl
  cases running

end CleanupExecutor

end CacheCleaner
