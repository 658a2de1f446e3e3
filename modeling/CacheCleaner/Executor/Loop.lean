import CacheCleaner.Executor.Turn

namespace CacheCleaner.CleanupExecutor

open Effect Effect.Program World

variable {env : Env} {answers : (request : Request) → Reply request → Prop}
  {origin : Fs} {context : Context}

structure Ready (env : Env) (origin : Fs) (context : Context)
    (progress : Progress) (world : World) : Prop where
  below : Fs.Below world.fs origin
  cache : CacheSound env origin context progress.activeDirCache

theorem Ready.start (context : Context) (world : World) :
    Ready env world.fs context Progress.start world where
  below := Fs.Below.refl _
  cache := by
    intro cached none
    cases none

theorem TreeStep.below (step : TreeStep env origin deletion target before after)
    (below : Fs.Below before origin) : Fs.Below after origin := by
  cases step with
  | kept same =>
    rw [same]
    exact below
  | removed parent leaf entry removes =>
    rw [removes.removed]
    exact (Fs.Below.remove before parent leaf).trans below

theorem CacheSound.cacheAfter (sound : CacheSound env origin context cache) (kind : RemovalKind) :
    CacheSound env origin context (cacheAfter kind cache) := by
  cases kind with
  | file => exact sound
  | directory =>
    intro cached none
    cases none

@[simp] theorem Progress.activeDirCache_record (progress : Progress)
    (result : OperationFinalResult) (cache : Option ActiveDirCache) :
    (progress.record result cache).activeDirCache = cache := by
  unfold Progress.record
  split <;> rfl

@[simp] theorem Progress.results_record (progress : Progress)
    (result : OperationFinalResult) (cache : Option ActiveDirCache) :
    (progress.record result cache).results = progress.results ++ [result] := by
  unfold Progress.record
  split <;> rfl

theorem Progress.successCount_record (progress : Progress)
    (result : OperationFinalResult) (cache : Option ActiveDirCache) :
    (progress.record result cache).successCount =
      progress.successCount + if result.status = .success then 1 else 0 := by
  unfold Progress.record
  split <;> simp [*]

theorem Turn.ready (turn : Turn env answers origin context op progress before (.ok progress') after)
    (ready : Ready env origin context progress before) :
    Ready env origin context progress' after := by
  cases turn with
  | skipped status unsuccessful same =>
    exact ⟨same.fs ▸ ready.below, ready.cache⟩
  | failed error same => exact ⟨same.fs ▸ ready.below, ready.cache⟩
  | abandoned error deletion target committedAt resolvedAt admitted logs fs
      refused => exact ⟨fs ▸ ready.below, ready.cache⟩
  | finished deletion target committedAt resolvedAt parent leaf mutation seen
      cache result admitted outcome logs written sound =>
      refine ⟨outcome.treeStep.below ready.below, ?_⟩
      rw [Progress.activeDirCache_record]
      exact sound.cacheAfter deletion.kind

/-- An invariant of the loop: `holds` between turns, indexed by the operations
already done, `crash` at every point, and `halted` after an error. -/
structure Invariant (env : Env) (answers : (request : Request) → Reply request → Prop) (origin : Fs)
    (context : Context) (holds : List PlannedOperation → Progress → World → Prop)
    (crash : World → Prop) (halted : CleanerError → World → Prop) : Prop where
  safe : ∀ {done progress world}, holds done progress world → crash world
  stages : ∀ {done op progress before after}, holds done progress before →
    done ++ [op] <+: context.authorized.plan.operations →
    Stage env origin context op progress before after → crash after
  turns : ∀ {done op progress before progress' after}, holds done progress before →
    done ++ [op] <+: context.authorized.plan.operations →
    Stage env origin context op progress before after →
    Turn env answers origin context op progress before (.ok progress') after →
    holds (done ++ [op]) progress' after
  halts : ∀ {done op progress before error after}, holds done progress before →
    done ++ [op] <+: context.authorized.plan.operations →
    Stage env origin context op progress before after →
    Turn env answers origin context op progress before (.error error) after → halted error after

section

variable {holds : List PlannedOperation → Progress → World → Prop}
  {crash : World → Prop} {halted : CleanerError → World → Prop}

theorem executeOperations_spec (invariant : Invariant env answers origin context holds crash halted)
    {done rest : List PlannedOperation}
    (planned : context.authorized.plan.operations = done ++ rest)
    (ready : Ready env origin context progress world) (start : holds done progress world) :
    Spec env.handler answers crash (fun result after =>
        match result with
        | .error error => halted error after
        | .ok progress =>
          holds context.authorized.plan.operations progress after)
      (executeOperations context rest progress) world := by
  induction rest generalizing done progress world with
  | nil =>
    rw [List.append_nil] at planned
    refine Spec.done (invariant.safe start) ?_
    rw [planned]
    exact start
  | cons op rest ih =>
    rw [List.append_cons] at planned
    have next : done ++ [op] <+: context.authorized.plan.operations := ⟨rest, planned.symm⟩
    refine Spec.bind ((executeOperation_spec ready.below ready.cache).post_safe.mono
        (fun after stage => invariant.stages start next stage) fun _ _ turn => turn) ?_
    rintro result after ⟨stage, turn⟩
    cases result with
    | error error =>
      exact Spec.done (invariant.stages start next stage) (invariant.halts start next stage turn)
    | ok progress' =>
      exact ih planned (turn.ready ready) (invariant.turns start next stage turn)

theorem executePlan_spec
    (invariant : Invariant env answers world.fs ⟨authorized, catalog, attempt⟩ holds crash halted)
    (entered : crash world) (start : holds [] Progress.start world.advance) :
    Spec env.handler answers crash (fun result after =>
        match result with
        | .error error =>
          error = .safetyViolation .executionRejected ∧ after = world.advance ∨ halted error after
        | .ok job => ∃ progress, holds authorized.plan.operations progress after ∧
              job = jobResult ⟨authorized, catalog, attempt⟩ progress)
      (executePlan authorized catalog config attempt) world := by
  refine Rules.quiet rfl entered fun now _ _ => ?_
  split
  · exact Spec.done (invariant.safe start) (Or.inl ⟨rfl, rfl⟩)
  · refine Spec.bind (executeOperations_spec invariant (List.nil_append _).symm
      (Ready.start _ world.advance) start).post_safe ?_
    rintro result after ⟨crashed, finished⟩
    cases result with
    | error error => exact Spec.done crashed (Or.inr finished)
    | ok progress => exact Spec.done crashed ⟨progress, finished, rfl⟩

end

end CacheCleaner.CleanupExecutor
