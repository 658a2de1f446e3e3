import CacheCleaner.Executor.Loop

namespace CacheCleaner.CleanupExecutor

open Effect Effect.Program World

variable {env : Env} {answers : (request : Request) → Reply request → Prop}
  {origin : Fs} {context : Context}

variable {answer : Except Errno FileIdentity}

def Truthful (env : Env) : Prop := ∀ tick, env.absentFault tick = none

theorem classifyStat_isSuccessfulDeletion : (PostconditionVerifier.classifyStat expected
        answer).isSuccessfulDeletion = true ↔ answer = .error .noent := by
  cases answer with
  | ok current =>
    simp only [PostconditionVerifier.classifyStat, reduceCtorEq, iff_false, Bool.not_eq_true]
    split <;> rfl
  | error errno =>
    cases errno <;> simp [PostconditionVerifier.classifyStat,
      VerificationOutcome.isSuccessfulDeletion]

theorem stat_eq_noent {tick : Nat}
    (seen : env.stat tick answer = .error .noent) : answer = .error .noent := by
  unfold Env.stat Env.guarded at seen
  split at seen
  · split at seen
    · rename_i fault _
      exact absurd (Except.error.inj seen) fault.exists_
    · cases seen
  · rfl
  · exact seen

theorem stat_noent (truthful : Truthful env) (tick : Nat) :
    env.stat tick (.error .noent) = .error .noent := by
  simp [Env.stat, Env.guarded, truthful tick]

theorem child_of_statChild_noent {fs : Fs} (missing : fs.statChild directory name = .error .noent) :
    fs.child directory name = none := by
  unfold Fs.statChild at missing
  split at missing
  · split at missing
    · assumption
    · cases missing
  · cases missing

section

variable {deletion : Deletion} {target : TargetDescriptor} {before after : Fs}
  {parent : FileIdentity} {leaf : String} {mutation : Result Unit} {seen : VerificationOutcome}

theorem Outcome.absent_of_success
    (outcome : Outcome env origin deletion target before after parent leaf
      mutation seen) (gone : seen.isSuccessfulDeletion = true) :
    after.child parent leaf = none := by
  obtain ⟨tick, verdict⟩ := outcome.verdict
  rw [verdict, classifyStat_isSuccessfulDeletion] at gone
  exact child_of_statChild_noent (stat_eq_noent gone)

theorem Outcome.kept_of_failure (truthful : Truthful env)
    (outcome : Outcome env origin deletion target before after parent leaf
      mutation seen) (unconfirmed : seen.isSuccessfulDeletion = false) : after = before := by
  rcases outcome.tree with ⟨-, kept⟩ | ⟨-, entry, removes⟩
  · exact kept
  · obtain ⟨tick, verdict⟩ := outcome.verdict
    have missing : after.statChild parent leaf = .error .noent := by
      simp [Fs.statChild, removes.valid, removes.removed]
    rw [missing, stat_noent truthful] at verdict
    rw [verdict] at unconfirmed
    cases unconfirmed

theorem settle_success_iff : (settle deletion mutation seen).status = .success ↔
      seen.isSuccessfulDeletion = true := by
  unfold settle
  cases deletion.kind <;> cases mutation <;> cases seen <;> simp [settleFile, settleDirectory,
      VerificationOutcome.isSuccessfulDeletion]

theorem Outcome.child_of_ne (outcome : Outcome env origin deletion target before after parent leaf
      mutation seen) (other : ¬ (directory = parent ∧ name = leaf)) :
    after.child directory name = before.child directory name := by
  rcases outcome.tree with ⟨-, kept⟩ | ⟨-, entry, removes⟩
  · rw [kept]
  · rw [removes.removed, Fs.child_remove, if_neg other]

end

/-- The operation names the entry, through its target in the snapshot. -/
structure Names (env : Env) (origin : Fs) (context : Context)
    (op : PlannedOperation) (deletion : Deletion) (target : TargetDescriptor)
    (directory : FileIdentity) (name : String) : Prop where
  asks : deletion? op.opType = some deletion
  found : context.catalog.get deletion.targetId = some target
  addressed : Addresses env origin deletion target directory name

def Erased (env : Env) (origin : Fs) (context : Context)
    (ops : List PlannedOperation) (results : List OperationFinalResult)
    (directory : FileIdentity) (name : String) : Prop :=
  ∃ op result deletion target, (op, result) ∈ ops.zip results ∧ result.status = .success ∧
    Names env origin context op deletion target directory name

/-- What entitles an operation to remove anything. -/
structure Lawful (context : Context) (op : PlannedOperation)
    (deletion : Deletion) (target : TargetDescriptor) : Prop where
  granted : context.authorized.grant.grants op.opType.capability = true
  nonempty : deletion.relPath.raw ≠ ""
  allowed : target.isMutationAllowed = true
  generation : target.catalogGeneration = context.catalog.generation

/-- The tree that is left is the original one without exactly the entries of
the successful operations. -/
structure Exact (env : Env) (origin : Fs) (context : Context)
    (ops : List PlannedOperation) (results : List OperationFinalResult) (final : Fs) : Prop where
  aligned : results.map OperationFinalResult.opId = ops.map PlannedOperation.opId
  erased : ∀ {directory name}, Erased env origin context ops results directory name →
      final.child directory name = none
  kept : ∀ {directory name}, ¬ Erased env origin context ops results directory name →
      final.child directory name = origin.child directory name
  lawful : ∀ {op result}, (op, result) ∈ ops.zip results →
    result.status = .success → ∃ deletion target directory name,
      Names env origin context op deletion target directory name ∧ Lawful context op deletion target
  identity : ∀ {directory name entry}, origin.child directory name = some entry →
      final.child directory name = none →
      ∃ op result deletion target, (op, result) ∈ ops.zip results ∧ result.status = .success ∧
        Names env origin context op deletion target directory name ∧ entry.node = deletion.expected

theorem Names.eq (names : Names env origin context op deletion target directory name)
    (same : Names env origin context op other foreign parent leaf) :
    directory = parent ∧ name = leaf := by
  have deletions := names.asks.symm.trans same.asks
  cases deletions
  have targets := names.found.symm.trans same.found
  cases targets
  have addresses := names.addressed.symm.trans same.addressed
  cases addresses
  exact ⟨rfl, rfl⟩

section

variable {ops : List PlannedOperation} {results : List OperationFinalResult}
  {op : PlannedOperation} {result : OperationFinalResult}

theorem Exact.length (exact : Exact env origin context ops results final) :
    ops.length = results.length := by
  have lengths := congrArg List.length exact.aligned
  simpa using lengths.symm

theorem mem_zip_append (length : ops.length = results.length) :
    pair ∈ (ops ++ [op]).zip (results ++ [result]) ↔
      pair ∈ ops.zip results ∨ pair = (op, result) := by
  rw [List.zip_append length]
  simp

theorem erased_append (length : ops.length = results.length) :
    Erased env origin context (ops ++ [op]) (results ++ [result]) directory name ↔
      Erased env origin context ops results directory name ∨
        result.status = .success ∧ ∃ deletion target,
          Names env origin context op deletion target directory name := by
  constructor
  · rintro ⟨other, outcome, deletion, target, mem, success, names⟩
    rcases (mem_zip_append length).mp mem with old | new
    · exact Or.inl ⟨other, outcome, deletion, target, old, success, names⟩
    · cases new
      exact Or.inr ⟨success, deletion, target, names⟩
  · rintro (⟨other, outcome, deletion, target, mem, success, names⟩ |
      ⟨success, deletion, target, names⟩)
    · exact ⟨other, outcome, deletion, target,
        (mem_zip_append length).mpr (Or.inl mem), success, names⟩
    · exact ⟨op, result, deletion, target, (mem_zip_append length).mpr (Or.inr rfl), success, names⟩

theorem Exact.append_unsuccessful (exact : Exact env origin context ops results final)
    (id : result.opId = op.opId) (unsuccessful : result.status ≠ .success) :
    Exact env origin context (ops ++ [op]) (results ++ [result]) final where
  aligned := by simp [exact.aligned, id]
  erased := by
    intro directory name erased
    rcases (erased_append exact.length).mp erased with old | ⟨success, -⟩
    · exact exact.erased old
    · exact absurd success unsuccessful
  kept := by
    intro directory name other
    exact exact.kept fun old =>
      other ((erased_append exact.length).mpr (Or.inl old))
  lawful := by
    intro other outcome mem success
    rcases (mem_zip_append exact.length).mp mem with old | new
    · exact exact.lawful old success
    · cases new
      exact absurd success unsuccessful
  identity := by
    intro directory name entry present gone
    obtain ⟨other, outcome, deletion, target, mem, rest⟩ := exact.identity present gone
    exact ⟨other, outcome, deletion, target, (mem_zip_append exact.length).mpr (Or.inl mem), rest⟩

theorem Exact.append_successful (exact : Exact env origin context ops results before)
    (below : Fs.Below before origin)
    (outcome : Outcome env origin deletion target before after parent leaf
      mutation seen) (gone : seen.isSuccessfulDeletion = true)
    (names : Names env origin context op deletion target parent leaf)
    (lawful : Lawful context op deletion target)
    (id : result.opId = op.opId) (success : result.status = .success) :
    Exact env origin context (ops ++ [op]) (results ++ [result]) after where
  aligned := by simp [exact.aligned, id]
  erased := by
    intro directory name erased
    by_cases here : directory = parent ∧ name = leaf
    · obtain ⟨rfl, rfl⟩ := here
      exact outcome.absent_of_success gone
    · rw [outcome.child_of_ne here]
      rcases (erased_append exact.length).mp erased with
        old | ⟨-, other, foreign, same⟩
      · exact exact.erased old
      · exact absurd (same.eq names) here
  kept := by
    intro directory name other
    have here : ¬ (directory = parent ∧ name = leaf) := by
      rintro ⟨rfl, rfl⟩
      exact other ((erased_append exact.length).mpr (Or.inr ⟨success, deletion, target, names⟩))
    rw [outcome.child_of_ne here]
    exact exact.kept fun old =>
      other ((erased_append exact.length).mpr (Or.inl old))
  lawful := by
    intro other outcome mem succeeded
    rcases (mem_zip_append exact.length).mp mem with old | new
    · exact exact.lawful old succeeded
    · cases new
      exact ⟨deletion, target, parent, leaf, names, lawful⟩
  identity := by
    intro directory name entry present absent
    by_cases earlier : before.child directory name = none
    · obtain ⟨other, outcome, deletion, target, mem, rest⟩ := exact.identity present earlier
      exact ⟨other, outcome, deletion, target, (mem_zip_append exact.length).mpr (Or.inl mem), rest⟩
    · have here : directory = parent ∧ name = leaf := by
        by_contra other
        rw [outcome.child_of_ne other] at absent
        exact earlier absent
      obtain ⟨rfl, rfl⟩ := here
      refine ⟨op, result, deletion, target,
        (mem_zip_append exact.length).mpr (Or.inr rfl), success, names, ?_⟩
      rcases outcome.tree with ⟨-, kept⟩ | ⟨-, found, removes⟩
      · rw [kept] at absent
        exact absurd absent earlier
      · have original := below.child removes.found
        rw [present] at original
        cases original
        exact removes.identity

end

/-- What the loop keeps: the tree is exact, and so are the counters. -/
structure Accounted (env : Env) (origin : Fs) (context : Context)
    (done : List PlannedOperation) (progress : Progress) (world : World) : Prop where
  below : Fs.Below world.fs origin
  exact : Exact env origin context done progress.results world.fs
  counted : progress.successCount = progress.results.countP fun result => result.status = .success

theorem Accounted.turn (truthful : Truthful env) {done : List PlannedOperation}
    (accounted : Accounted env origin context done progress before)
    (turn : Turn env answers origin context op progress before (.ok progress') after) :
    Accounted env origin context (done ++ [op]) progress' after := by
  cases turn with
  | skipped status unsuccessful same =>
    refine ⟨same.fs ▸ accounted.below, ?_, ?_⟩
    · rw [same.fs]
      exact accounted.exact.append_unsuccessful rfl unsuccessful
    · simp [Progress.skip, accounted.counted, unsuccessful]
  | failed error same =>
    refine ⟨same.fs ▸ accounted.below, ?_, ?_⟩
    · rw [same.fs]
      exact accounted.exact.append_unsuccessful rfl (by simp)
    · simp [Progress.fail, accounted.counted]
  | abandoned error deletion target committedAt resolvedAt admitted logs fs refused =>
      refine ⟨fs ▸ accounted.below, ?_, ?_⟩
      · rw [fs]
        exact accounted.exact.append_unsuccessful rfl (by simp)
      · simp [Progress.fail, accounted.counted]
  | finished deletion target committedAt resolvedAt parent leaf mutation seen
      cache result admitted outcome logs written sound =>
      refine ⟨outcome.treeStep.below accounted.below, ?_, ?_⟩
      · rw [Progress.results_record]
        by_cases gone : seen.isSuccessfulDeletion = true
        · exact accounted.exact.append_successful accounted.below outcome gone
            ⟨admitted.asks, admitted.found, outcome.addressed⟩
            ⟨admitted.granted, admitted.nonempty, admitted.allowed,
              admitted.generation⟩ rfl (settle_success_iff.mpr gone)
        · rw [outcome.kept_of_failure truthful (by simpa using gone)]
          exact accounted.exact.append_unsuccessful rfl
            fun success => gone (settle_success_iff.mp success)
      · rw [Progress.successCount_record, Progress.results_record, accounted.counted]
        simp [List.countP_singleton]

theorem Accounted.start (context : Context) (world : World) :
    Accounted env world.fs context [] Progress.start world where
  below := Fs.Below.refl _
  exact := by
    refine ⟨rfl, ?_, fun _ => rfl, ?_, ?_⟩
    · rintro directory name ⟨op, result, deletion, target, mem, -⟩
      cases mem
    · intro op result mem
      cases mem
    · intro directory name entry present gone
      rw [present] at gone
      cases gone
  counted := rfl

theorem Accounted.invariant (truthful : Truthful env) (context : Context) :
    Invariant env (fun _ _ => True) origin context
      (Accounted env origin context) (fun _ => True) (fun _ _ => True) where
  safe := fun _ => trivial
  stages := fun _ _ _ => trivial
  turns := fun accounted _ _ turn => accounted.turn truthful turn
  halts := fun _ _ _ _ => trivial

theorem executePlan_run_ok (ran : (executePlan authorized catalog config attempt).run env.handler
      world = (some (.ok job), final)) : ∃ progress,
      (executeOperations ⟨authorized, catalog, attempt⟩
          authorized.plan.operations Progress.start).run env.handler
        world.advance = (some (.ok progress), final) ∧
      job = jobResult ⟨authorized, catalog, attempt⟩ progress := by
  obtain ⟨now, middle, entered, rest⟩ := exists_of_run_bind _ ran
  have advanced : middle = world.advance := by
    have step := congrArg Prod.snd entered
    exact step.symm
  subst advanced
  split at rest
  · cases rest
  · obtain ⟨outcome, last, looped, closing⟩ := exists_of_run_bind _ rest
    cases outcome with
    | error error => cases closing
    | ok progress =>
      cases closing
      exact ⟨progress, looped, rfl⟩

/-- The executor's effect is exact: what is left is the initial tree without
exactly the entries of the operations counted as successful, each removed by
an operation entitled to it and with the identity it expected. -/
theorem executePlan_effect_exact {env : Env} (truthful : Truthful env)
    {authorized : AuthorizedPlan} {catalog : CatalogSnapshot}
    {config : ConfigGeneration} {attempt : AttemptId} {world final : World} {job : JobResult}
    (ran : (executePlan authorized catalog config attempt).run env.handler
      world = (some (.ok job), final)) : ∃ progress,
      (executeOperations ⟨authorized, catalog, attempt⟩
          authorized.plan.operations Progress.start).run env.handler
        world.advance = (some (.ok progress), final) ∧
      job = jobResult ⟨authorized, catalog, attempt⟩ progress ∧
      job.successfulOperations = progress.results.countP (fun result => result.status = .success) ∧
      Exact env world.fs ⟨authorized, catalog, attempt⟩
        authorized.plan.operations progress.results final.fs ∧ Fs.Below final.fs world.fs := by
  obtain ⟨progress, looped, result⟩ := executePlan_run_ok ran
  have spec := executeOperations_spec (Accounted.invariant truthful ⟨authorized, catalog, attempt⟩)
    (List.nil_append _).symm (Ready.start _ world.advance) (Accounted.start _ world.advance)
  have accounted : Accounted env world.fs ⟨authorized, catalog, attempt⟩
      authorized.plan.operations progress final :=
    spec.run_post (Answered.always _ _ fun _ _ => trivial) looped
  refine ⟨progress, looped, result, ?_, accounted.exact, accounted.below⟩
  rw [result]
  exact accounted.counted

namespace Sample

def fs : Fs where
  root := ⟨1, 1⟩
  cwd := ⟨1, 1⟩
  inode := fun id =>
    if id = ⟨1, 1⟩ then
      some (.folder ⟨1, 1⟩ "c" ⟨1, 2⟩)
    else if id = ⟨1, 2⟩ then
      some (.folder ⟨1, 1⟩ "f" ⟨1, 3⟩)
    else if id = ⟨1, 3⟩ then
      some (.file ⟨1, 2⟩ 5 0)
    else none

def target : TargetDescriptor := ⟨⟨"t"⟩, .appCache, "/c", 1, 2, 0, 0, none, .standardCache, ⟨2⟩⟩

def snapshot : CatalogSnapshot := ⟨⟨2⟩, ⟨[target], by decide⟩⟩

def path : RelativePath := (RelativePath.parse "f").getD RelativePath.empty

def plan : PlannedPlan := ⟨⟨1⟩, ⟨1⟩, ⟨2⟩, ⟨1⟩, [⟨⟨1⟩, .deleteFile ⟨"t"⟩ path ⟨1, 3⟩ 5, [], 5⟩], 5⟩

def authorized : AuthorizedPlan := ⟨plan, ⟨⟨1⟩, [.deleteFile ⟨"t"⟩ path], ⟨2⟩, ⟨1⟩, 1000, 1300⟩⟩

def store : Store :=
  { Store.empty with
    jobs := .single ⟨⟨1⟩, "ManualIpc", .admitted, ⟨2⟩, ⟨1⟩, 0⟩
    attempts := .single ⟨⟨1⟩, ⟨1⟩, ⟨1⟩, .running⟩ }

def view : PlatformView := ⟨[], fun _ => .unknown, fun _ => none, fun _ => none, fun _ => none⟩

def calmEnv : Env := .calm 1000 view Env.thousand_le

def world : World := ⟨0, fs, store, []⟩

def job : JobResult := ⟨⟨1⟩, ⟨1⟩, 5, 1, 1, 0, 0⟩

def blindEnv : Env := { calmEnv with absentFault := fun _ => some ⟨.io, by decide⟩ }

end Sample

theorem sample_effect_exact : ∃ progress,
      (executeOperations ⟨Sample.authorized, Sample.snapshot, ⟨1⟩⟩
          Sample.plan.operations Progress.start).run Sample.calmEnv.handler Sample.world.advance =
        (some (.ok progress), ((executePlan Sample.authorized Sample.snapshot ⟨1⟩ ⟨1⟩).run
            Sample.calmEnv.handler Sample.world).2) ∧
      Sample.job = jobResult ⟨Sample.authorized, Sample.snapshot, ⟨1⟩⟩ progress ∧
      Sample.job.successfulOperations = progress.results.countP
        (fun result => result.status = .success) ∧
      Exact Sample.calmEnv Sample.fs ⟨Sample.authorized, Sample.snapshot, ⟨1⟩⟩
        Sample.plan.operations progress.results
        ((executePlan Sample.authorized Sample.snapshot ⟨1⟩ ⟨1⟩).run
          Sample.calmEnv.handler Sample.world).2.fs ∧ Fs.Below
        ((executePlan Sample.authorized Sample.snapshot ⟨1⟩ ⟨1⟩).run
          Sample.calmEnv.handler Sample.world).2.fs Sample.fs :=
  executePlan_effect_exact (fun _ => rfl) (Prod.ext (by decide +kernel) rfl)

/-- The file is gone, and its operation is counted as failed. -/
theorem unconfirmed_removal_fails :
    (∀ tick write, Sample.blindEnv.writeFault tick write = false) ∧
    ((executePlan Sample.authorized Sample.snapshot ⟨1⟩ ⟨1⟩).run Sample.blindEnv.handler
      Sample.world).1 = some (.ok ⟨⟨1⟩, ⟨1⟩, 0, 1, 0, 1, 0⟩) ∧
    Sample.world.fs.statChild ⟨1, 2⟩ "f" = .ok ⟨1, 3⟩ ∧
    ((executePlan Sample.authorized Sample.snapshot ⟨1⟩ ⟨1⟩).run Sample.blindEnv.handler
      Sample.world).2.fs.statChild ⟨1, 2⟩ "f" = .error .noent := by
  refine ⟨fun _ _ => rfl, ?_, ?_, ?_⟩ <;> decide +kernel

end CacheCleaner.CleanupExecutor
