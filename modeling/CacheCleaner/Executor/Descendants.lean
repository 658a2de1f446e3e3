import CacheCleaner.Engine.Draft
import CacheCleaner.Executor.Effect
import CacheCleaner.Executor.Record

namespace CacheCleaner

open Effect Effect.Program

def Request.attempts : Request → Bool
  | .write (.commitOperationIntent _) | .rmdir _ _ => true
  | _ => false

namespace CleanupExecutor

def TurnRecord.Attempts (turn : TurnRecord) : Prop :=
  ∃ exchange ∈ turn.log, exchange.1.attempts = true

def TurnRecord.Succeeds (turn : TurnRecord) : Prop :=
  ∃ progress result, turn.result = .ok progress ∧
    progress.results.getLast? = some result ∧ result.status = .success

theorem Silent.not_attempts {log : Exchanges} (silent : Silent log) :
    ¬ TurnRecord.Attempts ⟨log, result⟩ := by
  rintro ⟨exchange, mem, attempts⟩
  have quiet := silent exchange mem
  cases request : exchange.1 with
  | rmdir directory name => simp [request, Request.quiet] at quiet
  | write write => simp [request, Request.quiet] at quiet
  | _ => simp [request, Request.attempts] at attempts

section

variable {context : Context} {op : PlannedOperation} {progress middle : Progress} {log : Exchanges}

theorem Report.fulfilled {result : Result Progress} (report : Report context op progress log result)
    (attempts : TurnRecord.Attempts ⟨log, result⟩) : Fulfilled op progress := by
  cases report with
  | skipped status unsuccessful silent => exact absurd attempts silent.not_attempts
  | failed error silent => exact absurd attempts silent.not_attempts
  | uncommitted deletion now refusal error fulfilled => exact fulfilled
  | unmarked deletion now error fulfilled => exact fulfilled
  | abandoned deletion error fulfilled => exact fulfilled
  | unsettled deletion parent leaf mutation seen state error fulfilled =>
    exact fulfilled
  | finished deletion parent leaf mutation seen settlement cache reply fulfilled => exact fulfilled

theorem Report.successes (report : Report context op progress log (.ok middle))
    {id : OperationId} (mem : id ∈ middle.successfulOpIds) : id ∈ progress.successfulOpIds ∨
      id = op.opId ∧ TurnRecord.Succeeds ⟨log, .ok middle⟩ := by
  generalize outcome : (Except.ok middle : Result Progress) = result at report
  cases report with
  | finished deletion parent leaf mutation seen settlement cache reply =>
    cases outcome
    unfold Progress.record at mem
    split at mem
    · rename_i success
      rcases List.mem_append.mp mem with old | new
      · exact Or.inl old
      · refine Or.inr ⟨List.mem_singleton.mp new, _, settled op settlement, rfl, ?_, success⟩
        simp [Progress.record, success]
    · exact Or.inl mem
  | unmarked => cases outcome
  | unsettled => cases outcome
  | _ =>
    cases outcome
    exact Or.inl mem

end

theorem Course.dependency_succeeds {records : List TurnRecord}
    (course : Course context operations progress records result) {index : Nat} {turn : TurnRecord}
    (planned : operations[index]? = some op)
    (taken : records[index]? = some turn) (attempts : turn.Attempts)
    (depends : dependency ∈ op.dependencies) :
    dependency ∈ progress.successfulOpIds ∨ ∃ earlier other turn', earlier < index ∧
        operations[earlier]? = some other ∧ other.opId = dependency ∧
        records[earlier]? = some turn' ∧ turn'.Succeeds := by
  induction course generalizing index with
  | done progress => cases planned
  | @turn first rest progress middle log records result report later ih =>
    cases index with
    | zero =>
      cases planned
      cases taken
      exact Or.inl (report.fulfilled attempts dependency depends)
    | succ index =>
      rcases ih planned taken with
        mem | ⟨earlier, other, turn', less, found, same, rest⟩
      · rcases report.successes mem with old | ⟨same, succeeds⟩
        · exact Or.inl old
        · exact Or.inr ⟨0, first, _, Nat.succ_pos _, rfl, same.symm, rfl, succeeds⟩
      · exact Or.inr ⟨earlier + 1, other, turn', Nat.succ_lt_succ less, found, same, rest⟩
  | halt report =>
    cases index with
    | zero =>
      cases planned
      cases taken
      exact Or.inl (report.fulfilled attempts dependency depends)
    | succ index => cases taken

end CleanupExecutor

open CleanupPlanner CleanupExecutor

/-- In every execution of a plan that `build_plan` made from permits with
distinct keys and scanned paths, a turn that commits an intent or issues an
`rmdir` for a directory comes after the turns of everything planned strictly
beneath it, and those succeeded. -/
theorem directory_attempted_after_descendants
    {iteration : IterationOrder ((TargetId × String) × OperationId)}
    {job : JobId} {generation : CatalogGeneration}
    {configGeneration : ConfigGeneration} {permits : List PolicyPermit}
    {authorized : AuthorizedPlan}
    (built : buildPlan iteration job generation configGeneration permits = .ok authorized.plan)
    (distinct : (permits.map key).Nodup)
    (scanned : ∀ permit ∈ permits, permit.candidate.candidate.relPath.Scanned)
    (env : Env) (catalog : CatalogSnapshot) (config : ConfigGeneration)
    (attempt : AttemptId) (world : World) {index : Nat}
    {op : PlannedOperation} {turn : TurnRecord} {target : TargetId}
    {path : RelativePath} {identity : FileIdentity}
    (planned : authorized.plan.operations[index]? = some op)
    (taken : (executionTurns env authorized catalog config attempt world)[index]? = some turn)
    (directory : op.opType = .deleteDirEmpty target path identity)
    (attempts : turn.Attempts) {other : PlannedOperation}
    {path' : RelativePath} (member : other ∈ authorized.plan.operations)
    (removes : other.opType.removedEntry = some (target, path')) (beneath : path'.Beneath path) :
    ∃ earlier turn', earlier < index ∧ authorized.plan.operations[earlier]? = some other ∧
      (executionTurns env authorized catalog config attempt world)[earlier]? =
        some turn' ∧ turn'.Succeeds := by
  have depends := buildPlan_waits built distinct scanned
    (List.mem_of_getElem? planned) member directory removes beneath
  rcases @executionTurns_course env authorized catalog config attempt world with
    none | ⟨result, course⟩
  · rw [none] at taken
    cases taken
  · rcases course.dependency_succeeds planned taken attempts depends with
      impossible | ⟨earlier, found, turn', less, place, same, taken', succeeds⟩
    · cases impossible
    · obtain ⟨seen, checked⟩ := (buildPlan_plans built).ids
      have ids := (checkOperations_distinct checked).2
      have equal : found = other := List.inj_on_of_nodup_map ids
        (List.mem_of_getElem? place) member same
      exact ⟨earlier, turn', less, equal ▸ place, taken', succeeds⟩

namespace CleanupExecutor.Sample

def nested : Fs where
  root := ⟨1, 1⟩
  cwd := ⟨1, 1⟩
  inode := fun id =>
    if id = ⟨1, 1⟩ then
      some (.folder ⟨1, 1⟩ "c" ⟨1, 2⟩)
    else if id = ⟨1, 2⟩ then
      some (.folder ⟨1, 1⟩ "d" ⟨1, 4⟩)
    else if id = ⟨1, 4⟩ then
      some (.folder ⟨1, 2⟩ "f" ⟨1, 3⟩)
    else if id = ⟨1, 3⟩ then
      some (.file ⟨1, 4⟩ 5 0)
    else none

def directoryPath : RelativePath := (RelativePath.empty.join "d").getD RelativePath.empty

def filePath : RelativePath := (directoryPath.join "f").getD RelativePath.empty

def permit (path : RelativePath) (identity : FileIdentity) (size : ByteCount)
    (isDir : Bool) : PolicyPermit :=
  ⟨⟨⟨⟨1⟩, ⟨"t"⟩, path, identity, size, 0, isDir, false⟩, 1, 2⟩, 1, .exceedsRetentionAge⟩

def nestedPermits : List PolicyPermit :=
  [permit directoryPath ⟨1, 4⟩ 0 true, permit filePath ⟨1, 3⟩ 5 false]

def removeFile : PlannedOperation := ⟨⟨1⟩, .deleteFile ⟨"t"⟩ filePath ⟨1, 3⟩ 5, [], 5⟩

def removeDirectory : PlannedOperation :=
  ⟨⟨2⟩, .deleteDirEmpty ⟨"t"⟩ directoryPath ⟨1, 4⟩, [⟨1⟩], 0⟩

def nestedPlan : PlannedPlan := ⟨planId ⟨1⟩ ⟨2⟩, ⟨1⟩, ⟨2⟩, ⟨1⟩, [removeFile, removeDirectory], 5⟩

def nestedAuthorized : AuthorizedPlan :=
  ⟨nestedPlan, ⟨⟨1⟩, nestedPlan.operations.map fun op => op.opType.capability,
    ⟨2⟩, ⟨1⟩, 1000, 1300⟩⟩

def nestedTurns : List TurnRecord :=
  executionTurns calmEnv nestedAuthorized snapshot ⟨1⟩ ⟨1⟩ ⟨0, nested, store, []⟩

theorem nested_built : buildPlan (.inserted _) ⟨1⟩ ⟨2⟩ ⟨1⟩ nestedPermits = .ok nestedPlan := by
  rfl

theorem nested_scanned : ∀ permit ∈ nestedPermits, permit.candidate.candidate.relPath.Scanned := by
  have valid : Fs.validateSingleComponent "d" = true ∧
      Fs.validateSingleComponent "f" = true := by decide
  have directory : directoryPath.Scanned := .top valid.1 rfl
  have file : filePath.Scanned := .inside directory valid.2 rfl
  intro permit mem
  rcases List.mem_cons.mp mem with rfl | mem
  · exact directory
  · rw [List.mem_singleton.mp mem]
    exact file

theorem nested_taken : nestedTurns[1]?.isSome = true := by decide +kernel

end CleanupExecutor.Sample

open Sample in
theorem directory_attempted_after_its_file : ∃ earlier turn', earlier < 1 ∧
      nestedPlan.operations[earlier]? = some removeFile ∧
      nestedTurns[earlier]? = some turn' ∧ turn'.Succeeds := by
  have attempts : (nestedTurns[1]?.get nested_taken).log.any
      (fun exchange => exchange.1.attempts) = true := by decide +kernel
  refine directory_attempted_after_descendants nested_built (by decide)
    nested_scanned calmEnv snapshot ⟨1⟩ ⟨1⟩ _ rfl
    (Option.some_get nested_taken).symm rfl (List.any_eq_true.mp attempts)
    (List.mem_cons_self ..) rfl ?_
  exact ⟨⟨["f"], by decide⟩, by decide⟩

end CacheCleaner
