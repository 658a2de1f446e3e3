import CacheCleaner.Executor.Descendants
import CacheCleaner.Runtime.Tables

namespace CacheCleaner

open Effect Effect.Program

def OperationType.isFile : OperationType → Bool
  | .deleteFile _ _ _ _ => true
  | _ => false

namespace CleanupExecutor

variable {log : Exchanges}

def isUnlinked : Exchange Request Reply → Bool
  | ⟨.unlink _ _, .ok ()⟩ => true
  | _ => false

def seen? : Exchange Request Reply → Option (Except Errno FileIdentity)
  | ⟨.statChild _ _, reply⟩ => some reply
  | _ => none

def recorded? : Exchange Request Reply → Option OperationRow
  | ⟨.write (.recordOperationResult row), .ok ()⟩ => some row
  | _ => none

def isStored : Exchange Request Reply → Bool
  | ⟨.write _, .error _⟩ => false
  | _ => true

def unlinked (log : Exchanges) : Bool := log.any isUnlinked

def confirmed (log : Exchanges) : Bool :=
  unlinked log && decide ((log.filterMap seen?).getLast? = some (.error .noent))

def rows (log : Exchanges) : List OperationRow := log.filterMap recorded?

theorem Silent.unlinked (silent : Silent log) : unlinked log = false := by
  rw [CleanupExecutor.unlinked, List.any_eq_false]
  rintro ⟨request, reply⟩ mem unlinks
  have quiet := silent _ mem
  cases request with
  | unlink directory name => cases quiet
  | _ => cases unlinks

theorem Silent.rows (silent : Silent log) : rows log = [] := by
  rw [CleanupExecutor.rows, List.filterMap_eq_nil_iff]
  rintro ⟨request, reply⟩ mem
  have quiet := silent _ mem
  cases request with
  | write write => cases quiet
  | _ => rfl

@[simp] theorem unlinked_append : unlinked (front ++ back) = (unlinked front || unlinked back) :=
  List.any_append

@[simp] theorem rows_append : rows (front ++ back) = rows front ++ rows back :=
  List.filterMap_append

section

variable {context : Context} {op : PlannedOperation}

theorem Marked.unlinked (marked : Marked context op deletion front) : unlinked front = false := by
  cases marked with
  | intro now before after =>
    simp only [unlinked_append, before.unlinked, after.unlinked]
    rfl

theorem Marked.rows (marked : Marked context op deletion front) : rows front = [] := by
  cases marked with
  | intro now before after =>
    simp only [rows_append, before.rows, after.rows]
    rfl

theorem Removal.unlinked (removal : Removal kind parent leaf middle mutation) :
    unlinked middle = (decide (kind = .file) && mutation.isOk) := by
  cases removal with
  | refused silent => simp [silent.unlinked, Except.isOk, Except.toBool]
  | called silent reply =>
    rw [unlinked_append, silent.unlinked]
    cases kind <;> cases reply <;> rfl

theorem Removal.rows (removal : Removal kind parent leaf middle mutation) : rows middle = [] := by
  cases removal with
  | refused silent => exact silent.rows
  | called silent reply =>
    rw [rows_append, silent.rows]
    cases kind <;> rfl

def Writes (log : Exchanges) : Prop :=
  ∀ exchange ∈ log, ∃ write reply, exchange = ⟨.write write, reply⟩

theorem Writes.settling (context : Context) (op : PlannedOperation)
    (deletion : Deletion) (settlement : Settlement) (reply : Result Unit) :
    Writes ([marks context op.opId settlement.state (.ok ())] ++
      [records context deletion (settled op settlement) reply]) := by
  intro exchange mem
  rcases List.mem_cons.mp mem with rfl | mem
  · exact ⟨_, _, rfl⟩
  · exact ⟨_, _, List.mem_singleton.mp mem⟩

theorem Writes.unlinked (writes : Writes back) : unlinked back = false := by
  rw [CleanupExecutor.unlinked, List.any_eq_false]
  intro exchange mem
  obtain ⟨write, reply, rfl⟩ := writes exchange mem
  exact nofun

theorem Writes.seen (writes : Writes back) : back.filterMap seen? = [] := by
  rw [List.filterMap_eq_nil_iff]
  intro exchange mem
  obtain ⟨write, reply, rfl⟩ := writes exchange mem
  rfl

variable {seen : Except Errno FileIdentity}

theorem unlinked_mutation (marked : Marked context op deletion front)
    (removal : Removal deletion.kind parent leaf middle mutation) (writes : Writes back) :
    unlinked (front ++ middle ++ [verifies parent leaf seen] ++ back) =
      (decide (deletion.kind = .file) && mutation.isOk) := by
  have looks : unlinked [verifies parent leaf seen] = false := rfl
  simp only [unlinked_append, marked.unlinked, removal.unlinked,
    writes.unlinked, looks, Bool.false_or, Bool.or_false]

theorem confirmed_mutation (marked : Marked context op deletion front)
    (removal : Removal deletion.kind parent leaf middle mutation) (writes : Writes back) :
    confirmed (front ++ middle ++ [verifies parent leaf seen] ++ back) =
      (decide (deletion.kind = .file) && mutation.isOk && decide (seen = .error .noent)) := by
  have last : ((front ++ middle ++ [verifies parent leaf seen] ++
      back).filterMap seen?).getLast? = some seen := by
    rw [List.filterMap_append, writes.seen, List.filterMap_append]
    simp [seen?, verifies]
  rw [confirmed, unlinked_mutation marked removal writes, last]
  simp only [Option.some.injEq]

end

theorem settle_reclaimed (deletion : Deletion) (mutation : Result Unit)
    (outcome : VerificationOutcome) : (settle deletion mutation outcome).reclaimed =
      if deletion.kind = .file ∧ mutation.isOk = true ∧
          outcome.isSuccessfulDeletion = true then deletion.estimated else 0 := by
  unfold settle
  cases deletion.kind <;> cases mutation <;> cases outcome <;> rfl

def credit (op : PlannedOperation) (log : Exchanges) : ByteCount :=
  if confirmed log then op.opType.estimatedSize else 0

theorem saturatingAdd_zero (bounded : total ≤ u64Max) : saturatingAdd total 0 = total :=
  Nat.min_eq_left bounded

structure Entry (context : Context) (op : PlannedOperation)
    (progress : Progress) (log : Exchanges) (after : Progress) : Prop where
  counted : after.successCount + after.failedCount + after.skippedCount =
    progress.successCount + progress.failedCount + progress.skippedCount + 1
  total : after.totalReclaimed = saturatingAdd progress.totalReclaimed (credit op log)
  file : unlinked log = true → op.opType.isFile = true
  written : rows log = [] ∧ (log.all isStored = true → credit op log = 0) ∨
    ∃ row, rows log = [row] ∧ row.reclaimedBytes = credit op log ∧
      row.key = (context.authorized.plan.jobId, op.opId)

theorem Entry.bounded (entry : Entry context op progress log after) :
    after.totalReclaimed ≤ u64Max := by
  rw [entry.total]
  exact Nat.min_le_right ..

section

variable {context : Context} {op : PlannedOperation} {progress after : Progress} {log : Exchanges}

theorem credit_of_not_unlinked (kept : unlinked log = false) : credit op log = 0 := by
  simp [credit, confirmed, kept]

theorem Entry.of_kept (bounded : progress.totalReclaimed ≤ u64Max)
    (kept : unlinked log = false) (unwritten : rows log = [])
    (counted : after.successCount + after.failedCount + after.skippedCount =
      progress.successCount + progress.failedCount + progress.skippedCount + 1)
    (same : after.totalReclaimed = progress.totalReclaimed) :
    Entry context op progress log after := by
  have none : credit op log = 0 := credit_of_not_unlinked kept
  refine ⟨counted, ?_, ?_, Or.inl ⟨unwritten, fun _ => none⟩⟩
  · rw [none, saturatingAdd_zero bounded, same]
  · rw [kept]
    exact nofun

theorem record_counted (progress : Progress) (result : OperationFinalResult)
    (cache : Option ActiveDirCache) : (progress.record result cache).successCount +
        (progress.record result cache).failedCount + (progress.record result cache).skippedCount =
      progress.successCount + progress.failedCount + progress.skippedCount + 1 := by
  unfold Progress.record
  split
  · simp only
    omega
  · simp only
    omega

theorem record_total (bounded : progress.totalReclaimed ≤ u64Max)
    (unsuccessful : result.status ≠ .success → result.reclaimedBytes = 0) :
    (progress.record result cache).totalReclaimed =
      saturatingAdd progress.totalReclaimed result.reclaimedBytes := by
  unfold Progress.record
  split
  · rfl
  · rename_i other
    rw [unsuccessful other, saturatingAdd_zero bounded]

theorem deletion?_facts {opType : OperationType}
    (asks : deletion? opType = some deletion) : opType.isFile = decide (deletion.kind = .file) ∧
      opType.estimatedSize = deletion.estimated := by
  cases opType <;> cases asks <;> exact ⟨rfl, rfl⟩

theorem Report.entry (bounded : progress.totalReclaimed ≤ u64Max)
    (report : Report context op progress log (.ok after)) :
    Entry context op progress log after := by
  generalize outcome : (Except.ok after : Result Progress) = result at report
  cases report with
  | skipped status unsuccessful silent =>
    cases outcome
    refine .of_kept bounded silent.unlinked silent.rows ?_ rfl
    simp only [Progress.skip]
    omega
  | failed error silent =>
    cases outcome
    refine .of_kept bounded silent.unlinked silent.rows ?_ rfl
    simp only [Progress.fail]
    omega
  | uncommitted deletion now refusal error fulfilled silent =>
    cases outcome
    refine .of_kept bounded ?_ ?_ ?_ rfl
    · simp only [unlinked_append, silent.unlinked]
      rfl
    · simp only [rows_append, silent.rows]
      rfl
    · simp only [Progress.fail]
      omega
  | unmarked => cases outcome
  | abandoned deletion error fulfilled marked =>
    cases outcome
    refine .of_kept bounded marked.unlinked marked.rows ?_ rfl
    simp only [Progress.fail]
    omega
  | unsettled => cases outcome
  | @finished front middle deletion parent leaf mutation seen settlement cache
      reply fulfilled asks marked removal settles =>
      cases outcome
      obtain ⟨isFile, size⟩ := deletion?_facts asks
      have writes := Writes.settling context op deletion settlement reply
      have credited : credit op (front ++ middle ++ [verifies parent leaf seen] ++
          [marks context op.opId settlement.state (.ok ())] ++
          [records context deletion (settled op settlement) reply]) = settlement.reclaimed := by
        rw [List.append_assoc _ [marks ..], credit,
          confirmed_mutation marked removal writes, settles, settle_reclaimed, size]
        simp only [classifyStat_isSuccessfulDeletion, Bool.and_eq_true,
          decide_eq_true_eq, and_assoc]
      have written : CleanupExecutor.rows (front ++ middle ++ [verifies parent leaf seen] ++
          [marks context op.opId settlement.state (.ok ())] ++
          [records context deletion (settled op settlement) reply]) = CleanupExecutor.rows
              [records context deletion (settled op settlement) reply] := by
        simp only [rows_append, marked.rows, removal.rows]
        rfl
      refine ⟨record_counted .., ?_, ?_, ?_⟩
      · rw [credited]
        refine record_total bounded fun unsuccessful => ?_
        subst settles
        change (settle ..).reclaimed = 0
        rw [settle_reclaimed, if_neg]
        rintro ⟨-, -, gone⟩
        exact unsuccessful (settle_success_iff.mpr gone)
      · rw [List.append_assoc _ [marks ..], unlinked_mutation marked removal writes, isFile]
        simp only [Bool.and_eq_true]
        exact And.left
      · rw [credited, written]
        cases reply with
        | error error =>
          refine Or.inl ⟨rfl, fun stored => ?_⟩
          simp [isStored, records] at stored
        | ok done => exact Or.inr ⟨_, rfl, rfl, rfl⟩

end

def reclaimed (operations : List PlannedOperation)
    (records : List TurnRecord) : List PlannedOperation :=
  ((operations.zip records).filter fun (op, turn) =>
    op.opType.isFile && confirmed turn.log).map Prod.fst

section

variable {context : Context} {operations : List PlannedOperation}
  {progress final : Progress} {records : List TurnRecord}

@[elab_as_elim]
theorem Course.accounting {motive : List PlannedOperation → Progress → List TurnRecord → Prop}
    (course : Course context operations progress records (.ok final))
    (bounded : progress.totalReclaimed ≤ u64Max) (done : motive [] final [])
    (turn : ∀ {op rest progress middle log records}, progress.totalReclaimed ≤ u64Max →
      Entry context op progress log middle → motive rest middle records →
      motive (op :: rest) progress (⟨log, .ok middle⟩ :: records)) :
    motive operations progress records := by
  generalize outcome : (Except.ok final : Result Progress) = result at course
  induction course with
  | done progress =>
    cases outcome
    exact done
  | turn report later ih =>
    have entry := report.entry bounded
    exact turn bounded entry (ih entry.bounded outcome)
  | halt report => cases outcome

theorem Course.length (bounded : progress.totalReclaimed ≤ u64Max)
    (course : Course context operations progress records (.ok final)) :
    records.length = operations.length := by
  refine course.accounting bounded rfl ?_
  intro op rest progress middle log records _ _ same
  exact congrArg Nat.succ same

theorem Course.counted (bounded : progress.totalReclaimed ≤ u64Max)
    (course : Course context operations progress records (.ok final)) :
    final.successCount + final.failedCount + final.skippedCount =
      progress.successCount + progress.failedCount + progress.skippedCount + operations.length := by
  refine course.accounting bounded rfl ?_
  intro op rest progress middle log records _ entry counted
  rw [counted, entry.counted, List.length_cons]
  omega

theorem Course.total (bounded : progress.totalReclaimed ≤ u64Max)
    (course : Course context operations progress records (.ok final)) :
    final.totalReclaimed = ((reclaimed operations records).map fun op =>
      op.opType.estimatedSize).foldl saturatingAdd progress.totalReclaimed := by
  refine course.accounting bounded rfl ?_
  intro op rest progress middle log records bounded entry total
  rw [total, entry.total]
  unfold reclaimed credit
  rw [List.zip_cons_cons, List.filter_cons]
  by_cases credited : confirmed log = true
  · have unlinks := (Bool.and_eq_true_iff.mp credited).1
    simp [credited, entry.file unlinks]
  · simp [credited, saturatingAdd_zero bounded]

theorem Course.rows (bounded : progress.totalReclaimed ≤ u64Max)
    (course : Course context operations progress records (.ok final))
    (stored : ∀ turn ∈ records, turn.log.all isStored = true) : final.totalReclaimed =
      ((records.flatMap fun turn => rows turn.log).map fun row =>
        row.reclaimedBytes).foldl saturatingAdd progress.totalReclaimed := by
  revert stored
  refine course.accounting bounded (fun _ => rfl) ?_
  intro op rest progress middle log records bounded entry total stored
  rw [total fun turn mem => stored turn (List.mem_cons_of_mem _ mem),
    entry.total, List.flatMap_cons, List.map_append, List.foldl_append]
  congr 1
  rcases entry.written with ⟨unwritten, nothing⟩ | ⟨row, written, bytes, -⟩
  · rw [unwritten, nothing (stored _ (List.mem_cons_self ..)), saturatingAdd_zero bounded]
    rfl
  · rw [written, ← bytes]
    rfl

theorem Course.keys (bounded : progress.totalReclaimed ≤ u64Max)
    (course : Course context operations progress records (.ok final)) :
    ((records.flatMap fun turn => CleanupExecutor.rows turn.log).map OperationRow.key).Sublist
      (operations.map fun op => (context.authorized.plan.jobId, op.opId)) := by
  refine course.accounting bounded .slnil ?_
  intro op rest progress middle log records _ entry sublist
  rw [List.flatMap_cons, List.map_append, List.map_cons]
  rcases entry.written with ⟨unwritten, -⟩ | ⟨row, written, -, key⟩
  · rw [unwritten]
    exact sublist.cons _
  · rw [written, List.map_singleton, key]
    exact sublist.cons_cons _

end

def writeRow (table : Table OperationRow.key) : StoreWrite → Table OperationRow.key
  | .recordOperationResult row => table.upsert row
  | _ => table

theorem told_operations : Told Store.operations writeRow where
  lease := Store.Kept.operations
  statement := by
    intro write now before after succeeded
    cases write with
    | recordOperationResult row =>
      rw [Store.recordOperationResult_ok succeeded]
      rfl
    | _ => exact (StoreWrite.frames succeeded).operations nofun

theorem foldl_writeRow :
    (statements log).foldl writeRow table = (rows log).foldl Table.upsert table := by
  rw [statements, rows, List.foldl_filterMap, List.foldl_filterMap]
  congr 1
  funext table exchange
  rcases exchange with ⟨request, reply⟩
  cases request with
  | write write => cases write <;> cases reply <;> rfl
  | _ => rfl

theorem run_operations (env : Env) (program : Act α) (world : World) :
    (program.run env.handler world).2.store.operations =
      (rows (program.log env.handler world)).foldl Table.upsert world.store.operations :=
  (told_operations.run env program world).trans foldl_writeRow

section

variable {operations : List PlannedOperation} {records : List TurnRecord}

theorem reclaimed_sublist (same : records.length = operations.length) :
    (reclaimed operations records).Sublist operations := by
  have all : (operations.zip records).map Prod.fst = operations :=
    List.map_fst_zip (Nat.le_of_eq same.symm)
  have kept := (List.filter_sublist (l := operations.zip records) (p :=
    fun (op, turn) => op.opType.isFile && confirmed turn.log)).map Prod.fst
  rwa [all] at kept

theorem sum_filter_map {values : List α}
    (zero : ∀ value ∈ values, keep value = false → size value = 0) :
    ((values.filter keep).map size).sum = (values.map size).sum := by
  induction values with
  | nil => rfl
  | cons value rest ih =>
    have later := ih fun value mem =>
      zero value (List.mem_cons_of_mem _ mem)
    rw [List.filter_cons, List.map_cons, List.sum_cons]
    cases kept : keep value with
    | true => simpa using later
    | false =>
      rw [zero value (List.mem_cons_self ..) kept]
      simpa using later

theorem sum_reclaimed (same : records.length = operations.length)
    (all : ∀ op turn, (op, turn) ∈ operations.zip records →
      op.opType.isFile = true → confirmed turn.log = true) :
    ((reclaimed operations records).map fun op => op.opType.estimatedSize).sum =
      (operations.map fun op => op.opType.estimatedSize).sum := by
  have sizes : (operations.map fun op => op.opType.estimatedSize) =
      (operations.zip records).map fun pair => pair.1.opType.estimatedSize := by
    conv_lhs => rw [← List.map_fst_zip (Nat.le_of_eq same.symm), List.map_map]
    rfl
  rw [reclaimed, List.map_map, sizes]
  refine sum_filter_map fun (op, turn) mem dropped => ?_
  rw [Function.comp_apply]
  cases kind : op.opType with
  | deleteFile target path identity size =>
    have file : op.opType.isFile = true := by rw [kind]; rfl
    simp [file, all op turn mem file] at dropped
  | _ => rfl

end

section

variable {env : Env} {authorized : AuthorizedPlan} {catalog : CatalogSnapshot}
  {config : ConfigGeneration} {attempt : AttemptId} {world final : World} {job : JobResult}

def recordedRows (env : Env) (authorized : AuthorizedPlan)
    (catalog : CatalogSnapshot) (config : ConfigGeneration)
    (attempt : AttemptId) (world : World) : List OperationRow :=
  rows ((executePlan authorized catalog config attempt).log env.handler world)

theorem recordedRows_eq : recordedRows env authorized catalog config attempt world =
      (executionTurns env authorized catalog config attempt world).flatMap
        fun turn => rows turn.log := by
  rw [recordedRows, executePlan_log, rows, List.filterMap_cons, List.filterMap_flatMap]
  rfl

theorem recordedRows_stored (ran : (executePlan authorized catalog config attempt).run env.handler
      world = (some (.ok job), final))
    (distinct : (authorized.plan.operations.map fun op => op.opId).Nodup) :
    final.store.operations.rows.filter (fun row => row.key ∈
        (recordedRows env authorized catalog config attempt world).map OperationRow.key) =
      recordedRows env authorized catalog config attempt world := by
  obtain ⟨progress, course, -⟩ := executePlan_course ran
  have keys : ((recordedRows env authorized catalog config attempt world).map
      OperationRow.key).Nodup := by
    rw [recordedRows_eq]
    refine (course.keys (Nat.zero_le _)).nodup ?_
    refine List.Nodup.of_map Prod.snd ?_
    rw [List.map_map]
    exact distinct
  have written := run_operations env (executePlan authorized catalog config attempt) world
  rw [ran] at written
  rw [written]
  convert Table.filter_foldl_upsert keys world.store.operations
  rfl

theorem recordedRows_sum (ran : (executePlan authorized catalog config attempt).run env.handler
      world = (some (.ok job), final))
    (stored : ((executePlan authorized catalog config attempt).log env.handler
      world).all isStored = true) :
    saturatingSum ((recordedRows env authorized catalog config attempt
      world).map fun row => row.reclaimedBytes) = job.totalReclaimed := by
  obtain ⟨progress, course, rfl⟩ := executePlan_course ran
  have turns : ∀ turn ∈ executionTurns env authorized catalog config attempt
      world, turn.log.all isStored = true := by
    intro turn mem
    rw [executePlan_log, List.all_cons, Bool.and_eq_true] at stored
    rw [List.all_eq_true]
    intro exchange among
    exact List.all_eq_true.mp stored.2 exchange (List.mem_flatMap.mpr ⟨turn, mem, among⟩)
  rw [recordedRows_eq]
  exact (course.rows (Nat.zero_le _) turns).symm

end

end CleanupExecutor

open CleanupExecutor CleanupPlanner

section

variable {env : Env} {authorized : AuthorizedPlan} {catalog : CatalogSnapshot}
  {config : ConfigGeneration} {attempt : AttemptId} {world final : World} {job : JobResult}

theorem executePlan_total_le (ran : (executePlan authorized catalog config attempt).run env.handler
      world = (some (.ok job), final))
    (built : buildPlan iteration planned generation planConfig permits = .ok authorized.plan) :
    job.totalReclaimed ≤ authorized.plan.totalEstimatedReclaim := by
  obtain ⟨progress, course, result⟩ := executePlan_course ran
  have bounded : Progress.start.totalReclaimed ≤ u64Max := Nat.zero_le _
  have less := ((reclaimed_sublist (course.length bounded)).map fun op =>
    op.opType.estimatedSize).sum_le_sum fun size _ => Nat.zero_le size
  have total : job.totalReclaimed = saturatingSum ((reclaimed
      authorized.plan.operations (executionTurns env authorized catalog config
        attempt world)).map fun op => op.opType.estimatedSize) := by
    rw [result]
    exact course.total bounded
  rw [buildPlan_total built, total, saturatingSum_eq_min, saturatingSum_eq_min]
  exact min_le_min_right _ less

theorem execution_accounts_balance
    (ran : (executePlan authorized catalog config attempt).run env.handler
      world = (some (.ok job), final)) :
    let operations := authorized.plan.operations
    let turns := executionTurns env authorized catalog config attempt world
    let recorded := recordedRows env authorized catalog config attempt world
    -- every operation has one turn and is counted once
    (job.successfulOperations + job.failedOperations + job.skippedOperations = job.totalOperations ∧
      job.totalOperations = operations.length ∧ turns.length = operations.length) ∧
    job.totalReclaimed = saturatingSum
      ((reclaimed operations turns).map fun op => op.opType.estimatedSize) ∧
    (((executePlan authorized catalog config attempt).log env.handler world).all isStored = true →
      (operations.map fun op => op.opId).Nodup → job.totalReclaimed = saturatingSum
        ((final.store.operations.rows.filter fun row =>
          row.key ∈ recorded.map OperationRow.key).map fun row =>
            row.reclaimedBytes)) ∧
    ∀ iteration planned generation permits, buildPlan iteration planned generation config permits =
        .ok authorized.plan → job.totalReclaimed ≤ authorized.plan.totalEstimatedReclaim ∧
        ((∀ op turn, (op, turn) ∈ operations.zip turns →
            op.opType.isFile = true → confirmed turn.log = true) →
          job.totalReclaimed = authorized.plan.totalEstimatedReclaim) := by
  intro operations turns recorded
  obtain ⟨progress, course, result⟩ := executePlan_course ran
  have bounded : Progress.start.totalReclaimed ≤ u64Max := Nat.zero_le _
  have lengths : turns.length = operations.length := course.length bounded
  have total : job.totalReclaimed = saturatingSum
      ((reclaimed operations turns).map fun op => op.opType.estimatedSize) := by
    rw [result]
    exact course.total bounded
  refine ⟨⟨?_, by rw [result]; rfl, lengths⟩, total, ?_, ?_⟩
  · have counted := course.counted bounded
    rw [result]
    exact counted.trans (Nat.zero_add _)
  · intro stored distinct
    rw [recordedRows_stored ran distinct, recordedRows_sum ran stored]
  · intro iteration planned generation permits built
    refine ⟨executePlan_total_le ran built, fun all => ?_⟩
    rw [buildPlan_total built, total, saturatingSum_eq_min,
      saturatingSum_eq_min, sum_reclaimed lengths all]

end

namespace CleanupExecutor.Sample

def filePlan : PlannedPlan := { plan with planId := planId ⟨1⟩ ⟨2⟩ }

def fileAuthorized : AuthorizedPlan := { authorized with plan := filePlan }

theorem filePlan_built : buildPlan (.inserted _) ⟨1⟩ ⟨2⟩ ⟨1⟩ [permit path ⟨1, 3⟩ 5 false] =
      .ok filePlan := by
  rfl

end CleanupExecutor.Sample

open Sample

theorem sample_accounts_balance :
    let operations := filePlan.operations
    let turns := executionTurns calmEnv fileAuthorized snapshot ⟨1⟩ ⟨1⟩ world
    ((executePlan fileAuthorized snapshot ⟨1⟩ ⟨1⟩).log calmEnv.handler world).all isStored = true ∧
    (operations.map fun op => op.opId).Nodup ∧
    (∀ op turn, (op, turn) ∈ operations.zip turns →
      op.opType.isFile = true → confirmed turn.log = true) ∧
    job.totalReclaimed = filePlan.totalEstimatedReclaim := by
  intro operations turns
  have ran : (executePlan fileAuthorized snapshot ⟨1⟩ ⟨1⟩).run calmEnv.handler
      world = (some (.ok job), ((executePlan fileAuthorized snapshot ⟨1⟩
        ⟨1⟩).run calmEnv.handler world).2) := Prod.ext (by decide +kernel) rfl
  have all : turns.all (fun turn => confirmed turn.log) = true := by
    decide +kernel
  have files : ∀ op turn, (op, turn) ∈ operations.zip turns →
      op.opType.isFile = true → confirmed turn.log = true := by
    intro op turn member _
    exact List.all_eq_true.mp all turn (List.of_mem_zip member).2
  obtain ⟨-, -, -, estimated⟩ := execution_accounts_balance ran
  exact ⟨by decide +kernel, by decide, files, (estimated _ _ _ _ filePlan_built).2 files⟩

/-- An unlink that succeeds is not counted when the look after it fails. -/
theorem unconfirmed_unlink_uncounted :
    buildPlan (.inserted _) ⟨1⟩ ⟨2⟩ ⟨1⟩ [permit path ⟨1, 3⟩ 5 false] = .ok fileAuthorized.plan ∧
    ((executePlan fileAuthorized snapshot ⟨1⟩ ⟨1⟩).run blindEnv.handler
      world).1 = some (.ok ⟨⟨1⟩, ⟨1⟩, 0, 1, 0, 1, 0⟩) ∧
    (executionTurns blindEnv fileAuthorized snapshot ⟨1⟩ ⟨1⟩ world).all
      (fun turn => unlinked turn.log) = true ∧
    ((executePlan fileAuthorized snapshot ⟨1⟩ ⟨1⟩).log blindEnv.handler world).all isStored = true ∧
    fileAuthorized.plan.totalEstimatedReclaim = 5 := by
  refine ⟨filePlan_built, ?_, ?_, ?_, rfl⟩ <;> decide +kernel

end CacheCleaner
