import CacheCleaner.Store.Sqlite

namespace CacheCleaner.Store

variable {before after : Store} {now : UnixTimestamp} {attempt : AttemptId}
  {result : Option OperationRow} {row : JobRow} {job : JobId} {store : Store}

def recorded (operations : Table OperationRow.key) : Option OperationRow → Table OperationRow.key
  | none => operations
  | some row => operations.upsert row

structure Logs (before : Store) (row : IntentRow)
    (result : Option OperationRow) (after : Store) : Prop where
  columns : bindable row.columns = true
  known : before.hasJob row.jobId = true
  intents : after.intents.rows = before.intents.rows ++ [row]
  jobs : after.jobs = before.jobs
  attempts : after.attempts = before.attempts
  operations : after.operations = recorded before.operations result

theorem commitOperationIntent_ok
    (committed : commitOperationIntent intent store = .ok ((), store')) :
    Logs store (intentRow intent) none store' := by
  unfold commitOperationIntent at committed
  split at committed
  · rename_i bound
    split at committed
    · rename_i known
      split at committed
      · rename_i intents inserted
        cases committed
        refine ⟨?_, known, (Table.insert_some inserted).2, rfl, rfl, rfl⟩
        simp only [bindable, List.all_cons, List.all_nil, Bool.and_true,
          Bool.and_eq_true, decide_eq_true_eq] at bound
        simp [bindable, IntentRow.columns, intentRow, bound]
      · cases committed
    · cases committed
  · cases committed

theorem Logs.fresh {row : IntentRow} (logs : Logs before row result after) :
    ∀ old ∈ before.intents.rows, old.key ≠ row.key := by
  have distinct := after.intents.distinct
  rw [logs.intents, List.map_append, List.nodup_append] at distinct
  intro old mem
  exact distinct.2.2 old.key (List.mem_map_of_mem mem) row.key (by simp)

theorem Logs.updateIntentState {row : IntentRow} (logs : Logs before row result middle)
    (updated : Store.updateIntentState row.attemptId row.opId state now middle = .ok ((), after)) :
    Logs before { row with state, resolvedAt := some now } result after := by
  have fresh := logs.fresh
  unfold Store.updateIntentState at updated
  split at updated
  · cases updated
    refine ⟨logs.columns, logs.known, ?_, logs.jobs, logs.attempts, logs.operations⟩
    simp only [setIntentState, Table.update, logs.intents, List.map_append,
      List.map_cons, List.map_nil, and_self, decide_true, if_true]
    congr 1
    refine (List.map_congr_left ?_).trans (List.map_id _)
    intro old mem
    have other : ¬ (old.attemptId = row.attemptId ∧ old.opId = row.opId) := by
      rintro ⟨attempt, op⟩
      exact fresh old mem (by simp [IntentRow.key, attempt, op])
    simp [other]
  · cases updated

theorem Logs.recordOperationResult
    {row : IntentRow} (logs : Logs before row none middle) {result : OperationRow}
    (written : Store.recordOperationResult result now middle = .ok ((), after)) :
    Logs before row (some result) after := by
  unfold Store.recordOperationResult at written
  split at written
  · split at written
    · cases written
      refine ⟨logs.columns, logs.known, logs.intents, logs.jobs, logs.attempts, ?_⟩
      simp only [putOperation, logs.operations]
      rfl
    · cases written
  · cases written

structure Registers (before : Store) (row : JobRow) (after : Store) : Prop where
  bound : row.jobId.val ≤ sqliteMax
  jobs : ∀ other, after.jobs.find other =
    (before.jobs.find other).or (if other = row.jobId then some row else none)
  attempts : after.attempts = before.attempts
  intents : after.intents = before.intents
  operations : after.operations = before.operations

theorem registerJob_ok {jobType : String}
    (registered : registerJob job jobType catalog config now before = .ok ((), after)) :
    Registers before ⟨job, jobType, .admitted, catalog, config, 0⟩ after := by
  unfold registerJob at registered
  split at registered
  · rename_i bound
    have column : job.val ≤ sqliteMax := by
      simp only [bindable, List.all_cons, List.all_nil, Bool.and_true,
        Bool.and_eq_true, decide_eq_true_eq] at bound
      exact bound.1
    split at registered
    · rename_i jobs inserted
      cases registered
      refine ⟨column, fun other => ?_, rfl, rfl, rfl⟩
      by_cases same : other = job
      · have absent : before.jobs.find job = none :=
          Table.find_eq_none.mpr (Table.insert_some inserted).1
        rw [same, absent]
        simpa using Table.find_insert_self inserted
      · have kept : jobs.find other = before.jobs.find other :=
          Table.find_insert_of_ne inserted same
        simp [kept, same]
    · rename_i known
      cases registered
      refine ⟨column, fun other => ?_, rfl, rfl, rfl⟩
      by_cases same : other = job
      · obtain ⟨row, found⟩ := Table.insert_none known
        simp only [same] at found ⊢
        simp [found]
      · simp [same]
  · cases registered

theorem Registers.hasJob
    (registers : Registers before row after) (other : JobId) : after.hasJob other = true ↔
      before.hasJob other = true ∨ other = row.jobId := by
  unfold Store.hasJob
  rw [registers.jobs]
  by_cases same : other = row.jobId <;> simp [same]

structure Claims (before : Store) (row : AttemptRow) (after : Store) : Prop where
  bounds : row.attemptId.val ≤ sqliteMax ∧ row.jobId.val ≤ sqliteMax
  attempts : (before.attempts.find row.attemptId).isSome = true ∧ after.attempts =
          (before.setAttemptState row.attemptId .running).attempts ∨
      before.attempts.find row.attemptId = none ∧ before.hasJob row.jobId = true ∧
        after.attempts.rows = before.attempts.rows ++ [row]
  jobs : after.jobs = before.jobs
  intents : after.intents = before.intents
  operations : after.operations = before.operations

theorem createAttempt_ok
    (created : createAttempt attempt job worker lease now before = .ok ((), after)) :
    Claims before ⟨attempt, job, worker, .running⟩ after := by
  unfold createAttempt at created
  split at created
  · rename_i bound
    have columns : attempt.val ≤ sqliteMax ∧ job.val ≤ sqliteMax := by
      simp only [bindable, List.all_cons, List.all_nil, Bool.and_true,
        Bool.and_eq_true, decide_eq_true_eq] at bound
      exact ⟨bound.1, bound.2.1⟩
    split at created
    · rename_i known
      cases created
      exact ⟨columns, Or.inl ⟨known, rfl⟩, rfl, rfl, rfl⟩
    · rename_i unknown
      split at created
      · rename_i job'
        split at created
        · rename_i attempts inserted
          cases created
          exact ⟨columns, Or.inr ⟨by simpa using unknown, job',
            (Table.insert_some inserted).2⟩, rfl, rfl, rfl⟩
        · cases created
      · cases created
  · cases created

theorem updateIntentState_ok
    (updated : Store.updateIntentState attempt op state now before = .ok ((), after)) :
    after = before.setIntentState attempt op state now := by
  unfold Store.updateIntentState at updated
  split at updated
  · cases updated
    rfl
  · cases updated

theorem updateAttemptState_ok
    (updated : Store.updateAttemptState attempt state now before = .ok ((), after)) :
    after = before.setAttemptState attempt state := by
  unfold Store.updateAttemptState at updated
  split at updated
  · cases updated
    rfl
  · cases updated

theorem updateJobState_ok
    (updated : Store.updateJobState job state total now before = .ok ((), after)) :
    after = before.setJobState job state total := by
  unfold Store.updateJobState at updated
  split at updated
  · cases updated
    rfl
  · cases updated

theorem recordOperationResult_ok {row : OperationRow}
    (recorded : Store.recordOperationResult row now before = .ok ((), after)) :
    after = before.putOperation row := by
  unfold Store.recordOperationResult at recorded
  split at recorded
  · split at recorded
    · cases recorded
      rfl
    · cases recorded
  · cases recorded

section

variable {now : UnixTimestamp} {store : Store}

theorem updateIntentState_bound (state : IntentState) (clock : now ≤ sqliteMax)
    (attemptBound : attempt.val ≤ sqliteMax) (opBound : op.val ≤ sqliteMax) :
    Store.updateIntentState attempt op state now store =
      .ok ((), store.setIntentState attempt op state now) := by
  unfold Store.updateIntentState
  rw [if_pos (by simp [bindable, clock, attemptBound, opBound])]

theorem updateAttemptState_bound
    (clock : now ≤ sqliteMax) (attemptBound : attempt.val ≤ sqliteMax) :
    Store.updateAttemptState attempt state now store =
      .ok ((), store.setAttemptState attempt state) := by
  unfold Store.updateAttemptState
  rw [if_pos (by simp [bindable, clock, attemptBound])]

theorem updateJobState_bound
    (clock : now ≤ sqliteMax) (jobBound : job.val ≤ sqliteMax) (totalBound : total ≤ sqliteMax) :
    Store.updateJobState job state total now store =
      .ok ((), store.setJobState job state total) := by
  unfold Store.updateJobState
  rw [if_pos (by simp [bindable, clock, jobBound, totalBound])]

end

structure Kept (before after : Store) : Prop where
  jobs : after.jobs = before.jobs
  attempts : after.attempts = before.attempts
  intents : after.intents = before.intents
  operations : after.operations = before.operations

namespace Kept

theorem refl (store : Store) : Kept store store := ⟨rfl, rfl, rfl, rfl⟩

theorem trans (first : Kept before middle) (second : Kept middle after) : Kept before after :=
  ⟨second.jobs.trans first.jobs, second.attempts.trans first.attempts,
    second.intents.trans first.intents, second.operations.trans first.operations⟩

theorem acquireLease (decided : Store.acquireLease resource worker ttl now before =
      .ok (acquired, after)) : Kept before after := by
  unfold Store.acquireLease at decided
  split at decided
  · dsimp only at decided
    split at decided
    · split at decided <;> cases decided <;> exact ⟨rfl, rfl, rfl, rfl⟩
    · cases decided
      exact ⟨rfl, rfl, rfl, rfl⟩
  · cases decided

theorem registers (kept : Kept middle after)
    (registers : Store.Registers before row middle) : Store.Registers before row after :=
  ⟨registers.bound, fun other => by rw [kept.jobs]; exact registers.jobs other,
    kept.attempts.trans registers.attempts, kept.intents.trans registers.intents,
    kept.operations.trans registers.operations⟩

end Kept

theorem Registers.find_of_ne
    (registers : Registers before row after) (different : other ≠ row.jobId) :
    after.jobs.find other = before.jobs.find other := by
  rw [registers.jobs, if_neg different, Option.or_none]

theorem Registers.exists_find
    (registers : Registers before row after) : ∃ found, after.jobs.find row.jobId = some found := by
  rw [registers.jobs, if_pos rfl]
  cases before.jobs.find row.jobId <;> simp

theorem find_setJobState_of_ne (store : Store)
    (state : JobRowState) (total : Nat) (different : other ≠ job) :
    (store.setJobState job state total).jobs.find other = store.jobs.find other := by
  rw [setJobState, Table.find_update]
  cases found : store.jobs.find other with
  | none => rfl
  | some row =>
    have key : row.jobId = other := (Table.find_some found).2
    simp [key, different]

theorem exists_find_setJobState (found : store.jobs.find job = some row) (state : JobRowState)
    (total : Nat) :
    ∃ after, (store.setJobState job state total).jobs.find job = some after ∧
      after.totalReclaimedBytes = total := by
  have key : row.jobId = job := (Table.find_some found).2
  refine ⟨{ row with state, totalReclaimedBytes := total }, ?_, rfl⟩
  rw [setJobState, Table.find_update, found]
  simp [key]

theorem le_foldl_max (ids : List Nat) (first : Nat) :
    first ≤ ids.foldl max first ∧ ∀ id ∈ ids, id ≤ ids.foldl max first := by
  induction ids generalizing first with
  | nil => exact ⟨Nat.le_refl _, by simp⟩
  | cons head rest ih =>
    obtain ⟨above, below⟩ := ih (max first head)
    refine ⟨Nat.le_trans (Nat.le_max_left _ _) above, ?_⟩
    rintro id (_ | ⟨_, later⟩)
    · exact Nat.le_trans (Nat.le_max_right _ _) above
    · exact below id later

theorem le_maxAttemptId {attempt : AttemptRow}
    (mem : attempt ∈ store.attempts.rows) : attempt.attemptId.val ≤ store.maxAttemptId :=
  (le_foldl_max _ 0).2 _ (List.mem_map_of_mem mem)

theorem le_maxJobId {job : JobRow} (mem : job ∈ store.jobs.rows) : job.jobId.val ≤ store.maxJobId :=
  (le_foldl_max _ 0).2 _ (List.mem_map_of_mem mem)

end CacheCleaner.Store
