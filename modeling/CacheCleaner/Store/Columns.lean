import CacheCleaner.Store.Sqlite

namespace CacheCleaner

/-! `operation_intents` column by column, with the texts that stand for the two
enumerations and the row ids, and how the table of decoded rows in `Store` follows
from it. -/

def MutationType.ofColumn (text : String) : MutationType :=
  if text = "DELETE_DIR_EMPTY" then .deleteDirEmpty
  else if text = "PRUNE_DIR_RECURSIVE" then .pruneDirRecursive
  else .deleteFile

/-- A state as it is read; any other text is `Committed`. -/
def IntentState.ofColumn (text : String) : IntentState :=
  if text = "MUTATING" then .mutating
  else if text = "VERIFIED_SUCCESS" then .verifiedSuccess
  else if text = "VERIFIED_FAILED" then .verifiedFailed
  else if text = "RESOLVED_UNKNOWN" then .resolvedUnknown
  else .committed

@[simp] theorem MutationType.ofColumn_display (mutation : MutationType) :
    ofColumn mutation.display = mutation := by
  cases mutation <;> simp [ofColumn, display]

@[simp] theorem IntentState.ofColumn_display (state : IntentState) :
    ofColumn state.display = state := by
  cases state <;> simp [ofColumn, display]

structure IntentColumns where
  intentId : Nat
  jobId : Nat
  attemptId : Nat
  opId : Nat
  targetId : String
  relPath : String
  expectedDev : Nat
  expectedIno : Nat
  estimatedBytes : Nat
  mutationType : String
  state : String
  catalogGeneration : Nat
  configGeneration : Nat
  committedAt : Nat
  resolvedAt : Option Nat
  deriving DecidableEq

def IntentColumns.key (row : IntentColumns) : Nat × Nat := (row.attemptId, row.opId)

/-- The table, in `intent_id` order, with the jobs it refers to and the last id that
`AUTOINCREMENT` gave. -/
structure IntentTable where
  jobs : List JobId
  rows : Table IntentColumns.key
  lastRowid : Nat
  ascending : rows.rows.Pairwise fun early late => early.intentId < late.intentId
  given : ∀ row ∈ rows.rows, row.intentId ≤ lastRowid

namespace IntentTable

variable {intent : OperationIntent}

def fresh (jobs : List JobId) : IntentTable where
  jobs := jobs
  rows := Table.empty
  lastRowid := 0
  ascending := .nil
  given := List.forall_mem_nil _

def hasJob (table : IntentTable) (job : JobId) : Bool := decide (job ∈ table.jobs)

def columns (intentId : Nat) (intent : OperationIntent) : IntentColumns where
  intentId := intentId
  jobId := intent.jobId.val
  attemptId := intent.attemptId.val
  opId := intent.opId.val
  targetId := intent.targetId.val
  relPath := intent.relPath.raw
  expectedDev := intent.expectedIdentity.dev
  expectedIno := intent.expectedIdentity.ino
  estimatedBytes := intent.estimatedBytes
  mutationType := intent.mutationType.display
  state := intent.state.display
  catalogGeneration := intent.catalogGeneration.val
  configGeneration := intent.configGeneration.val
  committedAt := intent.committedAt
  resolvedAt := none

def insert (table : IntentTable) (intent : OperationIntent) : Option IntentTable :=
  match inserted : table.rows.insert (columns (table.lastRowid + 1) intent) with
  | none => none
  | some rows => some
      { jobs := table.jobs
        rows := rows
        lastRowid := table.lastRowid + 1
        ascending := by
          rw [(Table.insert_some inserted).2]
          apply List.pairwise_append.mpr
          refine ⟨table.ascending, List.pairwise_singleton _ _, ?_⟩
          intro early old late new
          rw [List.mem_singleton.mp new]
          exact Nat.lt_succ_of_le (table.given early old)
        given := by
          intro other member
          rw [(Table.insert_some inserted).2] at member
          rcases List.mem_append.mp member with old | new
          · exact Nat.le_succ_of_le (table.given other old)
          · rw [List.mem_singleton.mp new]
            exact Nat.le_refl _ }

abbrev bound (intent : OperationIntent) : List Nat :=
  [intent.jobId.val, intent.attemptId.val, intent.opId.val, intent.expectedIdentity.dev,
    intent.expectedIdentity.ino, intent.estimatedBytes, intent.catalogGeneration.val,
    intent.configGeneration.val, intent.committedAt]

/-- `commit_operation_intent`, with the row id it returns. -/
def commitOperationIntent (intent : OperationIntent) (table : IntentTable) :
    Except SqliteFailure (Nat × IntentTable) :=
  if Store.bindable (bound intent) then
    if table.hasJob intent.jobId then
      match table.insert intent with
      | some after => .ok (table.lastRowid + 1, after)
      | none => .error .uniqueViolation
    else .error .foreignKeyViolation
  else .error .outOfRange

def updateIntentState (attempt : AttemptId) (op : OperationId) (state : String)
    (now : UnixTimestamp) (table : IntentTable) : Except SqliteFailure IntentTable :=
  if Store.bindable [now, attempt.val, op.val] then
    .ok
      { jobs := table.jobs
        rows := table.rows.update
          (fun row => row.attemptId = attempt.val ∧ row.opId = op.val)
          (fun row => { row with state, resolvedAt := some now }) (fun _ => rfl)
        lastRowid := table.lastRowid
        ascending := by
          apply List.pairwise_map.mpr
          apply table.ascending.imp
          intro early late less
          split <;> split <;> exact less
        given := by
          intro row member
          obtain ⟨old, inside, rfl⟩ := List.mem_map.mp member
          split <;> exact table.given old inside }
  else .error .outOfRange

structure Inserted (table : IntentTable) (intent : OperationIntent) (after : IntentTable) :
    Prop where
  unused : ∀ other ∈ table.rows.rows, other.key ≠ (columns (table.lastRowid + 1) intent).key
  jobs : after.jobs = table.jobs
  rows : after.rows.rows = table.rows.rows ++ [columns (table.lastRowid + 1) intent]
  lastRowid : after.lastRowid = table.lastRowid + 1

theorem insert_some {table after : IntentTable}
    (inserted : table.insert intent = some after) : Inserted table intent after := by
  unfold insert at inserted
  split at inserted
  · cases inserted
  · rename_i rows given
    cases inserted
    obtain ⟨unused, whole⟩ := Table.insert_some given
    exact ⟨unused, rfl, whole, rfl⟩

theorem insert_none {table : IntentTable} (refused : table.insert intent = none) :
    ∃ other ∈ table.rows.rows, other.key = (columns (table.lastRowid + 1) intent).key := by
  unfold insert at refused
  split at refused
  · rename_i taken
    obtain ⟨other, found⟩ := Table.insert_none taken
    exact ⟨other, Table.find_some found⟩
  · cases refused

theorem commit_ok {id : Nat} (accepted : table.commitOperationIntent intent = .ok (id, after)) :
    Store.bindable (bound intent) = true ∧ id = table.lastRowid + 1 ∧
      Inserted table intent after := by
  unfold commitOperationIntent at accepted
  split at accepted
  · rename_i bindable
    split at accepted
    · split at accepted
      · rename_i inserted
        cases accepted
        exact ⟨bindable, rfl, insert_some inserted⟩
      · cases accepted
    · cases accepted
  · cases accepted

/-- One row of `get_operation_intents_for_attempt`; `none` is the panic of
`TargetId::new`. -/
def decode (row : IntentColumns) : Option (Nat × OperationIntent) :=
  (TargetId.new? row.targetId).map fun target => (row.intentId, {
    jobId := ⟨row.jobId⟩
    attemptId := ⟨row.attemptId⟩
    opId := ⟨row.opId⟩
    targetId := target
    relPath := (RelativePath.parse row.relPath).getD RelativePath.empty
    expectedIdentity := ⟨row.expectedDev, row.expectedIno⟩
    estimatedBytes := row.estimatedBytes
    mutationType := .ofColumn row.mutationType
    state := .ofColumn row.state
    catalogGeneration := ⟨row.catalogGeneration⟩
    configGeneration := ⟨row.configGeneration⟩
    committedAt := row.committedAt
    resolvedAt := row.resolvedAt })

/-- `get_operation_intents_for_attempt`: each intent with its id, unless it panics. -/
def getOperationIntentsForAttempt (attempt : AttemptId) (table : IntentTable) :
    Except SqliteFailure (Option (List (Nat × OperationIntent))) :=
  if Store.bindable [attempt.val] then
    .ok ((table.rows.rows.filter fun row => row.attemptId = attempt.val).mapM decode)
  else .error .outOfRange

def row (columns : IntentColumns) : IntentRow where
  jobId := ⟨columns.jobId⟩
  attemptId := ⟨columns.attemptId⟩
  opId := ⟨columns.opId⟩
  targetId := columns.targetId
  relPath := columns.relPath
  expectedIdentity := ⟨columns.expectedDev, columns.expectedIno⟩
  estimatedBytes := columns.estimatedBytes
  mutationType := .ofColumn columns.mutationType
  state := .ofColumn columns.state
  catalogGeneration := ⟨columns.catalogGeneration⟩
  configGeneration := ⟨columns.configGeneration⟩
  committedAt := columns.committedAt
  resolvedAt := columns.resolvedAt

structure Represents (table : IntentTable) (store : Store) : Prop where
  rows : table.rows.rows.map row = store.intents.rows
  jobs : ∀ job, table.hasJob job = store.hasJob job

/-- The outcomes of a statement on both tables: the same failure, or tables that
agree again. -/
inductive Tally : Except SqliteFailure (α × IntentTable) → Except SqliteFailure (β × Store) → Prop
  | ok {table : IntentTable} {store : Store}
      (represents : Represents table store) : Tally (.ok (value, table)) (.ok (value', store))
  | error (failure : SqliteFailure) : Tally (.error failure) (.error failure)

section

variable {table : IntentTable} {store : Store}

theorem row_columns (intentId : Nat) (intent : OperationIntent) :
    row (columns intentId intent) = Store.intentRow intent := by
  simp [row, columns, Store.intentRow]

theorem key_row_eq_iff : (row left).key = (row right).key ↔ left.key = right.key := by
  simp [row, IntentRow.key, IntentColumns.key]

theorem Represents.unused_iff (represents : Represents table store) (intent : OperationIntent) :
    (∀ other ∈ store.intents.rows, other.key ≠ (Store.intentRow intent).key) ↔
      ∀ other ∈ table.rows.rows, other.key ≠ (columns (table.lastRowid + 1) intent).key := by
  rw [← represents.rows, ← row_columns (table.lastRowid + 1), List.forall_mem_map]
  simp only [ne_eq, key_row_eq_iff]

theorem Represents.commit (represents : Represents table store) (intent : OperationIntent) :
    Tally (table.commitOperationIntent intent) (Store.commitOperationIntent intent store) := by
  unfold commitOperationIntent Store.commitOperationIntent
  by_cases binds : Store.bindable (bound intent) = true
  · rw [if_pos binds, if_pos binds, ← represents.jobs]
    by_cases known : table.hasJob intent.jobId = true
    · rw [if_pos known, if_pos known]
      cases inserted : table.insert intent with
      | none =>
        cases inserted' : store.intents.insert (Store.intentRow intent) with
        | none => exact .error _
        | some intents =>
          obtain ⟨other, mem, taken⟩ := insert_none inserted
          have unused := (represents.unused_iff intent).mp (Table.insert_some inserted').1
          exact absurd taken (unused other mem)
      | some after =>
        have added := insert_some inserted
        cases inserted' : store.intents.insert (Store.intentRow intent) with
        | none =>
          obtain ⟨other, found⟩ := Table.insert_none inserted'
          have unused := (represents.unused_iff intent).mpr added.unused
          exact absurd (Table.find_some found).2 (unused other (Table.find_some found).1)
        | some intents =>
          apply Tally.ok
          constructor
          · rw [added.rows, List.map_append, represents.rows,
              (Table.insert_some inserted').2, List.map_singleton, row_columns]
          · intro job
            rw [hasJob, added.jobs]
            exact represents.jobs job
    · rw [if_neg known, if_neg known]
      exact .error _
  · rw [if_neg binds, if_neg binds]
    exact .error _

theorem Represents.update (represents : Represents table store) (attempt : AttemptId)
    (op : OperationId) (state : IntentState) (now : UnixTimestamp) :
    Tally ((table.updateIntentState attempt op state.display now).map fun after => ((), after))
      (Store.updateIntentState attempt op state now store) := by
  unfold updateIntentState Store.updateIntentState
  by_cases binds : Store.bindable [now, attempt.val, op.val] = true
  · rw [if_pos binds, if_pos binds]
    apply Tally.ok
    constructor
    · simp only [Table.update, Store.setIntentState, ← represents.rows, List.map_map]
      apply List.map_congr_left
      intro columns _
      obtain ⟨attempt⟩ := attempt
      obtain ⟨op⟩ := op
      by_cases chosen : columns.attemptId = attempt ∧ columns.opId = op
      · simp [row, chosen]
      · simp [row, chosen]
    · exact represents.jobs
  · rw [if_neg binds, if_neg binds]
    exact .error _

theorem decodeIntent_row (columns : IntentColumns) :
    Store.decodeIntent (row columns) = (decode columns).map Prod.snd := by
  unfold Store.decodeIntent decode
  rw [Option.map_map]
  rfl

theorem Represents.read (represents : Represents table store) (attempt : AttemptId) :
    (store.intentsForAttempt attempt).mapM Store.decodeIntent =
      ((table.rows.rows.filter fun row => row.attemptId = attempt.val).mapM decode).map
        (List.map Prod.snd) := by
  have chosen : ∀ columns : IntentColumns,
      decide ((row columns).attemptId = attempt) = decide (columns.attemptId = attempt.val) := by
    intro columns
    obtain ⟨attempt⟩ := attempt
    simp [row]
  rw [Store.intentsForAttempt, ← represents.rows]
  induction table.rows.rows with
  | nil => rfl
  | cons first rest ih =>
    rw [List.map_cons, List.filter_cons, List.filter_cons, chosen first]
    split
    · rw [List.mapM_cons, List.mapM_cons, ih, decodeIntent_row]
      cases decode first with
      | none => rfl
      | some value =>
        cases (rest.filter fun row => decide (row.attemptId = attempt.val)).mapM decode with
        | none => rfl
        | some values => rfl
    · exact ih

end

end IntentTable

end CacheCleaner
