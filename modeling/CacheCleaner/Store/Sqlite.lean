import CacheCleaner.Domain.Plan

namespace CacheCleaner

/-! The SQLite store: its tables as far as the program reads them back, and
every statement issued against them.  A statement either fails and changes
nothing or is durable when it returns. -/

inductive JobRowState where
  | admitted | completed | failed | recovered | partiallyReconciled
  deriving DecidableEq, Repr

structure JobRow where
  jobId : JobId
  jobType : String
  state : JobRowState
  catalogGeneration : CatalogGeneration
  configGeneration : ConfigGeneration
  totalReclaimedBytes : Nat
  deriving DecidableEq, Repr

inductive AttemptState where
  | running | success
  | failedWith (error : String)
  | reconciled | unresolved | failed
  deriving DecidableEq, Repr

structure AttemptRow where
  attemptId : AttemptId
  jobId : JobId
  workerId : WorkerId
  state : AttemptState
  deriving DecidableEq, Repr

/-- A row of `operation_intents`; target and path are plain text columns. -/
structure IntentRow where
  jobId : JobId
  attemptId : AttemptId
  opId : OperationId
  targetId : String
  relPath : String
  expectedIdentity : FileIdentity
  estimatedBytes : Nat
  mutationType : MutationType
  state : IntentState
  catalogGeneration : CatalogGeneration
  configGeneration : ConfigGeneration
  committedAt : UnixTimestamp
  resolvedAt : Option UnixTimestamp
  deriving DecidableEq, Repr

def IntentRow.key (row : IntentRow) : AttemptId × OperationId := (row.attemptId, row.opId)

/-- The integers a later statement about the row binds again. -/
def IntentRow.columns (row : IntentRow) : List Nat :=
  [row.attemptId.val, row.opId.val, row.expectedIdentity.dev,
    row.expectedIdentity.ino, row.estimatedBytes]

inductive OperationRowStatus where
  | success | failed | verificationFailed | preempted | skipped
  deriving DecidableEq, Repr

structure OperationRow where
  jobId : JobId
  opId : OperationId
  planId : PlanId
  targetId : String
  opType : String
  relPath : String
  expectedIdentity : FileIdentity
  estimatedBytes : Nat
  status : OperationRowStatus
  reclaimedBytes : Nat
  errorMessage : Option String
  deriving DecidableEq, Repr

def OperationRow.key (row : OperationRow) : JobId × OperationId := (row.jobId, row.opId)

structure LeaseRow where
  resourceId : String
  workerId : WorkerId
  expiresAt : UnixTimestamp
  deriving DecidableEq, Repr

structure Store where
  jobs : Table JobRow.jobId
  attempts : Table AttemptRow.attemptId
  intents : Table IntentRow.key
  operations : Table OperationRow.key
  leases : Table LeaseRow.resourceId

inductive SqliteFailure where
  | unavailable | uniqueViolation | foreignKeyViolation | outOfRange
  deriving DecidableEq, Repr

instance : ToString SqliteFailure where
  toString
    | .unavailable => "database unavailable"
    | .uniqueViolation => "UNIQUE constraint failed"
    | .foreignKeyViolation => "FOREIGN KEY constraint failed"
    | .outOfRange => "integer out of range"

namespace Store

def empty : Store := ⟨Table.empty, Table.empty, Table.empty, Table.empty, Table.empty⟩

def bindable (values : List Nat) : Bool := values.all fun value => decide (value ≤ sqliteMax)

def hasJob (store : Store) (job : JobId) : Bool := (store.jobs.find job).isSome

/-! The changes the updating statements make when nothing prevents them. -/

def setJobState (store : Store) (job : JobId) (state : JobRowState)
    (totalReclaimed : Nat) : Store :=
  { store with
    jobs := store.jobs.update (fun row => row.jobId = job)
      (fun row => { row with state, totalReclaimedBytes := totalReclaimed })
      (fun _ => rfl) }

def setAttemptState (store : Store) (attempt : AttemptId) (state : AttemptState) : Store :=
  { store with
    attempts := store.attempts.update (fun row => row.attemptId = attempt)
      (fun row => { row with state }) (fun _ => rfl) }

def setIntentState (store : Store) (attempt : AttemptId) (op : OperationId)
    (state : IntentState) (now : UnixTimestamp) : Store :=
  { store with
    intents := store.intents.update
      (fun row => row.attemptId = attempt ∧ row.opId = op)
      (fun row => { row with state, resolvedAt := some now })
      (fun _ => rfl) }

def putOperation (store : Store) (row : OperationRow) : Store :=
  { store with operations := store.operations.upsert row }

abbrev Statement (α : Type) := Store → Except SqliteFailure (α × Store)

/-- `register_job`: a known job keeps its row. -/
def registerJob (job : JobId) (jobType : String) (catalog : CatalogGeneration)
    (config : ConfigGeneration) (now : UnixTimestamp) : Statement Unit :=
  fun store =>
    if bindable [job.val, catalog.val, config.val, now] then
      match store.jobs.insert ⟨job, jobType, .admitted, catalog, config, 0⟩ with
      | some jobs => .ok ((), { store with jobs })
      | none => .ok ((), store)
    else .error .outOfRange

def updateJobState (job : JobId) (state : JobRowState) (totalReclaimed : Nat)
    (now : UnixTimestamp) : Statement Unit :=
  fun store =>
    if bindable [totalReclaimed, now, job.val] then
      .ok ((), store.setJobState job state totalReclaimed)
    else .error .outOfRange

/-- `create_attempt`: a known attempt is only set running again. -/
def createAttempt (attempt : AttemptId) (job : JobId) (worker : WorkerId)
    (lease : Nat) (now : UnixTimestamp) : Statement Unit :=
  fun store =>
    if bindable [attempt.val, job.val, now + lease, now] then
      if (store.attempts.find attempt).isSome then
        .ok ((), store.setAttemptState attempt .running)
      else if store.hasJob job then
        match store.attempts.insert ⟨attempt, job, worker, .running⟩ with
        | some attempts => .ok ((), { store with attempts })
        | none => .error .uniqueViolation
      else .error .foreignKeyViolation
    else .error .outOfRange

def updateAttemptState (attempt : AttemptId) (state : AttemptState)
    (now : UnixTimestamp) : Statement Unit :=
  fun store =>
    if bindable [now, attempt.val] then
      .ok ((), store.setAttemptState attempt state)
    else .error .outOfRange

def intentRow (intent : OperationIntent) : IntentRow where
  jobId := intent.jobId
  attemptId := intent.attemptId
  opId := intent.opId
  targetId := intent.targetId.val
  relPath := intent.relPath.raw
  expectedIdentity := intent.expectedIdentity
  estimatedBytes := intent.estimatedBytes
  mutationType := intent.mutationType
  state := intent.state
  catalogGeneration := intent.catalogGeneration
  configGeneration := intent.configGeneration
  committedAt := intent.committedAt
  resolvedAt := none

def commitOperationIntent (intent : OperationIntent) : Statement Unit :=
  fun store =>
    if bindable [intent.jobId.val, intent.attemptId.val, intent.opId.val,
        intent.expectedIdentity.dev, intent.expectedIdentity.ino,
        intent.estimatedBytes, intent.catalogGeneration.val,
        intent.configGeneration.val, intent.committedAt] then
      if store.hasJob intent.jobId then
        match store.intents.insert (intentRow intent) with
        | some intents => .ok ((), { store with intents })
        | none => .error .uniqueViolation
      else .error .foreignKeyViolation
    else .error .outOfRange

def updateIntentState (attempt : AttemptId) (op : OperationId)
    (state : IntentState) (now : UnixTimestamp) : Statement Unit :=
  fun store =>
    if bindable [now, attempt.val, op.val] then
      .ok ((), store.setIntentState attempt op state now)
    else .error .outOfRange

def statusColumns : OperationStatus → OperationRowStatus × Option String
  | .success => (.success, none)
  | .failed error => (.failed, some error)
  | .verificationFailed reason => (.verificationFailed, some reason)
  | .preempted => (.preempted, none)
  | .skipped reason => (.skipped, some reason)

def operationRow (job : JobId) (plan : PlanId) (target : TargetId)
    (opType relPath : String) (expected : FileIdentity) (estimated : ByteCount)
    (result : OperationFinalResult) : OperationRow where
  jobId := job
  opId := result.opId
  planId := plan
  targetId := target.val
  opType := opType
  relPath := relPath
  expectedIdentity := expected
  estimatedBytes := estimated
  status := (statusColumns result.status).1
  reclaimedBytes := result.reclaimedBytes
  errorMessage := (statusColumns result.status).2

def recordOperationResult (row : OperationRow) (now : UnixTimestamp) : Statement Unit :=
  fun store =>
    if bindable [row.jobId.val, row.opId.val, row.planId.val,
        row.expectedIdentity.dev, row.expectedIdentity.ino, row.estimatedBytes,
        row.reclaimedBytes, now] then
      if store.hasJob row.jobId then
        .ok ((), store.putOperation row)
      else .error .foreignKeyViolation
    else .error .outOfRange

/-- `acquire_lease`: expired leases are dropped, a live one of another worker
refuses, and otherwise this worker's lease is written.  A refusal drops the
transaction and with it the deletion. -/
def acquireLease (resource : String) (worker : WorkerId) (ttl : Nat)
    (now : UnixTimestamp) : Statement Bool :=
  fun store =>
    if bindable [now, now + ttl] then
      let live := store.leases.delete fun row =>
        row.resourceId = resource ∧ row.expiresAt ≤ now
      match live.find resource with
      | some row =>
        if row.workerId ≠ worker ∧ now < row.expiresAt then
          .ok (false, store)
        else
          .ok (true, { store with
            leases := live.upsert ⟨resource, worker, now + ttl⟩ })
      | none =>
        .ok (true, { store with
          leases := live.upsert ⟨resource, worker, now + ttl⟩ })
    else .error .outOfRange

def releaseLease (resource : String) (worker : WorkerId) : Statement Unit :=
  fun store =>
    .ok ((), { store with
      leases := store.leases.delete fun row =>
        row.resourceId = resource ∧ row.workerId = worker })

def maxJobId (store : Store) : Nat := (store.jobs.rows.map fun row => row.jobId.val).foldl max 0

def maxAttemptId (store : Store) : Nat :=
  (store.attempts.rows.map fun row => row.attemptId.val).foldl max 0

def uncompletedAttempts (store : Store) : List (AttemptId × JobId) :=
  (store.attempts.rows.filter fun row => row.state = .running).map
    fun row => (row.attemptId, row.jobId)

def intentsForAttempt (store : Store) (attempt : AttemptId) : List IntentRow :=
  store.intents.rows.filter fun row => row.attemptId = attempt

/-- Decoding one selected row; `none` is the panic of `TargetId::new`. -/
def decodeIntent (row : IntentRow) : Option OperationIntent :=
  (TargetId.new? row.targetId).map fun target => {
    jobId := row.jobId
    attemptId := row.attemptId
    opId := row.opId
    targetId := target
    relPath := (RelativePath.parse row.relPath).getD RelativePath.empty
    expectedIdentity := row.expectedIdentity
    estimatedBytes := row.estimatedBytes
    mutationType := row.mutationType
    state := row.state
    catalogGeneration := row.catalogGeneration
    configGeneration := row.configGeneration
    committedAt := row.committedAt
    resolvedAt := row.resolvedAt }

end Store

end CacheCleaner
