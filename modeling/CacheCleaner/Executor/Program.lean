import CacheCleaner.Engine.Gate
import CacheCleaner.Runtime.Handle

namespace CacheCleaner.CleanupExecutor

open Effect

structure ActiveDirCache where
  targetId : TargetId
  parentNames : List String
  handle : FileIdentity
  deriving DecidableEq

structure Context where
  authorized : AuthorizedPlan
  catalog : CatalogSnapshot
  attempt : AttemptId

structure Progress where
  results : List OperationFinalResult
  totalReclaimed : ByteCount
  successCount : Nat
  failedCount : Nat
  skippedCount : Nat
  successfulOpIds : List OperationId
  activeDirCache : Option ActiveDirCache
  deriving DecidableEq

namespace Progress

def start : Progress := ⟨[], 0, 0, 0, 0, [], none⟩

def skip (progress : Progress) (op : OperationId) (status : OperationStatus) : Progress :=
  { progress with
    results := progress.results ++ [⟨op, status, 0⟩]
    skippedCount := progress.skippedCount + 1 }

def fail (progress : Progress) (op : OperationId) (error : String) : Progress :=
  { progress with
    results := progress.results ++ [⟨op, .failed error, 0⟩]
    failedCount := progress.failedCount + 1 }

def record (progress : Progress) (result : OperationFinalResult)
    (cache : Option ActiveDirCache) : Progress :=
  if result.status = .success then
    { progress with
      results := progress.results ++ [result]
      totalReclaimed := saturatingAdd progress.totalReclaimed
        result.reclaimedBytes
      successCount := progress.successCount + 1
      successfulOpIds := progress.successfulOpIds ++ [result.opId]
      activeDirCache := cache }
  else
    { progress with
      results := progress.results ++ [result]
      failedCount := progress.failedCount + 1
      activeDirCache := cache }

end Progress

structure Deletion where
  kind : RemovalKind
  targetId : TargetId
  relPath : RelativePath
  expected : FileIdentity
  estimated : ByteCount
  deriving DecidableEq

def deletion? : OperationType → Option Deletion
  | .deleteFile target path identity size =>
    some ⟨.file, target, path, identity, size⟩
  | .deleteDirEmpty target path identity =>
    some ⟨.directory, target, path, identity, 0⟩
  | _ => none

def skipReason : OperationType → String
  | .pruneDirRecursive _ _ _ =>
    "PruneDirRecursive is deprecated in favor of hierarchical DAG atomic deletions"
  | _ => "Maintenance operation delegated to subsystem"

def mutationType : RemovalKind → MutationType
  | .file => .deleteFile
  | .directory => .deleteDirEmpty

def openDescendant : FileIdentity → List String → Act (Result FileIdentity)
  | directory, [] => pure (.ok directory)
  | directory, name :: rest => do
    match ← SafeDirHandle.openChildDirWithPermit .executor directory name with
    | .error error => pure (.error error)
    | .ok child => openDescendant child rest

/-- `get_or_open_parent_dir`: the parent's handle, the last name and the cache
as it is left. -/
def getOrOpenParentDir (cache : Option ActiveDirCache)
    (target : TargetDescriptor) (path : RelativePath) :
    Act (Result (FileIdentity × String × Option ActiveDirCache)) :=
  match path.leafName? with
  | none => pure (.error (.safetyViolation .invalidLeafName))
  | some leaf =>
    match cache.filter fun cached =>
        cached.targetId == target.targetId && decide (cached.parentNames = path.parentNames) with
    | some cached => pure (.ok (cached.handle, leaf, cache))
    | none => do
      match ← SafeDirHandle.openRootWithPermit .executor target.basePath with
      | .error error => pure (.error error)
      | .ok root =>
        match ← openDescendant root path.parentNames with
        | .error error => pure (.error error)
        | .ok parent =>
          pure (.ok (parent, leaf, some ⟨target.targetId, path.parentNames, parent⟩))

structure Settlement where
  state : IntentState
  status : OperationStatus
  reclaimed : ByteCount
  deriving DecidableEq

def settleFile (estimated : ByteCount) (mutation : Result Unit)
    (outcome : VerificationOutcome) : Settlement :=
  match mutation, outcome with
  | .ok _, .confirmedDeleted | .ok _, .alreadyGone =>
    ⟨.verifiedSuccess, .success, estimated⟩
  | .error _, .confirmedDeleted | .error _, .alreadyGone =>
    ⟨.verifiedSuccess, .success, 0⟩
  | .ok _, .stillPresent | .ok _, .identityMismatch =>
    let shown := outcome.debug
    ⟨.verifiedFailed, .verificationFailed s!"Postcondition verification failed: {shown}", 0⟩
  | .ok _, _ =>
    let shown := outcome.debug
    ⟨.resolvedUnknown, .verificationFailed s!"Postcondition verification unresolved: {shown}", 0⟩
  | .error error, .unknown | .error error, .parentUnavailable
  | .error error, .targetUnavailable =>
    ⟨.resolvedUnknown, .failed s!"Mutation error with unknown disk outcome: {error}", 0⟩
  | .error error, _ => ⟨.verifiedFailed, .failed error.display, 0⟩

def settleDirectory (mutation : Result Unit) (outcome : VerificationOutcome) : Settlement :=
  match mutation, outcome with
  | _, .confirmedDeleted | _, .alreadyGone => ⟨.verifiedSuccess, .success, 0⟩
  | .ok _, .stillPresent | .ok _, .identityMismatch =>
    ⟨.verifiedFailed, .verificationFailed
      "Rmdir postcondition verification failed: StillPresent/Mismatch", 0⟩
  | .ok _, _ =>
    let shown := outcome.debug
    ⟨.resolvedUnknown, .verificationFailed s!"Rmdir postcondition unresolved: {shown}", 0⟩
  | .error error, .unknown | .error error, .parentUnavailable
  | .error error, .targetUnavailable =>
    ⟨.resolvedUnknown, .failed s!"Rmdir error with unknown disk outcome: {error}", 0⟩
  | .error error, _ => ⟨.verifiedFailed, .failed s!"Rmdir failed: {error}", 0⟩

def settle (deletion : Deletion) (mutation : Result Unit)
    (outcome : VerificationOutcome) : Settlement :=
  match deletion.kind with
  | .file => settleFile deletion.estimated mutation outcome
  | .directory => settleDirectory mutation outcome

def parentFailure : RemovalKind → String
  | .file => "Failed to resolve parent directory: "
  | .directory => "Failed to resolve parent directory for rmdir: "

/-- The cache after a mutation: a removed directory may be on its path. -/
def cacheAfter (kind : RemovalKind) (cache : Option ActiveDirCache) : Option ActiveDirCache :=
  match kind with
  | .file => cache
  | .directory => none

def intentOf (context : Context) (op : OperationId) (deletion : Deletion)
    (now : UnixTimestamp) : OperationIntent where
  jobId := context.authorized.plan.jobId
  attemptId := context.attempt
  opId := op
  targetId := deletion.targetId
  relPath := deletion.relPath
  expectedIdentity := deletion.expected
  estimatedBytes := deletion.estimated
  mutationType := mutationType deletion.kind
  state := .committed
  catalogGeneration := context.catalog.generation
  configGeneration := context.authorized.grant.configGeneration
  committedAt := now
  resolvedAt := none

def resultRow (context : Context) (deletion : Deletion)
    (result : OperationFinalResult) : OperationRow :=
  Store.operationRow context.authorized.plan.jobId context.authorized.plan.planId deletion.targetId
    (mutationType deletion.kind).display deletion.relPath.raw
    deletion.expected deletion.estimated result

/-- Steps 9 and 10, once the removal and the verification are through. -/
def concludeDeletion (context : Context) (op : OperationId)
    (deletion : Deletion) (progress : Progress)
    (cache : Option ActiveDirCache) (settlement : Settlement) : Act (Result Progress) := do
  match ← ask (.write (.updateIntentState context.attempt op settlement.state)) with
  | .error error => pure (.error error)
  | .ok () =>
    let result : OperationFinalResult := ⟨op, settlement.status, settlement.reclaimed⟩
    let _ ← ask (.write (.recordOperationResult (resultRow context deletion result)))
    pure (.ok (progress.record result cache))

/-- Step 8: the removal itself, beneath an open parent. -/
def removeAndVerify (context : Context) (op : OperationId)
    (deletion : Deletion) (progress : Progress) (parent : FileIdentity)
    (leaf : String) (cache : Option ActiveDirCache) : Act (Result Progress) := do
  let mutation ← SafeDirHandle.removeChild deletion.kind parent leaf deletion.expected
  let outcome ← PostconditionVerifier.verifyWithParentHandle parent leaf deletion.expected
  concludeDeletion context op deletion progress
    (cacheAfter deletion.kind cache) (settle deletion mutation outcome)

def mutate (context : Context) (op : OperationId) (deletion : Deletion)
    (progress : Progress) (target : TargetDescriptor) : Act (Result Progress) := do
  match ← ask (.write (.updateIntentState context.attempt op .mutating)) with
  | .error error => pure (.error error)
  | .ok () =>
    match ← getOrOpenParentDir progress.activeDirCache target deletion.relPath with
    | .error error =>
      pure (.ok (progress.fail op (parentFailure deletion.kind ++ error.display)))
    | .ok (parent, leaf, cache) =>
      removeAndVerify context op deletion progress parent leaf cache

/-- Steps 5 to 7: target, lock, safety boundary and intent. -/
def executeDeletion (context : Context) (op : OperationId)
    (deletion : Deletion) (progress : Progress) : Act (Result Progress) :=
  match context.catalog.get deletion.targetId with
  | none =>
    let id := deletion.targetId
    pure (.ok (progress.fail op s!"Target {id} not found in catalog snapshot"))
  | some target => do
    match ← ask (.acquireTargetLock deletion.targetId context.attempt) with
    | .error error =>
      pure (.ok (progress.fail op s!"Target lock collision: {error}"))
    | .ok () =>
      let now ← ask .now
      match SafetyGate.validateMutationBoundary target deletion.relPath
          deletion.expected op context.catalog.generation
          context.authorized.grant.configGeneration now with
      | .error error =>
        pure (.ok (progress.fail op s!"Safety gate boundary rejection: {error}"))
      | .ok _ =>
        let committedAt ← ask .now
        match ← ask (.write (.commitOperationIntent
            (intentOf context op deletion committedAt))) with
        | .error error =>
          pure (.ok (progress.fail op s!"Intent commit failed (mutation not attempted): {error}"))
        | .ok () => mutate context op deletion progress target

def executeOperation (context : Context) (op : PlannedOperation)
    (progress : Progress) : Act (Result Progress) := do
  if ← ask .isCancelled then
    pure (.ok (progress.skip op.opId .preempted))
  else if op.dependencies.any fun dependency =>
      decide (dependency ∉ progress.successfulOpIds) then
    pure (.ok (progress.skip op.opId (.skipped "Precondition dependency failed or unfulfilled")))
  else if !context.authorized.grant.grants op.opType.capability then
    pure (.ok (progress.fail op.opId
      "Capability authorization denial: operation not granted in CapabilityGrant"))
  else do
    ask .throttleMutation
    match deletion? op.opType with
    | some deletion => executeDeletion context op.opId deletion progress
    | none =>
      pure (.ok (progress.skip op.opId (.skipped (skipReason op.opType))))

def executeOperations (context : Context) : List PlannedOperation → Progress → Act (Result Progress)
  | [], progress => pure (.ok progress)
  | op :: rest, progress => do
    match ← executeOperation context op progress with
    | .error error => pure (.error error)
    | .ok progress => executeOperations context rest progress

def jobResult (context : Context) (progress : Progress) : JobResult where
  jobId := context.authorized.plan.jobId
  attemptId := context.attempt
  totalReclaimed := progress.totalReclaimed
  totalOperations := context.authorized.plan.operations.length
  successfulOperations := progress.successCount
  failedOperations := progress.failedCount
  skippedOperations := progress.skippedCount

def executePlan (authorized : AuthorizedPlan) (catalog : CatalogSnapshot)
    (config : ConfigGeneration) (attempt : AttemptId) : Act (Result JobResult) := do
  let now ← ask (.enterExecutePlan authorized catalog.generation config attempt)
  if !authorized.isAuthorizedForExecution now catalog.generation config then
    pure (.error (.safetyViolation .executionRejected))
  else
    let context : Context := ⟨authorized, catalog, attempt⟩
    match ← executeOperations context authorized.plan.operations Progress.start with
    | .error error => pure (.error error)
    | .ok progress => pure (.ok (jobResult context progress))

end CacheCleaner.CleanupExecutor
