import CacheCleaner.Runtime.Rules

namespace CacheCleaner.RecoveryEngine

open Effect

structure Verdict where
  state : IntentState
  status : OperationStatus
  reclaimed : ByteCount
  deriving DecidableEq

def judge (intent : OperationIntent) (outcome : VerificationOutcome) : Verdict :=
  let shown := outcome.debug
  match outcome with
  | .confirmedDeleted | .alreadyGone =>
    ⟨.verifiedSuccess, .success, intent.estimatedBytes⟩
  | .stillPresent | .identityMismatch =>
    ⟨.verifiedFailed, .failed s!"Unfinished mutation post-crash: {shown}", 0⟩
  | .parentUnavailable | .targetUnavailable | .stale | .unknown =>
    ⟨.resolvedUnknown, .skipped s!"Post-crash verification outcome: {shown}", 0⟩

structure Tally where
  totalReclaimed : ByteCount
  allSucceeded : Bool
  hasUnknown : Bool
  deriving DecidableEq

namespace Tally

def start : Tally := ⟨0, true, false⟩

def count (tally : Tally) (verdict : Verdict) : Tally :=
  match verdict.state with
  | .verifiedSuccess =>
    { tally with
      totalReclaimed := saturatingAdd tally.totalReclaimed verdict.reclaimed }
  | .resolvedUnknown => { tally with allSucceeded := false, hasUnknown := true }
  | _ => { tally with allSucceeded := false }

/-- The target of the intent is no longer in the catalog. -/
def lost (tally : Tally) : Tally := { tally with allSucceeded := false, hasUnknown := true }

def attemptState (tally : Tally) : AttemptState :=
  if tally.allSucceeded then .reconciled
  else if tally.hasUnknown then .unresolved
  else .failed

def jobState (tally : Tally) : JobRowState :=
  if tally.allSucceeded then .recovered
  else if tally.hasUnknown then .partiallyReconciled
  else .failed

end Tally

def resultRow (job : JobId) (intent : OperationIntent) (verdict : Verdict) : OperationRow :=
  Store.operationRow job ⟨1⟩ intent.targetId intent.mutationType.display
    intent.relPath.raw intent.expectedIdentity intent.estimatedBytes
    ⟨intent.opId, verdict.status, verdict.reclaimed⟩

/-- One turn of the intent loop; its store errors are dropped. -/
def reconcileIntent (snapshot : CatalogSnapshot) (attempt : AttemptId)
    (job : JobId) (intent : OperationIntent) (tally : Tally) : Act Tally :=
  match snapshot.get intent.targetId with
  | none => do
    let _ ← ask (.write (.updateIntentState attempt intent.opId .resolvedUnknown))
    pure tally.lost
  | some target => do
    let outcome ← PostconditionVerifier.verifyOperationPostcondition
      target.basePath intent.relPath intent.expectedIdentity
    let verdict := judge intent outcome
    let _ ← ask (.write (.updateIntentState attempt intent.opId verdict.state))
    let _ ← ask (.write (.recordOperationResult (resultRow job intent verdict)))
    pure (tally.count verdict)

def reconcileIntents (snapshot : CatalogSnapshot) (attempt : AttemptId)
    (job : JobId) : List OperationIntent → Tally → Act Tally
  | [], tally => pure tally
  | intent :: rest, tally => do
    let tally ← reconcileIntent snapshot attempt job intent tally
    reconcileIntents snapshot attempt job rest tally

def closeAttempt (attempt : AttemptId) (job : JobId) (tally : Tally) : Act (Result Unit) := do
  match ← ask (.write (.updateAttemptState attempt tally.attemptState)) with
  | .error error => pure (.error error)
  | .ok () =>
    ask (.write (.updateJobState job tally.jobState tally.totalReclaimed))

/-- One attempt; a row that does not decode ends the process. -/
def reconcileAttempt (snapshot : CatalogSnapshot) (attempt : AttemptId)
    (job : JobId) : Act (Result Bool) := do
  match ← ask (.intentsForAttempt attempt) with
  | .error error => pure (.error error)
  | .ok rows =>
    match rows.mapM Store.decodeIntent with
    | none => .abort
    | some intents =>
      let tally ← reconcileIntents snapshot attempt job intents Tally.start
      match ← closeAttempt attempt job tally with
      | .error error => pure (.error error)
      | .ok () => pure (.ok tally.allSucceeded)

def reconcileAttempts (snapshot : CatalogSnapshot) :
    List (AttemptId × JobId) → Nat → Act (Result Nat)
  | [], recovered => pure (.ok recovered)
  | (attempt, job) :: rest, recovered => do
    match ← reconcileAttempt snapshot attempt job with
    | .error error => pure (.error error)
    | .ok succeeded =>
      reconcileAttempts snapshot rest (recovered + if succeeded then 1 else 0)

def reconcileStartupCrashes (snapshot : CatalogSnapshot) : Act (Result Nat) := do
  match ← ask .uncompletedAttempts with
  | .error error => pure (.error error)
  | .ok uncompleted => reconcileAttempts snapshot uncompleted 0

end CacheCleaner.RecoveryEngine
