import CacheCleaner.Executor.Program
import CacheCleaner.Runtime.Rules
import CacheCleaner.Store.Log

namespace CacheCleaner.CleanupExecutor

/-! Everything one turn of the execution loop can do, at any point of it and at
its end.  Paths are resolved in `origin`, the tree the execution started with:
removals never change what an open directory is called there. -/

open Effect Effect.Program World

structure Admitted (context : Context) (op : PlannedOperation)
    (progress : Progress) (deletion : Deletion) (target : TargetDescriptor) : Prop where
  asks : deletion? op.opType = some deletion
  dependencies : ∀ dependency ∈ op.dependencies, dependency ∈ progress.successfulOpIds
  granted : context.authorized.grant.grants op.opType.capability = true
  found : context.catalog.get deletion.targetId = some target
  allowed : target.isMutationAllowed = true
  rootSafe : SafetyGate.verifyTargetRootSafety target.basePath = .ok ()
  nonempty : deletion.relPath.raw ≠ ""
  device : deletion.expected.dev = target.dev
  generation : target.catalogGeneration = context.catalog.generation

def Addresses (env : Env) (origin : Fs) (deletion : Deletion)
    (target : TargetDescriptor) (parent : FileIdentity) (leaf : String) : Prop :=
  origin.address env.openat2 target.basePath deletion.relPath = some (parent, leaf)

/-- One entry taken out of the tree: the one addressed, with the identity
expected, and empty if it is a directory. -/
structure Removes (env : Env) (origin : Fs) (deletion : Deletion)
    (target : TargetDescriptor) (before after : Fs) (parent : FileIdentity)
    (leaf : String) (entry : DirEntry) : Prop where
  addressed : Addresses env origin deletion target parent leaf
  found : before.child parent leaf = some entry
  identity : entry.node = deletion.expected
  valid : Fs.validateSingleComponent leaf = true
  vacant : before.kind entry.node = some .directory → before.isEmptyDir entry.node = true
  removed : after = before.remove parent leaf

inductive TreeStep (env : Env) (origin : Fs) (deletion : Deletion)
    (target : TargetDescriptor) (before after : Fs) : Prop
  | kept (same : after = before)
  | removed (parent : FileIdentity) (leaf : String) (entry : DirEntry)
      (removes : Removes env origin deletion target before after parent leaf entry)

def loggedRow (context : Context) (op : PlannedOperation) (deletion : Deletion)
    (committedAt : UnixTimestamp) (state : IntentState)
    (resolvedAt : Option UnixTimestamp) : IntentRow :=
  { Store.intentRow (intentOf context op.opId deletion committedAt) with
    state, resolvedAt }

inductive Stage (env : Env) (origin : Fs) (context : Context)
    (op : PlannedOperation) (progress : Progress) (before after : World) : Prop
  | untouched (same : Same before after)
  | logged (deletion : Deletion) (target : TargetDescriptor)
      (committedAt : UnixTimestamp) (state : IntentState)
      (resolvedAt : Option UnixTimestamp) (result : Option OperationRow)
      (admitted : Admitted context op progress deletion target) (logs : Store.Logs before.store
        (loggedRow context op deletion committedAt state resolvedAt) result after.store)
      (order : result = none ∨ state.isTerminal = true)
      (tree : TreeStep env origin deletion target before.fs after.fs)

def CacheSound (env : Env) (origin : Fs) (context : Context)
    (cache : Option ActiveDirCache) : Prop :=
  ∀ cached, cache = some cached → ∃ target root, context.catalog.get cached.targetId = some target ∧
      origin.openRoot target.basePath = .ok root ∧
      origin.descend env.openat2 root cached.parentNames = .ok cached.handle

inductive OpenRefused (answers : (request : Request) → Reply request → Prop) : Prop
  | root (path : String) (errno : Errno)
      (answered : answers (.openRoot .executor path) (.error errno))
  | child (directory : FileIdentity) (name : String) (errno : Errno)
      (answered : answers (.openChild .executor directory name) (.error errno))

/-- How a finished mutation came out: what the removal returned, what the tree
became and what the verifier then saw. -/
structure Outcome (env : Env) (origin : Fs) (deletion : Deletion)
    (target : TargetDescriptor) (before after : Fs) (parent : FileIdentity)
    (leaf : String) (mutation : Result Unit) (seen : VerificationOutcome) : Prop where
  addressed : Addresses env origin deletion target parent leaf
  tree : (mutation.isOk = false ∧ after = before) ∨ mutation.isOk = true ∧ ∃ entry,
      Removes env origin deletion target before after parent leaf entry
  verdict : ∃ tick, seen = PostconditionVerifier.classifyStat deletion.expected
    (env.stat tick (after.statChild parent leaf))

inductive Written (answers : (request : Request) → Reply request → Prop)
    (row : OperationRow) : Option OperationRow → Prop
  | stored : Written answers row (some row)
  | refused (error : CleanerError) (answered : answers (.write (.recordOperationResult row))
        (.error error)) : Written answers row none

inductive Turn (env : Env) (answers : (request : Request) → Reply request → Prop) (origin : Fs)
    (context : Context) (op : PlannedOperation) (progress : Progress)
    (before : World) : Result Progress → World → Prop
  | skipped (status : OperationStatus)
      (unsuccessful : status ≠ .success) (same : Same before after) :
      Turn env answers origin context op progress before (.ok (progress.skip op.opId status)) after
  | failed (error : String) (same : Same before after) :
      Turn env answers origin context op progress before (.ok (progress.fail op.opId error)) after
  | abandoned (error : String) (deletion : Deletion)
      (target : TargetDescriptor) (committedAt : UnixTimestamp) (resolvedAt : Option UnixTimestamp)
      (admitted : Admitted context op progress deletion target) (logs : Store.Logs before.store
        (loggedRow context op deletion committedAt .mutating resolvedAt) none after.store)
      (fs : after.fs = before.fs) (refused : OpenRefused answers) :
      Turn env answers origin context op progress before (.ok (progress.fail op.opId error)) after
  | stopped (error : CleanerError) (state : IntentState) (refused : answers
        (.write (.updateIntentState context.attempt op.opId state)) (.error error)) :
      Turn env answers origin context op progress before (.error error) after
  | finished (deletion : Deletion) (target : TargetDescriptor)
      (committedAt : UnixTimestamp) (resolvedAt : Option UnixTimestamp)
      (parent : FileIdentity) (leaf : String) (mutation : Result Unit)
      (seen : VerificationOutcome) (cache : Option ActiveDirCache) (result : Option OperationRow)
      (admitted : Admitted context op progress deletion target)
      (outcome : Outcome env origin deletion target before.fs after.fs parent leaf mutation seen)
      (logs : Store.Logs before.store (loggedRow context op deletion committedAt
          (settle deletion mutation seen).state resolvedAt) result after.store)
      (written : Written answers (resultRow context deletion
        ⟨op.opId, (settle deletion mutation seen).status,
          (settle deletion mutation seen).reclaimed⟩) result)
      (sound : CacheSound env origin context cache) :
      Turn env answers origin context op progress before (.ok (progress.record
          ⟨op.opId, (settle deletion mutation seen).status,
            (settle deletion mutation seen).reclaimed⟩ (cacheAfter deletion.kind cache))) after

end CacheCleaner.CleanupExecutor
