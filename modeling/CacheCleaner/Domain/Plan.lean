import CacheCleaner.Domain.Path
import CacheCleaner.Effect.Table

namespace CacheCleaner

/-- The iteration order of a hash map: some rearrangement of its entries. -/
structure IterationOrder (α : Type) where
  order : List α → List α
  perm : ∀ items, (order items).Perm items

def IterationOrder.inserted (α : Type) : IterationOrder α where
  order := id
  perm := fun _ => .rfl

theorem IterationOrder.mem_order (iteration : IterationOrder α) {items : List α} {item : α} :
    item ∈ iteration.order items ↔ item ∈ items :=
  (iteration.perm items).mem_iff

inductive TargetClass where
  | appCache | codeCache | tombstones | mediaCache | shaderCache | logArchive
  | tempDir | externalCache
  deriving DecidableEq, Repr

inductive TargetSafetyTier where
  | standardCache | requiresColdApp | readOnlyInspection | protectedSystem
  deriving DecidableEq, Repr

def TargetSafetyTier.rank : TargetSafetyTier → Nat
  | .standardCache => 0
  | .requiresColdApp => 1
  | .readOnlyInspection => 2
  | .protectedSystem => 3

def TargetSafetyTier.debug : TargetSafetyTier → String
  | .standardCache => "StandardCache"
  | .requiresColdApp => "RequiresColdApp"
  | .readOnlyInspection => "ReadOnlyInspection"
  | .protectedSystem => "ProtectedSystem"

structure TargetDescriptor where
  targetId : TargetId
  targetClass : TargetClass
  basePath : String
  dev : Nat
  ino : Nat
  ownerUid : Nat
  ownerGid : Nat
  packageName : Option String
  safetyTier : TargetSafetyTier
  catalogGeneration : CatalogGeneration
  deriving DecidableEq, Repr

def TargetDescriptor.isMutationAllowed (target : TargetDescriptor) : Bool :=
  match target.safetyTier with
  | .standardCache => true
  | .requiresColdApp => true
  | .readOnlyInspection => false
  | .protectedSystem => false

/-- A snapshot of the catalog.  Every insertion of the source keys a descriptor
by its own id, so the map is a table of descriptors keyed by that id. -/
structure CatalogSnapshot where
  generation : CatalogGeneration
  targets : Table TargetDescriptor.targetId

def CatalogSnapshot.get (snapshot : CatalogSnapshot) (id : TargetId) : Option TargetDescriptor :=
  snapshot.targets.find id

structure Candidate where
  candidateId : CandidateId
  targetId : TargetId
  relPath : RelativePath
  identity : FileIdentity
  sizeBytes : ByteCount
  mtime : UnixTimestamp
  isDir : Bool
  isSymlink : Bool
  deriving DecidableEq

structure SafetyValidatedCandidate where
  candidate : Candidate
  trustedRootDev : Nat
  trustedRootIno : Nat
  deriving DecidableEq

inductive DecisionReason where
  | exceedsRetentionAge | withinRetentionGracePeriod | packageWhitelisted
  | protectedBytecode | categoryDisabled
  deriving DecidableEq, Repr

structure PolicyPermit where
  candidate : SafetyValidatedCandidate
  priority : Nat
  reason : DecisionReason
  deriving DecidableEq

structure PolicyDeny where
  candidate : SafetyValidatedCandidate
  reason : DecisionReason
  deriving DecidableEq

inductive PolicyDecision where
  | allow (permit : PolicyPermit)
  | deny (deny : PolicyDeny)
  deriving DecidableEq

inductive OperationType where
  | deleteFile (targetId : TargetId) (relPath : RelativePath)
      (expectedIdentity : FileIdentity) (estimatedSize : ByteCount)
  | deleteDirEmpty (targetId : TargetId) (relPath : RelativePath) (expectedIdentity : FileIdentity)
  | pruneDirRecursive (targetId : TargetId) (relPath : RelativePath)
      (expectedIdentity : FileIdentity)
  | trimFilesystem (mountPath : String)
  | vacuumDatabase (dbPath : String)
  deriving DecidableEq

structure PlannedOperation where
  opId : OperationId
  opType : OperationType
  dependencies : List OperationId
  estimatedReclaim : ByteCount
  deriving DecidableEq

structure PlannedPlan where
  planId : PlanId
  jobId : JobId
  catalogGeneration : CatalogGeneration
  configGeneration : ConfigGeneration
  operations : List PlannedOperation
  totalEstimatedReclaim : ByteCount
  deriving DecidableEq

inductive Capability where
  | readTarget (target : TargetId)
  | enumerateTarget (target : TargetId)
  | deleteFile (target : TargetId) (path : RelativePath)
  | deleteDirectory (target : TargetId) (path : RelativePath)
  | trimMount (path : String)
  | vacuumDatabase (path : String)
  deriving DecidableEq

def Capability.same : Capability → Capability → Bool
  | .readTarget left, .readTarget right => left == right
  | .enumerateTarget left, .enumerateTarget right => left == right
  | .deleteFile left leftPath, .deleteFile right rightPath =>
    left == right && leftPath.same rightPath
  | .deleteDirectory left leftPath, .deleteDirectory right rightPath =>
    left == right && leftPath.same rightPath
  | .trimMount left, .trimMount right =>
    components left == components right
  | .vacuumDatabase left, .vacuumDatabase right =>
    components left == components right
  | _, _ => false

/-- The capability an operation needs, also the one `authorize_plan` grants. -/
def OperationType.capability : OperationType → Capability
  | .deleteFile target path _ _ => .deleteFile target path
  | .deleteDirEmpty target path _ => .deleteDirectory target path
  | .pruneDirRecursive target path _ => .deleteDirectory target path
  | .trimFilesystem path => .trimMount path
  | .vacuumDatabase path => .vacuumDatabase path

structure CapabilityGrant where
  grantId : GrantId
  capabilities : List Capability
  catalogGeneration : CatalogGeneration
  configGeneration : ConfigGeneration
  grantedAt : UnixTimestamp
  expiresAt : UnixTimestamp
  deriving DecidableEq

def CapabilityGrant.isValidAt (grant : CapabilityGrant) (now : UnixTimestamp)
    (catalog : CatalogGeneration) (config : ConfigGeneration) : Bool :=
  grant.catalogGeneration == catalog && grant.configGeneration == config &&
    decide (now ≤ grant.expiresAt)

def CapabilityGrant.grants (grant : CapabilityGrant) (capability : Capability) : Bool :=
  grant.capabilities.any capability.same

structure AuthorizedPlan where
  plan : PlannedPlan
  grant : CapabilityGrant
  deriving DecidableEq

def AuthorizedPlan.isAuthorizedForExecution (authorized : AuthorizedPlan)
    (now : UnixTimestamp) (catalog : CatalogGeneration) (config : ConfigGeneration) : Bool :=
  if authorized.plan.configGeneration ≠ config then false
  else
    authorized.grant.isValidAt now catalog config && authorized.plan.catalogGeneration == catalog

inductive MutationType where
  | deleteFile | deleteDirEmpty | pruneDirRecursive
  deriving DecidableEq, Repr

def MutationType.display : MutationType → String
  | .deleteFile => "DELETE_FILE"
  | .deleteDirEmpty => "DELETE_DIR_EMPTY"
  | .pruneDirRecursive => "PRUNE_DIR_RECURSIVE"

inductive IntentState where
  | committed | mutating | verifiedSuccess | verifiedFailed | resolvedUnknown
  deriving DecidableEq, Repr

def IntentState.display : IntentState → String
  | .committed => "COMMITTED"
  | .mutating => "MUTATING"
  | .verifiedSuccess => "VERIFIED_SUCCESS"
  | .verifiedFailed => "VERIFIED_FAILED"
  | .resolvedUnknown => "RESOLVED_UNKNOWN"

def IntentState.isTerminal : IntentState → Bool
  | .committed => false
  | .mutating => false
  | .verifiedSuccess => true
  | .verifiedFailed => true
  | .resolvedUnknown => true

structure OperationIntent where
  jobId : JobId
  attemptId : AttemptId
  opId : OperationId
  targetId : TargetId
  relPath : RelativePath
  expectedIdentity : FileIdentity
  estimatedBytes : ByteCount
  mutationType : MutationType
  state : IntentState
  catalogGeneration : CatalogGeneration
  configGeneration : ConfigGeneration
  committedAt : UnixTimestamp
  resolvedAt : Option UnixTimestamp
  deriving DecidableEq

inductive OperationStatus where
  | success
  | failed (error : String)
  | verificationFailed (reason : String)
  | skipped (reason : String)
  | preempted
  deriving DecidableEq, Repr

structure OperationFinalResult where
  opId : OperationId
  status : OperationStatus
  reclaimedBytes : ByteCount
  deriving DecidableEq

structure JobResult where
  jobId : JobId
  attemptId : AttemptId
  totalReclaimed : ByteCount
  totalOperations : Nat
  successfulOperations : Nat
  failedOperations : Nat
  skippedOperations : Nat
  deriving DecidableEq

end CacheCleaner
