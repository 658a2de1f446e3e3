import CacheCleaner.Config.Stages
import CacheCleaner.Domain.Plan

namespace CacheCleaner

/-! The two judgements a scanned object passes before it may be planned: the
safety gate and the policy.  The gate is passed again right before an
operation touches the filesystem. -/

/-- What passing the mutation boundary establishes, and until when. -/
structure SafetyProof where
  targetId : TargetId
  expectedIdentity : FileIdentity
  operationId : OperationId
  catalogGeneration : CatalogGeneration
  configGeneration : ConfigGeneration
  validatedAt : UnixTimestamp
  expiresAt : UnixTimestamp
  deriving DecidableEq

namespace SafetyGate

variable {target : TargetDescriptor}

def protectedRoot? (path : String) : Option String :=
  platformInvariantProtectedPaths.find? fun root =>
    decide ((components root).length ≤ (components path).length) && !(components root).isEmpty &&
      decide ((components path).take (components root).length = components root)

def verifyTargetRootSafety (path : String) : Result Unit :=
  if components path = [] ∨ components path = [.rootDir] then
    .error (.safetyViolation .rootTargeted)
  else
    match protectedRoot? path with
    | some root => .error (.safetyViolation (.protectedRoot root path))
    | none => .ok ()

def validateCandidate (candidate : Candidate) (target : TargetDescriptor) :
    Result SafetyValidatedCandidate :=
  if !target.isMutationAllowed then
    .error (.safetyViolation (.targetForbidsMutation target.targetId target.safetyTier.debug))
  else if candidate.targetId ≠ target.targetId then
    .error (.safetyViolation (.candidateTargetMismatch candidate.targetId target.targetId))
  else if candidate.identity.dev ≠ target.dev then
    .error (.safetyViolation (.mountBoundary candidate.identity.dev target.dev))
  else if candidate.relPath.raw = "" then
    .error (.safetyViolation .rootAsCandidate)
  else
    match verifyTargetRootSafety target.basePath with
    | .error error => .error error
    | .ok () => .ok ⟨candidate, target.dev, target.ino⟩

def validateMutationBoundary (target : TargetDescriptor)
    (relPath : RelativePath) (expected : FileIdentity) (operation : OperationId)
    (catalog : CatalogGeneration) (config : ConfigGeneration)
    (now : UnixTimestamp) : Result SafetyProof :=
  if !target.isMutationAllowed then
    .error (.safetyViolation (.readOnlyTarget target.targetId target.safetyTier.debug))
  else
    match verifyTargetRootSafety target.basePath with
    | .error error => .error error
    | .ok () =>
      if relPath.raw = "" then
        .error (.safetyViolation .mutateTargetRoot)
      else if expected.dev ≠ target.dev then
        .error (.safetyViolation (.deviceMismatch expected.dev target.dev))
      else if target.catalogGeneration ≠ catalog then
        .error (.safetyViolation (.targetGenerationMismatch target.catalogGeneration catalog))
      else
        .ok {
          targetId := target.targetId
          expectedIdentity := expected
          operationId := operation
          catalogGeneration := catalog
          configGeneration := config
          validatedAt := now
          expiresAt := saturatingAdd now 30 }

theorem validateMutationBoundary_ok
    (passed : validateMutationBoundary target relPath expected operation catalog
      config now = .ok proof) : target.isMutationAllowed = true ∧
      verifyTargetRootSafety target.basePath = .ok () ∧
      relPath.raw ≠ "" ∧ expected.dev = target.dev ∧ target.catalogGeneration = catalog := by
  unfold validateMutationBoundary at passed
  split at passed
  · cases passed
  · rename_i allowed
    split at passed
    · cases passed
    · rename_i safe
      split at passed
      · cases passed
      · rename_i nonempty
        split at passed
        · cases passed
        · rename_i device
          split at passed
          · cases passed
          · rename_i generation
            exact ⟨by simpa using allowed, safe, nonempty, not_not.mp device, not_not.mp generation⟩

theorem validateMutationBoundary_passes (allowed : target.isMutationAllowed = true)
    (safe : verifyTargetRootSafety target.basePath = .ok ())
    (nonempty : relPath.raw ≠ "") (device : expected.dev = target.dev)
    (generation : target.catalogGeneration = catalog) (operation : OperationId)
    (config : ConfigGeneration) (now : UnixTimestamp) :
    ∃ proof, validateMutationBoundary target relPath expected operation catalog
      config now = .ok proof := by
  unfold validateMutationBoundary
  rw [allowed, safe]
  simp only [Bool.not_true, Bool.false_eq_true, if_false, nonempty, device,
    generation, ne_eq, not_true_eq_false]
  exact ⟨_, rfl⟩

theorem validateCandidate_ok_iff : validateCandidate candidate target = .ok validated ↔
      target.isMutationAllowed = true ∧ candidate.targetId = target.targetId ∧
        candidate.identity.dev = target.dev ∧ candidate.relPath.raw ≠ "" ∧
        verifyTargetRootSafety target.basePath = .ok () ∧
        validated = ⟨candidate, target.dev, target.ino⟩ := by
  unfold validateCandidate
  cases allowed : target.isMutationAllowed with
  | false => simp
  | true =>
    by_cases id : candidate.targetId = target.targetId
    · by_cases device : candidate.identity.dev = target.dev
      · by_cases empty : candidate.relPath.raw = ""
        · simp [id, device, empty]
        · cases safe : verifyTargetRootSafety target.basePath with
          | error error => simp [id, device, empty]
          | ok accepted =>
            simp only [Bool.not_true, Bool.false_eq_true, if_false, id,
              ne_eq, not_true_eq_false, device, empty, not_false_eq_true, true_and]
            exact ⟨fun same => (Except.ok.inj same).symm, fun same => by rw [same]⟩
      · simp [id, device]
    · simp [id]

end SafetyGate

namespace PolicyEngine

/-- Rule 0: the target classes the configuration switches off. -/
def categoryDisabled (config : ValidatedConfig) : TargetClass → Bool
  | .tombstones => !config.cleanTombstones
  | .logArchive => !config.cleanOemLogs
  | .tempDir => !config.cleanTempApks
  | .codeCache => !config.cleanCodeCache
  | _ => false

/-- Rule 1. -/
def packageWhitelisted (config : EffectiveConfig) (target : TargetDescriptor) : Bool :=
  match target.packageName with
  | some package => config.isPackageWhitelisted package
  | none => false

/-- Rule 2. -/
def protectedBytecode (path : String) : Bool :=
  endsWithText path ".dex" || endsWithText path ".oat" ||
    endsWithText path ".art" || endsWithText path ".vdex" ||
    containsText path "code_cache"

/-- Rule 3, which spares directories. -/
def withinGracePeriod (config : ValidatedConfig) (candidate : Candidate)
    (now : UnixTimestamp) : Bool :=
  !candidate.isDir && decide (UnixTimestamp.ageSecs candidate.mtime now < config.minAppCacheAgeSecs)

def evaluateCandidateWithFreezer (validated : SafetyValidatedCandidate)
    (target : TargetDescriptor) (config : EffectiveConfig)
    (now : UnixTimestamp) (isFrozen : Bool) : PolicyDecision :=
  if categoryDisabled config.validated target.targetClass then
    .deny ⟨validated, .categoryDisabled⟩
  else if packageWhitelisted config target then
    .deny ⟨validated, .packageWhitelisted⟩
  else if protectedBytecode validated.candidate.relPath.raw then
    .deny ⟨validated, .protectedBytecode⟩
  else if withinGracePeriod config.validated validated.candidate now then
    .deny ⟨validated, .withinRetentionGracePeriod⟩
  else .allow ⟨validated, if isFrozen then 200 else 100, .exceedsRetentionAge⟩

theorem evaluateCandidateWithFreezer_allow_iff :
    evaluateCandidateWithFreezer validated target config now isFrozen = .allow permit ↔
      categoryDisabled config.validated target.targetClass = false ∧
        packageWhitelisted config target = false ∧
        protectedBytecode validated.candidate.relPath.raw = false ∧
        withinGracePeriod config.validated validated.candidate now = false ∧ permit =
          ⟨validated, if isFrozen then 200 else 100, .exceedsRetentionAge⟩ := by
  unfold evaluateCandidateWithFreezer
  cases categoryDisabled config.validated target.targetClass <;>
    cases packageWhitelisted config target <;>
    cases protectedBytecode validated.candidate.relPath.raw <;>
    cases withinGracePeriod config.validated validated.candidate now <;> simp [eq_comm]

end PolicyEngine

end CacheCleaner
