import CacheCleaner.Pipeline.Eligibility

namespace CacheCleaner.Diagnostics

open CandidateScanner AuthoritativeCleanPipeline

inductive Explanation where
  | allow (reason : DecisionReason)
  | deny (reason : DecisionReason)
  | rejectedBySafetyGate (error : CleanerError)
  deriving DecidableEq

/-- The configuration `explain_path` puts together itself. -/
def explainedConfig (config : DaemonConfig) : ValidatedConfig where
  maintenanceIntervalSecs := config.maintenanceIntervalSecs
  minScreenOffSecs := config.minScreenOffSecs
  maxSocTempC := config.maxSocTempC
  maxBatteryTempC := config.maxBatteryTempC
  minAppCacheAgeSecs := saturatingMul config.cleaning.minFileAgeHours 3600
  appCacheThresholdBytes := 50 * 1024 * 1024
  dryRun := false
  cleanAppCache := config.cleaning.cleanAppCache
  cleanCodeCache := config.cleaning.cleanCodeCache
  cleanTombstones := config.cleaning.cleanCrashDumps
  cleanOemLogs := config.cleaning.cleanOemLogs
  cleanTempApks := config.cleaning.cleanTempApks
  whitelistPackages := config.safety.whitelistPackages
  protectedPaths := config.safety.protectedDirectoryNames
  fstrimIntervalSecs := 86400
  vacuumDbIntervalSecs := 72 * 3600

def auditTarget (path : String) (identity : FileIdentity) : TargetDescriptor where
  targetId := ⟨"manual:audit:target"⟩
  targetClass := .appCache
  basePath := (pathParent? path).getD path
  dev := identity.dev
  ino := identity.ino
  ownerUid := 0
  ownerGid := 0
  packageName := none
  safetyTier := .standardCache
  catalogGeneration := .initial

/-- The candidate it makes up; `stamped` is the time of the call. -/
def auditCandidate (path : String) (data : Option Fs.Metadata)
    (identity : FileIdentity) (size : ByteCount) (stamped : UnixTimestamp) : Candidate where
  candidateId := ⟨1⟩
  targetId := ⟨"manual:audit:target"⟩
  relPath := (RelativePath.parse ((pathFileName? path).getD "target")).getD RelativePath.empty
  identity := identity
  sizeBytes := size
  mtime := stamped
  isDir := (data.map Fs.Metadata.isDir).getD false
  isSymlink := (data.map Fs.Metadata.isSymlink).getD false

/-- `explain_path`, which reads the clock for the candidate and once more for
the policy.  A size that `ByteCount::new` rejects ends the process. -/
def explainPath (fs : Fs) (config : DaemonConfig) (path : String)
    (stamped now : UnixTimestamp) : Option Explanation :=
  let data := fs.symlinkMetadata path
  let identity := (data.map Fs.Metadata.identity).getD ⟨0, 0⟩
  let target := auditTarget path identity
  match ByteCount.new? ((data.map Fs.Metadata.len).getD 0) with
  | none => none
  | some size =>
    match SafetyGate.validateCandidate (auditCandidate path data identity size stamped) target with
    | .error error => some (.rejectedBySafetyGate error)
    | .ok validated =>
      match PolicyEngine.evaluateCandidateWithFreezer validated target
          ⟨.initial, explainedConfig config⟩ now false with
      | .allow permit => some (.allow permit.reason)
      | .deny deny => some (.deny deny.reason)

def Allows (explanation : Option Explanation) : Prop := ∃ reason, explanation = some (.allow reason)

section

variable {fs : Fs} {openat2 : Bool} {target : TargetDescriptor} {found : Found}

def absolutePath (target : TargetDescriptor) (found : Found) : String :=
  pathJoin target.basePath found.path.raw

structure LookedUp (fs : Fs) (target : TargetDescriptor) (found : Found) : Prop where
  metadata : fs.symlinkMetadata (absolutePath target found) =
    some ⟨found.entry.identity, found.entry.sizeBytes, found.entry.isDir, found.entry.isSymlink⟩
  fileName : pathFileName? (absolutePath target found) = some found.entry.name
  parent : ∃ parent, pathParent? (absolutePath target found) = some parent
  name : ∃ path, RelativePath.parse found.entry.name = some path
  named : found.entry.name ≠ ""
  path : found.path.raw ≠ ""
  single : (found.entry.isDir && found.entry.isSymlink) = false

theorem lookedUp (named : fs.Named) (mem : found ∈ fs.reachTarget openat2 target) :
    LookedUp fs target found := by
  obtain ⟨root, opened, beneath⟩ := Fs.mem_reachTarget named mem
  obtain ⟨-, crossed, walks⟩ := Fs.openRoot_ok_iff.mp opened
  have parts : components (absolutePath target found) =
      components target.basePath ++ found.path.names.map .normal := by
    rw [absolutePath, components_pathJoin found.path.relative, RelativePath.map_normal_names]
  have last : pathFileName? (absolutePath target found) = some found.entry.name := by
    rw [pathFileName_eq_some, parts, List.getLast?_append, List.getLast?_map, beneath.last]
    rfl
  have path : found.path.raw ≠ "" := by
    intro empty
    refine beneath.leads.ne_nil ?_
    rw [RelativePath.names, empty]
    rfl
  refine ⟨?_, last, exists_pathParent last, Option.isSome_iff_exists.mp beneath.parsed, ?_, path,
    beneath.describes.single⟩
  · have nonempty : absolutePath target found ≠ "" := by
      intro empty
      rw [empty] at last
      cases last
    rw [Fs.symlinkMetadata, if_neg nonempty, parts, walks.lstat beneath.leads]
    exact beneath.describes.metadata
  · intro empty
    have valid := beneath.describes.name
    rw [empty] at valid
    cases valid

/-- What `explain_path` asks of an object, its age aside. -/
structure Unguarded (target : TargetDescriptor) (found : Found) : Prop where
  size : found.entry.sizeBytes ≤ ByteCount.maxSafe
  parent : ∀ parent ∈ pathParent? (absolutePath target found),
    SafetyGate.verifyTargetRootSafety parent = .ok ()
  bytecode : PolicyEngine.protectedBytecode found.entry.name = false

theorem allows_iff {config : DaemonConfig}
    (read : fs.symlinkMetadata path = some data) : Allows (explainPath fs config path stamped now) ↔
      data.len ≤ ByteCount.maxSafe ∧ ∃ validated permit,
        SafetyGate.validateCandidate (auditCandidate path (some data)
          data.identity data.len stamped) (auditTarget path data.identity) = .ok validated ∧
        PolicyEngine.evaluateCandidateWithFreezer validated
          (auditTarget path data.identity) ⟨.initial, explainedConfig config⟩
          now false = .allow permit := by
  unfold explainPath
  simp only [read, Option.map_some, Option.getD_some, ByteCount.new?]
  by_cases fits : data.len ≤ ByteCount.maxSafe
  · simp only [fits, if_true, true_and]
    cases SafetyGate.validateCandidate _ _ with
    | error error => simp [Allows]
    | ok validated =>
      dsimp only
      cases decided : PolicyEngine.evaluateCandidateWithFreezer validated
          (auditTarget path data.identity) ⟨.initial, explainedConfig config⟩ now false with
      | allow permit => simp [Allows, decided]
      | deny deny => simp [Allows, decided]
  · simp [fits, Allows]

theorem LookedUp.isDirectory (looked : LookedUp fs target found) :
    found.isDirectory = found.entry.isDir := by
  have single := looked.single
  unfold Found.isDirectory
  cases isDir : found.entry.isDir with
  | false => rfl
  | true => simpa [isDir] using single

theorem withinGracePeriod_audit (config : DaemonConfig) (stamped : candidate.mtime = now) :
    PolicyEngine.withinGracePeriod (explainedConfig config) candidate now = false ↔
      candidate.isDir = true ∨ config.cleaning.minFileAgeHours = 0 := by
  have retention : 0 < (explainedConfig config).minAppCacheAgeSecs ↔
      config.cleaning.minFileAgeHours ≠ 0 := by
    change 0 < min (config.cleaning.minFileAgeHours * 3600) u64Max ↔ _
    have positive : 0 < u64Max := by decide
    omega
  unfold PolicyEngine.withinGracePeriod UnixTimestamp.ageSecs
  rw [stamped, Nat.sub_self, Bool.and_eq_false_iff, decide_eq_false_iff_not,
    retention, not_not, Bool.not_eq_false']

theorem explainPath_allows_iff (looked : LookedUp fs target found)
    (config : DaemonConfig) (now : UnixTimestamp) :
    Allows (explainPath fs config (absolutePath target found) now now) ↔ Unguarded target found ∧
        (found.isDirectory = true ∨ config.cleaning.minFileAgeHours = 0) := by
  obtain ⟨parent, above⟩ := looked.parent
  obtain ⟨path, parsed⟩ := looked.name
  have base : ∀ identity, (auditTarget (absolutePath target found) identity).basePath = parent := by
    intro identity
    rw [auditTarget, above]
    rfl
  have rel : ∀ data identity size stamped, (auditCandidate
      (absolutePath target found) data identity size stamped).relPath.raw = found.entry.name := by
    intro data identity size stamped
    rw [auditCandidate, looked.fileName, Option.getD_some, parsed]
    exact RelativePath.raw_parse parsed
  rw [allows_iff looked.metadata]
  simp only [SafetyGate.validateCandidate_ok_iff,
    PolicyEngine.evaluateCandidateWithFreezer_allow_iff]
  constructor
  · rintro ⟨size, _, _, ⟨-, -, -, -, root, rfl⟩, -, -, bytecode, grace, -⟩
    rw [base] at root
    rw [rel] at bytecode
    rw [withinGracePeriod_audit config (by rfl)] at grace
    refine ⟨⟨size, ?_, bytecode⟩, ?_⟩
    · intro other same
      rw [above] at same
      cases same
      exact root
    · rw [looked.isDirectory]
      exact grace
  · rintro ⟨unguarded, age⟩
    refine ⟨unguarded.size, _, _, ⟨rfl, rfl, rfl, ?_, ?_, rfl⟩, rfl, rfl, ?_, ?_, rfl⟩
    · rw [rel]
      exact looked.named
    · rw [base]
      exact unguarded.parent parent above
    · rw [rel]
      exact unguarded.bytecode
    · rw [withinGracePeriod_audit config (by rfl)]
      rw [looked.isDirectory] at age
      exact age

end

/-- When the two agree.  A retained file is never allowed, since it is taken to
be as old as the call; of anything else the explanation sees the size, the
parent and the name. -/
def Agreeable (config : DaemonConfig) (now : UnixTimestamp)
    (target : TargetDescriptor) (found : Found) : Prop :=
  if found.isDirectory = false ∧ config.cleaning.minFileAgeHours ≠ 0 then
    ¬ Eligible config now target found
  else Exposed config target found ↔ Unguarded target found

theorem Eligible.iff_exposed {config : DaemonConfig}
    (free : found.isDirectory = true ∨ config.cleaning.minFileAgeHours = 0) :
    Eligible config now target found ↔ Exposed config target found := by
  refine ⟨Eligible.toExposed, fun exposed => ⟨exposed, ?_⟩⟩
  refine free.imp_right fun none => ?_
  rw [DaemonConfig.retentionSecs, none]
  exact Nat.zero_le _

theorem explain_agrees_iff {fs : Fs} (named : fs.Named) (openat2 : Bool)
    {config : DaemonConfig} {dryRun : Bool} {validated : ValidatedConfig}
    (read : ValidatedConfig.fromRaw (config.toRaw dryRun) = some (.ok validated))
    {target : TargetDescriptor} {found : Found} (member : found ∈ fs.reachTarget openat2 target)
    (generation : ConfigGeneration) (now : UnixTimestamp) (isFrozen : Bool) :
    (Allows (explainPath fs config (absolutePath target found) now now) ↔
      (permit? ⟨generation, validated⟩ now isFrozen target
        (found.candidate target)).isSome = true) ↔ Agreeable config now target found := by
  have looked := lookedUp named member
  rw [explainPath_allows_iff looked, permit?_iff_eligible
    (DaemonConfig.carried_of_fromRaw read) looked.path]
  unfold Agreeable
  split
  · rename_i retained
    have denied : ¬ (Unguarded target found ∧ (found.isDirectory = true ∨
        config.cleaning.minFileAgeHours = 0)) := by
      rintro ⟨-, isDir | none⟩
      · rw [retained.1] at isDir
        cases isDir
      · exact retained.2 none
    simp only [denied, false_iff]
  · rename_i free
    have kept : found.isDirectory = true ∨ config.cleaning.minFileAgeHours = 0 := by
      by_contra neither
      rw [not_or, Bool.not_eq_true] at neither
      exact free neither
    rw [Eligible.iff_exposed kept, and_iff_left kept]
    exact Iff.comm

end CacheCleaner.Diagnostics

namespace CacheCleaner.Device

open Diagnostics AuthoritativeCleanPipeline

def target : TargetDescriptor := start.catalog.targets.rows.head (by decide +kernel)

def listed : Found :=
  (fs.reachTarget true target).head (by
    rw [← List.isEmpty_eq_false_iff]
    decide +kernel)

theorem listed_mem : listed ∈ fs.reachTarget true target := List.head_mem _

theorem listed_eligible (now : UnixTimestamp) (old : 86400 ≤ now) :
    Eligible config now target listed := by
  have exposed : Exposed config target listed := by
    constructor <;> decide +kernel
  have retention : config.retentionSecs = 86400 := by decide +kernel
  have written : listed.entry.mtimeSecs = 0 := by decide +kernel
  refine ⟨exposed, Or.inr ?_⟩
  rw [retention, written]
  exact old

theorem young_file_explained : ∃ validated,
      ValidatedConfig.fromRaw (config.toRaw false) = some (.ok validated) ∧
      (Allows (explainPath fs config (absolutePath target listed) 1000 1000) ↔
        (permit? ⟨.initial, validated⟩ 1000 false target
          (listed.candidate target)).isSome = true) := by
  obtain ⟨validated, read⟩ := accepted false
  refine ⟨validated, read, ?_⟩
  rw [explain_agrees_iff named true read listed_mem, Agreeable, if_pos (by decide +kernel)]
  rintro ⟨-, isDir | old⟩
  · revert isDir
    decide +kernel
  · revert old
    decide +kernel

/-- An old file is permitted, and explained as a young one. -/
theorem old_file_explained_as_young :
    config.validate = .ok () ∧ listed ∈ fs.reachTarget true target ∧ (∃ validated,
      ValidatedConfig.fromRaw (config.toRaw false) = some (.ok validated) ∧
      (permit? ⟨.initial, validated⟩ 1000000 false target
        (listed.candidate target)).isSome = true) ∧
    explainPath fs config (absolutePath target listed) 1000000 1000000 =
      some (.deny .withinRetentionGracePeriod) := by
  refine ⟨by decide +kernel, listed_mem, ?_, by decide +kernel⟩
  obtain ⟨validated, read⟩ := accepted false
  refine ⟨validated, read, ?_⟩
  rw [permit?_iff_eligible (DaemonConfig.carried_of_fromRaw read) (by decide +kernel)]
  exact listed_eligible 1000000 (by decide)

end CacheCleaner.Device
