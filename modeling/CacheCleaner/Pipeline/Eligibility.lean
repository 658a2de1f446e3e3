import CacheCleaner.Pipeline.Protected

namespace CacheCleaner

namespace DaemonConfig

section

variable (config : DaemonConfig)

def cleans : TargetClass → Bool
  | .tombstones => config.cleaning.cleanCrashDumps
  | .logArchive => config.cleaning.cleanOemLogs
  | .tempDir => config.cleaning.cleanTempApks
  | .codeCache => config.cleaning.cleanCodeCache
  | _ => true

def whitelists (target : TargetDescriptor) : Bool :=
  target.packageName.any fun package =>
    config.safety.whitelistPackages.any fun entry =>
      eqIgnoreAsciiCase entry package

def retentionSecs : Nat :=
  saturatingMul config.cleaning.minFileAgeHours 3600

structure Carried (validated : ValidatedConfig) : Prop where
  age : validated.minAppCacheAgeSecs = config.retentionSecs
  category : ∀ targetClass, PolicyEngine.categoryDisabled validated targetClass =
      !config.cleans targetClass
  package : ∀ generation target, PolicyEngine.packageWhitelisted ⟨generation, validated⟩ target =
      config.whitelists target

end

theorem any_of_same_members {left right : List α}
    (same : ∀ item, item ∈ left ↔ item ∈ right) : left.any test = right.any test := by
  rw [Bool.eq_iff_iff, List.any_eq_true, List.any_eq_true]
  exact exists_congr fun item => and_congr_left fun _ => same item

theorem carried_of_fromRaw {config : DaemonConfig}
    (read : ValidatedConfig.fromRaw (config.toRaw dryRun) =
      some (.ok validated)) : config.Carried validated := by
  unfold ValidatedConfig.fromRaw toRaw at read
  simp only [Option.getD_some] at read
  split at read
  · cases read
  · split at read
    · cases read
    · split at read
      · cases read
      · split at read
        · cases read
        · split at read
          · cases read
          · cases read
            refine ⟨rfl, fun targetClass => ?_, fun generation target => ?_⟩
            · cases targetClass <;> rfl
            · unfold PolicyEngine.packageWhitelisted whitelists
              cases target.packageName with
              | none => rfl
              | some package =>
                refine any_of_same_members fun entry => ?_
                rw [mem_dedup, List.mem_insertionSort]

end DaemonConfig

structure Exposed (config : DaemonConfig) (target : TargetDescriptor) (found : Found) : Prop where
  tier : target.isMutationAllowed = true
  device : found.entry.identity.dev = target.dev
  root : SafetyGate.verifyTargetRootSafety target.basePath = .ok ()
  category : config.cleans target.targetClass = true
  package : config.whitelists target = false
  bytecode : PolicyEngine.protectedBytecode found.path.raw = false

structure Eligible (config : DaemonConfig) (now : UnixTimestamp)
    (target : TargetDescriptor) (found : Found) : Prop extends Exposed config target found where
  age : found.isDirectory = true ∨
    config.retentionSecs ≤ UnixTimestamp.ageSecs found.entry.mtimeSecs now

namespace AuthoritativeCleanPipeline

theorem permit?_iff_eligible {config : DaemonConfig} (carried : config.Carried validated)
    (beneath : found.path.raw ≠ "") :
    (permit? ⟨generation, validated⟩ now isFrozen target (found.candidate target)).isSome = true ↔
      Eligible config now target found := by
  rw [Option.isSome_iff_exists]
  simp only [permit?_eq_some_iff, Unopposed, carried.category, carried.package,
    PolicyEngine.withinGracePeriod, carried.age]
  constructor
  · rintro ⟨_, -, ⟨tier, device, -, root, category, package, bytecode, grace⟩, -⟩
    refine ⟨⟨tier, device, root, by simpa using category, package, bytecode⟩, ?_⟩
    cases isDir : found.isDirectory with
    | true => exact Or.inl rfl
    | false =>
      right
      simpa [Found.candidate, isDir] using grace
  · intro eligible
    refine ⟨_, rfl, ⟨eligible.tier, eligible.device, beneath, eligible.root, ?_,
      eligible.package, eligible.bytecode, ?_⟩, rfl⟩
    · simp [eligible.category]
    · rcases eligible.age with isDir | old
      · simp [Found.candidate, isDir]
      · rw [Bool.and_eq_false_iff]
        exact Or.inr (decide_eq_false (Nat.not_lt.mpr old))

end AuthoritativeCleanPipeline

theorem Device.named : Device.fs.Named := by
  intro id inode present
  unfold Device.fs at present
  dsimp only at present
  repeat' split at present
  all_goals cases present
  all_goals decide +kernel

end CacheCleaner
