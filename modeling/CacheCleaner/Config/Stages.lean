import CacheCleaner.Domain.Path

namespace CacheCleaner

/-! The configuration as the daemon loads it and the three stages a job passes
it through: raw, validated, effective. -/

/-- A temperature setting: not a number, or its exact value in degrees. -/
inductive Temperature where
  | nan
  | degrees (value : ℚ)
  deriving DecidableEq

namespace Temperature

/-- `t < bound`; comparisons with not-a-number are false. -/
def below (temperature : Temperature) (bound : ℚ) : Bool :=
  match temperature with
  | .nan => false
  | .degrees value => decide (value < bound)

def above (temperature : Temperature) (bound : ℚ) : Bool :=
  match temperature with
  | .nan => false
  | .degrees value => decide (bound < value)

def within (temperature : Temperature) (low high : ℚ) : Bool :=
  match temperature with
  | .nan => false
  | .degrees value => decide (low ≤ value) && decide (value ≤ high)

def display : Temperature → String
  | .nan => "NaN"
  | .degrees value => toString value

end Temperature

structure CleaningRulesConfig where
  cleanAppCache : Bool
  cleanCodeCache : Bool
  cleanOemLogs : Bool
  cleanCrashDumps : Bool
  cleanTempApks : Bool
  minFileAgeHours : Nat
  deriving DecidableEq

structure SafetyConfig where
  whitelistPackages : List String
  protectedDirectoryNames : List String
  deriving DecidableEq

/-- The settings of `DaemonConfig` that validation or a cleanup job reads. -/
structure DaemonConfig where
  maintenanceIntervalSecs : Nat
  minScreenOffSecs : Nat
  maxSocTempC : Temperature
  maxBatteryTempC : Temperature
  cleaning : CleaningRulesConfig
  safety : SafetyConfig
  deriving DecidableEq

def DaemonConfig.default : DaemonConfig where
  maintenanceIntervalSecs := 3600 * 6
  minScreenOffSecs := 180
  maxSocTempC := .degrees 44
  maxBatteryTempC := .degrees (79 / 2)
  cleaning := {
    cleanAppCache := true
    cleanCodeCache := false
    cleanOemLogs := false
    cleanCrashDumps := false
    cleanTempApks := false
    minFileAgeHours := 24 }
  safety := {
    whitelistPackages :=
      ["com.android.systemui", "com.android.settings",
        "com.android.providers.settings", "com.android.providers.media",
        "com.google.android.gms", "com.google.android.googlequicksearchbox"]
    protectedDirectoryNames :=
      [".nomedia", "shared_prefs", "databases", "lib", "files", "keystore",
        "fpdata"] }

def DaemonConfig.validate (config : DaemonConfig) : Result Unit :=
  if config.maintenanceIntervalSecs < 30 then
    .error (.config "maintenance_interval_secs must be at least 30 seconds")
  else if config.maxSocTempC.below 20 || config.maxSocTempC.above 95 then
    .error (.config "max_soc_temp_c must be between 20.0°C and 95.0°C")
  else if config.maxBatteryTempC.below 20 || config.maxBatteryTempC.above 65 then
    .error (.config "max_battery_temp_c must be between 20.0°C and 65.0°C")
  else if config.safety.protectedDirectoryNames.isEmpty then
    .error (.config "safety.protected_directory_names cannot be empty")
  else .ok ()

structure RawConfig where
  maintenanceIntervalSecs : Option Nat := some 3600
  minScreenOffSecs : Option Nat := some 180
  maxSocTempC : Option Temperature := some (.degrees 45)
  maxBatteryTempC : Option Temperature := some (.degrees 42)
  minAppCacheAgeDays : Option Nat := some 3
  minFileAgeHours : Option Nat := none
  appCacheThresholdMb : Option Nat := some 50
  dryRun : Option Bool := some false
  cleanAppCache : Option Bool := some true
  cleanCodeCache : Option Bool := some false
  cleanTombstones : Option Bool := some false
  cleanOemLogs : Option Bool := some false
  cleanTempApks : Option Bool := some false
  whitelistPackages : Option (List String) := some ["com.android.vending", "com.google.android.gms"]
  protectedPaths : Option (List String) :=
    some ["/system", "/vendor", "/apex", "/data/data/com.android.providers.telephony"]
  fstrimIntervalHours : Option Nat := some 24
  vacuumDbIntervalHours : Option Nat := some 72

def platformInvariantProtectedPaths : List String :=
  ["/system", "/vendor", "/product", "/system_ext", "/apex", "/data/system",
    "/data/misc", "/data/bootchart", "/metadata", "/boot", "/etc"]

structure ValidatedConfig where
  maintenanceIntervalSecs : Nat
  minScreenOffSecs : Nat
  maxSocTempC : Temperature
  maxBatteryTempC : Temperature
  minAppCacheAgeSecs : Nat
  appCacheThresholdBytes : ByteCount
  dryRun : Bool
  cleanAppCache : Bool
  cleanCodeCache : Bool
  cleanTombstones : Bool
  cleanOemLogs : Bool
  cleanTempApks : Bool
  whitelistPackages : List String
  protectedPaths : List String
  fstrimIntervalSecs : Nat
  vacuumDbIntervalSecs : Nat

def validWhitelistPackage (package : String) : Bool :=
  !(decide (255 < package.utf8ByteSize) || containsChar package '\x00' ||
    containsChar package '/' || isBlank package)

def validProtectedPath (path : String) : Bool :=
  !(path == "" || decide (4096 < path.utf8ByteSize) || containsChar path '\x00')

/-- The loop over the user's protected paths; `PathBuf` equality decides what
is already there. -/
def addProtectedPaths : List String → List String → Result (List String)
  | [], protectedPaths => .ok protectedPaths
  | path :: rest, protectedPaths =>
    if validProtectedPath path then
      if protectedPaths.any fun other => components other == components path then
        addProtectedPaths rest protectedPaths
      else addProtectedPaths rest (protectedPaths ++ [path])
    else .error (.configError s!"invalid protected path '{path}'")

namespace ValidatedConfig

variable {error : CleanerError}

/-- `min_app_cache_age_secs`: hours win over days. -/
def minAge (raw : RawConfig) : Nat :=
  match raw.minFileAgeHours with
  | some hours => saturatingMul hours 3600
  | none => saturatingMul (raw.minAppCacheAgeDays.getD 3) 86400

def checkWhitelist (whitelist : List String) : Result Unit :=
  if 512 < whitelist.length then
    .error (.configError "whitelist_packages exceeds 512 entries")
  else
    match whitelist.find? fun package => !validWhitelistPackage package with
    | some package =>
      .error (.configError s!"invalid whitelist package '{package}'")
    | none => .ok ()

def checkRanges (interval screenOff : Nat) (soc battery : Temperature) : Result Unit :=
  if !(decide (60 ≤ interval) && decide (interval ≤ 604800)) then
    .error (.configError "maintenance_interval_secs must be 60..604800")
  else if 3600 < screenOff then
    .error (.configError "min_screen_off_secs must be 0..3600")
  else if !soc.within 20 90 then
    let shown := soc.display
    .error (.configError s!"max_soc_temp_c {shown} out of safe range [20.0, 90.0]")
  else if !battery.within 20 65 then
    let shown := battery.display
    .error (.configError s!"max_battery_temp_c {shown} out of safe range [20.0, 65.0]")
  else .ok ()

def checkIntervals (fstrimHours vacuumHours : Nat) : Result Unit :=
  if !(decide (1 ≤ fstrimHours) && decide (fstrimHours ≤ 720)) then
    .error (.configError "fstrim_interval_hours must be 1..720")
  else if !(decide (1 ≤ vacuumHours) && decide (vacuumHours ≤ 720)) then
    .error (.configError "vacuum_db_interval_hours must be 1..720")
  else .ok ()

/-- `ValidatedConfig::from_raw`; `none` is the panic of `ByteCount::new`. -/
def fromRaw (raw : RawConfig) : Option (Result ValidatedConfig) :=
  let interval := raw.maintenanceIntervalSecs.getD 3600
  let screenOff := raw.minScreenOffSecs.getD 180
  let soc := raw.maxSocTempC.getD (.degrees 45)
  let battery := raw.maxBatteryTempC.getD (.degrees 45)
  match checkRanges interval screenOff soc battery with
  | .error error => some (.error error)
  | .ok () =>
    match ByteCount.new? (saturatingMul (raw.appCacheThresholdMb.getD 50) (1024 * 1024)) with
    | none => none
    | some threshold =>
      let whitelist := raw.whitelistPackages.getD []
      match checkWhitelist whitelist with
      | .error error => some (.error error)
      | .ok () =>
        match addProtectedPaths (raw.protectedPaths.getD []) platformInvariantProtectedPaths with
        | .error error => some (.error error)
        | .ok protectedPaths =>
          let fstrimHours := raw.fstrimIntervalHours.getD 24
          let vacuumHours := raw.vacuumDbIntervalHours.getD 72
          match checkIntervals fstrimHours vacuumHours with
          | .error error => some (.error error)
          | .ok () =>
            some (.ok {
              maintenanceIntervalSecs := interval
              minScreenOffSecs := screenOff
              maxSocTempC := soc
              maxBatteryTempC := battery
              minAppCacheAgeSecs := minAge raw
              appCacheThresholdBytes := threshold
              dryRun := raw.dryRun.getD false
              cleanAppCache := raw.cleanAppCache.getD true
              cleanCodeCache := raw.cleanCodeCache.getD false
              cleanTombstones := raw.cleanTombstones.getD false
              cleanOemLogs := raw.cleanOemLogs.getD false
              cleanTempApks := raw.cleanTempApks.getD false
              whitelistPackages :=
                dedup (whitelist.insertionSort fun left right =>
                  left ≤ right)
              protectedPaths := protectedPaths
              fstrimIntervalSecs := saturatingMul fstrimHours 3600
              vacuumDbIntervalSecs := saturatingMul vacuumHours 3600 })

theorem checkRanges_error (rejected : checkRanges interval screenOff soc battery = .error error) :
    ∃ message, error = .configError message := by
  unfold checkRanges at rejected
  repeat' split at rejected
  all_goals cases rejected
  all_goals exact ⟨_, rfl⟩

theorem checkWhitelist_error (rejected : checkWhitelist whitelist = .error error) :
    ∃ message, error = .configError message := by
  unfold checkWhitelist at rejected
  repeat' split at rejected
  all_goals cases rejected
  all_goals exact ⟨_, rfl⟩

theorem addProtectedPaths_error (rejected : addProtectedPaths paths known = .error error) :
    ∃ message, error = .configError message := by
  induction paths generalizing known with
  | nil => cases rejected
  | cons path rest ih =>
    unfold addProtectedPaths at rejected
    split at rejected
    · split at rejected <;> exact ih rejected
    · cases rejected
      exact ⟨_, rfl⟩

theorem checkIntervals_error (rejected : checkIntervals fstrimHours vacuumHours = .error error) :
    ∃ message, error = .configError message := by
  unfold checkIntervals at rejected
  repeat' split at rejected
  all_goals cases rejected
  all_goals exact ⟨_, rfl⟩

theorem fromRaw_error
    (rejected : fromRaw raw = some (.error error)) : ∃ message, error = .configError message := by
  unfold fromRaw at rejected
  cases ranges : checkRanges (raw.maintenanceIntervalSecs.getD 3600)
      (raw.minScreenOffSecs.getD 180) (raw.maxSocTempC.getD (.degrees 45))
      (raw.maxBatteryTempC.getD (.degrees 45)) with
  | error found =>
    simp only [ranges, Option.some.injEq, Except.error.injEq] at rejected
    exact checkRanges_error (rejected ▸ ranges)
  | ok inRange =>
    generalize ByteCount.new? _ = threshold at rejected
    cases threshold with
    | none => simp [ranges] at rejected
    | some threshold =>
      cases listed : checkWhitelist (raw.whitelistPackages.getD []) with
      | error found =>
        simp only [ranges, listed, Option.some.injEq, Except.error.injEq] at rejected
        exact checkWhitelist_error (rejected ▸ listed)
      | ok allowed =>
        cases added : addProtectedPaths (raw.protectedPaths.getD [])
            platformInvariantProtectedPaths with
        | error found =>
          simp only [ranges, listed, added, Option.some.injEq, Except.error.injEq] at rejected
          exact addProtectedPaths_error (rejected ▸ added)
        | ok protectedPaths =>
          cases intervals : checkIntervals (raw.fstrimIntervalHours.getD 24)
              (raw.vacuumDbIntervalHours.getD 72) with
          | error found =>
            simp only [ranges, listed, added, intervals,
              Option.some.injEq, Except.error.injEq] at rejected
            exact checkIntervals_error (rejected ▸ intervals)
          | ok inRange =>
            simp [ranges, listed, added, intervals] at rejected

end ValidatedConfig

structure EffectiveConfig where
  generation : ConfigGeneration
  validated : ValidatedConfig

namespace EffectiveConfig

def isPackageWhitelisted (config : EffectiveConfig) (package : String) : Bool :=
  config.validated.whitelistPackages.any fun entry =>
    eqIgnoreAsciiCase entry package

def isPathProtected (config : EffectiveConfig) (path : String) : Bool :=
  config.validated.protectedPaths.any fun root =>
    pathStartsWith path root ||
      (decide ((components root).length ≤ (components path).length) && !(components root).isEmpty &&
        decide ((components path).take (components root).length = components root))

end EffectiveConfig

/-- The raw configuration `run_pipeline_job` builds from the daemon's. -/
def DaemonConfig.toRaw (config : DaemonConfig) (dryRun : Bool) : RawConfig where
  minScreenOffSecs := some config.minScreenOffSecs
  maxSocTempC := some config.maxSocTempC
  maxBatteryTempC := some config.maxBatteryTempC
  minFileAgeHours := some config.cleaning.minFileAgeHours
  dryRun := some dryRun
  cleanAppCache := some config.cleaning.cleanAppCache
  cleanCodeCache := some config.cleaning.cleanCodeCache
  cleanTombstones := some config.cleaning.cleanCrashDumps
  cleanOemLogs := some config.cleaning.cleanOemLogs
  cleanTempApks := some config.cleaning.cleanTempApks
  whitelistPackages := some config.safety.whitelistPackages
  protectedPaths := some config.safety.protectedDirectoryNames
  maintenanceIntervalSecs := some config.maintenanceIntervalSecs

end CacheCleaner
