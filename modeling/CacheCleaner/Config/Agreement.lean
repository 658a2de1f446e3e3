import CacheCleaner.Config.Stages

namespace CacheCleaner

/-- The settings on which the pipeline's validation is stricter than
`DaemonConfig::validate`. -/
structure DaemonConfig.Compatible (config : DaemonConfig) : Prop where
  interval : 60 ≤ config.maintenanceIntervalSecs ∧ config.maintenanceIntervalSecs ≤ 604800
  screenOff : config.minScreenOffSecs ≤ 3600
  soc : ∃ value, config.maxSocTempC = .degrees value ∧ value ≤ 90
  battery : config.maxBatteryTempC ≠ .nan
  whitelistLength : config.safety.whitelistPackages.length ≤ 512
  whitelist : ∀ package ∈ config.safety.whitelistPackages,
    package.utf8ByteSize ≤ 255 ∧ '\x00' ∉ package.toList ∧ '/' ∉ package.toList ∧
      ∃ character ∈ package.toList, isWhitespace character = false
  protectedNames : ∀ name ∈ config.safety.protectedDirectoryNames,
    name ≠ "" ∧ name.utf8ByteSize ≤ 4096 ∧ '\x00' ∉ name.toList

theorem DaemonConfig.temperatures_of_validate {config : DaemonConfig}
    (accepted : config.validate = .ok ()) :
    (config.maxSocTempC.below 20 = false ∧ config.maxSocTempC.above 95 = false) ∧
      (config.maxBatteryTempC.below 20 = false ∧ config.maxBatteryTempC.above 65 = false) := by
  unfold DaemonConfig.validate at accepted
  split at accepted
  · cases accepted
  · split at accepted
    · cases accepted
    · rename_i soc
      split at accepted
      · cases accepted
      · rename_i battery
        simp only [Bool.or_eq_true, not_or, Bool.not_eq_true] at soc battery
        exact ⟨soc, battery⟩

theorem Temperature.within_iff_of_not_below {temperature : Temperature}
    (warm : temperature.below low = false) : temperature.within low high = true ↔
      ∃ value, temperature = .degrees value ∧ value ≤ high := by
  cases temperature with
  | nan => simp [within]
  | degrees value =>
    simp only [below, decide_eq_false_iff_not, not_lt] at warm
    simp [within, warm]

theorem Temperature.within_iff_of_between {temperature : Temperature}
    (warm : temperature.below low = false) (cool : temperature.above high = false) :
    temperature.within low high = true ↔ temperature ≠ .nan := by
  cases temperature with
  | nan => simp [within]
  | degrees value =>
    simp only [below, above, decide_eq_false_iff_not, not_lt] at warm cool
    simp [within, warm, cool]

theorem isBlank_eq_false_iff : isBlank text = false ↔
      ∃ character ∈ text.toList, isWhitespace character = false := by
  simp [isBlank, List.all_eq_false]

theorem validWhitelistPackage_iff : validWhitelistPackage package = true ↔
      package.utf8ByteSize ≤ 255 ∧ '\x00' ∉ package.toList ∧ '/' ∉ package.toList ∧
        ∃ character ∈ package.toList, isWhitespace character = false := by
  rw [← isBlank_eq_false_iff]
  simp [validWhitelistPackage, containsChar, and_assoc]

theorem validProtectedPath_iff : validProtectedPath path = true ↔
      path ≠ "" ∧ path.utf8ByteSize ≤ 4096 ∧ '\x00' ∉ path.toList := by
  simp [validProtectedPath, containsChar, and_assoc]

namespace ValidatedConfig

theorem checkRanges_ok_iff : checkRanges interval screenOff soc battery = .ok () ↔
      (60 ≤ interval ∧ interval ≤ 604800) ∧ screenOff ≤ 3600 ∧
        soc.within 20 90 = true ∧ battery.within 20 65 = true := by
  unfold checkRanges
  split
  · rename_i outside
    simp only [reduceCtorEq, false_iff]
    rintro ⟨inside, -⟩
    simp [inside.1, inside.2] at outside
  · rename_i inside
    have bounds : 60 ≤ interval ∧ interval ≤ 604800 := by simpa using inside
    split
    · simp only [reduceCtorEq, false_iff]
      omega
    · rename_i short
      split
      · rename_i outside
        simp only [reduceCtorEq, false_iff]
        rintro ⟨-, -, within, -⟩
        simp [within] at outside
      · rename_i socInside
        split
        · rename_i outside
          simp only [reduceCtorEq, false_iff]
          rintro ⟨-, -, -, within⟩
          simp [within] at outside
        · rename_i batteryInside
          simp only [true_iff]
          exact ⟨bounds, by omega, by simpa using socInside, by simpa using batteryInside⟩

theorem checkWhitelist_ok_iff : checkWhitelist whitelist = .ok () ↔
      whitelist.length ≤ 512 ∧ ∀ package ∈ whitelist, validWhitelistPackage package = true := by
  unfold checkWhitelist
  split
  · simp only [reduceCtorEq, false_iff]
    omega
  · rename_i short
    cases found : whitelist.find? fun package => !validWhitelistPackage package with
    | some package =>
      simp only [reduceCtorEq, false_iff]
      rintro ⟨-, all⟩
      have bad := List.find?_some found
      have good := all package (List.mem_of_find?_eq_some found)
      simp [good] at bad
    | none =>
      simp only [true_iff]
      refine ⟨by omega, fun package mem => ?_⟩
      simpa using List.find?_eq_none.mp found package mem

theorem addProtectedPaths_ok_iff :
    (∃ protectedPaths, addProtectedPaths paths known = .ok protectedPaths) ↔
      ∀ path ∈ paths, validProtectedPath path = true := by
  induction paths generalizing known with
  | nil => simp [addProtectedPaths]
  | cons path rest ih =>
    unfold addProtectedPaths
    rw [List.forall_mem_cons]
    split
    · rename_i valid
      split
      · rw [ih]
        simp [valid]
      · rw [ih]
        simp [valid]
    · rename_i invalid
      simp [invalid]

end ValidatedConfig

open ValidatedConfig in
theorem fromRaw_toRaw_ok_iff (config : DaemonConfig) (dryRun : Bool) :
    (∃ validated, fromRaw (config.toRaw dryRun) = some (.ok validated)) ↔
      checkRanges config.maintenanceIntervalSecs config.minScreenOffSecs
          config.maxSocTempC config.maxBatteryTempC = .ok () ∧
        checkWhitelist config.safety.whitelistPackages = .ok () ∧ ∃ protectedPaths,
          addProtectedPaths config.safety.protectedDirectoryNames
            platformInvariantProtectedPaths = .ok protectedPaths := by
  unfold fromRaw DaemonConfig.toRaw
  simp only [Option.getD_some]
  cases ranges : checkRanges config.maintenanceIntervalSecs
      config.minScreenOffSecs config.maxSocTempC config.maxBatteryTempC with
  | error error => simp
  | ok accepted =>
    have threshold : ByteCount.new? (saturatingMul 50 (1024 * 1024)) = some 52428800 := by decide
    simp only [threshold]
    cases whitelist : checkWhitelist config.safety.whitelistPackages with
    | error error => simp
    | ok accepted =>
      cases paths : addProtectedPaths config.safety.protectedDirectoryNames
          platformInvariantProtectedPaths with
      | error error => simp
      | ok protectedPaths =>
        have intervals : checkIntervals 24 72 = .ok () := by decide
        simp [intervals]

/-- A configuration that the daemon loads makes every clean fail exactly when
it is not compatible with the pipeline. -/
theorem fromRaw_accepts_iff_compatible (config : DaemonConfig)
    (accepted : config.validate = .ok ()) (dryRun : Bool) : (∃ validated,
        ValidatedConfig.fromRaw (config.toRaw dryRun) = some (.ok validated)) ↔
      config.Compatible := by
  obtain ⟨soc, battery⟩ := DaemonConfig.temperatures_of_validate accepted
  rw [fromRaw_toRaw_ok_iff, ValidatedConfig.checkRanges_ok_iff,
    ValidatedConfig.checkWhitelist_ok_iff, ValidatedConfig.addProtectedPaths_ok_iff,
    Temperature.within_iff_of_not_below soc.1,
    Temperature.within_iff_of_between battery.1 battery.2]
  simp only [validWhitelistPackage_iff, validProtectedPath_iff]
  constructor
  · rintro ⟨⟨interval, screenOff, socOk, batteryOk⟩, ⟨length, packages⟩, names⟩
    exact ⟨interval, screenOff, socOk, batteryOk, length, packages, names⟩
  · intro compatible
    exact ⟨⟨compatible.interval, compatible.screenOff, compatible.soc,
      compatible.battery⟩, ⟨compatible.whitelistLength, compatible.whitelist⟩,
      compatible.protectedNames⟩

/-- All other numbers are the last ones that the pipeline takes. -/
def DaemonConfig.atLimits (screenOff : Nat) : DaemonConfig :=
  { DaemonConfig.default with
    maintenanceIntervalSecs := 60
    minScreenOffSecs := screenOff
    maxSocTempC := .degrees 90
    maxBatteryTempC := .degrees 65
    safety := ⟨List.replicate 512 (String.ofList (List.replicate 255 'p')), ["files"]⟩ }

theorem limit_of_screenOff_decides :
    (∃ validated, ValidatedConfig.fromRaw ((DaemonConfig.atLimits 3600).toRaw false) =
        some (.ok validated)) ∧
      ¬ ∃ validated, ValidatedConfig.fromRaw ((DaemonConfig.atLimits 3601).toRaw true) =
        some (.ok validated) := by
  rw [fromRaw_accepts_iff_compatible _ (by decide +kernel),
    fromRaw_accepts_iff_compatible _ (by decide +kernel)]
  constructor
  · refine ⟨by decide, by decide, ⟨90, rfl, by decide⟩, by decide, by decide +kernel, ?_, ?_⟩
    · intro package mem
      rw [List.eq_of_mem_replicate mem, ← validWhitelistPackage_iff]
      decide +kernel
    · decide +kernel
  · intro compatible
    exact absurd compatible.screenOff (by decide)

def DaemonConfig.everyThirtySeconds : DaemonConfig :=
  { DaemonConfig.default with maintenanceIntervalSecs := 30 }

theorem accepted_config_fails_every_clean :
    ¬ ∀ config : DaemonConfig, config.validate = .ok () → ∀ dryRun, ∃ validated,
        ValidatedConfig.fromRaw (config.toRaw dryRun) = some (.ok validated) := by
  intro agree
  have accepted : DaemonConfig.everyThirtySeconds.validate = .ok () := by
    decide +kernel
  have validated := agree DaemonConfig.everyThirtySeconds accepted true
  rw [fromRaw_toRaw_ok_iff] at validated
  have ranges := ValidatedConfig.checkRanges_ok_iff.mp validated.1
  exact absurd ranges.1.1 (by decide)

end CacheCleaner
