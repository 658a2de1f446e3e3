import CacheCleaner.Idle.Policy

namespace CacheCleaner

open Ipc (IdleState ThermalHysteresisState MaintenanceEligibility IdleBlocker IdlePositive)
open Mark (blocker?)

variable {ctx ctx' : IdleContext} {thermal thermal' : ThermalHysteresisState} {gracePeriod : Nat}

namespace Mark

def fair : Mark → Bool
  | .credit points positive => points == positive.weight
  | .block _ => true

theorem foldl_addTo {marks : List Mark} (honest : marks.all fair = true)
    (room : score + ((marks.filterMap positive?).map IdlePositive.weight).sum ≤ 255) :
    marks.foldl addTo score =
      score + ((marks.filterMap positive?).map IdlePositive.weight).sum := by
  induction marks generalizing score with
  | nil => rfl
  | cons mark rest ih =>
    rw [List.all_cons, Bool.and_eq_true] at honest
    cases mark with
    | credit points positive =>
      have points_eq : points = positive.weight := by simpa [fair] using honest.1
      subst points_eq
      have listed : (Mark.credit positive.weight positive).positive? = some positive := rfl
      rw [List.filterMap_cons_some listed, List.map_cons, List.sum_cons] at room ⊢
      have fits : min (score + positive.weight) 255 = score + positive.weight := by omega
      rw [List.foldl_cons, addTo, fits, ih honest.2 (by omega)]
      omega
    | block blocker =>
      rw [List.filterMap_cons_none rfl] at room ⊢
      exact ih honest.2 room

end Mark

namespace Ipc.IdlePositive

def all : List IdlePositive :=
  [.screenOff, .graceElapsed, .charging, .highBattery, .cpuIdle, .ioIdle, .thermalSafe, .stationary]

theorem sum_weight_filter_le (earns : IdlePositive → Bool) :
    ((all.filter earns).map weight).sum ≤ 100 := by
  have part : ((all.filter earns).map weight).Sublist (all.map weight) :=
    List.filter_sublist.map weight
  exact part.sum_le_sum (by simp)

end Ipc.IdlePositive

namespace IdleContext

def reads (reading : SensorReading) (bound : ℚ) : Bool := reading.value.any (· < bound)

section

variable (ctx : IdleContext)

section

variable (gracePeriod : Nat)

def earns : IdlePositive → Bool
  | .screenOff => ctx.isScreenOff
  | .graceElapsed => ctx.graceElapsed gracePeriod
  | .charging => ctx.charging
  | .highBattery => decide (70 ≤ ctx.batteryPercent)
  | .cpuIdle => reads ctx.cpuPsiPct 5
  | .ioIdle => reads ctx.ioPsiPct 3
  | .thermalSafe => reads ctx.thermalCelsius 38
  | .stationary => ctx.stationary && !ctx.userActive

structure Weighs (marks : List Mark) (positives : List IdlePositive) (cpu io : Bool) : Prop where
  fair : marks.all Mark.fair = true
  positives : marks.filterMap Mark.positive? = positives
  cpu : (marks.filterMap blocker?).contains .cpuPressureHigh = cpu
  io : (marks.filterMap blocker?).contains .ioPressureHigh = io

theorem Weighs.append {cpu cpu' io io' : Bool}
    (left : Weighs first early cpu io) (right : Weighs second late cpu' io') :
    Weighs (first ++ second) (early ++ late) (cpu || cpu') (io || io') where
  fair := by rw [List.all_append, left.fair, right.fair]; rfl
  positives := by rw [List.filterMap_append, left.positives, right.positives]
  cpu := by
    rw [List.filterMap_append, List.contains_append, left.cpu, right.cpu]
  io := by
    rw [List.filterMap_append, List.contains_append, left.io, right.io]

theorem weighs_screen : Weighs (ctx.screenMarks gracePeriod)
    ([.screenOff, .graceElapsed].filter (ctx.earns gracePeriod)) false false := by
  cases off : ctx.isScreenOff with
  | false =>
    have waiting : ctx.graceElapsed gracePeriod = false := by
      simp [graceElapsed, off]
    constructor <;> simp [screenMarks, earns, off, waiting, Mark.fair, Mark.positive?,
        blocker?]
  | true =>
    cases elapsed : ctx.graceElapsed gracePeriod <;> constructor <;>
      simp [screenMarks, earns, off, elapsed, Mark.fair, Mark.positive?,
        blocker?, IdlePositive.weight]

theorem weighs_power : Weighs ctx.powerMarks
    ([.charging, .highBattery].filter (ctx.earns gracePeriod)) false false := by
  cases plugged : ctx.charging <;> by_cases full : 70 ≤ ctx.batteryPercent <;>
    by_cases low : ctx.batteryPercent < 20 <;> constructor <;>
    simp [powerMarks, earns, plugged, full, low, Mark.fair, Mark.positive?,
      blocker?, IdlePositive.weight, List.filterMap_cons]

section

variable {reading : SensorReading} {low high : ℚ} {idle : IdlePositive}
  {pressed blocker : IdleBlocker}

theorem fair_pressure (weight : idle.weight = 10) :
    (pressureMarks reading low high idle pressed).all Mark.fair = true := by
  unfold pressureMarks
  split <;> repeat' split
  all_goals simp [Mark.fair, weight]

theorem positives_pressure (earns : IdlePositive → Bool) (earned : earns idle = reads reading low) :
    (pressureMarks reading low high idle pressed).filterMap Mark.positive? =
      [idle].filter earns := by
  cases value : reading.value with
  | none =>
    by_cases unavailable : reading.status = .temporarilyUnavailable <;>
      simp [pressureMarks, reads, value, earned, unavailable, Mark.positive?]
  | some pct =>
    by_cases under : pct < low
    · simp [pressureMarks, reads, value, earned, under, Mark.positive?]
    · by_cases above : high ≤ pct <;> simp [pressureMarks, reads, value, earned, under, above,
          Mark.positive?]

theorem contains_pressure (order : low ≤ high) (different : pressed ≠ .sensorUnavailable) :
    ((pressureMarks reading low high idle pressed).filterMap
      blocker?).contains pressed = !below reading high := by
  cases value : reading.value with
  | none =>
    by_cases unavailable : reading.status = .temporarilyUnavailable <;>
      simp [pressureMarks, below, value, unavailable, blocker?, different]
  | some pct =>
    by_cases under : pct < low
    · have below_high : pct < high := lt_of_lt_of_le under order
      simp [pressureMarks, below, value, under, below_high, blocker?]
    · by_cases above : high ≤ pct
      · simp [pressureMarks, below, value, under, above, blocker?]
      · simp [pressureMarks, below, value, under, above, lt_of_not_ge above]

theorem contains_pressure_other (other : blocker ≠ pressed)
    (different : blocker ≠ .sensorUnavailable) :
    ((pressureMarks reading low high idle pressed).filterMap
      blocker?).contains blocker = false := by
  unfold pressureMarks
  split <;> repeat' split
  all_goals simp [blocker?, other, different]

end

theorem weighs_cpu : Weighs ctx.cpuMarks
    ([.cpuIdle].filter (ctx.earns gracePeriod)) (!below ctx.cpuPsiPct 10) false where
  fair := fair_pressure rfl
  positives := positives_pressure _ rfl
  cpu := contains_pressure (by norm_num) (by decide)
  io := contains_pressure_other (by decide) (by decide)

theorem weighs_io : Weighs ctx.ioMarks
    ([.ioIdle].filter (ctx.earns gracePeriod)) false (!below ctx.ioPsiPct 8) where
  fair := fair_pressure rfl
  positives := positives_pressure _ rfl
  cpu := contains_pressure_other (by decide) (by decide)
  io := contains_pressure (by norm_num) (by decide)

end

theorem weighs_thermal (thermal : ThermalHysteresisState)
    (gracePeriod : Nat) : Weighs (ctx.thermalMarks thermal)
    ([.thermalSafe].filter (ctx.earns gracePeriod)) false false := by
  cases value : ctx.thermalCelsius.value with
  | none =>
    cases thermal <;> constructor <;>
      simp [thermalMarks, earns, reads, value, Mark.fair, Mark.positive?, blocker?]
  | some temp =>
    by_cases cool : temp < 38 <;> cases thermal <;> constructor <;>
      simp [thermalMarks, earns, reads, value, cool, Mark.fair,
        Mark.positive?, blocker?, IdlePositive.weight]

theorem weighs_activity (gracePeriod : Nat) : Weighs ctx.activityMarks
    ([.stationary].filter (ctx.earns gracePeriod)) false false := by
  cases still : ctx.stationary <;> cases active : ctx.userActive <;> constructor <;>
    simp [activityMarks, earns, still, active, Mark.fair, Mark.positive?,
      blocker?, IdlePositive.weight]

theorem weighs (thermal : ThermalHysteresisState)
    (gracePeriod : Nat) : Weighs (ctx.marks thermal gracePeriod)
    (IdlePositive.all.filter (ctx.earns gracePeriod))
    (!below ctx.cpuPsiPct 10) (!below ctx.ioPsiPct 8) := by
  have whole := weighs_screen ctx gracePeriod
    |>.append (weighs_power ctx gracePeriod)
    |>.append (weighs_cpu ctx gracePeriod)
    |>.append (weighs_io ctx gracePeriod)
    |>.append (weighs_thermal ctx thermal gracePeriod)
    |>.append (weighs_activity ctx gracePeriod)
  simp only [← List.filter_append, Bool.false_or, Bool.or_false] at whole
  exact whole

end

theorem below_iff : below reading bound = true ↔
      ∀ value, reading.value = some value → value < bound := by
  cases found : reading.value <;> simp [below, found]

theorem graceElapsed_iff : ctx.graceElapsed gracePeriod = true ↔
    ctx.screen = .off ∧ gracePeriod ≤ ctx.screenOffDuration.getD 0 := by
  unfold graceElapsed isScreenOff screenOffDur
  rw [Bool.and_eq_true, decide_eq_true_iff, decide_eq_true_iff]

def Lower (old new : SensorReading) : Prop :=
  match old.value, new.value with
  | some value, some value' => value' ≤ value
  | none, none => True
  | _, _ => False

theorem Lower.below (lower : Lower old new) (under : below old bound = true) :
    IdleContext.below new bound = true := by
  rw [below_iff] at under ⊢
  intro value found
  cases before : old.value with
  | none => simp [Lower, before, found] at lower
  | some value' =>
    have ordered : value ≤ value' := by simpa [Lower, before, found] using lower
    exact lt_of_le_of_lt ordered (under value' before)

theorem Lower.reads (lower : Lower old new) (under : reads old bound = true) :
    IdleContext.reads new bound = true := by
  cases before : old.value with
  | none => simp [IdleContext.reads, before] at under
  | some value =>
    cases found : new.value with
    | none => simp [Lower, before, found] at lower
    | some value' =>
      simp only [Lower, before, found] at lower
      simp only [IdleContext.reads, before, found, Option.any_some, decide_eq_true_eq] at under ⊢
      exact lt_of_le_of_lt lower under

structure Better (old new : IdleContext) : Prop where
  screen : new.screen = old.screen
  stationary : new.stationary = old.stationary
  screenOff : old.screenOffDuration.getD 0 ≤ new.screenOffDuration.getD 0
  charging : old.charging = true → new.charging = true
  battery : old.batteryPercent ≤ new.batteryPercent
  cpu : Lower old.cpuPsiPct new.cpuPsiPct
  io : Lower old.ioPsiPct new.ioPsiPct
  temperature : Lower old.thermalCelsius new.thermalCelsius
  userActive : new.userActive = true → old.userActive = true

theorem Better.rested (better : Better ctx ctx')
    (still : ctx.userActive = false) : ctx'.userActive = false := by
  cases active : ctx'.userActive with
  | false => rfl
  | true =>
    rw [better.userActive active] at still
    cases still

theorem Better.graceElapsed (better : Better ctx ctx')
    (elapsed : ctx.graceElapsed gracePeriod = true) : ctx'.graceElapsed gracePeriod = true := by
  rw [graceElapsed_iff] at elapsed ⊢
  exact ⟨better.screen.trans elapsed.1, elapsed.2.trans better.screenOff⟩

theorem Better.earns (better : Better ctx ctx')
    (earned : ctx.earns gracePeriod positive = true) : ctx'.earns gracePeriod positive = true := by
  cases positive with
  | screenOff =>
    simp only [IdleContext.earns, isScreenOff, better.screen] at earned ⊢
    exact earned
  | graceElapsed => exact better.graceElapsed earned
  | charging => exact better.charging earned
  | highBattery =>
    have full : 70 ≤ ctx.batteryPercent := of_decide_eq_true earned
    exact decide_eq_true (full.trans better.battery)
  | cpuIdle => exact better.cpu.reads earned
  | ioIdle => exact better.io.reads earned
  | thermalSafe => exact better.temperature.reads earned
  | stationary =>
    simp only [IdleContext.earns, Bool.and_eq_true, Bool.not_eq_true'] at earned ⊢
    exact ⟨better.stationary.trans earned.1, better.rested earned.2⟩

end IdleContext

namespace IdlePolicy

open IdleContext

variable {current : IdleState}

theorem positives_evaluate : (evaluate ctx current thermal gracePeriod).positives =
      IdlePositive.all.filter (ctx.earns gracePeriod) :=
  (weighs ctx thermal gracePeriod).positives

theorem score_evaluate : (evaluate ctx current thermal gracePeriod).score =
      ((IdlePositive.all.filter (ctx.earns gracePeriod)).map IdlePositive.weight).sum := by
  have tally := weighs ctx thermal gracePeriod
  have bounded := IdlePositive.sum_weight_filter_le (ctx.earns gracePeriod)
  have room : 0 + (((ctx.marks thermal gracePeriod).filterMap
      Mark.positive?).map IdlePositive.weight).sum ≤ 255 := by
    rw [tally.positives]
    omega
  have added := Mark.foldl_addTo tally.fair room
  rw [tally.positives] at added
  change min ((ctx.marks thermal gracePeriod).foldl Mark.addTo 0) 100 = _
  omega

theorem isScreenOff_of_elapsed (elapsed : ctx.graceElapsed gracePeriod = true) :
    ctx.isScreenOff = true := by
  unfold graceElapsed at elapsed
  exact (Bool.and_eq_true_iff.mp elapsed).1

theorem nextState_of_elapsed (rested : ctx.userActive = false) (cool : thermal ≠ .critical)
    (elapsed : ctx.graceElapsed gracePeriod = true) : nextState ctx thermal gracePeriod =
      if ctx.charging = true ∧ 70 ≤ ctx.batteryPercent ∧ thermal = .normal ∧
          ctx.thermalSafe = true ∧ ctx.cpuLow = true ∧ ctx.ioLow = true then
        .deepIdle
      else .idle := by
  have off := isScreenOff_of_elapsed elapsed
  unfold nextState
  rw [if_neg (by simp [off, rested, cool]), if_neg (by simp [elapsed])]
  simp [rested, and_assoc]

theorem nextState_idle_iff : nextState ctx thermal gracePeriod = .idle ∨
        nextState ctx thermal gracePeriod = .deepIdle ↔
      ctx.userActive = false ∧ thermal ≠ .critical ∧ ctx.graceElapsed gracePeriod = true := by
  constructor
  · intro resting
    unfold nextState at resting
    by_cases awake : (!ctx.isScreenOff || ctx.userActive ||
        decide (thermal = .critical)) = true
    · rw [if_pos awake] at resting
      rcases resting with clash | clash <;> cases clash
    · rw [if_neg awake] at resting
      simp only [Bool.or_eq_true, decide_eq_true_eq, not_or, Bool.not_eq_true] at awake
      refine ⟨awake.1.2, awake.2, ?_⟩
      by_contra waiting
      rw [if_pos (by simpa using waiting)] at resting
      rcases resting with clash | clash <;> cases clash
  · rintro ⟨rested, cool, elapsed⟩
    rw [nextState_of_elapsed rested cool elapsed]
    split
    · exact .inr rfl
    · exact .inl rfl

theorem standard_allowed_iff :
    (evaluate ctx current thermal gracePeriod).standardMaintenance = .allowed ↔
      thermal ≠ .hot ∧ thermal ≠ .critical ∧
      ctx.graceElapsed gracePeriod = true ∧ ctx.userActive = false ∧
      20 ≤ ctx.batteryPercent ∧ below ctx.cpuPsiPct 10 = true ∧ below ctx.ioPsiPct 8 = true := by
  have tally := weighs ctx thermal gracePeriod
  change standardMaintenance ctx thermal gracePeriod
    ((ctx.marks thermal gracePeriod).filterMap blocker?) = .allowed ↔ _
  unfold standardMaintenance
  rw [tally.cpu, tally.io]
  by_cases hot : thermal = .hot
  · simp [hot]
  · rw [if_neg hot]
    split
    · rename_i closed
      constructor
      · intro allowed
        cases allowed
      · rintro ⟨-, cool, elapsed, rested, charged, cpu, io⟩
        simp [cool, elapsed, rested, Nat.not_lt.mpr charged, cpu, io,
          isScreenOff_of_elapsed elapsed] at closed
    · rename_i opened
      simp only [Bool.or_eq_true, decide_eq_true_eq, Bool.not_eq_true',
        not_or, Bool.not_eq_false, Bool.not_eq_true, Nat.not_lt] at opened
      obtain ⟨⟨⟨⟨⟨⟨cool, -⟩, elapsed⟩, rested⟩, charged⟩, cpu⟩, io⟩ := opened
      rw [if_pos (nextState_idle_iff.mpr ⟨rested, cool, elapsed⟩)]
      exact iff_of_true rfl ⟨hot, cool, elapsed, rested, charged, cpu, io⟩

theorem heavy_allowed_iff : (evaluate ctx current thermal gracePeriod).heavyMaintenance = .allowed ↔
      (evaluate ctx current thermal gracePeriod).standardMaintenance = .allowed ∧
      ctx.charging = true ∧ 70 ≤ ctx.batteryPercent ∧ thermal = .normal ∧
      ctx.thermalSafe = true ∧ ctx.cpuLow = true ∧ ctx.ioLow = true := by
  change heavyMaintenance ctx thermal gracePeriod _ = .allowed ↔ _
  unfold heavyMaintenance
  by_cases hot : thermal = .hot
  · simp [hot]
  · rw [if_neg hot]
    constructor
    · intro allowed
      split at allowed
      · rename_i all
        obtain ⟨deep, passed, -⟩ := all
        have standard : (evaluate ctx current thermal
            gracePeriod).standardMaintenance = .allowed := passed
        obtain ⟨-, cool, elapsed, rested, -⟩ := standard_allowed_iff.mp standard
        rw [nextState_of_elapsed rested cool elapsed] at deep
        split at deep
        · rename_i met
          exact ⟨standard, met⟩
        · cases deep
      · cases allowed
    · rintro ⟨standard, met⟩
      obtain ⟨-, cool, elapsed, rested, -⟩ := standard_allowed_iff.mp standard
      have deep := nextState_of_elapsed rested cool elapsed
      rw [if_pos met] at deep
      rw [if_pos ⟨deep, standard, met.1, met.2.1, met.2.2.1⟩]

theorem standard_allowed_of_better (better : Better ctx ctx')
    (cooler : thermal'.level ≤ thermal.level)
    (allowed : (evaluate ctx current thermal gracePeriod).standardMaintenance = .allowed) :
    (evaluate ctx' current thermal' gracePeriod).standardMaintenance = .allowed := by
  rw [standard_allowed_iff] at allowed ⊢
  obtain ⟨hot, critical, elapsed, rested, charged, cpu, io⟩ := allowed
  have mild : thermal' ≠ .hot ∧ thermal' ≠ .critical := by
    cases thermal <;> cases thermal' <;> simp_all [ThermalHysteresisState.level]
  exact ⟨mild.1, mild.2, better.graceElapsed elapsed, better.rested rested,
    charged.trans better.battery, better.cpu.below cpu, better.io.below io⟩

theorem heavy_allowed_of_better (better : Better ctx ctx') (cooler : thermal'.level ≤ thermal.level)
    (allowed : (evaluate ctx current thermal gracePeriod).heavyMaintenance = .allowed) :
    (evaluate ctx' current thermal' gracePeriod).heavyMaintenance = .allowed := by
  rw [heavy_allowed_iff] at allowed ⊢
  obtain ⟨standard, plugged, full, rfl, safe, cpu, io⟩ := allowed
  have normal : thermal' = .normal := by
    cases thermal' <;> simp_all [ThermalHysteresisState.level]
  exact ⟨standard_allowed_of_better better cooler standard,
    better.charging plugged, full.trans better.battery, normal,
    better.temperature.below safe, better.cpu.below cpu, better.io.below io⟩

theorem score_le_of_better (better : Better ctx ctx') :
    (evaluate ctx current thermal gracePeriod).score ≤
      (evaluate ctx' current thermal' gracePeriod).score := by
  rw [score_evaluate, score_evaluate]
  have more : (IdlePositive.all.filter (ctx.earns gracePeriod)).Sublist
      (IdlePositive.all.filter (ctx'.earns gracePeriod)) :=
    List.monotone_filter_right _ fun _ => better.earns
  exact (more.map IdlePositive.weight).sum_le_sum (by simp)

theorem normal_or_warm_iff : thermal = .normal ∨ thermal = .warm ↔
      thermal ≠ .hot ∧ thermal ≠ .critical := by
  cases thermal <;> decide

/-- The gates are exact, the score is the sum of what it lists, and neither
goes down when a reading improves. -/
theorem gates_exact (ctx : IdleContext) (current : IdleState)
    (thermal : ThermalHysteresisState) (gracePeriod : Nat) :
    ((evaluate ctx current thermal gracePeriod).standardMaintenance = .allowed ↔
      (thermal = .normal ∨ thermal = .warm) ∧ ctx.screen = .off ∧
      gracePeriod ≤ ctx.screenOffDuration.getD 0 ∧ ctx.userActive = false ∧
      20 ≤ ctx.batteryPercent ∧ (∀ pct, ctx.cpuPsiPct.value = some pct → pct < 10) ∧
      ∀ pct, ctx.ioPsiPct.value = some pct → pct < 8) ∧
    ((evaluate ctx current thermal gracePeriod).heavyMaintenance = .allowed ↔
      (evaluate ctx current thermal gracePeriod).standardMaintenance = .allowed ∧
      ctx.charging = true ∧ 70 ≤ ctx.batteryPercent ∧ thermal = .normal ∧
      (∀ temp, ctx.thermalCelsius.value = some temp → temp < 40) ∧
      (∀ pct, ctx.cpuPsiPct.value = some pct → pct < 5) ∧
      ∀ pct, ctx.ioPsiPct.value = some pct → pct < 3) ∧
    (evaluate ctx current thermal gracePeriod).score =
      ((evaluate ctx current thermal gracePeriod).positives.map IdlePositive.weight).sum ∧
    (evaluate ctx current thermal gracePeriod).score ≤ 100 ∧
    ∀ (ctx' : IdleContext) (thermal' : ThermalHysteresisState),
      Better ctx ctx' → thermal'.level ≤ thermal.level →
      ((evaluate ctx current thermal gracePeriod).standardMaintenance = .allowed →
        (evaluate ctx' current thermal' gracePeriod).standardMaintenance = .allowed) ∧
      ((evaluate ctx current thermal gracePeriod).heavyMaintenance = .allowed →
        (evaluate ctx' current thermal' gracePeriod).heavyMaintenance = .allowed) ∧
      (evaluate ctx current thermal gracePeriod).score ≤
        (evaluate ctx' current thermal' gracePeriod).score := by
  refine ⟨?_, ?_, ?_, Nat.min_le_right _ _, ?_⟩
  · rw [standard_allowed_iff, graceElapsed_iff, below_iff, below_iff, normal_or_warm_iff]
    tauto
  · rw [heavy_allowed_iff, thermalSafe, cpuLow, ioLow, below_iff, below_iff, below_iff]
  · rw [score_evaluate, positives_evaluate]
  · intro ctx' thermal' better cooler
    exact ⟨standard_allowed_of_better better cooler,
      heavy_allowed_of_better better cooler, score_le_of_better better⟩

def resting : IdleContext where
  screen := .off
  screenOffDuration := some 300
  charging := true
  batteryPercent := 80
  cpuPsiPct := ⟨some 4, .available⟩
  ioPsiPct := ⟨none, .unsupported⟩
  thermalCelsius := ⟨some 42, .available⟩
  stationary := true
  userActive := false

theorem gates_exact_cooled : (evaluate resting .active .warm 300).standardMaintenance = .allowed ∧
    (evaluate { resting with thermalCelsius := ⟨some 30, .available⟩ } .active
      .normal 300).standardMaintenance = .allowed := by
  have warm : (evaluate resting .active .warm 300).standardMaintenance = .allowed := by decide
  have better : Better resting { resting with thermalCelsius := ⟨some 30, .available⟩ } := by
    constructor <;> norm_num [Lower, resting]
  have moves := (gates_exact resting .active .warm 300).2.2.2.2
    { resting with thermalCelsius := ⟨some 30, .available⟩ } .normal better (by decide)
  exact ⟨warm, moves.1 warm⟩

end IdlePolicy

end CacheCleaner
